import GoLowering.Keyed
import GoLowering.Operator
import GoLowering.Source.Basic
import GoLowering.Types.Basic

/-!
# Host syntax

Trees of the host language. Nodes are kept in the order they are made and refer to each other
by position; a node made for a piece of source knows where that is.
-/

namespace GoLowering

/-- A node of a host tree, by position. -/
structure HostId where
  index : Nat
  deriving DecidableEq, Repr, Inhabited

structure HostParam where
  name : Option String
  type : TypeId
  deriving DecidableEq, Repr, Inhabited

structure HostSignature where
  params : List HostParam
  results : List HostParam
  variadic : Bool
  deriving DecidableEq, Repr, Inhabited

/-- An element of a composite literal. -/
structure HostElement where
  key : Option HostId
  value : HostId
  deriving DecidableEq, Repr, Inhabited

/-- A case of a switch; without values it is the default. -/
structure HostCase where
  values : Option (List HostId)
  body : List HostId
  deriving DecidableEq, Repr, Inhabited

/-- A case of a type switch; an absent type is `nil`. -/
structure HostTypeCase where
  types : Option (List (Option TypeId))
  body : List HostId
  deriving DecidableEq, Repr, Inhabited

/-- A case of a select; without a communication it is the default. -/
structure HostSelectCase where
  comm : Option HostId
  body : List HostId
  deriving DecidableEq, Repr, Inhabited

inductive BranchKind where
  | «break» | «continue» | goto | fallthrough
  deriving DecidableEq, Repr, Inhabited

namespace BranchKind

def keyword : BranchKind → String
  | «break» => "break" | «continue» => "continue" | goto => "goto"
  | fallthrough => "fallthrough"

def ofKeyword? (text : String) : Option BranchKind :=
  [«break», «continue», goto, fallthrough].find? (·.keyword == text)

end BranchKind

structure HostFunction where
  receiver : Option HostParam
  name : String
  signature : HostSignature
  body : HostId
  doc : Option String
  deriving DecidableEq, Repr, Inhabited

structure HostValues where
  names : List String
  type : Option TypeId
  values : List HostId
  doc : Option String
  deriving DecidableEq, Repr, Inhabited

/-- How an assignment combines the sides. -/
inductive AssignOp where
  | define
  | plain
  | compound (op : BinaryOp)
  deriving DecidableEq, Repr, Inhabited

namespace AssignOp

def symbol : AssignOp → String
  | define => ":="
  | plain => "="
  | compound op => op.symbol ++ "="

def all : List AssignOp := define :: plain :: BinaryOp.all.map compound

def ofSymbol? (text : String) : Option AssignOp := all.find? (·.symbol == text)

end AssignOp

inductive HostKind where
  | identifier (name : String)
  /-- A member of a package, by import path. -/
  | qualified (package name : String)
  | literal (text : String)
  /-- The type may be left out inside of another composite literal. -/
  | composite (type : Option TypeId) (elements : List HostElement)
  | functionLiteral (signature : HostSignature) (body : HostId)
  | call (callee : HostId) (args : List HostId) (spread : Bool)
  | selector (object : HostId) (name : String)
  | index (object index : HostId)
  | slice (object : HostId) (low high max : Option HostId)
  /-- Without a type it is the subject of a type switch. -/
  | typeAssert (object : HostId) (type : Option TypeId)
  | dereference (operand : HostId)
  | unary (op : UnaryOp) (operand : HostId)
  | binary (op : BinaryOp) (left right : HostId)
  | paren (inner : HostId)
  /-- A type where an expression stands. -/
  | typeExpression (type : TypeId)
  | expression (value : HostId)
  | assign (lhs : List HostId) (op : AssignOp) (rhs : List HostId)
  | incDec (target : HostId) (increment : Bool)
  | send (channel value : HostId)
  | varDecl (spec : HostValues)
  | constDecl (spec : HostValues)
  | typeDecl (name : String) (definition : TypeId) («alias» : Bool) (doc : Option String)
  | block (statements : List HostId)
  | ifElse (init : Option HostId) (condition : HostId) (thenBranch : HostId)
      (elseBranch : Option HostId)
  | loop (init condition post : Option HostId) (body : HostId)
  | range (key value : Option HostId) (define : Bool) (source body : HostId)
  | switch (init tag : Option HostId) (cases : List HostCase)
  | typeSwitch (init : Option HostId) (binding : Option String) (subject : HostId)
      (cases : List HostTypeCase)
  | select (cases : List HostSelectCase)
  | go (call : HostId)
  | defer (call : HostId)
  | ret (values : List HostId)
  | branch (kind : BranchKind) (label : Option String)
  /-- A label without a statement stands at the end of a block. -/
  | labeled (label : String) (body : Option HostId)
  | function (decl : HostFunction)
  deriving DecidableEq, Repr, Inhabited

structure HostNode where
  kind : HostKind
  /-- The source a node was made for; absent for scaffolding. -/
  origin : Option Span
  deriving DecidableEq, Repr, Inhabited

structure HostTree where
  nodes : Array HostNode
  deriving Inhabited

namespace HostTree

def empty : HostTree := ⟨#[]⟩

def size (tree : HostTree) : Nat := tree.nodes.size

def add (tree : HostTree) (kind : HostKind) (origin : Option Span) : HostId × HostTree :=
  (⟨tree.nodes.size⟩, ⟨tree.nodes.push ⟨kind, origin⟩⟩)

def get? (tree : HostTree) (id : HostId) : Option HostNode := tree.nodes[id.index]?

def kind (tree : HostTree) (id : HostId) : HostKind :=
  match tree.get? id with
  | some node => node.kind
  | none => .block []

def origin? (tree : HostTree) (id : HostId) : Option Span :=
  (tree.get? id).bind (·.origin)

/-- The statements of a block; any other node is a statement of its own. -/
def statements (tree : HostTree) (id : HostId) : List HostId :=
  match tree.kind id with
  | .block statements => statements
  | _ => [id]

end HostTree

/-- The place in the source of what follows in the output. -/
structure LineMarker where
  path : String
  line : Nat
  column : Option Nat
  deriving DecidableEq, Repr, Inhabited

def LineMarker.text (m : LineMarker) : String :=
  "//line " ++ m.path ++ ":" ++ toString m.line ++
    match m.column with
    | some column => ":" ++ toString column
    | none => ""

/-- Markers by the node they stand before. -/
abbrev Markers := Keyed HostId LineMarker

namespace Markers

/-- The markers in the order of their nodes. -/
def sorted (markers : Markers) : Markers :=
  markers.mergeSort (fun a b => a.1.index ≤ b.1.index)

/-- One line per marker: the number of the node, right-aligned, and the marker. -/
def table (markers : Markers) : String :=
  String.join (markers.sorted.map (fun (id, marker) =>
    Sources.padLeft 6 (toString id.index) ++ " " ++ marker.text ++ "\n"))

end Markers

/-- A lowered unit: its declarations in the order of the output, by group. -/
structure HostFile where
  package : String
  tree : HostTree
  types : TypeTable
  typeDecls : List HostId
  valueDecls : List HostId
  functionDecls : List HostId
  markers : Markers
  deriving Inhabited

namespace HostFile

def groups (file : HostFile) : List (List HostId) :=
  [file.typeDecls, file.valueDecls, file.functionDecls]

def declarations (file : HostFile) : List HostId := file.groups.flatten

/-- The names that one node declares at the top level. -/
def namesOf : HostKind → List String
  | .typeDecl name _ _ _ => [name]
  | .varDecl spec | .constDecl spec => spec.names
  | .function decl => [decl.name]
  | _ => []

def declarationNames (file : HostFile) : List String :=
  file.declarations.flatMap (fun id => namesOf (file.tree.kind id))

end HostFile

end GoLowering
