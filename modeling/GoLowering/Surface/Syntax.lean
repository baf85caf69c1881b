import GoLowering.Host.Syntax

/-!
# Surface syntax

The trees that units come as. Expressions, statements and types share one arena, and a node
refers to others by position; nothing is promised about the sort of a node referred to.
-/

namespace GoLowering.Surface

/-- A node of a surface unit, by position. -/
structure NodeId where
  index : Nat
  deriving DecidableEq, Repr, Inhabited

inductive LiteralKind where
  | int | float | imaginary | rune | string
  /-- An integer of unbounded size, written with the suffix `r`. -/
  | bigInt
  deriving DecidableEq, Repr, Inhabited

namespace LiteralKind

def name : LiteralKind → String
  | int => "int" | float => "float" | imaginary => "imag" | rune => "rune"
  | string => "string" | bigInt => "bigint"

def ofName? (text : String) : Option LiteralKind :=
  [int, float, imaginary, rune, string, bigInt].find? (·.name == text)

end LiteralKind

/-- An element of a literal; the key is a field name, a map key or an index. -/
structure Element where
  key : Option NodeId
  value : NodeId
  deriving DecidableEq, Repr, Inhabited

inductive LambdaBody where
  | expressions (values : List NodeId)
  | block (body : NodeId)
  deriving DecidableEq, Repr, Inhabited

/-- One `key, value <- source, guard` clause; the init runs before the guard. -/
structure ForClause where
  key : Option String
  value : Option String
  source : NodeId
  init : Option NodeId
  guard : Option NodeId
  deriving DecidableEq, Repr, Inhabited

/-- What a comprehension makes of the combinations that pass its guards. -/
inductive Yield where
  | list (value : NodeId)
  | map (key value : NodeId)
  | existence
  | select (value : NodeId)
  deriving DecidableEq, Repr, Inhabited

/-- What is done about the error of a wrapped call. -/
inductive WrapPolicy where
  | raise
  | propagate
  /-- Without a default the zero value stands in. -/
  | fallback (default : Option NodeId)
  deriving DecidableEq, Repr, Inhabited

inductive Expr where
  | identifier (name : String)
  /-- The text keeps the quotes of strings and runes, but has no suffix. -/
  | literal (kind : LiteralKind) (text : String)
  | composite (type : Option NodeId) (elements : List Element)
  | sliceLiteral (elements : List Element)
  | grouping (inner : NodeId)
  | member (object : NodeId) (name : String)
  | index (object index : NodeId)
  | slice (object : NodeId) (low high max : Option NodeId)
  /-- Without a type it is the subject of a type switch. -/
  | typeAssertion (object : NodeId) (type : Option NodeId)
  | call (callee : NodeId) (args : List NodeId) (spread : Bool)
  /-- A call written without parentheses. -/
  | command (head : NodeId) (args : List NodeId)
  /-- Either a command with a signed argument or a binary operation. -/
  | ambiguousCommand (head : NodeId) (op : UnaryOp) (operand : NodeId)
  | dereference (inner : NodeId)
  | unary (op : UnaryOp) (operand : NodeId)
  | binary (op : BinaryOp) (left right : NodeId)
  | functionLiteral (signature body : NodeId)
  | lambda (params : List String) (body : LambdaBody)
  | comprehension (yields : Yield) (clauses : List ForClause)
  | errorWrap (inner : NodeId) (policy : WrapPolicy)
  deriving DecidableEq, Repr, Inhabited

structure ValueSpec where
  names : List String
  type : Option NodeId
  values : List NodeId
  doc : Option String
  deriving DecidableEq, Repr, Inhabited

structure Receiver where
  name : Option String
  /-- The type without the star. -/
  type : NodeId
  pointer : Bool
  deriving DecidableEq, Repr, Inhabited

structure FunctionDecl where
  receiver : Option Receiver
  name : String
  signature : NodeId
  body : Option NodeId
  doc : Option String
  deriving DecidableEq, Repr, Inhabited

/-- A case of a switch or a type switch. -/
structure CaseClause where
  values : List NodeId
  isDefault : Bool
  body : List NodeId
  deriving DecidableEq, Repr, Inhabited

structure SelectClause where
  comm : Option NodeId
  body : List NodeId
  deriving DecidableEq, Repr, Inhabited

inductive Stmt where
  | expression (value : NodeId)
  | assign (lhs : List NodeId) (op : AssignOp) (rhs : List NodeId)
  | incDec (target : NodeId) (increment : Bool)
  | send (channel value : NodeId)
  | varDecl (spec : ValueSpec)
  | constDecl (spec : ValueSpec)
  | typeDecl (name : String) (type : NodeId) (isAlias : Bool) (doc : Option String)
  | function (decl : FunctionDecl)
  | importPackage (path : String) (localName : Option String)
  | block (statements : List NodeId)
  | ifElse (init : Option NodeId) (condition thenBlock : NodeId) (elseBranch : Option NodeId)
  | loop (init condition post : Option NodeId) (body : NodeId)
  | range (key value : Option NodeId) (define : Bool) (source body : NodeId)
  | forPhrase (clause : ForClause) (body : NodeId)
  | switch (init tag : Option NodeId) (clauses : List CaseClause)
  | typeSwitch (init : Option NodeId) (binding : Option String) (subject : NodeId)
      (clauses : List CaseClause)
  | select (clauses : List SelectClause)
  | go (call : NodeId)
  | defer (call : NodeId)
  | ret (values : List NodeId)
  | branch (kind : BranchKind) (label : Option String)
  | labeled (label : String) (body : NodeId)
  deriving DecidableEq, Repr, Inhabited

structure Param where
  name : Option String
  type : NodeId
  deriving DecidableEq, Repr, Inhabited

/-- A field; without a name it is embedded. -/
structure FieldSpec where
  name : Option String
  type : NodeId
  tag : Option String
  deriving DecidableEq, Repr, Inhabited

structure MethodSpec where
  name : String
  signature : NodeId
  deriving DecidableEq, Repr, Inhabited

inductive TypeExpr where
  | named (package : Option String) (name : String)
  | pointer (target : NodeId)
  | slice (element : NodeId)
  /-- Without a length it is counted from the elements of a literal. -/
  | array (length : Option NodeId) (element : NodeId)
  | map (key value : NodeId)
  | chan (dir : ChanDir) (element : NodeId)
  /-- The type of a variadic parameter is the one of its elements. -/
  | func (params results : List Param) (variadic : Bool)
  | struct (fields : List FieldSpec)
  | interface (methods : List MethodSpec)
  deriving DecidableEq, Repr, Inhabited

inductive NodeKind where
  | expr (e : Expr)
  | stmt (s : Stmt)
  | type (t : TypeExpr)
  deriving DecidableEq, Repr, Inhabited

structure Node where
  kind : NodeKind
  span : Span
  deriving DecidableEq, Repr, Inhabited

/-- One source file: its nodes, and its top-level statements in the order of the source. -/
structure SourceUnit where
  nodes : Array Node
  roots : List NodeId
  file : FileId
  package : String
  deriving Inhabited

namespace SourceUnit

def get? (unit : SourceUnit) (id : NodeId) : Option Node := unit.nodes[id.index]?

def span (unit : SourceUnit) (id : NodeId) : Span :=
  match unit.get? id with
  | some node => node.span
  | none => .synthetic

def expr? (unit : SourceUnit) (id : NodeId) : Option Expr :=
  match unit.get? id with
  | some ⟨.expr e, _⟩ => some e
  | _ => none

def stmt? (unit : SourceUnit) (id : NodeId) : Option Stmt :=
  match unit.get? id with
  | some ⟨.stmt s, _⟩ => some s
  | _ => none

def type? (unit : SourceUnit) (id : NodeId) : Option TypeExpr :=
  match unit.get? id with
  | some ⟨.type t, _⟩ => some t
  | _ => none

/-- The name of a bare identifier. -/
def identifier? (unit : SourceUnit) (id : NodeId) : Option String :=
  match unit.expr? id with
  | some (.identifier name) => some name
  | _ => none

end SourceUnit

end GoLowering.Surface
