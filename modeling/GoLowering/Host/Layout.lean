import GoLowering.Host.Printer

/-!
# Layout of printed files

The text of a file in pieces that tell what they stand for: the name of a package, the place where
a declaration or a statement begins, and text that tells nothing more. The pieces depend on the
tree and its types only; spelled with the markers of a file they are the text of the file.
-/

namespace GoLowering

inductive Piece where
  | plain (text : String)
  /-- The name of a package, by import path. -/
  | package (path : String)
  /-- The begin of a declaration or a statement, where its marker stands. -/
  | opening (id : HostId)
  deriving DecidableEq, Repr, Inhabited

namespace Piece

def text (markers : Markers) : Piece → String
  | plain text => text
  | package path => packageName path
  | opening id =>
    match markers.lookup id with
    | some marker => marker.text ++ "\n"
    | none => ""

/-- The text of pieces, with markers where declarations and statements begin. -/
def spell (markers : Markers) : List Piece → String
  | [] => ""
  | piece :: rest => piece.text markers ++ spell markers rest

/-- The declarations and statements that begin in some pieces, in the order of the text. -/
def openings (pieces : List Piece) : List HostId :=
  pieces.flatMap (fun
    | opening id => [id]
    | _ => [])

end Piece

namespace Layout

open Piece (spell)

def say (text : String) : List Piece := [.plain text]

def separated (separator : String) (parts : List (List Piece)) : List Piece :=
  List.intercalate (say separator) parts

def parenthesized (pieces : List Piece) : List Piece := say "(" ++ pieces ++ say ")"

def line (indent : Nat) (pieces : List Piece) : List Piece :=
  say (Printer.tabs indent) ++ pieces ++ say "\n"

/-- The name of something that a package may own. -/
def member (package : Option String) (name : String) : List Piece :=
  match package with
  | some path => [.package path, .plain ("." ++ name)]
  | none => say name

/-! ## Types -/

section

variable (types : TypeTable) (text : TypeId → List Piece)

/-- The only basic type that a package owns is `unsafe.Pointer`. -/
def basicType (kind : BasicType) : List Piece :=
  if kind = .unsafePointer then member (some "unsafe") "Pointer" else say kind.name

/-- The last parameter of a signature. -/
def lastType (variadic : Bool) (id : TypeId) : List Piece :=
  match types.get id with
  | .slice element => if variadic then say "..." ++ text element else text id
  | _ => text id

def resultTypes : List TypeId → List Piece
  | [] => []
  | [single] => say " " ++ text single
  | several => say " " ++ parenthesized (separated ", " (several.map text))

def typeSignature (sig : Signature) : List Piece :=
  parenthesized (separated ", "
    (sig.params.dropLast.map text ++
      sig.params.getLast?.toList.map (lastType types text sig.variadic))) ++
    resultTypes text sig.results

def fieldPieces (field : Field) : List Piece :=
  (if field.embedded then [] else say (field.name ++ " ")) ++ text field.type ++
    match field.tag with
    | some tag => say (" `" ++ tag ++ "`")
    | none => []

def methodPieces (method : InterfaceMethod) : List Piece :=
  say method.name ++ ((types.signature? method.sig).map (typeSignature types text)).getD []

/-- The pieces of one entry, given those of the types it mentions. -/
def typeEntry : Ty → List Piece
  | .basic kind => basicType kind
  | .named package name _ => member package name
  | .pointer target => say "*" ++ text target
  | .slice element => say "[]" ++ text element
  | .array element length => say ("[" ++ toString length ++ "]") ++ text element
  | .map key value => say "map[" ++ text key ++ say "]" ++ text value
  | .chan element dir =>
    say (match dir with
      | .both => "chan "
      | .send => "chan<- "
      | .recv => "<-chan ") ++ text element
  | .func sig => say "func" ++ typeSignature types text sig
  | .struct [] => say "struct\x7b\x7d"
  | .struct fields =>
    say "struct\x7b " ++ separated "; " (fields.map (fieldPieces text)) ++ say " \x7d"
  | .interface [] => say "interface\x7b\x7d"
  | .interface methods =>
    say "interface\x7b " ++ separated "; " (methods.map (methodPieces types text)) ++ say " \x7d"
  | .tuple elements => parenthesized (separated ", " (elements.map text))
  | .invalid => say "invalid type"

end

def typeWithin (types : TypeTable) : Nat → TypeId → List Piece
  | 0, _ => []
  | depth + 1, id => typeEntry types (typeWithin types depth) (types.get id)

/-- The pieces of a type in host source. -/
def type (types : TypeTable) (id : TypeId) : List Piece := typeWithin types types.depthBound id

/-! ## Expressions and statements on one line -/

/-- How the nodes below the one in hand are laid out. -/
structure Below where
  text : Bool → Nat → HostId → List Piece
  lines : Nat → HostId → List Piece

section

variable (tree : HostTree) (types : TypeTable)

def param (p : HostParam) : List Piece :=
  match p.name with
  | some name => say (name ++ " ") ++ type types p.type
  | none => type types p.type

/-- The last parameter of a variadic signature. -/
def lastParam (p : HostParam) : List Piece :=
  let text :=
    match types.get p.type with
    | .slice element => say "..." ++ type types element
    | _ => type types p.type
  match p.name with
  | some name => say (name ++ " ") ++ text
  | none => text

def results : List HostParam → List Piece
  | [] => []
  | [⟨none, single⟩] => say " " ++ type types single
  | several => say " " ++ parenthesized (separated ", " (several.map (param types)))

def signature (sig : HostSignature) : List Piece :=
  let last := if sig.variadic then lastParam types else param types
  parenthesized (separated ", "
    (sig.params.dropLast.map (param types) ++ sig.params.getLast?.toList.map last)) ++
    results types sig.results

variable (below : Below)

/-- An operand of a selector, index, call or unary operator. -/
def postfixOperand (header : Bool) (indent : Nat) (id : HostId) : List Piece :=
  let text := below.text header indent id
  match tree.kind id with
  | .binary .. | .unary .. | .dereference _ => parenthesized text
  | .typeExpression _ =>
    if Printer.isOpenType (spell [] text) then parenthesized text else text
  | _ => text

def binaryOperand (header : Bool) (indent : Nat) (parent : BinaryOp) (right : Bool)
    (id : HostId) : List Piece :=
  let text := below.text header indent id
  match tree.kind id with
  | .binary child _ _ =>
    if child.precedence < parent.precedence ||
        (right && child.precedence == parent.precedence) then
      parenthesized text
    else text
  | _ => text

def list (header : Bool) (indent : Nat) (ids : List HostId) : List Piece :=
  separated ", " (ids.map (below.text header indent))

def element (header : Bool) (indent : Nat) (e : HostElement) : List Piece :=
  match e.key with
  | some key => below.text header indent key ++ say ": " ++ below.text header indent e.value
  | none => below.text header indent e.value

def optional (header : Bool) (indent : Nat) (id : Option HostId) : List Piece :=
  (id.map (below.text header indent)).getD []

def values (header : Bool) (indent : Nat) (keyword : String) (spec : HostValues) : List Piece :=
  say (keyword ++ " " ++ Printer.commaSeparated spec.names) ++
    (spec.type.map (fun id => say " " ++ type types id)).getD [] ++
    (if spec.values.isEmpty then [] else say " = " ++ list below header indent spec.values)

/-- The statements of a body, one level further in. -/
def body (indent : Nat) (id : HostId) : List Piece :=
  (tree.statements id).flatMap (below.lines (indent + 1))

/-- An expression or a statement that fits on one line. -/
def inline (header : Bool) (indent : Nat) : HostKind → List Piece
  | .identifier name => say name
  | .qualified package name => member (some package) name
  | .literal text => say text
  | .composite typed elements =>
    let text :=
      (typed.map (type types)).getD [] ++ say "\x7b" ++
        separated ", " (elements.map (element below header indent)) ++ say "\x7d"
    if header && typed.any types.isNamed then parenthesized text else text
  | .functionLiteral sig inner =>
    say "func" ++ signature types sig ++ say " \x7b\n" ++ body tree below indent inner ++
      say (Printer.line indent "\x7d")
  | .call callee args spread =>
    postfixOperand tree below header indent callee ++ say "(" ++ list below header indent args ++
      say (if spread then "..." else "") ++ say ")"
  | .selector object name => postfixOperand tree below header indent object ++ say ("." ++ name)
  | .index object i =>
    postfixOperand tree below header indent object ++ say "[" ++ below.text header indent i ++
      say "]"
  | .slice object low high max =>
    postfixOperand tree below header indent object ++ say "[" ++
      optional below header indent low ++ say ":" ++ optional below header indent high ++
      (if max.isSome then say ":" ++ optional below header indent max else []) ++ say "]"
  | .typeAssert object typed =>
    postfixOperand tree below header indent object ++ say "." ++
      parenthesized ((typed.map (type types)).getD (say "type"))
  | .dereference inner => say "*" ++ postfixOperand tree below header indent inner
  | .unary op operand => say op.symbol ++ postfixOperand tree below header indent operand
  | .binary op left right =>
    binaryOperand tree below header indent op false left ++ say (" " ++ op.symbol ++ " ") ++
      binaryOperand tree below header indent op true right
  | .paren inner => parenthesized (below.text header indent inner)
  | .typeExpression id => type types id
  | .expression value => below.text header indent value
  | .assign lhs op rhs =>
    list below header indent lhs ++ say (" " ++ op.symbol ++ " ") ++ list below header indent rhs
  | .incDec target increment =>
    below.text header indent target ++ say (if increment then "++" else "--")
  | .send channel value =>
    below.text header indent channel ++ say " <- " ++ below.text header indent value
  | .varDecl spec => values types below header indent "var" spec
  | .constDecl spec => values types below header indent "const" spec
  | .go call => say "go " ++ below.text header indent call
  | .defer call => say "defer " ++ below.text header indent call
  | .ret [] => say "return"
  | .ret results => say "return " ++ list below header indent results
  | .branch kind label => say (kind.keyword ++ (label.map (" " ++ ·)).getD "")
  | .typeDecl .. | .block _ | .ifElse .. | .loop .. | .range .. | .switch ..
  | .typeSwitch .. | .select _ | .labeled .. | .function _ => []

/-! ## Statements -/

def doc (indent : Nat) (text : Option String) : List Piece :=
  say (Printer.unlines (Printer.docLines indent text))

/-- A type declaration; fields and methods stand on lines of their own. -/
def typeDecl (indent : Nat) (name : String) (definition : TypeId) (isAlias : Bool) :
    List Piece :=
  let opening := say ("type " ++ name ++ (if isAlias then " = " else " "))
  match types.get definition with
  | .struct (field :: fields) =>
    line indent (opening ++ say "struct \x7b") ++
      (field :: fields).flatMap (fun f => line (indent + 1) (fieldPieces (type types) f)) ++
      line indent (say "\x7d")
  | .interface (method :: methods) =>
    line indent (opening ++ say "interface \x7b") ++
      (method :: methods).flatMap (fun m =>
        line (indent + 1) (methodPieces types (type types) m)) ++
      line indent (say "\x7d")
  | _ => line indent (opening ++ type types definition)

def function (indent : Nat) (decl : HostFunction) : List Piece :=
  let receiver :=
    match decl.receiver with
    | some r => parenthesized (param types r) ++ say " "
    | none => []
  doc indent decl.doc ++
    line indent
      (say "func " ++ receiver ++ say decl.name ++ signature types decl.signature ++
        say " \x7b") ++
    body tree below indent decl.body ++ line indent (say "\x7d")

/-- What comes before the rest of a header. -/
def initial (indent : Nat) (init : Option HostId) : List Piece :=
  (init.map (fun s => below.text true indent s ++ say "; ")).getD []

def ifHeader (indent : Nat) (init : Option HostId) (condition : HostId) : List Piece :=
  say "if " ++ initial below indent init ++ below.text true indent condition ++ say " \x7b"

def loopHeader (indent : Nat) : Option HostId → Option HostId → Option HostId → List Piece
  | none, none, none => say "for \x7b"
  | none, some condition, none => say "for " ++ below.text true indent condition ++ say " \x7b"
  | init, condition, post =>
    say "for " ++ optional below true indent init ++ say "; " ++
      optional below true indent condition ++ say "; " ++
      (post.map (fun s => below.text true indent s ++ say " ")).getD [] ++ say "\x7b"

def rangeHeader (indent : Nat) (key value : Option HostId) (define : Bool) (source : HostId) :
    List Piece :=
  let op := if define then ":=" else "="
  let source := say "range " ++ below.text true indent source ++ say " \x7b"
  match key, value with
  | none, none => say "for " ++ source
  | some key, none =>
    say "for " ++ below.text false indent key ++ say (" " ++ op ++ " ") ++ source
  | key, some value =>
    say "for " ++ (key.map (below.text false indent)).getD (say "_") ++ say ", " ++
      below.text false indent value ++ say (" " ++ op ++ " ") ++ source

/-- A case label and the statements below it. -/
def caseLines (indent : Nat) (label : Option (List Piece)) (body : List HostId) : List Piece :=
  let head :=
    match label with
    | some text => say "case " ++ text ++ say ":"
    | none => say "default:"
  line indent head ++ body.flatMap (below.lines (indent + 1))

def typeCase (typed : List (Option TypeId)) : List Piece :=
  separated ", " (typed.map (fun id => (id.map (type types)).getD (say "nil")))

/-- An `if` and what follows its body. -/
def ifLines (opening : String) (indent : Nat) (init : Option HostId) (condition : HostId)
    (thenBranch : HostId) (rest : List Piece) : List Piece :=
  line indent (say opening ++ ifHeader below indent init condition) ++
    body tree below indent thenBranch ++ rest

/-- A statement, its marker left out. What follows the body of an `if` is given. -/
def statement (indent : Nat) (kind : HostKind) (rest : List Piece) : List Piece :=
  match kind with
  | .varDecl spec | .constDecl spec =>
    doc indent spec.doc ++ line indent (inline tree types below false indent kind)
  | .typeDecl name definition isAlias text =>
    doc indent text ++ typeDecl types indent name definition isAlias
  | .function decl => function tree types below indent decl
  | .block statements =>
    line indent (say "\x7b") ++ statements.flatMap (below.lines (indent + 1)) ++
      line indent (say "\x7d")
  | .ifElse init condition thenBranch _ =>
    ifLines tree below "" indent init condition thenBranch rest
  | .loop init condition post inner =>
    line indent (loopHeader below indent init condition post) ++
      body tree below indent inner ++ line indent (say "\x7d")
  | .range key value define source inner =>
    line indent (rangeHeader below indent key value define source) ++
      body tree below indent inner ++ line indent (say "\x7d")
  | .switch init tag cases =>
    let tag := (tag.map (fun t => below.text true indent t ++ say " ")).getD []
    line indent (say "switch " ++ initial below indent init ++ tag ++ say "\x7b") ++
      cases.flatMap (fun c =>
        caseLines below indent (c.values.map (list below false indent)) c.body) ++
      line indent (say "\x7d")
  | .typeSwitch init binding subject cases =>
    let binding := say ((binding.map (· ++ " := ")).getD "")
    line indent
      (say "switch " ++ initial below indent init ++ binding ++
        postfixOperand tree below true indent subject ++ say ".(type) \x7b") ++
      cases.flatMap (fun c => caseLines below indent (c.types.map (typeCase types)) c.body) ++
      line indent (say "\x7d")
  | .select cases =>
    line indent (say "select \x7b") ++
      cases.flatMap (fun c =>
        caseLines below indent (c.comm.map (below.text false indent)) c.body) ++
      line indent (say "\x7d")
  | .labeled label inner =>
    line (indent - 1) (say (label ++ ":")) ++ (inner.map (below.lines indent)).getD []
  | kind => line indent (inline tree types below false indent kind)

end

/-! ## The whole tree -/

mutual

/-- A node on one line, at most `depth` levels deep. -/
def text (tree : HostTree) (types : TypeTable) : Nat → Bool → Nat → HostId → List Piece
  | 0, _, _, _ => []
  | depth + 1, header, indent, id =>
    inline tree types ⟨text tree types depth, lines tree types depth⟩ header indent
      (tree.kind id)

/-- A statement with its marker, at most `depth` levels deep. -/
def lines (tree : HostTree) (types : TypeTable) : Nat → Nat → HostId → List Piece
  | 0, _, _ => []
  | depth + 1, indent, id =>
    .opening id ::
      statement tree types ⟨text tree types depth, lines tree types depth⟩ indent
        (tree.kind id) (elseLines tree types depth indent (tree.kind id))

/-- What follows the body of an `if`. -/
def elseLines (tree : HostTree) (types : TypeTable) : Nat → Nat → HostKind → List Piece
  | 0, _, _ => []
  | depth + 1, indent, kind =>
    match kind with
    | .ifElse _ _ _ none => line indent (say "\x7d")
    | .ifElse _ _ _ (some branch) =>
      let below : Below := ⟨text tree types depth, lines tree types depth⟩
      match tree.kind branch with
      | .ifElse init condition thenBranch rest =>
        ifLines tree below "\x7d else " indent init condition thenBranch
          (elseLines tree types depth indent (.ifElse init condition thenBranch rest))
      | _ =>
        line indent (say "\x7d else \x7b") ++ body tree below indent branch ++
          line indent (say "\x7d")
    | _ => []

end

/-- The declarations of a group. -/
def group (tree : HostTree) (types : TypeTable) (depth : Nat) (ids : List HostId) :
    List Piece :=
  let separated (id : HostId) : List Piece :=
    if Printer.isFunction (tree.kind id) then say "\n" ++ lines tree types depth 0 id
    else lines tree types depth 0 id
  match ids with
  | [] => []
  | first :: rest => lines tree types depth 0 first ++ rest.flatMap separated

def joinGroups (groups : List (List Piece)) : List Piece :=
  match groups with
  | [] => []
  | first :: rest => first ++ rest.flatMap (say "\n" ++ ·)

end Layout

namespace HostFile

/-- The declarations of a file. -/
def declarationPieces (file : HostFile) : List Piece :=
  Layout.joinGroups ((file.groups.filter (!·.isEmpty)).map
    (Layout.group file.tree file.types (Printer.depthBound file)))

/-- What stands before the declarations of a file. -/
def preamble (file : HostFile) : String :=
  Printer.unlines (["package " ++ file.package, ""] ++ Printer.importLines file.imports)

end HostFile

end GoLowering
