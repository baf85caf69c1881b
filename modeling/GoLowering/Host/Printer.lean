import GoLowering.Host.Imports
import GoLowering.Text.Quoted

/-!
# Printing host trees

The text of a host file, laid out one statement per line and indented by tabs. A marker is
printed flush left on a line of its own right before its node.

Inside the header of an `if`, `for` or `switch` a composite literal of a named type stands in
parentheses, for its brace would open the body otherwise. The body of a function literal is
outside of the header again.
-/

namespace GoLowering.Printer

/-- How the nodes below the one in hand are printed. -/
structure Below where
  /-- An expression or a statement on one line; the flag says whether it is in a header. -/
  text : Bool → Nat → HostId → String
  /-- The lines of a statement. -/
  lines : Nat → HostId → List String

def commaSeparated (parts : List String) : String := String.intercalate ", " parts

def tabs (count : Nat) : String := String.ofList (List.replicate count '\t')

def line (indent : Nat) (text : String) : String := tabs indent ++ text

/-- Lines of a text, each ended by a line break. -/
def unlines (lines : List String) : String := String.join (lines.map (· ++ "\n"))

def parenthesized (text : String) : String := "(" ++ text ++ ")"

section

variable (file : HostFile)

def typeText (type : TypeId) : String := file.types.format type

def paramText (p : HostParam) : String :=
  match p.name with
  | some name => name ++ " " ++ typeText file p.type
  | none => typeText file p.type

/-- The last parameter of a variadic signature, written with dots when it is a slice. -/
def lastParamText (p : HostParam) : String :=
  let type :=
    match file.types.get p.type with
    | .slice element => "..." ++ typeText file element
    | _ => typeText file p.type
  match p.name with
  | some name => name ++ " " ++ type
  | none => type

/-- Parameters and results; a single result without a name stands without parentheses. -/
def signatureText (sig : HostSignature) : String :=
  let last := if sig.variadic then lastParamText file else paramText file
  let params := sig.params.dropLast.map (paramText file) ++ sig.params.getLast?.toList.map last
  let results :=
    match sig.results with
    | [] => ""
    | [⟨none, type⟩] => " " ++ typeText file type
    | results => " " ++ parenthesized (commaSeparated (results.map (paramText file)))
  parenthesized (commaSeparated params) ++ results

def isOperation : HostKind → Bool
  | .binary .. | .unary .. | .dereference _ => true
  | _ => false

/-- Whether a type needs parentheses where it is called or selected from. -/
def isOpenType (text : String) : Bool :=
  match text.toList with
  | '*' :: _ => true
  | 'f' :: 'u' :: 'n' :: 'c' :: _ => true
  | '<' :: '-' :: _ => true
  | _ => false

variable (below : Below)

/-- An operand of a selector, index, call or unary operator. -/
def postfixOperand (header : Bool) (indent : Nat) (id : HostId) : String :=
  let text := below.text header indent id
  match file.tree.kind id with
  | .binary .. | .unary .. | .dereference _ => parenthesized text
  | .typeExpression _ => if isOpenType text then parenthesized text else text
  | _ => text

/-- An operand of a binary operator. On the right side equal strength needs parentheses
too. -/
def binaryOperand (header : Bool) (indent : Nat) (parent : BinaryOp) (right : Bool)
    (id : HostId) : String :=
  let text := below.text header indent id
  match file.tree.kind id with
  | .binary child _ _ =>
    if child.precedence < parent.precedence ||
        (right && child.precedence == parent.precedence) then
      parenthesized text
    else text
  | _ => text

def listText (header : Bool) (indent : Nat) (ids : List HostId) : String :=
  commaSeparated (ids.map (below.text header indent))

def elementText (header : Bool) (indent : Nat) (e : HostElement) : String :=
  match e.key with
  | some key => below.text header indent key ++ ": " ++ below.text header indent e.value
  | none => below.text header indent e.value

def optionalText (header : Bool) (indent : Nat) (id : Option HostId) : String :=
  (id.map (below.text header indent)).getD ""

def valuesText (header : Bool) (indent : Nat) (keyword : String) (spec : HostValues) :
    String :=
  keyword ++ " " ++ commaSeparated spec.names ++
    (spec.type.map (fun type => " " ++ typeText file type)).getD "" ++
    (if spec.values.isEmpty then "" else " = " ++ listText below header indent spec.values)

/-- The statements of a body, one level further in. -/
def bodyLines (indent : Nat) (id : HostId) : List String :=
  (file.tree.statements id).flatMap (below.lines (indent + 1))

/-- The text of an expression or of a statement that fits on one line. Other statements have
none. -/
def inlineText (header : Bool) (indent : Nat) : HostKind → String
  | .identifier name => name
  | .qualified package name => packageName package ++ "." ++ name
  | .literal text => text
  | .composite type elements =>
    let text :=
      (type.map (typeText file)).getD "" ++ "\x7b" ++
        commaSeparated (elements.map (elementText below header indent)) ++ "\x7d"
    if header && type.any file.types.isNamed then parenthesized text else text
  | .functionLiteral signature body =>
    "func" ++ signatureText file signature ++ " \x7b\n" ++
      unlines (bodyLines file below indent body) ++ line indent "\x7d"
  | .call callee args spread =>
    postfixOperand file below header indent callee ++ "(" ++
      listText below header indent args ++ (if spread then "..." else "") ++ ")"
  | .selector object name => postfixOperand file below header indent object ++ "." ++ name
  | .index object i =>
    postfixOperand file below header indent object ++ "[" ++ below.text header indent i ++ "]"
  | .slice object low high max =>
    postfixOperand file below header indent object ++ "[" ++
      optionalText below header indent low ++ ":" ++ optionalText below header indent high ++
      (if max.isSome then ":" ++ optionalText below header indent max else "") ++ "]"
  | .typeAssert object type =>
    postfixOperand file below header indent object ++ "." ++
      parenthesized ((type.map (typeText file)).getD "type")
  | .dereference inner => "*" ++ postfixOperand file below header indent inner
  | .unary op operand => op.symbol ++ postfixOperand file below header indent operand
  | .binary op left right =>
    binaryOperand file below header indent op false left ++ " " ++ op.symbol ++ " " ++
      binaryOperand file below header indent op true right
  | .paren inner => parenthesized (below.text header indent inner)
  | .typeExpression type => typeText file type
  | .expression value => below.text header indent value
  | .assign lhs op rhs =>
    listText below header indent lhs ++ " " ++ op.symbol ++ " " ++
      listText below header indent rhs
  | .incDec target increment =>
    below.text header indent target ++ (if increment then "++" else "--")
  | .send channel value =>
    below.text header indent channel ++ " <- " ++ below.text header indent value
  | .varDecl spec => valuesText file below header indent "var" spec
  | .constDecl spec => valuesText file below header indent "const" spec
  | .go call => "go " ++ below.text header indent call
  | .defer call => "defer " ++ below.text header indent call
  | .ret [] => "return"
  | .ret values => "return " ++ listText below header indent values
  | .branch kind label => kind.keyword ++ (label.map (" " ++ ·)).getD ""
  | .typeDecl .. | .block _ | .ifElse .. | .loop .. | .range .. | .switch ..
  | .typeSwitch .. | .select _ | .labeled .. | .function _ => ""

/-- The lines of a documentation text. -/
def docLines (indent : Nat) (doc : Option String) : List String :=
  match doc with
  | none => []
  | some text =>
    let parts := Source.fields '\n' text.toList
    let chomp (cs : List Char) : List Char :=
      if cs.getLast? == some '\r' then cs.dropLast else cs
    let last := parts.getLast?.getD []
    (parts.dropLast.map chomp ++ (if last.isEmpty then [] else [last])).map
      (fun cs => line indent (String.ofList cs))

/-- A type declaration; fields and methods stand on lines of their own. -/
def typeDeclLines (indent : Nat) (name : String) (definition : TypeId) (isAlias : Bool) :
    List String :=
  let opening := "type " ++ name ++ (if isAlias then " = " else " ")
  match file.types.get definition with
  | .struct (field :: fields) =>
    [line indent (opening ++ "struct \x7b")] ++
      (field :: fields).map (fun f =>
        line (indent + 1) (TypeTable.fieldText (typeText file) f)) ++
      [line indent "\x7d"]
  | .interface (method :: methods) =>
    [line indent (opening ++ "interface \x7b")] ++
      (method :: methods).map (fun m =>
        line (indent + 1)
          (m.name ++ ((file.types.signature? m.sig).map file.types.formatSignature).getD "")) ++
      [line indent "\x7d"]
  | _ => [line indent (opening ++ typeText file definition)]

def functionLines (indent : Nat) (decl : HostFunction) : List String :=
  let receiver :=
    match decl.receiver with
    | some r => parenthesized (paramText file r) ++ " "
    | none => ""
  docLines indent decl.doc ++
    [line indent
      ("func " ++ receiver ++ decl.name ++ signatureText file decl.signature ++ " \x7b")] ++
    bodyLines file below indent decl.body ++ [line indent "\x7d"]

def ifHeader (indent : Nat) (init : Option HostId) (condition : HostId) : String :=
  "if " ++ (init.map (fun s => below.text true indent s ++ "; ")).getD "" ++
    below.text true indent condition ++ " \x7b"

def loopHeader (indent : Nat) : Option HostId → Option HostId → Option HostId → String
  | none, none, none => "for \x7b"
  | none, some condition, none => "for " ++ below.text true indent condition ++ " \x7b"
  | init, condition, post =>
    "for " ++ optionalText below true indent init ++ "; " ++
      optionalText below true indent condition ++ "; " ++
      (post.map (fun s => below.text true indent s ++ " ")).getD "" ++ "\x7b"

/-- Only the source of a range counts as a header. -/
def rangeHeader (indent : Nat) (key value : Option HostId) (define : Bool) (source : HostId) :
    String :=
  let op := if define then ":=" else "="
  let source := "range " ++ below.text true indent source ++ " \x7b"
  match key, value with
  | none, none => "for " ++ source
  | some key, none => "for " ++ below.text false indent key ++ " " ++ op ++ " " ++ source
  | key, some value =>
    "for " ++ (key.map (below.text false indent)).getD "_" ++ ", " ++
      below.text false indent value ++ " " ++ op ++ " " ++ source

def initText (indent : Nat) (init : Option HostId) : String :=
  (init.map (fun s => below.text true indent s ++ "; ")).getD ""

/-- A case label and the statements below it. -/
def caseLines (indent : Nat) (label : Option String) (body : List HostId) : List String :=
  let head :=
    match label with
    | some text => "case " ++ text ++ ":"
    | none => "default:"
  line indent head :: body.flatMap (below.lines (indent + 1))

def typeCaseText (types : List (Option TypeId)) : String :=
  commaSeparated (types.map (fun type => (type.map (typeText file)).getD "nil"))

/-- An `if` and the chain of its `else` branches; the first line continues one that ends in
`opening`. -/
def ifLines (opening : String) (indent : Nat) (init : Option HostId) (condition : HostId)
    (thenBranch : HostId) (elseLines : List String) : List String :=
  [line indent (opening ++ ifHeader below indent init condition)] ++
    bodyLines file below indent thenBranch ++ elseLines

/-- The lines of a statement, its marker left out. Branches of an `else` are given by the
lines that follow the body. -/
def statementLines (indent : Nat) (kind : HostKind) (elseLines : List String) : List String :=
  match kind with
  | .varDecl spec | .constDecl spec =>
    docLines indent spec.doc ++ [line indent (inlineText file below false indent kind)]
  | .typeDecl name definition isAlias doc =>
    docLines indent doc ++ typeDeclLines file indent name definition isAlias
  | .function decl => functionLines file below indent decl
  | .block statements =>
    [line indent "\x7b"] ++ statements.flatMap (below.lines (indent + 1)) ++
      [line indent "\x7d"]
  | .ifElse init condition thenBranch _ =>
    ifLines file below "" indent init condition thenBranch elseLines
  | .loop init condition post body =>
    [line indent (loopHeader below indent init condition post)] ++
      bodyLines file below indent body ++ [line indent "\x7d"]
  | .range key value define source body =>
    [line indent (rangeHeader below indent key value define source)] ++
      bodyLines file below indent body ++ [line indent "\x7d"]
  | .switch init tag cases =>
    let tag := (tag.map (fun t => below.text true indent t ++ " ")).getD ""
    [line indent ("switch " ++ initText below indent init ++ tag ++ "\x7b")] ++
      cases.flatMap (fun c =>
        caseLines below indent (c.values.map (listText below false indent)) c.body) ++
      [line indent "\x7d"]
  | .typeSwitch init binding subject cases =>
    let binding := (binding.map (· ++ " := ")).getD ""
    [line indent
      ("switch " ++ initText below indent init ++ binding ++
        postfixOperand file below true indent subject ++ ".(type) \x7b")] ++
      cases.flatMap (fun c =>
        caseLines below indent (c.types.map (typeCaseText file)) c.body) ++
      [line indent "\x7d"]
  | .select cases =>
    [line indent "select \x7b"] ++
      cases.flatMap (fun c =>
        caseLines below indent (c.comm.map (below.text false indent)) c.body) ++
      [line indent "\x7d"]
  | .labeled label body =>
    line (indent - 1) (label ++ ":") :: (body.map (below.lines indent)).getD []
  | kind => [line indent (inlineText file below false indent kind)]

def markerLines (id : HostId) : List String :=
  ((file.markers.lookup id).map (·.text)).toList

end

/-! ## The whole tree -/

mutual

/-- The text of a node on one line, at most `depth` levels deep. -/
def text (file : HostFile) : Nat → Bool → Nat → HostId → String
  | 0, _, _, _ => ""
  | depth + 1, header, indent, id =>
    inlineText file ⟨text file depth, lines file depth⟩ header indent (file.tree.kind id)

/-- The lines of a statement with its marker, at most `depth` levels deep. -/
def lines (file : HostFile) : Nat → Nat → HostId → List String
  | 0, _, _ => []
  | depth + 1, indent, id =>
    markerLines file id ++
      statementLines file ⟨text file depth, lines file depth⟩ indent (file.tree.kind id)
        (elseLines file depth indent (file.tree.kind id))

/-- What follows the body of an `if`: an `else` with another `if` goes on in the same line,
and has no marker. -/
def elseLines (file : HostFile) : Nat → Nat → HostKind → List String
  | 0, _, _ => []
  | depth + 1, indent, kind =>
    match kind with
    | .ifElse _ _ _ none => [line indent "\x7d"]
    | .ifElse _ _ _ (some branch) =>
      let below : Below := ⟨text file depth, lines file depth⟩
      match file.tree.kind branch with
      | .ifElse init condition thenBranch rest =>
        ifLines file below "\x7d else " indent init condition thenBranch
          (elseLines file depth indent (.ifElse init condition thenBranch rest))
      | _ =>
        [line indent "\x7d else \x7b"] ++ bodyLines file below indent branch ++
          [line indent "\x7d"]
    | _ => []

end

/-- No path through an acyclic tree is longer than the number of its nodes; a chain of
`else` branches takes two levels each. -/
def depthBound (file : HostFile) : Nat := 2 * file.tree.size + 2

def importLines (paths : List String) : List String :=
  match paths with
  | [] => []
  | [path] => ["import " ++ Quoted.quote path, ""]
  | paths => ["import ("] ++ paths.map (fun path => line 1 (Quoted.quote path)) ++ [")", ""]

def isFunction : HostKind → Bool
  | .function _ => true
  | _ => false

/-- The declarations of a group; a function is set off from what stands before it. -/
def groupLines (file : HostFile) (ids : List HostId) : List String :=
  let declaration (id : HostId) : List String := lines file (depthBound file) 0 id
  let separated (id : HostId) : List String :=
    if isFunction (file.tree.kind id) then "" :: declaration id else declaration id
  match ids with
  | [] => []
  | first :: rest => declaration first ++ rest.flatMap separated

/-- An empty line between groups. -/
def joinGroups (groups : List (List String)) : List String :=
  match groups with
  | [] => []
  | first :: rest => first ++ rest.flatMap ("" :: ·)

def fileLines (file : HostFile) : List String :=
  ["package " ++ file.package, ""] ++ importLines file.imports ++
    joinGroups ((file.groups.filter (!·.isEmpty)).map (groupLines file))

end Printer

/-- The text of a host file. -/
def HostFile.print (file : HostFile) : String :=
  Printer.unlines (Printer.fileLines file)

end GoLowering
