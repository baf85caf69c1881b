import GoLowering.Host.Layout

/-!
# Nesting of printed files

The text of a file with what it is nested in: the headers of statements, the bodies of function
literals, and the composite literals of named types, which are the ones that may have parentheses of
their own. Nothing is passed down here to tell a header from the rest. Spelled out, each literal has
parentheses or not by the regions around it (`Markup.spell`); written out, by a flag that is set for
a header and put back behind it (`Markup.write`).
-/

namespace GoLowering

/-- What text may be nested in. -/
inductive Region where
  /-- The header of an `if`, a `for`, a `switch` or a type switch, or the source of a range. -/
  | header
  /-- The body of a function literal. -/
  | closure
  /-- A composite literal of a named type. -/
  | literal
  deriving DecidableEq, Repr, Inhabited

/-- Whether some regions, the innermost first, are in a header: there is one among them, and no body
of a function literal in it. -/
def InHeader (outer : List Region) : Prop :=
  ∃ within around, outer = within ++ .header :: around ∧ .closure ∉ within

theorem not_inHeader_nil : ¬InHeader [] := by
  rintro ⟨within, around, h, -⟩
  simp at h

theorem inHeader_header (outer : List Region) : InHeader (.header :: outer) :=
  ⟨[], outer, rfl, List.not_mem_nil⟩

theorem not_inHeader_closure (outer : List Region) : ¬InHeader (.closure :: outer) := by
  rintro ⟨within, around, h, hclosure⟩
  cases within with
  | nil => simp at h
  | cons region within =>
    obtain ⟨rfl, -⟩ := List.cons.inj h
    exact hclosure List.mem_cons_self

theorem inHeader_literal {outer : List Region} : InHeader (.literal :: outer) ↔ InHeader outer := by
  constructor
  · rintro ⟨within, around, h, hclosure⟩
    cases within with
    | nil => simp at h
    | cons region within =>
      obtain ⟨-, rfl⟩ := List.cons.inj h
      exact ⟨within, around, rfl, fun hmem => hclosure (List.mem_cons_of_mem _ hmem)⟩
  · rintro ⟨within, around, rfl, hclosure⟩
    exact ⟨.literal :: within, around, rfl, by simpa using hclosure⟩

instance decidableInHeader : (outer : List Region) → Decidable (InHeader outer)
  | [] => .isFalse not_inHeader_nil
  | .header :: outer => .isTrue (inHeader_header outer)
  | .closure :: outer => .isFalse (not_inHeader_closure outer)
  | .literal :: outer =>
    have := decidableInHeader outer
    decidable_of_iff _ inHeader_literal.symm

/-- Text with the regions in it. -/
inductive Markup where
  | plain (text : String)
  | beside (first second : Markup)
  | within (region : Region) (inner : Markup)
  deriving Repr, Inhabited

namespace Markup

instance : Append Markup := ⟨beside⟩

/-- The text in some regions, the innermost first. A literal has parentheses just in case the
regions around it are in a header. -/
def spell (outer : List Region) : Markup → String
  | plain text => text
  | beside first second => spell outer first ++ spell outer second
  | within .literal inner =>
    if InHeader outer then Printer.parenthesized (spell (.literal :: outer) inner)
    else spell (.literal :: outer) inner
  | within region inner => spell (region :: outer) inner

/-- The text once more, with a flag that says whether literals get parentheses. A header sets the
flag and puts the former one back; the body of a function literal has a flag of its own. -/
def write : Markup → StateM Bool String
  | plain text => pure text
  | beside first second => do
    let before ← write first
    let after ← write second
    pure (before ++ after)
  | within .header inner => do
    let outer ← get
    set true
    let text ← write inner
    set outer
    pure text
  | within .closure inner => pure ((write inner).run' false)
  | within .literal inner => do
    let text ← write inner
    if ← get then pure (Printer.parenthesized text) else pure text

end Markup

namespace Nesting

def say (text : String) : Markup := .plain text

def all (parts : List Markup) : Markup := parts.foldr (· ++ ·) (say "")

def separated (separator : String) : List Markup → Markup
  | [] => say ""
  | [part] => part
  | part :: rest => part ++ say separator ++ separated separator rest

def parenthesized (inner : Markup) : Markup := say "(" ++ inner ++ say ")"

def line (indent : Nat) (inner : Markup) : Markup :=
  say (Printer.tabs indent) ++ inner ++ say "\n"

def sayLines (lines : List String) : Markup := say (Printer.unlines lines)

/-! ## Expressions and statements on one line -/

/-- How the nodes below the one in hand are set. -/
structure Below where
  text : Nat → HostId → Markup
  lines : Nat → HostId → Markup

section

variable (file : HostFile) (below : Below)

/-- An operand of a selector, index, call or unary operator. -/
def postfixOperand (indent : Nat) (id : HostId) : Markup :=
  let text := below.text indent id
  match file.tree.kind id with
  | .binary .. | .unary .. | .dereference _ => parenthesized text
  | .typeExpression _ =>
    if Printer.isOpenType (text.spell []) then parenthesized text else text
  | _ => text

def binaryOperand (indent : Nat) (parent : BinaryOp) (right : Bool) (id : HostId) : Markup :=
  let text := below.text indent id
  match file.tree.kind id with
  | .binary child _ _ =>
    if child.precedence < parent.precedence ||
        (right && child.precedence == parent.precedence) then
      parenthesized text
    else text
  | _ => text

def list (indent : Nat) (ids : List HostId) : Markup :=
  separated ", " (ids.map (below.text indent))

def element (indent : Nat) (e : HostElement) : Markup :=
  match e.key with
  | some key => below.text indent key ++ say ": " ++ below.text indent e.value
  | none => below.text indent e.value

def optional (indent : Nat) (id : Option HostId) : Markup :=
  (id.map (below.text indent)).getD (say "")

def values (indent : Nat) (keyword : String) (spec : HostValues) : Markup :=
  say (keyword ++ " " ++ Printer.commaSeparated spec.names ++
      (spec.type.map (fun type => " " ++ Printer.typeText file type)).getD "") ++
    (if spec.values.isEmpty then say "" else say " = " ++ list below indent spec.values)

/-- The statements of a body, one level further in. -/
def body (indent : Nat) (id : HostId) : Markup :=
  all ((file.tree.statements id).map (below.lines (indent + 1)))

/-- An expression or a statement that fits on one line. -/
def inline (indent : Nat) : HostKind → Markup
  | .identifier name => say name
  | .qualified package name => say (packageName package ++ "." ++ name)
  | .literal text => say text
  | .composite type elements =>
    let text :=
      say ((type.map (Printer.typeText file)).getD "" ++ "\x7b") ++
        separated ", " (elements.map (element below indent)) ++ say "\x7d"
    if type.any file.types.isNamed then .within .literal text else text
  | .functionLiteral signature inner =>
    say ("func" ++ Printer.signatureText file signature ++ " \x7b\n") ++
      .within .closure (body file below indent inner) ++ say (Printer.line indent "\x7d")
  | .call callee args spread =>
    postfixOperand file below indent callee ++ say "(" ++ list below indent args ++
      say ((if spread then "..." else "") ++ ")")
  | .selector object name => postfixOperand file below indent object ++ say ("." ++ name)
  | .index object i =>
    postfixOperand file below indent object ++ say "[" ++ below.text indent i ++ say "]"
  | .slice object low high max =>
    postfixOperand file below indent object ++ say "[" ++ optional below indent low ++ say ":" ++
      optional below indent high ++
      (if max.isSome then say ":" ++ optional below indent max else say "") ++ say "]"
  | .typeAssert object type =>
    postfixOperand file below indent object ++
      say ("." ++ Printer.parenthesized ((type.map (Printer.typeText file)).getD "type"))
  | .dereference inner => say "*" ++ postfixOperand file below indent inner
  | .unary op operand => say op.symbol ++ postfixOperand file below indent operand
  | .binary op left right =>
    binaryOperand file below indent op false left ++ say (" " ++ op.symbol ++ " ") ++
      binaryOperand file below indent op true right
  | .paren inner => parenthesized (below.text indent inner)
  | .typeExpression type => say (Printer.typeText file type)
  | .expression value => below.text indent value
  | .assign lhs op rhs =>
    list below indent lhs ++ say (" " ++ op.symbol ++ " ") ++ list below indent rhs
  | .incDec target increment =>
    below.text indent target ++ say (if increment then "++" else "--")
  | .send channel value => below.text indent channel ++ say " <- " ++ below.text indent value
  | .varDecl spec => values file below indent "var" spec
  | .constDecl spec => values file below indent "const" spec
  | .go call => say "go " ++ below.text indent call
  | .defer call => say "defer " ++ below.text indent call
  | .ret [] => say "return"
  | .ret results => say "return " ++ list below indent results
  | .branch kind label => say (kind.keyword ++ (label.map (" " ++ ·)).getD "")
  | .typeDecl .. | .block _ | .ifElse .. | .loop .. | .range .. | .switch ..
  | .typeSwitch .. | .select _ | .labeled .. | .function _ => say ""

/-! ## Statements -/

def function (indent : Nat) (decl : HostFunction) : Markup :=
  let receiver :=
    match decl.receiver with
    | some r => Printer.parenthesized (Printer.paramText file r) ++ " "
    | none => ""
  sayLines (Printer.docLines indent decl.doc) ++
    line indent
      (say ("func " ++ receiver ++ decl.name ++ Printer.signatureText file decl.signature ++
        " \x7b")) ++
    body file below indent decl.body ++ line indent (say "\x7d")

/-- What comes before the rest of a header. -/
def initial (indent : Nat) (init : Option HostId) : Markup :=
  (init.map (fun s => below.text indent s ++ say "; ")).getD (say "")

def ifHeader (indent : Nat) (init : Option HostId) (condition : HostId) : Markup :=
  .within .header
    (say "if " ++ initial below indent init ++ below.text indent condition ++ say " \x7b")

def loopHeader (indent : Nat) (init condition post : Option HostId) : Markup :=
  .within .header
    (match init, condition, post with
    | none, none, none => say "for \x7b"
    | none, some condition, none => say "for " ++ below.text indent condition ++ say " \x7b"
    | init, condition, post =>
      say "for " ++ optional below indent init ++ say "; " ++
        optional below indent condition ++ say "; " ++
        (post.map (fun s => below.text indent s ++ say " ")).getD (say "") ++ say "\x7b")

/-- Of a range only the source counts as a header. -/
def rangeHeader (indent : Nat) (key value : Option HostId) (define : Bool) (source : HostId) :
    Markup :=
  let op := if define then ":=" else "="
  let source := say "range " ++ .within .header (below.text indent source) ++ say " \x7b"
  match key, value with
  | none, none => say "for " ++ source
  | some key, none => say "for " ++ below.text indent key ++ say (" " ++ op ++ " ") ++ source
  | key, some value =>
    say "for " ++ (key.map (below.text indent)).getD (say "_") ++ say ", " ++
      below.text indent value ++ say (" " ++ op ++ " ") ++ source

/-- A case label and the statements below it. -/
def caseLines (indent : Nat) (label : Option Markup) (body : List HostId) : Markup :=
  let head :=
    match label with
    | some text => say "case " ++ text ++ say ":"
    | none => say "default:"
  line indent head ++ all (body.map (below.lines (indent + 1)))

/-- An `if` and what follows its body. -/
def ifLines (opening : String) (indent : Nat) (init : Option HostId) (condition : HostId)
    (thenBranch : HostId) (rest : Markup) : Markup :=
  line indent (say opening ++ ifHeader below indent init condition) ++
    body file below indent thenBranch ++ rest

/-- A statement, its marker left out. What follows the body of an `if` is given. -/
def statement (indent : Nat) (kind : HostKind) (rest : Markup) : Markup :=
  match kind with
  | .varDecl spec | .constDecl spec =>
    sayLines (Printer.docLines indent spec.doc) ++ line indent (inline file below indent kind)
  | .typeDecl name definition isAlias doc =>
    sayLines (Printer.docLines indent doc ++
      Printer.typeDeclLines file indent name definition isAlias)
  | .function decl => function file below indent decl
  | .block statements =>
    line indent (say "\x7b") ++ all (statements.map (below.lines (indent + 1))) ++
      line indent (say "\x7d")
  | .ifElse init condition thenBranch _ =>
    ifLines file below "" indent init condition thenBranch rest
  | .loop init condition post inner =>
    line indent (loopHeader below indent init condition post) ++ body file below indent inner ++
      line indent (say "\x7d")
  | .range key value define source inner =>
    line indent (rangeHeader below indent key value define source) ++
      body file below indent inner ++ line indent (say "\x7d")
  | .switch init tag cases =>
    let tag := (tag.map (fun t => below.text indent t ++ say " ")).getD (say "")
    line indent
      (say "switch " ++ .within .header (initial below indent init ++ tag) ++ say "\x7b") ++
      all (cases.map (fun c => caseLines below indent (c.values.map (list below indent)) c.body)) ++
      line indent (say "\x7d")
  | .typeSwitch init binding subject cases =>
    let binding := say ((binding.map (· ++ " := ")).getD "")
    line indent
      (say "switch " ++
        .within .header
          (initial below indent init ++ binding ++ postfixOperand file below indent subject) ++
        say ".(type) \x7b") ++
      all (cases.map (fun c =>
        caseLines below indent (c.types.map (fun types => say (Printer.typeCaseText file types)))
          c.body)) ++
      line indent (say "\x7d")
  | .select cases =>
    line indent (say "select \x7b") ++
      all (cases.map (fun c => caseLines below indent (c.comm.map (below.text indent)) c.body)) ++
      line indent (say "\x7d")
  | .labeled label inner =>
    line (indent - 1) (say (label ++ ":")) ++ (inner.map (below.lines indent)).getD (say "")
  | kind => line indent (inline file below indent kind)

end

/-! ## The whole tree -/

mutual

/-- A node on one line, at most `depth` levels deep. -/
def text (file : HostFile) : Nat → Nat → HostId → Markup
  | 0, _, _ => say ""
  | depth + 1, indent, id =>
    inline file ⟨text file depth, lines file depth⟩ indent (file.tree.kind id)

/-- A statement with its marker, at most `depth` levels deep. -/
def lines (file : HostFile) : Nat → Nat → HostId → Markup
  | 0, _, _ => say ""
  | depth + 1, indent, id =>
    sayLines (Printer.markerLines file id) ++
      statement file ⟨text file depth, lines file depth⟩ indent (file.tree.kind id)
        (elseLines file depth indent (file.tree.kind id))

/-- What follows the body of an `if`. -/
def elseLines (file : HostFile) : Nat → Nat → HostKind → Markup
  | 0, _, _ => say ""
  | depth + 1, indent, kind =>
    match kind with
    | .ifElse _ _ _ none => line indent (say "\x7d")
    | .ifElse _ _ _ (some branch) =>
      let below : Below := ⟨text file depth, lines file depth⟩
      match file.tree.kind branch with
      | .ifElse init condition thenBranch rest =>
        ifLines file below "\x7d else " indent init condition thenBranch
          (elseLines file depth indent (.ifElse init condition thenBranch rest))
      | _ =>
        line indent (say "\x7d else \x7b") ++ body file below indent branch ++
          line indent (say "\x7d")
    | _ => say ""

end

/-- The declarations of a group. -/
def group (file : HostFile) (ids : List HostId) : Markup :=
  let declaration (id : HostId) : Markup := lines file (Printer.depthBound file) 0 id
  let separated (id : HostId) : Markup :=
    if Printer.isFunction (file.tree.kind id) then say "\n" ++ declaration id else declaration id
  match ids with
  | [] => say ""
  | first :: rest => declaration first ++ all (rest.map separated)

def joinGroups : List Markup → Markup
  | [] => say ""
  | first :: rest => first ++ all (rest.map (say "\n" ++ ·))

end Nesting

/-- The declarations of a file. -/
def HostFile.markup (file : HostFile) : Markup :=
  Nesting.joinGroups ((file.groups.filter (!·.isEmpty)).map (Nesting.group file))

end GoLowering
