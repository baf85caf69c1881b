import GoLowering.Lowering.State

/-!
# Nodes of the output

Host nodes are either made for a piece of source, which they then have as their origin, or are
scaffolding that a construct expands to.
-/

namespace GoLowering.Lowering

def addNode (kind : HostKind) (origin : Option Span) : Lower HostId :=
  modifyGet (fun s => let (id, tree) := s.tree.add kind origin; (id, { s with tree }))

/-- A node made for a piece of source. -/
def place (kind : HostKind) (span : Span) : Lower HostId :=
  addNode kind (if span.isSynthetic then none else some span)

/-- A node without a counterpart in the source. -/
def scaffold (kind : HostKind) : Lower HostId := addNode kind none

def kindOf (id : HostId) : Lower HostKind := return (← get).tree.kind id

def identNode (name : String) : Lower HostId := scaffold (.identifier name)

def qualifiedNode (package name : String) : Lower HostId := scaffold (.qualified package name)

def literalNode (text : String) : Lower HostId := scaffold (.literal text)

def callNode (callee : HostId) (args : List HostId) : Lower HostId :=
  scaffold (.call callee args false)

def selectorNode (object : HostId) (name : String) : Lower HostId :=
  scaffold (.selector object name)

def binaryNode (op : BinaryOp) (left right : HostId) : Lower HostId :=
  scaffold (.binary op left right)

def unaryNode (op : UnaryOp) (operand : HostId) : Lower HostId := scaffold (.unary op operand)

def assignNode (lhs rhs : List HostId) : Lower HostId := scaffold (.assign lhs .plain rhs)

def defineNode (lhs rhs : List HostId) : Lower HostId := scaffold (.assign lhs .define rhs)

def blockNode (statements : List HostId) : Lower HostId := scaffold (.block statements)

def returnNode (values : List HostId) : Lower HostId := scaffold (.ret values)

def typeNode (type : TypeId) : Lower HostId := scaffold (.typeExpression type)

/-- A name that no other temporary of the unit has. -/
def freshName : Lower String :=
  modifyGet (fun s =>
    (Names.temporary (s.temporaries + 1), { s with temporaries := s.temporaries + 1 }))

/-- A call with the results of its function: no value, one value or a tuple. -/
def resultOperand (call : HostId) (results : List TypeId) (span : Span) : Lower Operand := do
  match results with
  | [single] => return .value call single span
  | _ =>
    let type ← onTypes (·.tuple results)
    return { Operand.value call type span with
      mode := if results.isEmpty then .noValue else .value }

/-- Calls a function at once: `func() results { body }()`. -/
def immediateCall (results : List HostParam) (body : List HostId) (span : Span) :
    Lower Operand := do
  let body ← blockNode body
  let literal ← place (.functionLiteral ⟨[], results, false⟩ body) span
  let call ← place (.call literal [] false) span
  resultOperand call (results.map (·.type)) span

/-- The zero value of a type. -/
def zeroValue (type : TypeId) : Lower HostId := do
  match (← getTypes).shape type with
  | .basic kind =>
    if kind.isNumeric then literalNode "0"
    else if kind == .bool || kind == .untypedBool then literalNode "false"
    else if kind == .string || kind == .untypedString then literalNode "\"\""
    else literalNode "nil"
  | .struct _ | .array _ _ => scaffold (.composite (some type) [])
  | _ => literalNode "nil"

end GoLowering.Lowering
