import GoLowering.Lowering.Calls

/-!
# Blocks

Lists of statements. What a statement hoists comes right before it.
-/

namespace GoLowering.Lowering

open Surface

/-- The host statements that a statement becomes, with what it hoists before it. -/
def lowerStatement (walk : Walk) (id : NodeId) : Lower (List HostId) := do
  let (hoisted, statement) ← hoisting (walk.statement id)
  return hoisted ++ statement.toList

def lowerStatements (walk : Walk) (ids : List NodeId) : Lower (List HostId) :=
  return (← ids.mapM (lowerStatement walk)).flatten

/-- The statements of a block, in a scope of their own. -/
def lowerBlockStatements (walk : Walk) (id : NodeId) (kind : ScopeKind) :
    Lower (List HostId) := do
  let statements :=
    match (← read).unit.stmt? id with
    | some (.block statements) => statements
    | _ => [id]
  inScope kind (lowerStatements walk statements)

def lowerBlock (walk : Walk) (id : NodeId) (kind : ScopeKind) : Lower HostId := do
  blockNode (← lowerBlockStatements walk id kind)

/-- The body of a function. -/
def lowerBody (walk : Walk) (id : NodeId) : Lower HostId := lowerBlock walk id .block

/-- Binds the names of parameters or results. -/
def bindParams (params : List HostParam) : Lower Unit :=
  params.forM (fun param =>
    match param.name with
    | some name => bind name (.variable param.type)
    | none => pure ())

/-- Whether a type is one of functions that can be called without arguments. -/
def isBareCallable (types : TypeTable) (type : TypeId) : Bool :=
  match types.signature? type with
  | some sig => sig.params.isEmpty || (sig.variadic && sig.params.length == 1)
  | none => false

/-- An expression as a statement. The value of a function is called, and an expression that
has become a block is a statement already. -/
def expressionStatement (walk : Walk) (operand : Operand) : Lower HostId := do
  let span := operand.span
  let statement (value : HostId) : Lower HostId := place (.expression value) span
  let called : Lower HostId := do
    statement (← callOperand walk operand [] false span .none).id
  match operand.mode, ← kindOf operand.id with
  | .noValue, .block _ => return operand.id
  | .noValue, _ | .nil, _ | .value, .call .. => statement operand.id
  | .builtin _, _ => called
  | .value, _ =>
    if isBareCallable (← getTypes) operand.type then called else statement operand.id
  | .type, _ | .package _, _ => fail (.notAValue (← textAt span)) span

end GoLowering.Lowering
