import GoLowering.Lowering.Coercion
import GoLowering.Lowering.Operators

/-!
# Assignments

Definitions, assignments, compound assignments, increments and sends. The values of an
assignment come from one expression each, or all from one expression with several results.
-/

namespace GoLowering.Lowering

open Surface

def failCount {α : Type} (left right : Nat) (span : Span) : Lower α :=
  fail (.assignmentCountMismatch left right) span

/-- The types of the values that one operand gives to `count` places. -/
def spreadTypes (operand : Operand) (count : Nat) : Lower (List TypeId) := do
  let types :=
    match (← getTypes).get operand.type with
    | .tuple elements => elements
    | _ =>
      if operand.commaOk && count == 2 then [operand.type, TypeTable.bool]
      else if operand.mode == .noValue then []
      else [operand.type]
  if types.length == count then return types
  else failCount count types.length operand.span

/-- The first of some pairs of a type and a target that is not assignable. -/
def unassignable? : List (TypeId × TypeId) → Lower (Option (TypeId × TypeId))
  | [] => return none
  | (got, target) :: rest => do
    if ← assignable got target then unassignable? rest else return some (got, target)

/-- Fails unless the values of an operand can go to places of some types. -/
def checkAssignable (operand : Operand) (pairs : List (TypeId × TypeId)) : Lower Unit := do
  match ← unassignable? pairs with
  | none => return ()
  | some (got, target) =>
    fail (.typeMismatch (← typeName target) (← typeName got)) operand.span

/-- One value for a place, of the type of the place if it has one. -/
def lowerSlotValue (walk : Walk) (value : NodeId) (type : Option TypeId) :
    Lower (HostId × TypeId) := do
  coerceOrDefault (← walk.expr value (.maybe type)) type

/-- The values for `count` new names, and the types that the names have. -/
def lowerValues (walk : Walk) (values : List NodeId) (count : Nat) (type : Option TypeId)
    (span : Span) : Lower (List HostId × List TypeId) := do
  if values.length == count then
    return (← values.mapM (lowerSlotValue walk · type)).unzip
  else
    match values with
    | [value] =>
      let operand ← walk.expr value { Expectation.maybe type with results := count }
      let types ← spreadTypes operand count
      match type with
      | none => return ([operand.id], types)
      | some type =>
        checkAssignable operand (types.map (·, type))
        return ([operand.id], List.replicate count type)
    | _ => failCount count values.length span

/-- A name on the left side of a definition. -/
def definedName (id : NodeId) : Lower String := do
  match (← read).unit.identifier? id with
  | some name => return name
  | none =>
    fail (.unsupportedConstruct ((← textOf id) ++ " on the left side of :=")) (← spanOf id)

/-- A name as it is written at a node. -/
def nameNode (id : NodeId) (name : String) : Lower HostId := do
  place (.identifier name) (← spanOf id)

/-- `a, b := x, y`: at least one name that is not blank has to be new in its scope. -/
def lowerDefine (walk : Walk) (lhs rhs : List NodeId) (span : Span) : Lower HostId := do
  let names ← lhs.mapM definedName
  let (values, types) ← lowerValues walk rhs names.length none span
  let scopes := (← get).scopes
  if names.any (fun name => name != Names.blank && !scopes.isLocal name) then
    (names.zip types).forM (fun (name, type) => bind name (.variable type))
    let lhs ← (lhs.zip names).mapM (fun (id, name) => nameNode id name)
    place (.assign lhs .define values) span
  else
    fail .noNewVariables span

/-- The target of an assignment, and its type unless it is blank. -/
def lowerTarget (walk : Walk) (target : NodeId) : Lower (HostId × Option TypeId) := do
  if (← read).unit.identifier? target == some Names.blank then
    return (← nameNode target Names.blank, none)
  else
    let operand ← walk.expr target .none
    checkValue operand
    return (operand.id, some operand.type)

/-- The values for places some of which have types. -/
def lowerSlots (walk : Walk) (values : List NodeId) (slots : List (Option TypeId))
    (span : Span) : Lower (List HostId) := do
  if values.length == slots.length then
    (values.zip slots).mapM (fun (value, slot) => return (← lowerSlotValue walk value slot).1)
  else
    match values with
    | [value] =>
      let operand ← walk.expr value { Expectation.none with results := slots.length }
      let types ← spreadTypes operand slots.length
      checkAssignable operand ((types.zip slots).filterMap (fun (got, slot) =>
        slot.map (got, ·)))
      return [operand.id]
    | _ => failCount slots.length values.length span

/-- `a, b = x, y` -/
def lowerAssign (walk : Walk) (lhs rhs : List NodeId) (span : Span) : Lower HostId := do
  let (targets, slots) := (← lhs.mapM (lowerTarget walk)).unzip
  let values ← lowerSlots walk rhs slots span
  place (.assign targets .plain values) span

/-- `x op= y`: the operation `x op y` has to be valid. -/
def lowerCompound (walk : Walk) (op : BinaryOp) (lhs rhs : List NodeId) (span : Span) :
    Lower HostId := do
  match lhs, rhs with
  | [target], [value] =>
    let target ← walk.expr target .none
    checkValue target
    let expected := if op.isShift then none else some target.type
    let value ← walk.expr value (.maybe expected)
    if ((← read).registry.get? target.type).isSome then
      lowerRegisteredAssign op target value span
    else
      let _ ← lowerBinary op target value span
      let (value, _) ← coerceOrDefault value expected
      place (.assign [target.id] (.compound op) [value]) span
  | _, _ => failCount lhs.length rhs.length span

def lowerIncDec (walk : Walk) (target : NodeId) (increment : Bool) (span : Span) :
    Lower HostId := do
  let target ← walk.expr target .none
  checkValue target
  if ((← read).registry.get? target.type).isSome then
    lowerRegisteredIncDec target increment span
  else if (← basicOf? target.type).any BasicType.isNumeric || (← isInvalid target.type) then
    place (.incDec target.id increment) span
  else
    failOperation (if increment then "++" else "--") target.type span

def lowerSend (walk : Walk) (channel value : NodeId) (span : Span) : Lower HostId := do
  let (channel, type) ← lowerByDefault walk channel
  let types ← getTypes
  let element ←
    match types.shape type with
    | .chan element _ => pure element
    | _ =>
      if types.isInvalid type then pure type
      else failOperation UnaryOp.receive.symbol type span
  let value ← lowerInto walk value element
  place (.send channel value) span

end GoLowering.Lowering
