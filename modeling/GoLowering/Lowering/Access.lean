import GoLowering.Lowering.Operators
import GoLowering.Lowering.TypeExpressions

/-!
# Access to parts of values

Index expressions, slice expressions and type assertions. An index of a sequence is an integer
and an index of a map is a key; an element of a map and an asserted value come with a second
result, a `bool`, where two are asked for.
-/

namespace GoLowering.Lowering

open Surface

/-- An index: an integer of any type. -/
def lowerPosition (walk : Walk) (index : NodeId) : Lower HostId := do
  let operand ← walk.expr index .none
  let (id, type) ← defaultValue operand
  if (← basicOf? type).any BasicType.isInteger || (← isInvalid type) then return id
  else fail (.typeMismatch "integer index" (← typeName type)) operand.span

/-- What an index expression selects from: a pointer to an array stands for the array. -/
def containerOf (types : TypeTable) (type : TypeId) : TypeId :=
  match types.shape type with
  | .pointer target => types.underlying target
  | _ => types.underlying type

def lowerIndex (walk : Walk) (object index : NodeId) (span : Span) : Lower Operand := do
  let object ← walk.expr object .none
  checkValue object
  let types ← getTypes
  let container := containerOf types object.type
  let (index, element, commaOk) ←
    match types.get container with
    | .map key value => pure (← lowerInto walk index key, value, true)
    | .slice element | .array element _ => pure (← lowerPosition walk index, element, false)
    | .invalid => pure ((← lowerByDefault walk index).1, container, false)
    | .basic kind =>
      if isStringKind kind then pure (← lowerPosition walk index, TypeTable.basic .uint8, false)
      else failOperation "[]" object.type span
    | _ => failOperation "[]" object.type span
  let (id, _) ← defaultValue object
  let id ← place (.index id index) span
  return { Operand.value id element span with commaOk }

/-- The type of the parts of a sliced value, if it can be sliced. -/
def slicedType? (type : TypeId) : Lower (Option TypeId) := do
  let types ← getTypes
  match types.shape type with
  | .slice _ | .invalid => return some type
  | .array element _ => return some (← onTypes (·.slice element))
  | .pointer target =>
    match types.shape target with
    | .array element _ => return some (← onTypes (·.slice element))
    | _ => return none
  | .basic kind => return if isStringKind kind then some TypeTable.string else none
  | _ => return none

def lowerSlice (walk : Walk) (object : NodeId) (low high max : Option NodeId)
    (span : Span) : Lower Operand := do
  let object ← walk.expr object .none
  checkValue object
  match ← slicedType? object.type with
  | none => failOperation "[:]" object.type span
  | some type =>
    let low ← low.mapM (lowerPosition walk)
    let high ← high.mapM (lowerPosition walk)
    let max ← max.mapM (lowerPosition walk)
    let (id, _) ← defaultValue object
    return .value (← place (.slice id low high max) span) type span

def lowerTypeAssertion (walk : Walk) (object : NodeId) (type : Option NodeId)
    (span : Span) : Lower Operand := do
  match type with
  | none => fail (.unsupportedConstruct ".(type) outside a type switch") span
  | some type =>
    let object ← walk.expr object .none
    checkValue object
    let types ← getTypes
    if types.isInterface object.type || types.isInvalid object.type then
      let target ← walk.type type
      let id ← place (.typeAssert object.id (some target)) span
      return { Operand.value id target span with commaOk := true }
    else
      fail (.typeMismatch "interface" (types.format object.type)) object.span

end GoLowering.Lowering
