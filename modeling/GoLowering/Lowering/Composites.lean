import GoLowering.Lowering.Literals
import GoLowering.Lowering.TypeExpressions

/-!
# Composite literals

Literals with elements. Where the type is known, each element is lowered for its place in it;
otherwise `[...]` is a slice and `{...}` is a map of the types that their elements have in
common.
-/

namespace GoLowering.Lowering

open Surface

/-- A composite literal of a type. -/
def compositeOperand (type : TypeId) (elements : List HostElement) (span : Span) :
    Lower Operand := do
  return .value (← place (.composite (some type) elements) span) type span

/-! ## Elements of known types -/

def lowerPositionalFields (walk : Walk) : List Element → List Field →
    Lower (List HostElement)
  | element :: elements, field :: fields => do
    let value ← lowerInto walk element.value field.type
    return ⟨none, value⟩ :: (← lowerPositionalFields walk elements fields)
  | _, _ => return []

/-- An element `name: value` of a struct. -/
def lowerKeyedField (walk : Walk) (type : TypeId) (fields : List Field) (key value : NodeId) :
    Lower HostElement := do
  let span ← spanOf key
  match (← read).unit.identifier? key with
  | none => fail (.typeMismatch "field name" (← textOf key)) span
  | some name =>
    match fields.find? (·.name == name) with
    | none => fail (.unknownMember (← typeName type) name) span
    | some field =>
      let key ← place (.identifier name) span
      return ⟨some key, ← lowerInto walk value field.type⟩

/-- The elements of a struct: all with the names of fields, or all without. -/
def lowerFields (walk : Walk) (type : TypeId) (fields : List Field)
    (elements : List Element) (span : Span) : Lower (List HostElement) := do
  let keyed := elements.filterMap (fun e => e.key.map (·, e.value))
  if keyed.isEmpty then
    if elements.isEmpty || elements.length == fields.length then
      lowerPositionalFields walk elements fields
    else
      fail (.argumentCountMismatch fields.length elements.length) span
  else if keyed.length != elements.length then
    fail (.unsupportedConstruct "mixture of field:value and value elements") span
  else
    keyed.mapM (fun (key, value) => lowerKeyedField walk type fields key value)

/-- The value of a constant index. -/
def indexValue? : Option Constant → Option Nat
  | some (.int (.ofNat n)) => if n < lengthLimit then some n else none
  | _ => none

def failIndex {α : Type} (operand : Operand) : Lower α := do
  fail (.typeMismatch "constant index" (← typeName operand.type)) operand.span

/-- The index after an index. Indexes are words, so that the last one is followed by zero. -/
def indexAfter (index : Nat) : Nat := (index + 1) % lengthLimit

/-- The elements of a slice or an array from an index on, and the length they reach. An
element without a key follows the one before it. -/
def lowerIndexedFrom (walk : Walk) (type : TypeId) : Nat → List Element →
    Lower (List HostElement × Nat)
  | _, [] => return ([], 0)
  | next, element :: rest => do
    let (key, index) ←
      match element.key with
      | none => pure (none, next)
      | some key => do
        let operand ← walk.expr key .none
        match indexValue? operand.constant with
        | some index => pure (some operand.id, index)
        | none => failIndex operand
    let value ← lowerInto walk element.value type
    let next := indexAfter index
    let (elements, length) ← lowerIndexedFrom walk type next rest
    return (⟨key, value⟩ :: elements, max next length)

def lowerIndexed (walk : Walk) (type : TypeId) (elements : List Element) :
    Lower (List HostElement × Nat) :=
  lowerIndexedFrom walk type 0 elements

def lowerMapEntry (walk : Walk) (keyType valueType : TypeId) (span : Span) (element : Element) :
    Lower HostElement := do
  match element.key with
  | none => fail (.unsupportedConstruct "map literal element without a key") span
  | some key =>
    let key ← lowerInto walk key keyType
    return ⟨some key, ← lowerInto walk element.value valueType⟩

/-- The literal of a type that elements are written for. The elements of a literal of an
invalid type are dropped. -/
def lowerElements (walk : Walk) (type : TypeId) (elements : List Element) (span : Span) :
    Lower Operand := do
  match (← getTypes).shape type with
  | .struct fields =>
    compositeOperand type (← lowerFields walk type fields elements span) span
  | .slice element => compositeOperand type (← lowerIndexed walk element elements).1 span
  | .array element length =>
    let (elements, used) ← lowerIndexed walk element elements
    if length < used then
      fail (.constantOverflow ("index " ++ toString (used - 1) ++ " out of bounds [0:" ++
        toString length ++ "]")) span
    else
      compositeOperand type elements span
  | .map key value =>
    compositeOperand type (← elements.mapM (lowerMapEntry walk key value span)) span
  | .invalid => compositeOperand type [] span
  | _ => fail (.typeMismatch (← typeName type) "composite literal") span

/-- The literal of a type, or the address of one where the type is a pointer. -/
def lowerElementsInto (walk : Walk) (type : TypeId) (elements : List Element) (span : Span) :
    Lower Operand := do
  let types ← getTypes
  match types.shape type with
  | .pointer target =>
    if types.isComposite target then
      let inner ← lowerElements walk target elements span
      return .value (← place (.unary .addressOf inner.id) span) type span
    else
      lowerElements walk type elements span
  | _ => lowerElements walk type elements span

/-! ## Literals without a type -/

/-- A constant index of an element, which must be no negative number. -/
def lowerIndexKey (walk : Walk) (key : NodeId) : Lower HostId := do
  let operand ← walk.expr key .none
  match operand.constant with
  | some (.int (.ofNat _)) => return operand.id
  | _ => failIndex operand

def lowerSliceElement (walk : Walk) (element : Element) :
    Lower (Option HostId × Operand) := do
  let key ← element.key.mapM (lowerIndexKey walk)
  return (key, ← walk.expr element.value .none)

/-- A slice of the type that the elements have in common. -/
def inferSlice (walk : Walk) (elements : List Element) (span : Span) : Lower Operand := do
  let elements ← elements.mapM (lowerSliceElement walk)
  let element ← commonType (elements.map (·.2)) span
  let type ← onTypes (·.slice element)
  let elements ← elements.mapM (fun (key, value) => do
    return HostElement.mk key (← coerce value element))
  compositeOperand type elements span

def lowerSliceLiteral (walk : Walk) (elements : List Element) (span : Span)
    (expect : Expectation) : Lower Operand := do
  let types ← getTypes
  let bare := if elements.isEmpty then fail .emptyLiteralWithoutContext span
    else inferSlice walk elements span
  match expect.type with
  | none => bare
  | some type =>
    match types.shape type with
    | .slice _ | .array _ _ => lowerElementsInto walk type elements span
    | .interface _ =>
      if elements.isEmpty then
        lowerElementsInto walk (← onTypes (·.slice TypeTable.any)) elements span
      else
        bare
    | _ => bare

def lowerMapElement (walk : Walk) (key value : NodeId) : Lower (Operand × Operand) := do
  let key ← walk.expr key .none
  return (key, ← walk.expr value .none)

/-- A map of the types that the keys and the values have in common. -/
def inferMap (walk : Walk) (elements : List (NodeId × NodeId)) (span : Span) :
    Lower Operand := do
  let elements ← elements.mapM (fun (key, value) => lowerMapElement walk key value)
  let keyType ← commonType (elements.map (·.1)) span
  let valueType ← commonType (elements.map (·.2)) span
  let type ← onTypes (·.map keyType valueType)
  let elements ← elements.mapM (fun (key, value) => do
    let key ← coerce key keyType
    return HostElement.mk (some key) (← coerce value valueType))
  compositeOperand type elements span

/-- A literal `{...}` that nothing is known about. -/
def lowerBareComposite (walk : Walk) (elements : List Element) (span : Span) :
    Lower Operand := do
  let keyed := elements.filterMap (fun e => e.key.map (·, e.value))
  if elements.isEmpty then
    fail .emptyLiteralWithoutContext span
  else if keyed.length != elements.length then
    fail (.unsupportedConstruct "untyped \x7b...\x7d literal without keys") span
  else
    inferMap walk keyed span

/-- A literal of a type as it is written; `[...]T{...}` has the length of its elements. -/
def lowerTypedComposite (walk : Walk) (type : NodeId) (elements : List Element)
    (span : Span) : Lower Operand := do
  match (← read).unit.type? type with
  | some (.array none element) =>
    let element ← walk.type element
    let (elements, length) ← lowerIndexed walk element elements
    compositeOperand (← onTypes (·.array element length)) elements span
  | _ => lowerElementsInto walk (← walk.type type) elements span

def lowerComposite (walk : Walk) (type : Option NodeId) (elements : List Element)
    (span : Span) (expect : Expectation) : Lower Operand := do
  match type, expect.type with
  | some type, _ => lowerTypedComposite walk type elements span
  | none, none => lowerBareComposite walk elements span
  | none, some expected =>
    if !(← getTypes).isInterface expected then
      lowerElementsInto walk expected elements span
    else if elements.isEmpty then
      lowerElementsInto walk (← onTypes (·.map TypeTable.string TypeTable.any)) elements span
    else
      lowerBareComposite walk elements span

end GoLowering.Lowering
