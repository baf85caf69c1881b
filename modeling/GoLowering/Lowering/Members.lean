import GoLowering.Lowering.NameUse
import GoLowering.Lowering.Operators

/-!
# Members

Members of packages, types and values. A member of a value is a field, a method, or an
auto-property: a method whose name differs from the member by case or by the suffix `__0`, and
which is called at once unless the member is called itself.
-/

namespace GoLowering.Lowering

open Surface

/-- The type of a field of a struct or of a pointer to one. Fields of embedded types, at most
`depth` levels deep, come after the struct's own. -/
def fieldType? (types : TypeTable) (name : String) : Nat → TypeId → Option TypeId
  | 0, _ => none
  | depth + 1, type =>
    let base :=
      match types.shape type with
      | .pointer target => types.shape target
      | shape => shape
    match base with
    | .struct fields =>
      match fields.find? (·.name == name) with
      | some field => some field.type
      | none =>
        (fields.filter (·.embedded)).findSome? (fun f => fieldType? types name depth f.type)
    | _ => none

/-- The number of levels that embedded fields are searched. -/
def embeddingDepth : Nat := 9

def failMember {α : Type} (owner name : String) (span : Span) : Lower α :=
  fail (.unknownMember owner name) span

/-- A member of a package, as it is written or else exported. -/
def lowerPackageMember (path name : String) (span : Span) : Lower Operand := do
  let env := (← read).env
  let exported := Names.capitalize name
  match env.resolveMember? path name with
  | some resolution => resolvedOperand resolution (some path) name span
  | none =>
    match env.resolveMember? path exported with
    | some resolution => resolvedOperand resolution (some path) exported span
    | none => failMember (packageName path) name span

/-- A method of a type as a function that takes the receiver first. -/
def lowerMethodExpression (object : Operand) (name : String) (span : Span) :
    Lower Operand := do
  match ← lookupMethod object.type name with
  | none => failMember (← typeName object.type) name span
  | some method =>
    match (← getTypes).signature? method.sig with
    | none => failOperation "." object.type span
    | some sig =>
      let type ← onTypes (·.func (object.type :: sig.params) sig.results sig.variadic)
      let receiver ←
        match (← getTypes).get object.type with
        | .pointer _ => scaffold (.paren object.id)
        | _ => pure object.id
      return .value (← place (.selector receiver method.name) span) type span

/-- The first of several methods that a type has. -/
def firstMethod? (type : TypeId) : List String → Lower (Option Method)
  | [] => return none
  | name :: rest => do
    match ← lookupMethod type name with
    | some method => return some method
    | none => firstMethod? type rest

/-- The names of the methods that an auto-property can stand for. -/
def propertyNames (name : String) : List String :=
  let exported := Names.capitalize name
  [exported, name ++ "__0", exported ++ "__0"]

/-- A method found as an auto-property: called, if it takes no arguments. -/
def lowerProperty (object : HostId) (method : Method) (span : Span) (expect : Expectation) :
    Lower Operand := do
  let selector ← place (.selector object method.name) span
  match (← getTypes).signature? method.sig, expect.callee with
  | some ⟨[], results, _⟩, false =>
    resultOperand (← place (.call selector [] false) span) results span
  | _, _ => return .value selector method.sig span

/-- A member of a value; one of a value of invalid type has an invalid type. -/
def lowerValueMember (object : Operand) (name : String) (span : Span)
    (expect : Expectation) : Lower Operand := do
  let (id, type) ← defaultValue object
  let types ← getTypes
  let select (name : String) (memberType : TypeId) : Lower Operand := do
    return .value (← place (.selector id name) span) memberType span
  if types.isInvalid type then
    select name type
  else
    match fieldType? types name embeddingDepth type with
    | some field => select name field
    | none =>
      match ← lookupMethod type name with
      | some method => select method.name method.sig
      | none =>
        match ← firstMethod? type (propertyNames name) with
        | some method => lowerProperty id method span expect
        | none => failMember (types.format type) name span

def lowerMember (walk : Walk) (object : NodeId) (name : String) (span : Span)
    (expect : Expectation) : Lower Operand := do
  let object ← walk.expr object .none
  match object.mode with
  | .package path => lowerPackageMember path name span
  | .type => lowerMethodExpression object name span
  | _ => lowerValueMember object name span expect

end GoLowering.Lowering
