import GoLowering.Constant.Literal
import GoLowering.Lowering.Coercion

/-!
# Literals

Literals of numbers, runes and strings, and the type that the elements of a literal without a
type have in common: the widest of one class of constants, the one type that is given if all
constants fit it, and `interface{}` for everything else.
-/

namespace GoLowering.Lowering

/-- The kind and the value of a literal; nothing where the value is out of range. -/
def literalValue? (kind : Surface.LiteralKind) (text : String) :
    Option (BasicType × Constant) :=
  match kind with
  | .int => (Literal.integer? text).map (.untypedInt, ·)
  | .float => (Literal.decimal? text).map (.untypedFloat, ·)
  | .rune => (Literal.rune? text).map (.untypedRune, ·)
  | .string => some (.untypedString, .string text)
  | .imaginary => do
    let digits := String.ofList (Source.trimEnd (· == 'i') text.toList)
    let value ← Literal.decimal? digits
    return (.untypedComplex, .complex 0.0 (← value.toFloat?))
  | .bigInt =>
    match (Literal.integer? text).or (Literal.decimal? text) with
    | some (.int n) => some (.untypedBigInt, .int n)
    | some (.rat r) => some (.untypedBigRat, .rat r)
    | _ => none

def lowerLiteral (kind : Surface.LiteralKind) (text : String) (span : Span) :
    Lower Operand := do
  match literalValue? kind text with
  | some (kind, value) =>
    let id ← place (.literal text) span
    return .ofConstant id (TypeTable.basic kind) (some value) span
  | none => fail (.constantOverflow text) span

/-! ## Common types -/

/-- The kind of an operand of an untyped basic type. -/
def untypedKind? (types : TypeTable) (operand : Operand) : Option BasicType :=
  match types.get operand.type with
  | .basic kind => if kind.isUntyped then some kind else none
  | _ => none

/-- Whether an untyped operand can stand beside elements of a type. -/
def fitsBeside (target : TypeId) (operand : Operand) : Lower Bool := do
  if ((← read).registry.get? target).isSome then
    return operand.constant.isSome
  else
    return (← assignable operand.type target) &&
      !overflows BasicType.isNumeric operand.constant (← basicOf? target)

/-- The widest of the ordinary numeric kinds, in the order integer, rune, float, complex. -/
def widest? (kinds : List BasicType) : Option BasicType :=
  [BasicType.untypedComplex, .untypedFloat, .untypedRune, .untypedInt].find? kinds.contains

/-- The registered type for numbers some of which are unbounded. -/
def commonBigType (kinds : List BasicType) (span : Span) : Lower TypeId := do
  let widest := widest? kinds
  if widest == some .untypedComplex then
    fail (.literalClassConflict "big number" "complex") span
  else
    let rational := kinds.contains .untypedBigRat || widest == some .untypedFloat
    let kind := if rational then BasicType.untypedBigRat else .untypedBigInt
    return (((← read).registry.defaultFor? kind).map (·.type)).getD TypeTable.any

/-- The type of untyped constants, if they are of one class. -/
def commonUntypedType (kinds : List BasicType) (span : Span) : Lower TypeId := do
  let big := kinds.any BasicType.isUntypedBig
  let numeric := big || (widest? kinds).isSome
  let strings := kinds.contains .untypedString
  let bools := kinds.contains .untypedBool
  if [numeric, strings, bools].count true != 1 then
    return TypeTable.any
  else if big then
    commonBigType kinds span
  else
    match widest? kinds with
    | some kind => return (← getTypes).defaultType (TypeTable.basic kind)
    | none => return if strings then TypeTable.string else TypeTable.bool

/-- The most specific type that all elements of a literal can have. -/
def commonType (operands : List Operand) (span : Span) : Lower TypeId := do
  operands.forM checkValue
  let types ← getTypes
  let (untyped, typed) := operands.partition (fun o => (untypedKind? types o).isSome)
  let kinds := untyped.filterMap (untypedKind? types)
  if operands.any (·.mode == .nil) || kinds.contains .untypedNil then
    return TypeTable.any
  else
    match typed with
    | [] => commonUntypedType kinds span
    | first :: rest =>
      if rest.any (·.type != first.type) then
        return TypeTable.any
      else
        let fits ← untyped.allM (fitsBeside first.type)
        return if fits then first.type else TypeTable.any

end GoLowering.Lowering
