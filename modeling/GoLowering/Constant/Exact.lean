import Mathlib.Data.Int.Bitwise
import Mathlib.Data.Rat.Floor
import GoLowering.Constant.Fold

/-!
# Exact numbers and the rules for them

An untyped number has a kind beside its value, and a number of an integer kind is integral. The
host decides by the kinds alone what an operator does and whether it applies
(`FoldRules.ofKinds`); the alternative is to decide by the values (`FoldRules.ofValues`), for
which `5.0` is an integer like `5`. What both have in common is written once,
`ExactNumber.combine`.
-/

namespace GoLowering

/-- The kinds of untyped numbers other than complex ones. Unbounded fractions are as exact as
unbounded integers. -/
inductive NumberKind where
  | int | rune | float | bigInt | bigRat
  deriving DecidableEq, Repr

namespace NumberKind

def basic : NumberKind → BasicType
  | int => .untypedInt
  | rune => .untypedRune
  | float => .untypedFloat
  | bigInt => .untypedBigInt
  | bigRat => .untypedBigRat

def isInteger : NumberKind → Bool
  | int | rune | bigInt => true
  | float | bigRat => false

def isBig : NumberKind → Bool
  | bigInt | bigRat => true
  | int | rune | float => false

/-- The kinds of which the quotients are truncated. -/
def isTruncated : NumberKind → Bool
  | int | rune => true
  | float | bigInt | bigRat => false

/-- The narrowest kind that has the numbers of both. -/
def wider : NumberKind → NumberKind → NumberKind
  | bigRat, _ | _, bigRat | bigInt, float | float, bigInt => bigRat
  | bigInt, _ | _, bigInt => bigInt
  | float, _ | _, float => float
  | rune, _ | _, rune => rune
  | int, int => int

/-- The kind of a shifted number. Shifts have integers for results, whatever the kind of the number
that is shifted. -/
def shifted : NumberKind → NumberKind
  | rune => rune
  | int | float => int
  | bigInt | bigRat => bigInt

end NumberKind

structure ExactNumber where
  kind : NumberKind
  value : Rat
  integral : kind.isInteger = true → value.den = 1
  deriving DecidableEq

namespace ExactNumber

/-- A number of a kind. A fraction that no integer kind has is an unbounded one. -/
def of (kind : NumberKind) (value : Rat) : ExactNumber :=
  if h : kind.isInteger = true ∧ value.den ≠ 1 then ⟨.bigRat, value, nofun⟩
  else ⟨kind, value, fun hkind => by_contra fun hne => h ⟨hkind, hne⟩⟩

def isIntegral (n : ExactNumber) : Bool := n.value.den == 1

end ExactNumber

/-- What an operation on two numbers is folded to. -/
inductive ExactResult where
  | truth (value : Bool)
  | number (value : ExactNumber)
  deriving DecidableEq

namespace ExactResult

def kind : ExactResult → BasicType
  | truth _ => .untypedBool
  | number n => n.kind.basic

def constant : ExactResult → Constant
  | truth b => .bool b
  | number n => .ofRat n.value

end ExactResult

/-- What operations on numbers depend on, their values apart. -/
structure FoldRules where
  /-- Whether a quotient is truncated. -/
  truncates : ExactNumber → ExactNumber → Bool
  /-- Whether numbers are integers, for the operators that are defined on integers only. -/
  integers : ExactNumber → ExactNumber → Bool
  /-- The kind of a shift of a number of the first kind by one of the second. -/
  shifted : NumberKind → NumberKind → NumberKind

namespace FoldRules

/-- The rules of the host. -/
def ofKinds : FoldRules where
  truncates a b := a.kind.isTruncated && b.kind.isTruncated
  integers a b := a.kind.isInteger && b.kind.isInteger
  shifted kind _ := kind.shifted

/-- Rules for which numbers are integers that are integral. -/
def ofValues : FoldRules where
  truncates a b := a.isIntegral && b.isIntegral && !(a.kind.isBig || b.kind.isBig)
  integers a b := a.isIntegral && b.isIntegral
  shifted := .wider

end FoldRules

namespace ExactNumber

def onIntegers (rules : FoldRules) (a b : ExactNumber) (f : Int → Int → Int) :
    Option ExactResult :=
  if rules.integers a b then
    some (.number (.of (a.kind.wider b.kind) (f a.value.num b.value.num)))
  else none

/-- Whether a number can be shifted by another one: both are integral, and the count is not
negative and within the limit. -/
def isShiftable (a b : ExactNumber) : Bool :=
  a.isIntegral && b.isIntegral && decide (0 ≤ b.value.num) &&
    decide (b.value.num ≤ Constant.maxShift)

def shift (rules : FoldRules) (a b : ExactNumber) (f : Rat → Nat → Rat) : Option ExactResult :=
  if a.isShiftable b then
    some (.number (.of (rules.shifted a.kind b.kind) (f a.value b.value.num.toNat)))
  else none

/-- A binary operation on two numbers, if it applies. -/
def combine (rules : FoldRules) (op : BinaryOp) (a b : ExactNumber) : Option ExactResult :=
  let number (value : Rat) : Option ExactResult :=
    some (.number (.of (a.kind.wider b.kind) value))
  match op with
  | .add => number (a.value + b.value)
  | .sub => number (a.value - b.value)
  | .mul => number (a.value * b.value)
  | .div =>
    if b.value = 0 then none
    else if rules.truncates a b then number (a.value.num.tdiv b.value.num)
    else number (a.value / b.value)
  | .mod => if b.value = 0 then none else onIntegers rules a b Int.tmod
  | .bitAnd => onIntegers rules a b Int.land
  | .bitOr => onIntegers rules a b Int.lor
  | .bitXor => onIntegers rules a b Int.xor
  | .bitClear => onIntegers rules a b Int.ldiff
  | .shiftLeft => shift rules a b (fun n count => n * 2 ^ count)
  | .shiftRight => shift rules a b (fun n count => ⌊n / 2 ^ count⌋)
  | .and | .or => none
  | .equal => some (.truth (a.value = b.value))
  | .notEqual => some (.truth (a.value ≠ b.value))
  | .less => some (.truth (a.value < b.value))
  | .lessEqual => some (.truth (a.value ≤ b.value))
  | .greater => some (.truth (b.value < a.value))
  | .greaterEqual => some (.truth (b.value ≤ a.value))

end ExactNumber

end GoLowering
