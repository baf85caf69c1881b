import GoLowering.Constant.Basic
import GoLowering.Operator
import GoLowering.Types.Basic

/-!
# Folding of constants

Arithmetic on untyped constants. Integers and fractions are computed exactly; a division of
integers truncates toward zero unless an exact quotient is asked for.
-/

namespace GoLowering

/-! ## Bits of integers

Bitwise operations on integers read in two's complement with infinitely many sign bits. A
negative integer `-(n + 1)` has the complemented bits of `n`. -/

namespace Bitwise

/-- The bits of `m` that are not set in `n`. -/
def clear (m n : Nat) : Nat := m - (m &&& n)

def and : Int → Int → Int
  | .ofNat m, .ofNat n => .ofNat (m &&& n)
  | .ofNat m, .negSucc n => .ofNat (clear m n)
  | .negSucc m, .ofNat n => .ofNat (clear n m)
  | .negSucc m, .negSucc n => .negSucc (m ||| n)

def or : Int → Int → Int
  | .ofNat m, .ofNat n => .ofNat (m ||| n)
  | .ofNat m, .negSucc n => .negSucc (clear n m)
  | .negSucc m, .ofNat n => .negSucc (clear m n)
  | .negSucc m, .negSucc n => .negSucc (m &&& n)

def xor : Int → Int → Int
  | .ofNat m, .ofNat n => .ofNat (m ^^^ n)
  | .ofNat m, .negSucc n => .negSucc (m ^^^ n)
  | .negSucc m, .ofNat n => .negSucc (m ^^^ n)
  | .negSucc m, .negSucc n => .ofNat (m ^^^ n)

/-- The complement of every bit. -/
def not (n : Int) : Int := -1 - n

def shiftLeft (n : Int) (count : Nat) : Int := n * Nat.pow 2 count

/-- Rounds toward negative infinity. -/
def shiftRight (n : Int) (count : Nat) : Int := n.fdiv (Nat.pow 2 count)

end Bitwise

/-! ## Folding -/

inductive FoldError where
  | divisionByZero
  | overflow
  /-- The operator does not apply to these constants. -/
  | invalid
  deriving DecidableEq, Repr

def FoldError.name : FoldError → String
  | divisionByZero => "DivisionByZero" | overflow => "Overflow" | invalid => "Invalid"

namespace Constant

/-- Whether a comparison holds of two values in this order. -/
def orderHolds (op : BinaryOp) (order : Ordering) : Bool :=
  match op with
  | .equal => order == .eq
  | .notEqual => order != .eq
  | .less => order == .lt
  | .lessEqual => order != .gt
  | .greater => order == .gt
  | .greaterEqual => order != .lt
  | _ => false

def foldBool (op : BinaryOp) (a b : Bool) : Except FoldError Constant :=
  match op with
  | .and => .ok (.bool (a && b))
  | .or => .ok (.bool (a || b))
  | .equal => .ok (.bool (a == b))
  | .notEqual => .ok (.bool (a != b))
  | _ => .error .invalid

/-- The largest shift that is carried out. -/
def maxShift : Nat := Nat.pow 2 16

def shiftCount (n : Int) : Except FoldError Nat :=
  if n < 0 then .error .invalid
  else if n.toNat ≤ maxShift then .ok n.toNat
  else .error .overflow

def foldInt (op : BinaryOp) (a b : Int) : Except FoldError Int :=
  match op with
  | .mod => if b == 0 then .error .divisionByZero else .ok (a.tmod b)
  | .bitAnd => .ok (Bitwise.and a b)
  | .bitOr => .ok (Bitwise.or a b)
  | .bitXor => .ok (Bitwise.xor a b)
  | .bitClear => .ok (Bitwise.and a (Bitwise.not b))
  | .shiftLeft => (shiftCount b).map (Bitwise.shiftLeft a)
  | .shiftRight => (shiftCount b).map (Bitwise.shiftRight a)
  | _ => .error .invalid

def ratOrder (a b : Rat) : Ordering :=
  if a < b then .lt else if a = b then .eq else .gt

def foldRat (op : BinaryOp) (a b : Rat) (exactDivision : Bool) :
    Except FoldError Constant :=
  let integers := a.den == 1 && b.den == 1
  if op.isComparison then
    .ok (.bool (orderHolds op (ratOrder a b)))
  else
    match op with
    | .add => .ok (ofRat (a + b))
    | .sub => .ok (ofRat (a - b))
    | .mul => .ok (ofRat (a * b))
    | .div =>
      if b = 0 then .error .divisionByZero
      else if integers && !exactDivision then .ok (.int (a.num.tdiv b.num))
      else .ok (ofRat (a / b))
    | _ =>
      if integers then (foldInt op a.num b.num).map .int else .error .invalid

def floatOrder? (a b : Float) : Option Ordering :=
  if a < b then some .lt
  else if a == b then some .eq
  else if b < a then some .gt
  else none

/-- A result that is not finite counts as an overflow. -/
def finite (f : Float) : Except FoldError Constant :=
  if Binary64.isFinite f then .ok (.float f) else .error .overflow

def foldFloat (op : BinaryOp) (a b : Float) : Except FoldError Constant :=
  if op.isComparison then
    match floatOrder? a b with
    | some order => .ok (.bool (orderHolds op order))
    | none => .error .invalid
  else
    match op with
    | .add => finite (a + b)
    | .sub => finite (a - b)
    | .mul => finite (a * b)
    | .div => if b == 0.0 then .error .divisionByZero else finite (a / b)
    | _ => .error .invalid

/-- Applies a binary operator to two constants. -/
def foldBinary (op : BinaryOp) (left right : Constant) (exactDivision : Bool) :
    Except FoldError Constant :=
  match left, right with
  | .bool a, .bool b => foldBool op a b
  | _, _ =>
    match left.toRat?, right.toRat? with
    | some a, some b => foldRat op a b exactDivision
    | _, _ =>
      match left.toFloat?, right.toFloat? with
      | some a, some b => foldFloat op a b
      | _, _ => .error .invalid

/-- Applies a unary operator to a constant. -/
def foldUnary (op : UnaryOp) (operand : Constant) : Except FoldError Constant :=
  match op, operand with
  | .not, .bool b => .ok (.bool (!b))
  | .plus, c => if c.toFloat?.isSome then .ok c else .error .invalid
  | .negate, .int n => .ok (.int (-n))
  | .negate, .rat r => .ok (.rat (-r))
  | .negate, .float f => .ok (.float (-f))
  | .bitNot, .int n => .ok (.int (Bitwise.not n))
  | _, _ => .error .invalid

/-! ## Kinds of constants -/

/-- Among the ordinary untyped kinds the later one wins in a binary operation. -/
def rank : BasicType → Nat
  | .untypedInt => 0
  | .untypedRune => 1
  | .untypedFloat => 2
  | .untypedComplex => 3
  | _ => 4

/-- The kind of the result of a binary operation on two untyped constants. -/
def promote (left right : BasicType) (value : Constant) : BasicType :=
  if value.isBool then .untypedBool
  else if left.isUntypedBig || right.isUntypedBig then
    let fractional (kind : BasicType) : Bool :=
      kind == .untypedBigRat || kind == .untypedFloat
    if fractional left || fractional right || value.isRat then .untypedBigRat
    else .untypedBigInt
  else if rank right ≤ rank left then left
  else right

/-- The largest finite value of a 32-bit float. -/
def maxFloat32 : Float := Binary64.ofInt ((Nat.pow 2 24 - 1) * Nat.pow 2 104 : Nat)

/-- Whether a constant is a value of a basic type. -/
def representable (value : Constant) (kind : BasicType) : Bool :=
  match kind.integerBits? with
  | some bits => value.fitsInteger bits kind.isUnsigned
  | none =>
    match kind with
    | .float32 =>
      match value.toFloat? with
      | some f => f.abs ≤ maxFloat32
      | none => false
    | .float64 | .complex64 | .complex128 =>
      (match value.toFloat? with
        | some f => Binary64.isFinite f
        | none => false) ||
      (match value with
        | .complex _ _ => true
        | _ => false)
    | .bool => value.isBool
    | .string => value.isString
    | _ => true

end Constant

end GoLowering
