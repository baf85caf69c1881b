import GoLowering.Constant.Binary64

/-!
# Constants

Values of compile-time constants. Integers and decimal fractions are exact; a value is kept
in floating point only where no exact form is available.
-/

namespace GoLowering

inductive Constant where
  | bool (value : Bool)
  | string (value : String)
  | int (value : Int)
  | rat (value : Rat)
  | float (value : Float)
  | complex (re im : Float)
  deriving Inhabited

namespace Constant

/-- An integral rational is an integer constant. -/
def ofRat (r : Rat) : Constant :=
  if r.den == 1 then .int r.num else .rat r

def toRat? : Constant → Option Rat
  | .int n => some n
  | .rat r => some r
  | _ => none

def toBool? : Constant → Option Bool
  | .bool b => some b
  | _ => none

/-- The nearest floating-point value of a real number. -/
def toFloat? : Constant → Option Float
  | .int n => some (Binary64.ofInt n)
  | .rat r => some (Binary64.ofRat r)
  | .float f => some f
  | _ => none

/-- The integer a real number is equal to, if it is one. -/
def toInt? : Constant → Option Int
  | .int n => some n
  | .rat r => if r.den == 1 then some r.num else none
  | .float f => Binary64.toInt? f
  | _ => none

def isBool : Constant → Bool
  | .bool _ => true
  | _ => false

def isString : Constant → Bool
  | .string _ => true
  | _ => false

def isRat : Constant → Bool
  | .rat _ => true
  | _ => false

/-- The number of binary digits of a natural number, none for zero. -/
def bitLength (n : Nat) : Nat :=
  if n == 0 then 0 else n.log2 + 1

/-- Whether an integer has a representation in `bits` bits. -/
def intFits (n : Int) (bits : Nat) (unsigned : Bool) : Bool :=
  if unsigned then
    decide (0 ≤ n) && decide (bitLength n.natAbs ≤ bits)
  else
    let limit : Int := Nat.pow 2 (bits - 1)
    decide (-limit ≤ n) && decide (n < limit)

/-- Whether a constant is an integer that has a representation in `bits` bits. -/
def fitsInteger (c : Constant) (bits : Nat) (unsigned : Bool) : Bool :=
  match c.toInt? with
  | some n => intFits n bits unsigned
  | none => false

theorem toRat?_ofRat (r : Rat) : (ofRat r).toRat? = some r := by
  unfold ofRat
  split
  · rename_i h
    have hd : r.den = 1 := by simpa using h
    simp only [toRat?, Option.some.injEq]
    exact Rat.ext (by simp) (by simp [hd])
  · rfl

end Constant

end GoLowering
