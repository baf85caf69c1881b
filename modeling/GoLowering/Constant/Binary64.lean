/-!
# Binary floating point

Exact conversions between rational numbers and IEEE 754 binary64 values: a finite value is
`± m · 2^e` with `m < 2^53`, and a rational is turned into the nearest such value, a tie
going to the even `m`.
-/

namespace GoLowering.Binary64

/-- The sign, the integer `m` and the exponent `e` of a finite `± m · 2^e`. -/
structure Parts where
  negative : Bool
  significand : Nat
  exponent : Int
  deriving Repr

/-- Reads the parts off the bits; infinities and NaN have none. -/
def parts? (bits : UInt64) : Option Parts :=
  let word : Nat := bits.toNat
  let negative := word / Nat.pow 2 63 == 1
  let field : Nat := word / Nat.pow 2 52 % Nat.pow 2 11
  let fraction : Nat := word % Nat.pow 2 52
  if field == 2047 then none
  else if field == 0 then some ⟨negative, fraction, -1074⟩
  else some ⟨negative, Nat.pow 2 52 + fraction, field - 1075⟩

def Parts.toInt? (p : Parts) : Option Int :=
  let signed (n : Nat) : Int := if p.negative then -n else n
  match p.exponent with
  | .ofNat e => some (signed (p.significand * Nat.pow 2 e))
  | .negSucc e =>
    let d := Nat.pow 2 (e + 1)
    if p.significand % d == 0 then some (signed (p.significand / d)) else none

/-- The integer a value stands for, when it is one. -/
def toInt? (f : Float) : Option Int :=
  (parts? f.toBits).bind Parts.toInt?

/-- The quotient rounded to the nearest integer, a tie going to the even one. -/
def roundQuotient (num den : Nat) : Nat :=
  let q := num / den
  let twice := 2 * (num % den)
  if twice < den then q
  else if den < twice then q + 1
  else q + q % 2

/-- Whether `2^e` is above the quotient. -/
def quotientBelow (num den : Nat) (e : Int) : Bool :=
  match e with
  | .ofNat k => num < den * Nat.pow 2 k
  | .negSucc k => num * Nat.pow 2 (k + 1) < den

/-- The bits of the nonnegative value nearest to a quotient. Values from `2^1024` upwards,
after rounding, are infinite. -/
def nearestBits (num den : Nat) : Nat :=
  if num == 0 then 0 else
  -- the quotient lies in [2^(guess - 1), 2^(guess + 1))
  let guess : Int := (Nat.log2 num : Int) - (Nat.log2 den : Int)
  let top : Int := if quotientBelow num den guess then guess else guess + 1
  -- the unit of the last place for a quotient in [2^(top - 1), 2^top)
  let unit : Int := max (top - 53) (-1074)
  let m :=
    match unit with
    | .ofNat k => roundQuotient num (den * Nat.pow 2 k)
    | .negSucc k => roundQuotient (num * Nat.pow 2 (k + 1)) den
  -- a significand rounded up to 2^53 carries into the exponent field by addition
  let field := (unit + 1074).toNat
  min (field * Nat.pow 2 52 + m) (2047 * Nat.pow 2 52)

def ofParts (negative : Bool) (num den : Nat) : Float :=
  let magnitude := nearestBits num den
  Float.ofBits (UInt64.ofNat (if negative then Nat.pow 2 63 + magnitude else magnitude))

def ofRat (r : Rat) : Float :=
  ofParts (decide (r.num < 0)) r.num.natAbs r.den

def ofInt (n : Int) : Float :=
  ofParts (decide (n < 0)) n.natAbs 1

/-- The value nearest to `± digits · 10^exponent`. Far exponents are decided without
writing the power out. -/
def ofDecimal (negative : Bool) (digits : Nat) (exponent : Int) : Float :=
  if digits == 0 || exponent + Nat.log2 digits < -1200 then ofParts negative 0 1
  else if exponent > 1200 then ofParts negative (Nat.pow 2 1200) 1
  else
    match exponent with
    | .ofNat e => ofParts negative (digits * Nat.pow 10 e) 1
    | .negSucc e => ofParts negative digits (Nat.pow 10 (e + 1))

def isFinite (f : Float) : Bool :=
  (parts? f.toBits).isSome

end GoLowering.Binary64
