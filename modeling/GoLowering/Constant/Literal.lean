import GoLowering.Constant.Basic

/-!
# Literals as constants

Reading the text of integer, decimal and rune literals. Underscores are dropped before a
number is read; letters in it may have either case.
-/

namespace GoLowering.Literal

/-- The value of a digit in a radix of at most 36. -/
def digit? (radix : Nat) (c : Char) : Option Nat :=
  let value :=
    if '0' ≤ c ∧ c ≤ '9' then c.toNat - '0'.toNat
    else if 'a' ≤ c ∧ c ≤ 'z' then c.toNat - 'a'.toNat + 10
    else if 'A' ≤ c ∧ c ≤ 'Z' then c.toNat - 'A'.toNat + 10
    else radix
  if value < radix then some value else none

/-- The number written by a list of digits, the first being the most significant. -/
def digitsValue? (radix : Nat) (cs : List Char) : Option Nat :=
  cs.foldlM (fun n c => (digit? radix c).map (radix * n + ·)) 0

/-- A number needs at least one digit. -/
def natural? (radix : Nat) (cs : List Char) : Option Nat :=
  if cs.isEmpty then none else digitsValue? radix cs

def withoutSeparators (text : String) : List Char :=
  text.toList.filter (· != '_')

/-- An integer literal: decimal, `0x`, `0o`, `0b`, or octal after a leading zero. -/
def integer? (text : String) : Option Constant :=
  let read (radix : Nat) (cs : List Char) : Option Constant :=
    (natural? radix cs).map (fun n => .int n)
  match (withoutSeparators text).map Char.toLower with
  | '0' :: 'x' :: cs => read 16 cs
  | '0' :: 'o' :: cs => read 8 cs
  | '0' :: 'b' :: cs => read 2 cs
  | '0' :: c :: cs => read 8 (c :: cs)
  | cs => read 10 cs

/-! ## Decimal literals -/

/-- Splits at the first character of the given kind, which is dropped. -/
def splitAt? (isMark : Char → Bool) (cs : List Char) : Option (List Char × List Char) :=
  match cs.dropWhile (!isMark ·) with
  | _ :: after => some (cs.takeWhile (!isMark ·), after)
  | [] => none

def signed? (cs : List Char) : Option Int :=
  match cs with
  | '+' :: ds => (natural? 10 ds).map (fun n => (n : Int))
  | '-' :: ds => (natural? 10 ds).map (fun n => -(n : Int))
  | ds => (natural? 10 ds).map (fun n => (n : Int))

/-- The digits before and after the point, and the exponent, of a decimal number. -/
structure Decimal where
  whole : List Char
  fraction : List Char
  exponent : Int

namespace Decimal

def ofList? (cs : List Char) : Option Decimal := do
  let (mantissa, exponent) ←
    match splitAt? (fun c => c == 'e' || c == 'E') cs with
    | some (mantissa, ds) => (signed? ds).map (mantissa, ·)
    | none => some (cs, 0)
  match splitAt? (· == '.') mantissa with
  | some (whole, fraction) => return ⟨whole, fraction, exponent⟩
  | none => return ⟨mantissa, [], exponent⟩

def digits? (d : Decimal) : Option Nat :=
  digitsValue? 10 (d.whole ++ d.fraction)

/-- The power of ten that the digits, read as one integer, are multiplied with. -/
def scale (d : Decimal) : Int :=
  d.exponent - d.fraction.length

/-- Powers of ten beyond this one are not written out. -/
def maxScale : Nat := 1024

def toRat? (d : Decimal) : Option Rat := do
  let n ← d.digits?
  match d.scale with
  | .ofNat e => if e ≤ maxScale then some ((n * Nat.pow 10 e : Nat) : Rat) else none
  | .negSucc e =>
    if e + 1 ≤ maxScale then some (mkRat n (Nat.pow 10 (e + 1))) else none

/-- The nearest floating-point value; there has to be a digit. -/
def float? (negative : Bool) (d : Decimal) : Option Float := do
  let n ← natural? 10 (d.whole ++ d.fraction)
  return Binary64.ofDecimal negative n d.scale

end Decimal

def special? (negative : Bool) (cs : List Char) : Option Float :=
  match String.ofList (cs.map Char.toLower) with
  | "inf" | "infinity" =>
    some (if negative then -(1.0 / 0.0) else 1.0 / 0.0)
  | "nan" => some (0.0 / 0.0)
  | _ => none

def unsignedFloat? (negative : Bool) (cs : List Char) : Option Float :=
  match special? negative cs with
  | some f => some f
  | none => (Decimal.ofList? cs).bind (Decimal.float? negative)

/-- A signed decimal number, or a name of infinity or of the undefined value. -/
def float? (cs : List Char) : Option Float :=
  match cs with
  | '+' :: ds => unsignedFloat? false ds
  | '-' :: ds => unsignedFloat? true ds
  | ds => unsignedFloat? false ds

/-- A decimal literal, exact unless its power of ten is too large. -/
def decimal? (text : String) : Option Constant :=
  let cs := withoutSeparators text
  match (Decimal.ofList? cs).bind Decimal.toRat? with
  | some r => some (Constant.ofRat r)
  | none => (float? cs).map .float

/-! ## Rune literals -/

/-- The characters between a pair of single quotes. -/
def unquoted? (cs : List Char) : Option (List Char) :=
  match cs with
  | '\'' :: rest => if rest.getLast? == some '\'' then some rest.dropLast else none
  | _ => none

/-- A hexadecimal number of at most 32 bits; a plus sign may stand before it. -/
def hex32? (cs : List Char) : Option Nat :=
  let ds := match cs with
    | '+' :: rest => rest
    | _ => cs
  (natural? 16 ds).filter (· < Nat.pow 2 32)

/-- The code after a backslash. -/
def escape? : List Char → Option Nat
  | 'n' :: _ => some 10
  | 't' :: _ => some 9
  | 'r' :: _ => some 13
  | '0' :: _ => some 0
  | '\\' :: _ => some 92
  | '\'' :: _ => some 39
  | 'a' :: _ => some 7
  | 'b' :: _ => some 8
  | 'f' :: _ => some 12
  | 'v' :: _ => some 11
  | 'x' :: ds | 'u' :: ds | 'U' :: ds => hex32? ds
  | _ => none

/-- A rune literal stands for the code of its first character or escape. -/
def rune? (text : String) : Option Constant := do
  let code ←
    match ← unquoted? text.toList with
    | [] => none
    | '\\' :: rest => escape? rest
    | c :: _ => some c.toNat
  return .int code

end GoLowering.Literal
