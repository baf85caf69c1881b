import GoLowering.Constant.Literal

/-!
# Reading TOML

Readers take the beginning of a text and leave the rest. Those for white space, comments and
single values that are no strings stand here.
-/

namespace GoLowering.Toml

/-- A reader takes something from the front of a text, or fails. -/
abbrev Reader := StateT (List Char) Option

namespace Reader

def failed {α : Type} : Reader α := fun _ => none

/-- The next character, which stays. -/
def peek? : Reader (Option Char) := fun cs => some (cs.head?, cs)

/-- A character of a class. -/
def oneOf (inClass : Char → Bool) : Reader Char
  | c :: rest => if inClass c then some (c, rest) else none
  | [] => none

def char (c : Char) : Reader Unit := do
  let _ ← oneOf (· == c)

/-- A word. -/
def word (text : String) : Reader Unit := text.toList.forM char

/-- The longest run of characters of a class, which may be empty. -/
def run (inClass : Char → Bool) : Reader (List Char) := fun cs =>
  some (cs.takeWhile inClass, cs.dropWhile inClass)

/-- What a reader takes, or nothing. -/
def optional {α : Type} (reader : Reader α) : Reader (Option α) :=
  (some <$> reader) <|> pure none

/-- Succeeds at the end of the text. -/
def finished : Reader Unit
  | [] => some ((), [])
  | _ :: _ => none

def isSpace (c : Char) : Bool := c == ' ' || c == '\t'

def spaces : Reader Unit := do
  let _ ← run isSpace

/-- Whether a character may stand in a comment: control characters other than the tab may
not. -/
def isPlain (c : Char) : Bool := c == '\t' || (32 ≤ c.toNat && c.toNat != 127)

def comment : Reader Unit := do
  char '#'
  let _ ← run isPlain

def lineBreak : Reader Unit := char '\n' <|> (do char '\r'; char '\n')

/-- What may follow on the line of a value or a header. -/
def lineEnd : Reader Unit := do
  spaces
  let _ ← optional comment
  lineBreak <|> finished

/-- The white space, line breaks and comments between the items of an array. -/
def gap : Nat → Reader Unit
  | 0 => failed
  | steps + 1 => do
    spaces
    match ← peek? with
    | some '#' => do comment; lineBreak; gap steps
    | some '\n' | some '\r' => do lineBreak; gap steps
    | _ => return ()

/-! ## Numbers -/

def isDigitIn (radix : Nat) (c : Char) : Bool := (Literal.digit? radix c).isSome

def isDigit : Char → Bool := isDigitIn 10

/-- Digits, of which any two may be separated by one underscore. -/
def separated (radix : Nat) : List Char → Option (List Char × List Char)
  | [] => none
  | c :: '_' :: rest =>
    if isDigitIn radix c then (separated radix rest).map (fun (ds, rest) => (c :: ds, rest))
    else none
  | c :: rest =>
    if isDigitIn radix c then
      match rest with
      | [] => some ([c], [])
      | d :: _ =>
        if isDigitIn radix d then (separated radix rest).map (fun (ds, rest) => (c :: ds, rest))
        else some ([c], rest)
    else none

def digits (radix : Nat) : Reader (List Char) := separated radix

/-- A sign; there is none if the text starts with something else. -/
def sign : Reader (List Char) := do
  match ← optional (oneOf (fun c => c == '+' || c == '-')) with
  | some c => return [c]
  | none => return []

/-- Decimal digits without a leading zero. -/
def wholePart : Reader (List Char) := do
  match ← digits 10 with
  | '0' :: _ :: _ => failed
  | ds => return ds

/-- An integer, as long as it has 64 bits. -/
def bounded (n : Int) : Reader Int :=
  if Constant.intFits n 64 false then pure n else failed

/-- An integer after the mark of its radix. -/
def marked (mark : String) (radix : Nat) : Reader Int := do
  word mark
  match Literal.digitsValue? radix (← digits radix) with
  | some n => bounded n
  | none => failed

def decimalInteger : Reader Int := do
  let sign ← sign
  match Literal.signed? (sign ++ (← wholePart)) with
  | some n => bounded n
  | none => failed

def integer : Reader Int :=
  marked "0x" 16 <|> marked "0o" 8 <|> marked "0b" 2 <|> decimalInteger

def exponent : Reader (List Char) := do
  let _ ← oneOf (fun c => c == 'e' || c == 'E')
  let sign ← sign
  return 'e' :: sign ++ (← digits 10)

def fraction : Reader (List Char) := do
  char '.'
  return '.' :: (← digits 10)

/-- What follows the whole part of a number that is no integer. -/
def decimalTail : Reader (List Char) :=
  exponent <|> (do
    let fraction ← fraction
    return fraction ++ ((← optional exponent).getD []))

/-- A decimal number. One that is too large is refused, unless it is negative. -/
def decimal : Reader Float := do
  let sign ← sign
  let whole ← wholePart
  match Literal.float? (sign ++ whole ++ (← decimalTail)) with
  | some f => if f == 1.0 / 0.0 then failed else return f
  | none => failed

def specialFloat : Reader Float := do
  let sign ← sign
  let magnitude ← (do word "inf"; pure (1.0 / 0.0)) <|> (do word "nan"; pure (0.0 / 0.0))
  return if sign == ['-'] then -magnitude else magnitude

/-! ## Dates and times -/

/-- A number of exactly so many digits. -/
def fixed : Nat → Nat → Reader Nat
  | 0, n => pure n
  | count + 1, n => do
    let c ← oneOf isDigit
    fixed count (10 * n + (c.toNat - '0'.toNat))

/-- A number of two digits within bounds. -/
def twoDigits (low high : Nat) : Reader Nat := do
  let n ← fixed 2 0
  if low ≤ n && n ≤ high then return n else failed

def isLeapYear (year : Nat) : Bool :=
  year % 4 == 0 && (year % 100 != 0 || year % 400 == 0)

def daysIn (year month : Nat) : Nat :=
  match month with
  | 2 => if isLeapYear year then 29 else 28
  | 4 | 6 | 9 | 11 => 30
  | _ => 31

def date : Reader Unit := do
  let year ← fixed 4 0
  char '-'
  let month ← twoDigits 1 12
  char '-'
  let _ ← twoDigits 1 (daysIn year month)

def time : Reader Unit := do
  let _ ← twoDigits 0 23
  char ':'
  let _ ← twoDigits 0 59
  char ':'
  let _ ← twoDigits 0 60
  let _ ← optional (do
    char '.'
    let _ ← oneOf isDigit
    run isDigit)

/-- The distance from universal time. -/
def offset : Reader Unit :=
  (do let _ ← oneOf (fun c => c == 'Z' || c == 'z')) <|> (do
    let _ ← oneOf (fun c => c == '+' || c == '-')
    let _ ← twoDigits 0 23
    char ':'
    let _ ← twoDigits 0 59)

/-- A date with or without a time, or a time alone. -/
def moment : Reader Unit :=
  (do
    date
    let _ ← optional (do
      let _ ← oneOf (fun c => c == 'T' || c == 't' || c == ' ')
      time
      optional offset)) <|> time

/-- Takes what a reader takes as text. -/
def textOf (reader : Reader Unit) : Reader String := fun cs =>
  match reader cs with
  | some (_, rest) => some (String.ofList (cs.take (cs.length - rest.length)), rest)
  | none => none

end Reader

end GoLowering.Toml
