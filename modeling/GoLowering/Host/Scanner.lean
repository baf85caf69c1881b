import GoLowering.Constant.Literal
import GoLowering.Host.Grammar

/-!
# Scanning of host expressions

The host language finds the tokens of a text from the left, and makes each one as long as it can.
The scanner goes from character to character: in the state that it is in, a character belongs to the
token that is read, or it ends that token and begins another one, unless it is a blank.

A text with a comment, or with a line break outside of a raw text, has no tokens here: in an
expression that is written on one line there are none of them.
-/

namespace GoLowering

/-- The characters beyond ASCII that names may be written with. They are those of some version of
Unicode. -/
structure Alphabet where
  letter : Char → Bool
  digit : Char → Bool

namespace Scanner

def keywords : List String :=
  ["break", "case", "chan", "const", "continue", "default", "defer", "else", "fallthrough", "for",
    "func", "go", "goto", "if", "import", "interface", "map", "package", "range", "return",
    "select", "struct", "switch", "type", "var"]

/-- What stands last in the digits that are being read. -/
inductive Last where
  /-- What is in front of the digits. -/
  | mark
  | digit
  | underscore
  deriving DecidableEq, Repr

inductive State where
  | word
  /-- A zero that a mark of a radix may follow. -/
  | zero
  /-- Digits, octal ones if a zero is the first of them; `fits` if all of them are. -/
  | whole (octal fits : Bool) (last : Last)
  /-- The digits behind a mark of a radix. -/
  | marked (radix : Nat) (fits : Bool) (last : Last)
  /-- The digits behind a point. -/
  | fraction (last : Last)
  /-- The hexadecimal digits behind a point, which an exponent has to follow; `filled` if there is a
  digit on either side. -/
  | hexFraction (filled : Bool) (last : Last)
  | exponentMark
  /-- Behind the sign of an exponent, or its digits. -/
  | exponent (last : Last)
  | imaginary
  /-- Between two quotes of a kind; `filled` if something stands there already. -/
  | quoted (quote : Char) (filled : Bool)
  | escape (quote : Char)
  /-- The digits of a code that are still to come, and the value of those in front of them. -/
  | code (quote : Char) (digits radix value bound : Nat)
  | raw
  /-- A text or a rune with both of its quotes. -/
  | closed
  | symbol (text : String)
  /-- A mistake, or a comment. -/
  | bad
  deriving DecidableEq, Repr

def isBlank (c : Char) : Bool := c == ' ' || c == '\t' || c == '\r'

/-- Digits with one underscore at most between any two of them. -/
def underscore (last : Last) (go : Last → State) : State :=
  if last = .digit then go .underscore else .bad

/-- What can only follow a digit. -/
def behindDigit (last : Last) (state : State) : State :=
  if last = .digit then state else .bad

/-- What a symbol becomes with one more character. -/
def longer? : String → Char → Option String
  | "+", '+' => some "++"
  | "+", '=' => some "+="
  | "-", '-' => some "--"
  | "-", '=' => some "-="
  | "*", '=' => some "*="
  | "/", '=' => some "/="
  | "%", '=' => some "%="
  | "&", '&' => some "&&"
  | "&", '^' => some "&^"
  | "&", '=' => some "&="
  | "&^", '=' => some "&^="
  | "|", '|' => some "||"
  | "|", '=' => some "|="
  | "^", '=' => some "^="
  | "<", '<' => some "<<"
  | "<", '-' => some "<-"
  | "<", '=' => some "<="
  | "<<", '=' => some "<<="
  | ">", '>' => some ">>"
  | ">", '=' => some ">="
  | ">>", '=' => some ">>="
  | "=", '=' => some "=="
  | "!", '=' => some "!="
  | ":", '=' => some ":="
  | ".", '.' => some ".."
  | "..", '.' => some "..."
  | _, _ => none

/-- The characters that symbols begin with. -/
def symbols : List Char :=
  ['+', '-', '*', '/', '%', '&', '|', '^', '<', '>', '=', '!', '~', ':', '.', ',', ';', '(', ')',
    '[', ']', '\x7b', '\x7d']

/-- A number goes on with a character, unless it has ended before it. -/
def wholeStep? (c : Char) (octal fits : Bool) (last : Last) : Option State :=
  if c.isDigit then some (.whole octal (fits && (!octal || (Literal.digit? 8 c).isSome)) .digit)
  else if c = '_' then some (underscore last (.whole octal fits))
  else if c = '.' then some (behindDigit last (.fraction .mark))
  else if c = 'e' ∨ c = 'E' then some (behindDigit last .exponentMark)
  else if c = 'i' then some (behindDigit last .imaginary)
  else if c = 'p' ∨ c = 'P' then some .bad
  else none

def zeroStep? (c : Char) : Option State :=
  if c = 'x' ∨ c = 'X' then some (.marked 16 true .mark)
  else if c = 'o' ∨ c = 'O' then some (.marked 8 true .mark)
  else if c = 'b' ∨ c = 'B' then some (.marked 2 true .mark)
  else wholeStep? c true true .digit

def markedStep? (c : Char) (radix : Nat) (fits : Bool) (last : Last) : Option State :=
  if c.isDigit ∨ radix = 16 ∧ (Literal.digit? 16 c).isSome then
    some (.marked radix (fits && (Literal.digit? radix c).isSome) .digit)
  else if c = '_' then some (if last = .underscore then .bad else .marked radix fits .underscore)
  else if c = '.' then
    some (if radix = 16 ∧ last ≠ .underscore then .hexFraction (last = .digit) .mark else .bad)
  else if c = 'p' ∨ c = 'P' then some (if radix = 16 then behindDigit last .exponentMark else .bad)
  else if c = 'i' then some (if fits then behindDigit last .imaginary else .bad)
  else if c = 'e' ∨ c = 'E' then some .bad
  else none

def fractionStep? (c : Char) (last : Last) : Option State :=
  if c.isDigit then some (.fraction .digit)
  else if c = '_' then some (underscore last .fraction)
  else if c = 'e' ∨ c = 'E' then some (if last = .underscore then .bad else .exponentMark)
  else if c = 'i' then some (if last = .underscore then .bad else .imaginary)
  else if c = 'p' ∨ c = 'P' then some .bad
  else none

def hexFractionStep? (c : Char) (filled : Bool) (last : Last) : Option State :=
  if (Literal.digit? 16 c).isSome then some (.hexFraction true .digit)
  else if c = '_' then some (underscore last (.hexFraction filled))
  else if c = 'p' ∨ c = 'P' then
    some (if filled ∧ last ≠ .underscore then .exponentMark else .bad)
  else none

def exponentStep? (c : Char) (last : Last) : Option State :=
  if c.isDigit then some (.exponent .digit)
  else if c = '_' then some (underscore last .exponent)
  else if c = 'i' then some (behindDigit last .imaginary)
  else none

/-- A code with one more of its digits. -/
def codeStep (quote c : Char) (digits radix value bound : Nat) : State :=
  match Literal.digit? radix c with
  | none => .bad
  | some d =>
    let value := value * radix + d
    if digits ≠ 1 then .code quote (digits - 1) radix value bound
    else if value ≤ bound ∧ (bound = 255 ∨ value.isValidChar) then .quoted quote true
    else .bad

def escapeStep (quote c : Char) : State :=
  if c ∈ ['a', 'b', 'f', 'n', 'r', 't', 'v', '\\', quote] then .quoted quote true
  else if c = 'x' then .code quote 2 16 0 255
  else if c = 'u' then .code quote 4 16 0 0x10ffff
  else if c = 'U' then .code quote 8 16 0 0x10ffff
  else codeStep quote c 3 8 0 255

/-- Between quotes, where a rune has one character and a text any number of them. -/
def quotedStep (quote c : Char) (filled : Bool) : State :=
  if c = quote then (if quote = '\'' ∧ !filled then .bad else .closed)
  else if c = '\n' ∨ quote = '\'' ∧ filled then .bad
  else if c = '\\' then .escape quote
  else .quoted quote true

end Scanner

namespace Alphabet

open Scanner

variable (a : Alphabet)

def isLetter (c : Char) : Bool := if c.toNat < 128 then c.isAlpha || c == '_' else a.letter c

def isDigit (c : Char) : Bool := if c.toNat < 128 then c.isDigit else a.digit c

/-- The state after the first character of a token. -/
def start? (c : Char) : Option State :=
  if a.isLetter c then some .word
  else if c = '0' then some .zero
  else if c.isDigit then some (.whole false true .digit)
  else if c = '"' ∨ c = '\'' then some (.quoted c false)
  else if c = '\x60' then some .raw
  else if c ∈ symbols then some (.symbol c.toString)
  else none

/-- The state after another character of the token, unless the character is none of the token. -/
def step? (c : Char) : State → Option State
  | .word => if a.isLetter c || a.isDigit c then some .word else none
  | .quoted quote filled => some (quotedStep quote c filled)
  | .escape quote => some (escapeStep quote c)
  | .code quote digits radix value bound => some (codeStep quote c digits radix value bound)
  | .raw => some (if c = '\x60' then .closed else .raw)
  | .symbol text =>
    if text = "." ∧ c.isDigit then some (.fraction .digit)
    else if text = "/" ∧ (c = '/' ∨ c = '*') then some .bad
    else (longer? text c).map .symbol
  | .zero => zeroStep? c
  | .whole octal fits last => wholeStep? c octal fits last
  | .marked radix fits last => markedStep? c radix fits last
  | .fraction last => fractionStep? c last
  | .hexFraction filled last => hexFractionStep? c filled last
  | .exponentMark =>
    if c = '+' ∨ c = '-' then some (.exponent .mark) else exponentStep? c .mark
  | .exponent last => exponentStep? c last
  | .imaginary | .closed => none
  | .bad => some .bad

/-- The state after the characters of one token. -/
def run? : List Char → Option State
  | [] => none
  | c :: cs => do cs.foldlM (fun state d => a.step? d state) (← a.start? c)

end Alphabet

namespace Scanner

/-- Whether a literal can end in a state. -/
def State.isLiteral : State → Bool
  | zero | imaginary | closed => true
  | whole _ fits last | marked _ fits last => fits && last == .digit
  | fraction last => last != .underscore
  | exponent last => last == .digit
  | _ => false

def symbolToken? : String → Option Token
  | "." => some .dot
  | "," => some .comma
  | "(" => some .openParen
  | ")" => some .closeParen
  | "[" => some .openBracket
  | "]" => some .closeBracket
  | ".." => none
  | text => some (.operator text)

/-- The token that ends in a state, from its characters. -/
def finish? (state : State) (cs : List Char) : Option Token :=
  let text := String.ofList cs
  match state with
  | .word => if text ∈ keywords then none else some (.name text)
  | .symbol text => symbolToken? text
  | state => if state.isLiteral then some (.literal text) else none

end Scanner

namespace Alphabet

open Scanner

variable (a : Alphabet)

/-- The token that a text is as a whole. -/
def token? (cs : List Char) : Option Token := (a.run? cs).bind (finish? · cs)

/-- A character between tokens: it begins one, or is a blank. -/
def begin? (c : Char) : Option (Option (State × List Char)) :=
  match a.start? c with
  | some state => some (some (state, [c]))
  | none => if isBlank c then some none else none

/-- The tokens of a text, where one has been begun already if there is a state. -/
def scan : Option (State × List Char) → List Char → Option (List Token)
  | none, [] => some []
  | some (state, taken), [] => (finish? state taken).map ([·])
  | none, c :: cs => do scan (← a.begin? c) cs
  | some (state, taken), c :: cs =>
    match a.step? c state with
    | some next => scan (some (next, taken ++ [c])) cs
    | none => do
      let token ← finish? state taken
      let tokens ← scan (← a.begin? c) cs
      return token :: tokens

def tokens? (text : String) : Option (List Token) := a.scan none text.toList

/-- Whether a text is a name that is no keyword. -/
def IsIdentifier (text : String) : Prop := a.token? text.toList = some (.name text)

/-- Whether a text is a number, a rune or a text, without a sign. -/
def IsLiteral (text : String) : Prop := a.token? text.toList = some (.literal text)

/-- Whether a text would go on with a point right behind it, as numbers without one do. -/
def TakesPoint (text : String) : Prop := ∃ state ∈ a.run? text.toList, a.step? '.' state ≠ none

end Alphabet

end GoLowering
