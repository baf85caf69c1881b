import GoLowering.Toml.Reader

/-!
# TOML strings

Basic strings have escapes and literal strings have none. Between three quotes both may hold
line breaks, and one or two quotes in a row.
-/

namespace GoLowering.Toml.Reader

/-- The character of an escape by one letter. -/
def letterEscape? : Char → Option Char
  | 'b' => some '\x08'
  | 't' => some '\t'
  | 'n' => some '\n'
  | 'f' => some '\x0c'
  | 'r' => some '\r'
  | '"' => some '"'
  | '\\' => some '\\'
  | _ => none

/-- The character with a code point, which must not be a surrogate. -/
def codePoint? (n : Nat) : Option Char :=
  if h : n.isValidChar then some ⟨n.toUInt32, by
    have hlt : n < UInt32.size := by
      rcases h with h | h <;> simp [UInt32.size] <;> omega
    simpa [UInt32.isValidChar, Nat.toUInt32, UInt32.toNat_ofNat_of_lt' hlt] using h⟩
  else none

/-- A character given by so many hexadecimal digits. -/
def hexEscape (count : Nat) : Reader Char := do
  let ds ← (List.replicate count ()).mapM (fun _ => oneOf (isDigitIn 16))
  match (Literal.digitsValue? 16 ds).bind codePoint? with
  | some c => return c
  | none => failed

/-- What follows a backslash. -/
def escape : Reader Char := do
  match ← oneOf (fun _ => true) with
  | 'u' => hexEscape 4
  | 'U' => hexEscape 8
  | c =>
    match letterEscape? c with
    | some c => return c
    | none => failed

/-- The rest of a basic string. -/
def basicRest : Nat → Reader (List Char)
  | 0 => failed
  | steps + 1 => do
    match ← oneOf isPlain with
    | '"' => return []
    | '\\' => do
      let c ← escape
      return c :: (← basicRest steps)
    | c => return c :: (← basicRest steps)

/-- A basic string on one line. -/
def basicString : Reader String := do
  char '"'
  return String.ofList (← basicRest ((← get).length + 1))

/-- A literal string on one line. -/
def literalString : Reader String := do
  char '\''
  let cs ← run (fun c => isPlain c && c != '\'')
  char '\''
  return String.ofList cs

/-- Takes white space and line breaks. -/
def blanks : Nat → Reader Unit
  | 0 => pure ()
  | steps + 1 => do
    match ← optional (lineBreak <|> (do let _ ← oneOf isSpace)) with
    | some _ => blanks steps
    | none => pure ()

/-- Takes the end of a line after a backslash, and the blanks that follow. -/
def continuation : Reader Unit := do
  spaces
  lineBreak
  blanks (← get).length

/-- The quotes at the front: those that belong to the string, and whether it ends after them.
Of five quotes the first two belong to the string. -/
def quotes (quote : Char) : Reader (List Char × Bool) := do
  let found := (← get).takeWhile (· == quote)
  let taken := min found.length 5
  modify (·.drop taken)
  if taken < 3 then return (found, false)
  else return (found.take (taken - 3), true)

/-- The rest of a string between three quotes. -/
def longRest (quote : Char) (escapes : Bool) : Nat → Reader (List Char)
  | 0 => failed
  | steps + 1 => do
    match ← peek? with
    | none => failed
    | some c =>
      if c == quote then
        let (own, ended) ← quotes quote
        if ended then return own else return own ++ (← longRest quote escapes steps)
      else if c == '\n' || c == '\r' then
        lineBreak
        return '\n' :: (← longRest quote escapes steps)
      else
        let _ ← oneOf isPlain
        if escapes && c == '\\' then
          match ← optional escape with
          | some c => return c :: (← longRest quote escapes steps)
          | none => do
            continuation
            longRest quote escapes steps
        else
          return c :: (← longRest quote escapes steps)

/-- A string between three quotes; a line break right after them does not count. -/
def longString (quote : Char) (escapes : Bool) : Reader String := do
  (List.replicate 3 quote).forM char
  let _ ← optional lineBreak
  return String.ofList (← longRest quote escapes ((← get).length + 1))

def string : Reader String :=
  longString '"' true <|> basicString <|> longString '\'' false <|> literalString

end GoLowering.Toml.Reader

/-!
## TOML strings as written

A string is written in the first of some styles that shows it without escapes: basic, literal,
basic between three quotes, literal between three quotes. If none does, it is written with
escapes, and between three quotes if it has line breaks.
-/

namespace GoLowering.Toml

/-- The length of the longest run of a character. -/
def longestRun (c : Char) (text : List Char) : Nat :=
  let step (state : Nat × Nat) (d : Char) : Nat × Nat :=
    let current := if d == c then state.1 + 1 else 0
    (current, max state.2 current)
  (text.foldl step (0, 0)).2

/-- Whether a character has to be escaped wherever it stands; the tab and the line break have
a say of their own. -/
def isControl (c : Char) : Bool :=
  (c.toNat < 32 && c != '\t' && c != '\n') || c.toNat == 127

inductive Style where
  | basic | literal | longBasic | longLiteral
  deriving DecidableEq, Repr

/-- The style that a text is written in. -/
def Style.of (text : List Char) : Style :=
  let controls := text.any isControl
  let breaks := text.contains '\n'
  let backslashes := text.contains '\\'
  let doubles := longestRun '"' text
  let singles := longestRun '\'' text
  if !controls && !backslashes && doubles == 0 && !breaks then .basic
  else if !controls && singles == 0 && !breaks then .literal
  else if !controls && !backslashes && doubles ≤ 2 then .longBasic
  else if !controls && singles ≤ 2 then .longLiteral
  else if breaks then .longBasic
  else .basic

def upperHexDigit (n : Nat) : Char :=
  if n < 10 then Char.ofNat ('0'.toNat + n) else Char.ofNat ('A'.toNat + (n - 10))

/-- The escape of a character that has one in a basic string. -/
def escape? (isLong : Bool) (c : Char) : Option (List Char) :=
  match c with
  | '\x08' => some ['\\', 'b']
  | '\t' => some ['\\', 't']
  | '\n' => if isLong then none else some ['\\', 'n']
  | '\x0c' => some ['\\', 'f']
  | '\r' => some ['\\', 'r']
  | '\\' => some ['\\', '\\']
  | c =>
    if isControl c then
      some ['\\', 'u', '0', '0', upperHexDigit (c.toNat / 16), upperHexDigit (c.toNat % 16)]
    else none

/-- The characters of a basic string, after so many quotes in a row. Between three quotes only
the third quote in a row is escaped; an escape ends the row. -/
def escapeFrom (isLong : Bool) : Nat → List Char → List Char
  | _, [] => []
  | run, '"' :: rest =>
    if run < (if isLong then 2 else 0) then '"' :: escapeFrom isLong (run + 1) rest
    else '\\' :: '"' :: escapeFrom isLong 0 rest
  | _, c :: rest => (escape? isLong c).getD [c] ++ escapeFrom isLong 0 rest

/-- A text as a TOML string. -/
def quote (text : String) : String :=
  let cs := text.toList
  match Style.of cs with
  | .basic => String.ofList ('"' :: escapeFrom false 0 cs ++ ['"'])
  | .literal => "'" ++ text ++ "'"
  | .longBasic => "\"\"\"\n" ++ String.ofList (escapeFrom true 0 cs) ++ "\"\"\""
  | .longLiteral => "'''\n" ++ text ++ "'''"

end GoLowering.Toml
