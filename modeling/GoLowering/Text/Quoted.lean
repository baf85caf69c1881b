import GoLowering.Text.Visible

/-!
# Quoted text

Two ways to write a text between double quotes. `quote` escapes every character that does not
show by itself; `quoteInterpreted` escapes just what an interpreted string literal may not
hold.
-/

namespace GoLowering.Quoted

/-- A number in lower-case hexadecimal digits, without leading zeros. -/
def hex (n : Nat) : List Char := Nat.toDigits 16 n

/-- A character inside of quotes. The ones that do not show by themselves are written by
their code point between braces. -/
def escape (c : Char) : List Char :=
  match c with
  | '\x00' => ['\\', '0']
  | '\t' => ['\\', 't']
  | '\r' => ['\\', 'r']
  | '\n' => ['\\', 'n']
  | '\\' => ['\\', '\\']
  | '"' => ['\\', '"']
  | c =>
    if Visible.isVisible c then [c]
    else ['\\', 'u', '\x7b'] ++ hex c.toNat ++ ['\x7d']

def quote (text : String) : String :=
  String.ofList ('"' :: text.toList.flatMap escape ++ ['"'])

/-- A character of an interpreted string literal. -/
def escapeInterpreted (c : Char) : List Char :=
  match c with
  | '\\' => ['\\', '\\']
  | '"' => ['\\', '"']
  | '\n' => ['\\', 'n']
  | '\t' => ['\\', 't']
  | '\r' => ['\\', 'r']
  | c => [c]

/-- An interpreted string literal that stands for the text. -/
def quoteInterpreted (text : String) : String :=
  String.ofList ('"' :: text.toList.flatMap escapeInterpreted ++ ['"'])

end GoLowering.Quoted
