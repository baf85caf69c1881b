/-!
# JSON text

Values of the JSON format and their text with one member per line, indented by two spaces
per level. Members keep the order they are given in.
-/

namespace GoLowering

inductive Json where
  | null
  | bool (value : Bool)
  | number (value : Int)
  /-- A number that is not an integer; only its being one matters. -/
  | fraction
  | string (value : String)
  | array (items : List Json)
  | object (members : List (String × Json))
  deriving Inhabited

namespace Json

def hexDigit (n : Nat) : Char :=
  if n < 10 then Char.ofNat ('0'.toNat + n) else Char.ofNat ('a'.toNat + (n - 10))

/-- A character inside of quotes. Control characters below the space are escaped, the
others are not. -/
def escape (c : Char) : List Char :=
  match c with
  | '"' => ['\\', '"']
  | '\\' => ['\\', '\\']
  | '\n' => ['\\', 'n']
  | '\r' => ['\\', 'r']
  | '\t' => ['\\', 't']
  | '\x08' => ['\\', 'b']
  | '\x0c' => ['\\', 'f']
  | c =>
    if c.toNat < 32 then
      ['\\', 'u', '0', '0', hexDigit (c.toNat / 16), hexDigit (c.toNat % 16)]
    else [c]

def quote (text : String) : String :=
  String.ofList ('"' :: text.toList.flatMap escape ++ ['"'])

def indentation (level : Nat) : String :=
  String.ofList (List.replicate (2 * level) ' ')

/-- Items between brackets, one per line. -/
def block (level : Nat) (opening closing : String) (items : List String) : String :=
  match items with
  | [] => opening ++ closing
  | items =>
    let line (item : String) : String := "\n" ++ indentation (level + 1) ++ item
    opening ++ String.intercalate "," (items.map line) ++ "\n" ++ indentation level ++ closing

mutual

/-- The text of a value that starts at some level of indentation. -/
def prettyAt (level : Nat) : Json → String
  | null => "null"
  | bool true => "true"
  | bool false => "false"
  | number n => toString n
  | fraction => "0.5"
  | string s => quote s
  | array items => block level "[" "]" (prettyItems level items)
  | object members => block level "\x7b" "\x7d" (prettyMembers level members)

def prettyItems (level : Nat) : List Json → List String
  | [] => []
  | item :: rest => prettyAt (level + 1) item :: prettyItems level rest

def prettyMembers (level : Nat) : List (String × Json) → List String
  | [] => []
  | (name, value) :: rest =>
    (quote name ++ ": " ++ prettyAt (level + 1) value) :: prettyMembers level rest

end

def pretty (value : Json) : String := prettyAt 0 value

end Json

end GoLowering
