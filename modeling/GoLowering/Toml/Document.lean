import GoLowering.Toml.Basic
import GoLowering.Toml.Strings

/-!
# TOML documents

Keys, values, and documents as the entries of their top table. Values are nested less than 80
levels deep, and keys have less than 80 parts.
-/

namespace GoLowering.Toml

namespace Reader

/-- Whether a character may stand in a key without quotes. -/
def isKeyChar (c : Char) : Bool :=
  isDigit c || ('a' ≤ c && c ≤ 'z') || ('A' ≤ c && c ≤ 'Z') || c == '_' || c == '-'

def simpleKey : Reader String := do
  match ← peek? with
  | some '"' => basicString
  | some '\'' => literalString
  | _ => do
    let c ← oneOf isKeyChar
    return String.ofList (c :: (← run isKeyChar))

/-- The parts of a dotted key before the last, and the last. White space around the parts is
taken too. -/
def key : Nat → Reader (List String × String)
  | 0 => failed
  | parts + 1 => do
    spaces
    let first ← simpleKey
    spaces
    match ← peek? with
    | some '.' => do
      char '.'
      let (path, last) ← key parts
      return (first :: path, last)
    | _ => return ([], first)

def levelBound : Nat := 80

/-- A value that holds no other values. -/
def scalar : Reader Value := do
  match ← peek? with
  | some '"' | some '\'' => Value.string <$> string
  | some 't' => do word "true"; return .boolean true
  | some 'f' => do word "false"; return .boolean false
  | some 'i' | some 'n' => Value.float <$> specialFloat
  | _ =>
    (Value.moment <$> textOf moment) <|> (Value.float <$> (decimal <|> specialFloat)) <|>
      (Value.integer <$> integer)

/-- The items of an array after its bracket, given a reader of items. -/
def items (value : Reader Value) : Nat → Reader (List Value)
  | 0 => failed
  | steps + 1 => do
    gap (steps + 1)
    match ← peek? with
    | some ']' => do char ']'; return []
    | _ =>
      let item ← value
      gap (steps + 1)
      match ← peek? with
      | some ',' => do
        char ','
        return item :: (← items value steps)
      | _ => do
        char ']'
        return [item]

/-- A key and a value. -/
def entry (value : Reader Value) : Reader (List String × String × Value) := do
  let (path, key) ← key (levelBound - 1)
  char '='
  spaces
  return (path, key, ← value)

/-- The entries of an inline table, of which there is at least one, and its brace. -/
def inlineEntries (value : Reader Value) : Nat → Entries → Reader Entries
  | 0, _ => failed
  | steps + 1, entries => do
    let (path, key, item) ← entry value
    spaces
    match entries.insert path key item with
    | none => failed
    | some entries =>
      match ← peek? with
      | some ',' => do
        char ','
        inlineEntries value steps entries
      | _ => do
        char '\x7d'
        return entries

/-- A value nested less than so many levels deep. -/
def value : Nat → Reader Value
  | 0 => failed
  | levels + 1 => do
    let inner : Reader Value := value levels
    let bound := (← get).length + 1
    match ← peek? with
    | some '[' => do
      char '['
      if levels == 0 then failed else Value.array <$> items inner bound
    | some '\x7b' => do
      char '\x7b'
      spaces
      match ← peek? with
      | some '\x7d' => do
        char '\x7d'
        if levels == 0 then failed else return .table .inlined []
      | _ =>
        if levels == 0 then failed
        else Value.table .inlined <$> inlineEntries inner bound []
    | _ => scalar

/-- A header: whether it opens an element of an array of tables, and its key. -/
def header : Reader (Bool × List String × String) := do
  char '['
  let isElement := (← optional (char '[')).isSome
  let (path, last) ← key (levelBound - 1)
  char ']'
  if isElement then char ']'
  lineEnd
  return (isElement, path, last)

end Reader

/-- The entries of a document so far, and the table that keys are put into. -/
structure Document where
  entries : Entries
  current : List String

namespace Document

def openHeader (d : Document) (isElement : Bool) (path : List String) (last : String) :
    Option Document := do
  let change := if isElement then Entries.openElement last else Entries.openTable last
  let entries ← d.entries.change false (fun _ => change) path .header
  return ⟨entries, path ++ [last]⟩

def addEntry (d : Document) (path : List String) (key : String) (value : Value) :
    Option Document := do
  let entries ← d.entries.change false (fun _ => Entries.insert path key value) d.current .header
  return { d with entries }

/-- Reads what is left of a document, one line at a time. -/
def readRest : Nat → Document → Reader Document
  | 0, _ => Reader.failed
  | steps + 1, d => do
    Reader.spaces
    match ← Reader.peek? with
    | none => return d
    | some '#' => do
      Reader.lineEnd
      readRest steps d
    | some '\n' | some '\r' => do
      Reader.lineBreak
      readRest steps d
    | some '[' =>
      let (isElement, path, last) ← Reader.header
      match d.openHeader isElement path last with
      | some d => readRest steps d
      | none => Reader.failed
    | some _ =>
      let (path, key, value) ← Reader.entry (Reader.value Reader.levelBound)
      Reader.lineEnd
      match d.addEntry path key value with
      | some d => readRest steps d
      | none => Reader.failed

end Document

/-- The entries of the top table of a document. -/
def entries? (text : String) : Option Entries :=
  let cs :=
    match text.toList with
    | '\uFEFF' :: rest => rest
    | cs => cs
  (Document.readRest (cs.length + 1) ⟨[], []⟩ cs).map (·.1.entries)

end GoLowering.Toml
