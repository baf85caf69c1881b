import GoLowering.Surface.Syntax
import GoLowering.Text.Quoted

/-!
# Drafts of units

Units built node by node. Every node takes the span under a cursor in the text of the file,
and the cursor moves to lines and to snippets of the text.
-/

namespace GoLowering.Surface

/-- Unicode white space. -/
def isBlank (c : Char) : Bool :=
  let n := c.toNat
  (9 ≤ n && n ≤ 13) || n == 0x20 || n == 0x85 || n == 0xA0 || n == 0x1680 ||
    (0x2000 ≤ n && n ≤ 0x200A) || n == 0x2028 || n == 0x2029 || n == 0x202F ||
    n == 0x205F || n == 0x3000

/-- The byte offset of the first occurrence of a snippet. -/
def find? (snippet : List Char) : List Char → Option Nat
  | [] => if snippet.isEmpty then some 0 else none
  | c :: cs =>
    if snippet.isPrefixOf (c :: cs) then some 0
    else (find? snippet cs).map (c.utf8Size + ·)

structure Draft where
  nodes : Array Node
  roots : List NodeId
  package : String
  file : FileId
  source : SourceFile
  cursor : Span
  deriving Inhabited

namespace Draft

/-- A draft of the unit in a file of the sources, the cursor at its start. -/
def start (sources : Sources) (file : FileId) (package : String) : Draft where
  nodes := #[]
  roots := []
  package := package
  file := file
  source := (sources.get? file).getD default
  cursor := ⟨0, 0, file⟩

/-- Moves the cursor to a line, without its indentation. -/
def line (d : Draft) (number : Nat) : Draft :=
  match d.source.line? number with
  | none => d
  | some (start, text) =>
    let indent := Source.byteLength (text.takeWhile isBlank)
    { d with cursor := ⟨start + indent, start + Source.byteLength text, d.file⟩ }

/-- Where a snippet first occurs at or after a position, or else in the whole text. -/
def findFrom? (d : Draft) (position : Nat) (snippet : List Char) : Option Nat :=
  let later := do
    let (_, rest) ← Source.splitBytes? d.source.chars position
    let offset ← find? snippet rest
    return position + offset
  later.or (find? snippet d.source.chars)

/-- Moves the cursor to a snippet; it stays where it is if there is none. -/
def seek (d : Draft) (snippet : String) : Draft :=
  match d.findFrom? d.cursor.start snippet.toList with
  | none => d
  | some start => { d with cursor := ⟨start, start + snippet.utf8ByteSize, d.file⟩ }

/-- Adds a node under the cursor. -/
def add (d : Draft) (kind : NodeKind) : NodeId × Draft :=
  (⟨d.nodes.size⟩, { d with nodes := d.nodes.push ⟨kind, d.cursor⟩ })

def addRoot (d : Draft) (id : NodeId) : Draft := { d with roots := d.roots ++ [id] }

def identifier (d : Draft) (name : String) : NodeId × Draft :=
  d.add (.expr (.identifier name))

def identifiers (d : Draft) : List String → List NodeId × Draft
  | [] => ([], d)
  | name :: names =>
    let (id, d) := d.identifier name
    let (ids, d) := d.identifiers names
    (id :: ids, d)

/-- A string literal that stands for a text. -/
def string (d : Draft) (text : String) : NodeId × Draft :=
  d.add (.expr (.literal .string (Quoted.quote text)))

/-- A name and members of members, written with dots. -/
def path (d : Draft) (dotted : String) : NodeId × Draft :=
  match (Source.fields '.' dotted.toList).map String.ofList with
  | [] => d.identifier ""
  | first :: members =>
    members.foldl (fun (object, d) name => d.add (.expr (.member object name)))
      (d.identifier first)

/-- A definition of names. -/
def define (d : Draft) (names : List String) (values : List NodeId) : NodeId × Draft :=
  let (lhs, d) := d.identifiers names
  d.add (.stmt (.assign lhs .define values))

/-- A range that defines its key and value. -/
def range (d : Draft) (key value : Option String) (source body : NodeId) : NodeId × Draft :=
  let (keys, d) := d.identifiers key.toList
  let (values, d) := d.identifiers value.toList
  d.add (.stmt (.range keys.head? values.head? true source body))

/-- A method with a named receiver. -/
def method (d : Draft) (receiver type : String) (pointer : Bool) (name : String)
    (signature body : NodeId) : NodeId × Draft :=
  let (type, d) := d.add (.type (.named none type))
  d.add (.stmt (.function ⟨some ⟨some receiver, type, pointer⟩, name, signature, some body,
    none⟩))

/-- Puts a documentation text on a declaration. -/
def setDoc (doc : String) : NodeKind → NodeKind
  | .stmt (.varDecl spec) => .stmt (.varDecl { spec with doc := some doc })
  | .stmt (.constDecl spec) => .stmt (.constDecl { spec with doc := some doc })
  | .stmt (.typeDecl name type isAlias _) => .stmt (.typeDecl name type isAlias (some doc))
  | .stmt (.function decl) => .stmt (.function { decl with doc := some doc })
  | kind => kind

def document (d : Draft) (id : NodeId) (doc : String) : Draft :=
  { d with
    nodes := d.nodes.modify id.index (fun node => { node with kind := setDoc doc node.kind }) }

def finish (d : Draft) : SourceUnit where
  nodes := d.nodes
  roots := d.roots
  file := d.file
  package := d.package

end Draft

end GoLowering.Surface
