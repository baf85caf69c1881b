import GoLowering.Source.Path
import GoLowering.Source.Text

/-!
# Sources

The files a unit is read from, spans in them, and the lines, columns and excerpts that spans
are shown by. A file is kept once, under its normal path.
-/

namespace GoLowering

/-- A file of the sources, by position. -/
structure FileId where
  index : Nat
  deriving DecidableEq, Repr, Inhabited

/-- The file of everything that has no place in any source. -/
def FileId.synthetic : FileId := ⟨Nat.pow 2 32 - 1⟩

/-- A range of byte positions in a file. Nothing is promised about the range. -/
structure Span where
  start : Nat
  stop : Nat
  file : FileId
  deriving DecidableEq, Repr, Inhabited

namespace Span

def synthetic : Span := ⟨0, 0, .synthetic⟩

def isSynthetic (s : Span) : Bool := s.file == .synthetic

def length (s : Span) : Nat := s.stop - s.start

def isEmpty (s : Span) : Bool := s.length == 0

/-- The smallest range that covers both, in the file of the first. -/
def merge (a b : Span) : Span := ⟨min a.start b.start, max a.stop b.stop, a.file⟩

def display (s : Span) : String :=
  "(span start: " ++ toString s.start ++ " end: " ++ toString s.stop ++
    " file: (file id: " ++ toString s.file.index ++ "))"

end Span

/-- A file as it is shown and, unless it is virtual, the normal path it is kept under. -/
structure SourceFile where
  name : String
  place : Option Source.Path
  text : String
  deriving Inhabited

/-- A number in a word of 32 bits. Behind the last word the numbers start over. -/
def Source.word (n : Nat) : Nat := n % UInt32.size

namespace SourceFile

def chars (f : SourceFile) : List Char := f.text.toList

/-- The number of bytes, in a word. -/
def size (f : SourceFile) : Nat := Source.word f.text.utf8ByteSize

/-- Where each line starts, in words. -/
def lineStarts (f : SourceFile) : List Nat := (Source.lineStarts f.chars).map Source.word

def isLineBreak (c : Char) : Bool := c == '\r' || c == '\n'

/-- The text of a line, counted from one, without its line break, and where it starts. -/
def line? (f : SourceFile) (line : Nat) : Option (Nat × List Char) := do
  guard (0 < line)
  let starts := f.lineStarts
  let start ← starts[line - 1]?
  let text ← Source.cut? f.chars start (starts[line]?.getD f.text.utf8ByteSize)
  return (start, Source.trimEnd isLineBreak text)

def lineRange? (f : SourceFile) (line : Nat) : Option (Nat × Nat) :=
  (f.line? line).map (fun (start, text) => (start, Source.word (start + Source.byteLength text)))

/-- The line that a byte position lies in, counted from zero. -/
def lineIndex (f : SourceFile) (pos : Nat) : Nat :=
  Source.lineIn f.lineStarts.toArray pos 0 f.lineStarts.toArray.size (Nat.le_refl _)

/-- The line and column of a byte position, both counted from one. A position past the end
counts as the end; a column counts characters, or bytes inside a character. There is no answer if
the text has no bytes from the start of the line to the position, which ends the program. -/
def lineColumn? (f : SourceFile) (pos : Nat) : Option (Nat × Nat) := do
  let pos := min pos f.size
  let line := f.lineIndex pos
  let start ← f.lineStarts[line]?
  guard (start ≤ pos ∧ pos ≤ f.text.utf8ByteSize)
  let column :=
    match Source.cut? f.chars start pos with
    | some cs => cs.length
    | none => pos - start
  return (Source.word line + 1, Source.word column + 1)

def lineColumn (f : SourceFile) (pos : Nat) : Nat × Nat := (f.lineColumn? pos).getD (0, 0)

def slice (f : SourceFile) (start stop : Nat) : String :=
  match Source.cut? f.chars start stop with
  | some cs => String.ofList cs
  | none => ""

def display (f : SourceFile) : String := "(file path: " ++ f.name ++ ")"

end SourceFile

structure Sources where
  files : Array SourceFile
  deriving Inhabited

namespace Sources

def empty : Sources := ⟨#[]⟩

def get? (sources : Sources) (id : FileId) : Option SourceFile :=
  sources.files[id.index]?

def contains (sources : Sources) (id : FileId) : Bool :=
  id != .synthetic && decide (id.index < sources.files.size)

def lookup? (sources : Sources) (path : String) : Option FileId :=
  (sources.files.findIdx? (fun f => f.place == some (.parse path))).map (⟨·⟩)

/-- Adds a file; one that is there under another spelling of the path keeps its text. -/
def add (sources : Sources) (path text : String) : FileId × Sources :=
  match sources.lookup? path with
  | some id => (id, sources)
  | none =>
    let place := Source.Path.parse path
    (⟨sources.files.size⟩, ⟨sources.files.push ⟨place.text, some place, text⟩⟩)

/-- Adds a text that is no file; it can only be reached by its position. -/
def addVirtual (sources : Sources) (label text : String) : FileId × Sources :=
  (⟨sources.files.size⟩, ⟨sources.files.push ⟨"<" ++ label ++ ">", none, text⟩⟩)

/-- The file with this position, unless it is synthetic or unknown. -/
def file? (sources : Sources) (id : FileId) : Option SourceFile :=
  if id == .synthetic then none else sources.get? id

/-- The line and column of a position, zero where the file is unknown. -/
def lineColumn (sources : Sources) (id : FileId) (pos : Nat) : Nat × Nat :=
  match sources.file? id with
  | some f => f.lineColumn pos
  | none => (0, 0)

def slice (sources : Sources) (span : Span) : String :=
  match sources.file? span.file with
  | some f => f.slice span.start span.stop
  | none => ""

def padLeft (width : Nat) (text : String) : String :=
  String.ofList (List.replicate (width - text.length) ' ') ++ text

def repeated (count : Nat) (c : Char) : String :=
  String.ofList (List.replicate count c)

/-- The line a span starts in, and carets below the span. -/
def excerpt (sources : Sources) (span : Span) : String :=
  match sources.file? span.file with
  | none => ""
  | some f =>
    let (line, column) := f.lineColumn span.start
    let text := ((f.line? line).map (String.ofList ·.2)).getD ""
    padLeft 4 (toString line) ++ " | " ++ text ++ "\n     | " ++
      repeated (column - 1) ' ' ++ repeated (max span.length 1) '^'

end Sources

end GoLowering
