import GoLowering.Surface.Draft

/-!
# Moves of the cursor

The moves of a cursor as data, so that sequences of moves can be spoken about, and the moves once
more as they are made in a program: positions are kept in words of 32 bits, whose sums start over
behind the last word, and a range at which the text cannot be cut ends the program.
-/

namespace GoLowering

/-- A range of byte positions at which a text cannot be cut. -/
structure NoCut where
  start : Nat
  stop : Nat

/-- The text between two byte positions, or the end of the program. -/
def Source.cut (cs : List Char) (start stop : Nat) : Except NoCut (List Char) :=
  match cut? cs start stop with
  | some middle => .ok middle
  | none => .error ⟨start, stop⟩

namespace SourceFile

def startsInWords (f : SourceFile) : List UInt32 := f.lineStarts.map UInt32.ofNat

/-- The range of a line, counted from one, without its line break. -/
def lineRangeInWords (f : SourceFile) : Nat → Except NoCut (Option (UInt32 × UInt32))
  | 0 => .ok none
  | index + 1 =>
    match f.startsInWords[index]? with
    | none => .ok none
    | some start => do
      let next := (f.startsInWords[index + 1]?.map UInt32.toNat).getD f.text.utf8ByteSize
      let text ← Source.cut f.chars start.toNat next
      let length := UInt32.ofNat (Source.byteLength (Source.trimEnd isLineBreak text))
      return some (start, start + length)

end SourceFile

namespace Surface

/-- A move of the cursor, to a line or to a snippet. -/
inductive Move where
  | line (number : Nat)
  | snippet (text : String)
  deriving DecidableEq, Repr

namespace Draft

/-- A draft of the unit in a text that is put under a path of the sources. -/
def create (sources : Sources) (path text package : String) : Draft × Sources :=
  let (file, sources) := sources.add path text
  (start sources file package, sources)

def move (d : Draft) : Move → Draft
  | .line number => d.line number
  | .snippet text => d.seek text

def moveAll (d : Draft) (moves : List Move) : Draft := moves.foldl move d

/-! ## In words -/

def lineInWords (d : Draft) (number : Nat) : Except NoCut Draft := do
  match ← d.source.lineRangeInWords number with
  | none => return d
  | some (start, stop) =>
    let text ← Source.cut d.source.chars start.toNat stop.toNat
    let indent := UInt32.ofNat (Source.byteLength (text.takeWhile isBlank))
    return { d with cursor := ⟨(start + indent).toNat, stop.toNat, d.file⟩ }

def seekInWords (d : Draft) (snippet : String) : Except NoCut Draft := do
  let rest ← Source.cut d.source.chars d.cursor.start d.source.text.utf8ByteSize
  let later := (find? snippet.toList rest).map (d.cursor.start + ·)
  match later.or (find? snippet.toList d.source.chars) with
  | none => return d
  | some found =>
    let start := UInt32.ofNat found
    let stop := start + UInt32.ofNat snippet.utf8ByteSize
    return { d with cursor := ⟨start.toNat, stop.toNat, d.file⟩ }

def moveInWords (d : Draft) : Move → Except NoCut Draft
  | .line number => d.lineInWords number
  | .snippet text => d.seekInWords text

/-- The program ends at the first move that cannot cut the text. -/
def moveAllInWords (d : Draft) (moves : List Move) : Except NoCut Draft :=
  moves.foldlM moveInWords d

end Draft

end Surface

end GoLowering
