/-!
# Positions in text

Texts are cut at byte positions of their UTF-8 form. A cut inside a character, past the end,
or with its ends in the wrong order does not exist.
-/

namespace GoLowering.Source

/-- The number of bytes of a text in UTF-8. -/
def byteLength : List Char → Nat
  | [] => 0
  | c :: cs => c.utf8Size + byteLength cs

/-- The text before and after a byte position, if that lies between two characters. -/
def splitBytes? : List Char → Nat → Option (List Char × List Char)
  | cs, 0 => some ([], cs)
  | [], _ + 1 => none
  | c :: cs, n + 1 =>
    if c.utf8Size ≤ n + 1 then
      (splitBytes? cs (n + 1 - c.utf8Size)).map (fun (before, after) => (c :: before, after))
    else
      none

/-- The text between two byte positions. -/
def cut? (cs : List Char) (start stop : Nat) : Option (List Char) := do
  guard (start ≤ stop)
  let (_, rest) ← splitBytes? cs start
  let (middle, _) ← splitBytes? rest (stop - start)
  return middle

/-- The byte positions right after each newline, for a text that starts at `pos`. -/
def afterNewlines (pos : Nat) : List Char → List Nat
  | [] => []
  | c :: cs =>
    let next := pos + c.utf8Size
    if c == '\n' then next :: afterNewlines next cs else afterNewlines next cs

/-- The byte position of the start of every line; there is always a first line. -/
def lineStarts (cs : List Char) : List Nat :=
  0 :: afterNewlines 0 cs

/-- The last of the lines from `low` on and before `high` that starts at or before a position, where
the line `low` does. The lines in question are halved until one is left. -/
def lineIn (starts : Array Nat) (pos low high : Nat) (h : high ≤ starts.size) : Nat :=
  if hwide : low + 1 < high then
    if starts[(low + high) / 2] ≤ pos then lineIn starts pos ((low + high) / 2) high h
    else lineIn starts pos low ((low + high) / 2) (by omega)
  else low
termination_by high - low

/-- The parts of a text between separators; there is always one part. -/
def fields (separator : Char) : List Char → List (List Char)
  | [] => [[]]
  | c :: cs =>
    if c == separator then [] :: fields separator cs
    else
      match fields separator cs with
      | first :: rest => (c :: first) :: rest
      | [] => [[c]]

/-- Drops the characters at the end of a text that satisfy a test. -/
def trimEnd (drop : Char → Bool) (cs : List Char) : List Char :=
  (cs.reverse.dropWhile drop).reverse

end GoLowering.Source
