import GoLowering.Settings.Reading
import GoLowering.Source.Text

/-!
# Search for settings

The settings of a place are those of the nearest settings file in it or above it. Directories
are searched as they are written, so `a/..` is searched after `a/../b` and before `a`.
-/

namespace GoLowering.Settings

/-- A directory: the directories and the files inside of it, by their names from the top. -/
structure Directory where
  folders : List (List String)
  files : Keyed (List String) String
  deriving Inhabited

namespace Directory

def empty : Directory := ⟨[[]], []⟩

def isFolder (d : Directory) (place : List String) : Bool := d.folders.contains place

/-- Where one more segment of a path leads from a place. Only directories are gone through,
and nothing is known about what is above the top. -/
def step? (d : Directory) (place : List String) (segment : String) : Option (List String) :=
  if !d.isFolder place then none
  else
    match segment with
    | "" | "." => some place
    | ".." => if place.isEmpty then none else some place.dropLast
    | name => some (place ++ [name])

/-- The text of the file at a path, if there is one. -/
def file? (d : Directory) (segments : List String) : Option String := do
  let place ← segments.foldlM d.step? []
  d.files.lookup place

/-- Adds the directories along a path and answers where it ends. -/
def addFolders (d : Directory) (place : List String) : List String → Directory × List String
  | [] => (d, place)
  | segment :: rest =>
    match d.step? place segment with
    | none => (d, place)
    | some next =>
      let d := if d.isFolder next then d else { d with folders := d.folders ++ [next] }
      addFolders d next rest

def segments (path : String) : List String :=
  (Source.fields '/' path.toList).map String.ofList

def addFolder (d : Directory) (path : String) : Directory :=
  (d.addFolders [] (segments path)).1

/-- Writes a file; the directories above it are made. -/
def addFile (d : Directory) (path text : String) : Directory :=
  let parts := segments path
  let (d, above) := d.addFolders [] parts.dropLast
  { d with files := d.files.set (above ++ parts.getLast?.toList) text }

end Directory

/-- The name of a settings file. -/
def fileName : String := "kestrel.toml"

/-- Whether a segment of a path is there for nothing. -/
def isIdle (segment : String) : Bool := segment == "" || segment == "."

/-- The segments of a path, less idle ones at its end. -/
def trimmed (segments : List String) : List String :=
  (segments.reverse.dropWhile isIdle).reverse

/-- A path and what is above it, nearest first, for paths of at most so many segments. -/
def ancestors : Nat → List String → List (List String)
  | 0, _ => [[]]
  | steps + 1, segments =>
    match trimmed segments with
    | [] => [[]]
    | trimmed => trimmed :: ancestors steps trimmed.dropLast

/-- The nearest directory with a settings file, as it is written, and the text of the file. -/
def findFile? (d : Directory) (start : String) : Option (String × String) :=
  if start.toList.head? == some '/' then none
  else
    let path := (Directory.segments start).dropWhile isIdle
    (ancestors path.length path).findSome? (fun folder =>
      (d.file? (folder ++ [fileName])).map (String.intercalate "/" folder, ·))

/-- The nearest directory with a settings file. -/
def findRoot? (d : Directory) (start : String) : Option String :=
  (findFile? d start).map (·.1)

/-- The settings of a place; standard ones if there is no settings file. -/
def load? (d : Directory) (start : String) : Option Settings :=
  match findFile? d start with
  | some (_, text) => ofToml? text
  | none => some standard

end GoLowering.Settings
