/-!
# Settings

The choices a unit is lowered with, and how much is said while that happens.
-/

namespace GoLowering

/-- The function that statements outside of any function are collected into. -/
inductive EntryRole where
  /-- The `main` function of an executable package. -/
  | executable
  /-- An `init` function of a library package. -/
  | libraryInit
  deriving DecidableEq, Repr, Inhabited

namespace EntryRole

def functionName : EntryRole → String
  | executable => "main"
  | libraryInit => "init"

def name : EntryRole → String
  | executable => "executable"
  | libraryInit => "library-init"

def ofName? (text : String) : Option EntryRole :=
  [executable, libraryInit].find? (·.name == text)

end EntryRole

/-- What happens after a top-level declaration has failed. -/
inductive ErrorPolicy where
  /-- The other declarations are still lowered, so that all diagnostics are found. -/
  | batch
  | haltOnFirst
  deriving DecidableEq, Repr, Inhabited

namespace ErrorPolicy

def name : ErrorPolicy → String
  | batch => "batch"
  | haltOnFirst => "halt-on-first"

def ofName? (text : String) : Option ErrorPolicy :=
  [batch, haltOnFirst].find? (·.name == text)

end ErrorPolicy

structure Settings where
  /-- Whether no position markers are put into the output. -/
  suppressPositionMarkers : Bool
  /-- Whether an entry function without statements is left out. -/
  suppressAutoEntry : Bool
  /-- The directory that the paths of markers are relative to. -/
  relativeBasePath : Option String
  entryRole : EntryRole
  errorPolicy : ErrorPolicy
  deriving DecidableEq, Repr

namespace Settings

def standard : Settings where
  suppressPositionMarkers := false
  suppressAutoEntry := false
  relativeBasePath := none
  entryRole := .executable
  errorPolicy := .batch

instance : Inhabited Settings := ⟨standard⟩

end Settings

end GoLowering
