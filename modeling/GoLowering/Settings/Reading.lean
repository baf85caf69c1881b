import GoLowering.Settings.Basic
import GoLowering.Text.Json
import GoLowering.Toml.Document
import GoLowering.Toml.Strings

/-!
# Settings as documents

Settings are read from tables of named values. A missing value is the standard one, unknown
names do not matter, and a value of a wrong kind is refused.
-/

namespace GoLowering

/-- A value of a settings document, as far as settings look at it. -/
inductive SettingValue where
  | null
  | bool (value : Bool)
  | string (value : String)
  /-- A value under one name only, as a choice can be written; `bare` if it holds nothing. -/
  | choice (name : String) (bare : Bool)
  | other
  deriving DecidableEq, Repr, Inhabited

namespace SettingValue

def toBool? : SettingValue → Option Bool
  | bool value => some value
  | _ => none

/-- The name of a choice, as a string or as a table of one bare value. -/
def toChoice? : SettingValue → Option String
  | string name => some name
  | choice name true => some name
  | _ => none

end SettingValue

namespace Settings

/-- Reads one value: the standard one if it is missing, none if it is of a wrong kind. -/
def readValue {α : Type} (value : Option SettingValue) (read : SettingValue → Option α)
    (standard : α) : Option α :=
  match value with
  | none => some standard
  | some v => read v

/-- Settings from a look-up of values by name. -/
def ofLookup? (value : String → Option SettingValue) : Option Settings := do
  let markers ← readValue (value "suppressPositionMarkers") SettingValue.toBool? false
  let entry ← readValue (value "suppressAutoEntry") SettingValue.toBool? false
  let base ← readValue (value "relativeBasePath")
    (fun
      | .null => some none
      | .string path => some (some path)
      | _ => none) none
  let role ← readValue (value "entryRole")
    (fun v => v.toChoice?.bind EntryRole.ofName?) .executable
  let policy ← readValue (value "errorPolicy")
    (fun v => v.toChoice?.bind ErrorPolicy.ofName?) .batch
  return ⟨markers, entry, base, role, policy⟩

/-- A JSON value as a setting. -/
def valueOfJson : Json → SettingValue
  | .null => .null
  | .bool value => .bool value
  | .string value => .string value
  | .object [(name, inner)] => .choice name (match inner with | .null => true | _ => false)
  | _ => .other

/-- Settings from a JSON object. -/
def ofJson? (document : Json) : Option Settings :=
  match document with
  | .object members => ofLookup? (fun name => (members.lookup name).map valueOfJson)
  | _ => none

/-- Settings as a JSON object; a missing base path is left out. -/
def toJson (s : Settings) : Json :=
  .object
    ([("suppressPositionMarkers", .bool s.suppressPositionMarkers),
      ("suppressAutoEntry", .bool s.suppressAutoEntry)] ++
      (match s.relativeBasePath with
        | some path => [("relativeBasePath", .string path)]
        | none => []) ++
      [("entryRole", .string s.entryRole.name), ("errorPolicy", .string s.errorPolicy.name)])

/-! ## Settings files

A TOML document is read as a whole, so that a mistake anywhere in it is refused; entries that are no
settings do not matter. -/

/-- Whether a value holds nothing. -/
def isBare : Toml.Value → Bool
  | .array items => items.isEmpty
  | .table _ entries => entries.isEmpty
  | .tables elements => elements.isEmpty
  | _ => false

/-- A TOML value as a setting. -/
def valueOfToml : Toml.Value → SettingValue
  | .boolean value => .bool value
  | .string value => .string value
  | .table _ [(name, inner)] => .choice name (isBare inner)
  | _ => .other

/-- Settings from the text of a TOML document. -/
def ofToml? (text : String) : Option Settings := do
  let entries ← Toml.entries? text
  ofLookup? (fun name => (entries.lookup name).map valueOfToml)

/-- The text of settings, one to a line; a missing base path is left out. -/
def toToml (s : Settings) : String :=
  let line (name value : String) : String := name ++ " = " ++ value ++ "\n"
  String.join
    ([line "suppressPositionMarkers" (toString s.suppressPositionMarkers),
      line "suppressAutoEntry" (toString s.suppressAutoEntry)] ++
      s.relativeBasePath.toList.map (fun path => line "relativeBasePath" (Toml.quote path)) ++
      [line "entryRole" (Toml.quote s.entryRole.name),
        line "errorPolicy" (Toml.quote s.errorPolicy.name)])

end Settings

end GoLowering
