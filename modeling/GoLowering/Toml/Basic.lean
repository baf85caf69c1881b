import GoLowering.Keyed

/-!
# TOML tables

Values of the TOML format. Tables remember how they have come about, because that decides how
they may be extended: a table that a header names is complete but for its header, tables that
dotted keys make are extended by dotted keys only, and inline tables are closed.
-/

namespace GoLowering.Toml

inductive Origin where
  /-- Named by a header. -/
  | header
  /-- On the way to a table that a header names. -/
  | implied
  /-- On the way to the last part of a dotted key. -/
  | dotted
  /-- Written between braces. -/
  | inlined
  deriving DecidableEq, Repr, Inhabited

inductive Value where
  | boolean (value : Bool)
  | string (value : String)
  | integer (value : Int)
  | float (value : Float)
  /-- A date, a time or both, as it is written. -/
  | moment (text : String)
  | array (items : List Value)
  | table (origin : Origin) (entries : List (String × Value))
  /-- An array of tables each of which has a header. -/
  | tables (elements : List (List (String × Value)))
  deriving Inhabited

abbrev Entries := Keyed String Value

namespace Entries

/-- Changes the table at the end of a path, making the tables on the way that are missing.
Dotted keys do not go through tables that headers name. -/
def change (isDotted : Bool) (f : Origin → Entries → Option Entries) :
    List String → Origin → Entries → Option Entries
  | [], origin, entries => f origin entries
  | key :: path, _, entries =>
    match entries.lookup key with
    | none => do
      let origin := if isDotted then Origin.dotted else .implied
      let inner ← change isDotted f path origin []
      return entries.set key (.table origin inner)
    | some (.table origin inner) =>
      if origin == .inlined || (isDotted && origin == .header) then none
      else do
        let inner ← change isDotted f path origin inner
        return entries.set key (.table origin inner)
    | some (.tables elements) => do
      let last ← change isDotted f path .header (elements.getLast?.getD [])
      return entries.set key (.tables (elements.dropLast ++ [last]))
    | some _ => none

/-- Puts a value under a dotted key that is new. -/
def insert (path : List String) (key : String) (value : Value) (entries : Entries) :
    Option Entries :=
  let add (origin : Origin) (entries : Entries) : Option Entries :=
    if (!path.isEmpty && origin != .dotted) || (entries.lookup key).isSome then none
    else some (entries ++ [(key, value)])
  change true add path .header entries

/-- Opens the table that a header names: a new one, or one that was only implied. -/
def openTable (key : String) (entries : Entries) : Option Entries :=
  match entries.lookup key with
  | none => some (entries ++ [(key, .table .header [])])
  | some (.table .implied inner) => some (entries.set key (.table .header inner))
  | some _ => none

/-- Opens a new element of an array of tables. -/
def openElement (key : String) (entries : Entries) : Option Entries :=
  match entries.lookup key with
  | none => some (entries ++ [(key, .tables [[]])])
  | some (.tables elements) => some (entries.set key (.tables (elements ++ [[]])))
  | some _ => none

end Entries

end GoLowering.Toml
