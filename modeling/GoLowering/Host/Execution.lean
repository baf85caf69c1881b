import Mathlib.Logic.Function.Basic
import GoLowering.Host.Syntax
import GoLowering.Names

/-!
# Running host statements

What the statements of a host tree do that comprehensions are put together from: blocks, `if`,
`range`, assignments and `return`, and the call of a function literal. Variables stand in frames,
one for each scope, the innermost first. Expressions have no side effects: an `Evaluation` gives
their values, by the rules of the host where a rule is needed.

Lists and maps are values here and not references to them. What is stored in a variable is only
changed through the variable, so this makes no difference unless there is another name for it.
-/

namespace GoLowering

/-- A code point of a text, with the number of bytes that it is read from. -/
structure Rune where
  code : Nat
  width : Nat
  deriving DecidableEq, Repr

/-- What a program of the host works with. -/
inductive Datum (A : Type)
  /-- A value that no rule here looks into. -/
  | atom (a : A)
  | int (n : Int)
  | bool (b : Bool)
  | text (runes : List Rune)
  /-- A slice or an array. -/
  | list (items : List (Datum A))
  /-- The entries of a map, the newest first. -/
  | map (entries : List (Datum A × Datum A))
  /-- The results of a call that has more than one. -/
  | tuple (items : List (Datum A))

namespace Datum

variable {A : Type}

def isTrue : Datum A → Bool
  | bool b => b
  | _ => false

/-- The code points of a text, by the number of bytes before them. -/
def runesFrom (offset : Nat) : List Rune → List (Datum A × Datum A)
  | [] => []
  | rune :: rest => (int offset, int rune.code) :: runesFrom (offset + rune.width) rest

/-- The keys and the elements that `range` goes through. Maps, which it goes through in any order,
and channels are left out. -/
def elements : Datum A → List (Datum A × Datum A)
  | list items => items.mapIdx (fun i item => (int i, item))
  | text runes => runesFrom 0 runes
  | _ => []

/-- `append(list, item)` -/
def append (list item : Datum A) : Datum A :=
  match list with
  | .list items => .list (items ++ [item])
  | other => other

/-- The map after `map[key] = item`. -/
def put? (map key item : Datum A) : Option (Datum A) :=
  match map with
  | .map entries => some (.map ((key, item) :: entries))
  | _ => none

/-- The values that are given to a number of places: those of a call may be given to more than
one. -/
def spread (count : Nat) (data : List (Datum A)) : List (Datum A) :=
  match data with
  | [tuple items] => if count = 1 then data else items
  | data => data

theorem spread_of_length {count : Nat} {data : List (Datum A)} (h : data.length = count) :
    spread count data = data := by
  subst h
  unfold spread
  split
  · rfl
  · rfl

/-- What a map with some entries, the newest first, holds under a key. -/
def Holds (entries : List (Datum A × Datum A)) (key item : Datum A) : Prop :=
  ∃ newer older, entries = newer ++ (key, item) :: older ∧ ∀ entry ∈ newer, entry.1 ≠ key

end Datum

/-- The variables that can be seen somewhere. -/
abbrev Variables (A : Type) := String → Option (Datum A)

namespace Variables

variable {A : Type}

/-- Gives a variable a value. Nothing is kept under the blank name. -/
def set (v : Variables A) (name : String) (datum : Datum A) : Variables A :=
  if name = Names.blank then v else Function.update v name (some datum)

def setAll (v : Variables A) (values : List (String × Datum A)) : Variables A :=
  values.foldl (fun v value => v.set value.1 value.2) v

end Variables

/-- The variables of a scope. -/
abbrev StoreFrame (A : Type) := Keyed String (Datum A)

/-- The variables of the scopes around a statement, the innermost first. -/
abbrev Store (A : Type) := List (StoreFrame A)

namespace Store

variable {A : Type}

/-- The variables that can be seen in the innermost scope. -/
def visible (store : Store A) : Variables A := fun name => store.findSome? (·.lookup name)

/-- Declares a variable in the innermost scope. -/
def declare (store : Store A) (name : String) (datum : Datum A) : Store A :=
  if name = Names.blank then store
  else match store with
    | [] => [[(name, datum)]]
    | frame :: rest => Keyed.set frame name datum :: rest

/-- Gives a value to the innermost variable of a name. -/
def assign : Store A → String → Datum A → Option (Store A)
  | [], _, _ => none
  | frame :: rest, name, datum =>
    if (frame.lookup name).isSome then some (Keyed.set frame name datum :: rest)
    else (assign rest name datum).map (frame :: ·)

/-- An assignment to a name, which may be the blank one. -/
def update (store : Store A) (name : String) (datum : Datum A) : Option (Store A) :=
  if name = Names.blank then some store else store.assign name datum

def declareAll (store : Store A) (values : List (String × Datum A)) : Store A :=
  values.foldl (fun store value => store.declare value.1 value.2) store

def updateAll (store : Store A) (values : List (String × Datum A)) : Option (Store A) :=
  values.foldlM (fun store value => store.update value.1 value.2) store

end Store

/-- How a statement ends: the next one is run, or a function returns. -/
inductive Completion (σ ρ : Type)
  | next (state : σ)
  | done (result : ρ) (state : σ)

namespace Completion

variable {α σ τ ρ : Type}

def map (f : σ → τ) : Completion σ ρ → Completion τ ρ
  | next s => next (f s)
  | done r s => done r (f s)

/-- Goes on unless a function has returned. -/
def andThen (exit : Option (Completion σ ρ)) (f : σ → Option (Completion σ ρ)) :
    Option (Completion σ ρ) :=
  match exit with
  | some (next s) => f s
  | exit => exit

/-- Steps one after the other, until a function returns. -/
def runAll (step : α → σ → Option (Completion σ ρ)) : List α → σ → Option (Completion σ ρ)
  | [], s => some (next s)
  | a :: rest, s => andThen (step a s) (runAll step rest)

end Completion

namespace HostTree

/-- The name that an expression consists of. -/
def name? (t : HostTree) (id : HostId) : Option String :=
  match t.kind id with
  | .identifier name => some name
  | _ => none

/-- The variables that a simple statement gives values to. -/
def targets? (t : HostTree) (id : HostId) : Option (List String) :=
  match t.kind id with
  | .assign lhs _ _ => lhs.mapM t.name?
  | .incDec target _ => [target].mapM t.name?
  | .expression _ => some []
  | _ => none

/-- The name of a variable of a loop, which may be left out. -/
def nameIfAny (t : HostTree) (id : Option HostId) : String := (id.bind t.name?).getD Names.blank

/-- Whether a simple statement declares what it gives values to. -/
def declares (t : HostTree) (id : HostId) : Bool :=
  match t.kind id with
  | .assign _ .define _ => true
  | _ => false

end HostTree

/-- The values of the expressions of a tree, by the rules of the host. -/
structure Evaluation (A : Type) (t : HostTree) (types : TypeTable) where
  value : HostId → Variables A → Datum A
  /-- What an operator makes of two values. -/
  combine : BinaryOp → Datum A → Datum A → Datum A
  zero : TypeId → Datum A
  value_identifier {id : HostId} {v : Variables A} {name : String} {datum : Datum A}
    (h : t.kind id = .identifier name) (hbound : v name = some datum) :
    value id v = datum
  value_true {id : HostId} {v : Variables A} (h : t.kind id = .literal "true")
    (hfree : v "true" = none) : value id v = .bool true
  value_append {id callee list item : HostId} {v : Variables A}
    (h : t.kind id = .call callee [list, item] false)
    (hcallee : t.kind callee = .identifier "append") (hfree : v "append" = none) :
    value id v = (value list v).append (value item v)
  value_emptyMap {id : HostId} {v : Variables A} {type key item : TypeId}
    (h : t.kind id = .composite (some type) []) (htype : types.shape type = .map key item) :
    value id v = .map []
  zero_slice {type element : TypeId} (h : types.shape type = .slice element) : zero type = .list []
  zero_bool : zero TypeTable.bool = .bool false

namespace Evaluation

open Completion

variable {A : Type} {t : HostTree} {types : TypeTable} (E : Evaluation A t types)

def values (ids : List HostId) (v : Variables A) : List (Datum A) :=
  ids.map (E.value · v)

/-- The values that a simple statement gives to its variables. -/
def assigned (id : HostId) (v : Variables A) : List (Datum A) :=
  match t.kind id with
  | .assign lhs (.compound op) rhs =>
    List.zipWith (fun l r => E.combine op (E.value l v) (E.value r v)) lhs rhs
  | .assign lhs _ rhs => Datum.spread lhs.length (E.values rhs v)
  | .incDec target increment =>
    [E.combine (if increment then .add else .sub) (E.value target v) (.int 1)]
  | _ => []

/-- `map[key] = value` -/
def putElement (id : HostId) (store : Store A) : Option (Store A) :=
  match t.kind id with
  | .assign [slot] .plain [item] =>
    match t.kind slot with
    | .index object key => do
      let name ← t.name? object
      let map ← (← store.visible name).put? (E.value key store.visible) (E.value item store.visible)
      store.assign name map
    | _ => none
  | _ => none

def runSimple (id : HostId) (store : Store A) : Option (Store A) :=
  match t.targets? id with
  | some names =>
    let values := names.zip (E.assigned id store.visible)
    if t.declares id then some (store.declareAll values) else store.updateAll values
  | none => E.putElement id store

/-- Runs statements in a scope of their own. -/
def inBlock {ρ : Type} (part : Store A → Option (Completion (Store A) ρ)) (store : Store A) :
    Option (Completion (Store A) ρ) :=
  (part ([] :: store)).map (Completion.map List.tail)

/-- Runs a statement. There is no result for a statement that is nested too deeply, for other
statements than those named above, and for what goes wrong. -/
def run : Nat → HostId → Store A → Option (Completion (Store A) (Option (List (Datum A))))
  | 0, _, _ => none
  | depth + 1, id, store =>
    match t.kind id with
    | .block statements => inBlock (runAll (run depth) statements) store
    | .ifElse init condition thenBranch elseBranch =>
      inBlock (fun store => andThen (runAll (run depth) init.toList store) (fun store =>
        if (E.value condition store.visible).isTrue then run depth thenBranch store
        else runAll (run depth) elseBranch.toList store)) store
    | .range key item true source body =>
      runAll (fun element => inBlock (fun store => run depth body (store.declareAll
          [(t.nameIfAny key, element.1), (t.nameIfAny item, element.2)])))
        (E.value source store.visible).elements store
    | .ret [] => some (.done none store)
    | .ret ids => some (.done (some (E.values ids store.visible)) store)
    | _ => (E.runSimple id store).map .next

/-- The named results of a function before it is run. -/
def resultFrame (results : List HostParam) : StoreFrame A :=
  results.filterMap (fun result => result.name.map (·, E.zero result.type))

/-- The results of a function that returns them by their names. -/
def namedResults (results : List HostParam) (store : Store A) : List (Datum A) :=
  results.map (fun result => (result.name.bind store.visible).getD (E.zero result.type))

/-- The results of the call of a function literal without parameters, and the variables after it. -/
def call (depth : Nat) (id : HostId) (store : Store A) : Option (List (Datum A) × Store A) :=
  match t.kind id with
  | .call callee [] false =>
    match t.kind callee with
    | .functionLiteral ⟨[], results, false⟩ body =>
      match run E depth body (E.resultFrame results :: store) with
      | some (.done none store) => some (E.namedResults results store, store.tail)
      | some (.done (some values) store) => some (Datum.spread results.length values, store.tail)
      | _ => none
    | _ => none
  | _ => none

end Evaluation

end GoLowering
