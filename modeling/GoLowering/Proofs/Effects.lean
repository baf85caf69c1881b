import GoLowering.Environment.Standard
import GoLowering.Proofs.NestedLoops
import GoLowering.Proofs.ZeroValues

/-!
# Host statements with effects

Calls change what is around them, give any number of results, and may panic. An `Effects` says what
the expressions of a host tree do to a `Machine`; it follows the rules of the host for the
expressions that error wraps are put together from, and all others may do anything. The statements
around them are run as in `GoLowering.Host.Execution`, and with jumps to a label further on in the
same block.

There is a lemma for each form of the statements of an error wrap. What they have in common are
variables of frames with names of their own (`Store.updateAll_zip`), and expressions that do not see
them (`Effects.BlindTo`).
-/

namespace GoLowering

/-! ## Interpreted texts -/

namespace Quoted

/-- The character that a letter after a backslash stands for in an interpreted string literal. -/
def escaped? : Char → Option Char
  | 'a' => some '\x07'
  | 'b' => some '\x08'
  | 'f' => some '\x0c'
  | 'n' => some '\n'
  | 'r' => some '\r'
  | 't' => some '\t'
  | 'v' => some '\x0b'
  | '\\' => some '\\'
  | '"' => some '"'
  | _ => none

/-- What stands before the closing quote of an interpreted string literal. Escapes with digits are
left out. -/
def interpret? : List Char → Option (List Char)
  | [] => none
  | '"' :: rest => if rest.isEmpty then some [] else none
  | '\n' :: _ => none
  | '\\' :: c :: rest => do return (← escaped? c) :: (← interpret? rest)
  | c :: rest => do return c :: (← interpret? rest)

/-- The text that an interpreted string literal stands for. -/
def interpreted? (literal : String) : Option String :=
  match literal.toList with
  | '"' :: rest => (interpret? rest).map String.ofList
  | _ => none

theorem interpret?_flatMap (cs : List Char) :
    interpret? (cs.flatMap escapeInterpreted ++ ['"']) = some cs := by
  induction cs with
  | nil => rfl
  | cons c cs ih =>
    rw [List.flatMap_cons, List.append_assoc]
    by_cases hescaped : c ∈ ['\\', '"', '\n', '\t', '\r']
    · simp only [List.mem_cons, List.not_mem_nil, or_false] at hescaped
      obtain rfl | rfl | rfl | rfl | rfl := hescaped <;>
        simp [escapeInterpreted, interpret?, escaped?, ih]
    · simp only [List.mem_cons, List.not_mem_nil, or_false, not_or] at hescaped
      obtain ⟨hbackslash, hquote, hline, htab, hreturn⟩ := hescaped
      have hplain : escapeInterpreted c = [c] := by simp [escapeInterpreted, *]
      simp [interpret?, *]

theorem interpreted?_quoteInterpreted (text : String) :
    interpreted? (quoteInterpreted text) = some text := by
  unfold interpreted? quoteInterpreted
  rw [String.toList_ofList]
  change (interpret? (text.toList.flatMap escapeInterpreted ++ ['"'])).map String.ofList = some text
  rw [interpret?_flatMap, Option.map_some, String.ofList_toList]

end Quoted

/-! ## Machines -/

/-- What a program can change: its variables, and the world around it. -/
structure Machine (A W : Type) where
  store : Store A
  world : W

namespace Machine

variable {A W : Type}

/-- The names in the scopes around, the innermost first. -/
def names (m : Machine A W) : List (List String) := m.store.map (·.map Prod.fst)

/-- Enters a scope with some variables. -/
def enter (m : Machine A W) (frame : StoreFrame A) : Machine A W :=
  { m with store := frame :: m.store }

def leave (m : Machine A W) : Machine A W := { m with store := m.store.tail }

def declareAll (m : Machine A W) (values : List (String × Datum A)) : Machine A W :=
  { m with store := m.store.declareAll values }

end Machine

/-- What an expression ends with. -/
inductive Reply (A : Type)
  /-- A call may give none or more than one. -/
  | values (data : List (Datum A))
  | panics (datum : Datum A)

/-- How the statements of a function are left before their end. -/
inductive Exit (A : Type)
  /-- Without values, the named results are returned. -/
  | returns (data : Option (List (Datum A)))
  | jumps (label : String)
  | panics (datum : Datum A)

/-- The effects of the expressions of a tree. What does not end has no result. -/
structure Effects (A W : Type) (t : HostTree) (types : TypeTable) where
  eval : HostId → Machine A W → Option (Reply A × Machine A W)
  zero : TypeId → Datum A
  isNil : Datum A → Bool
  /-- An error with a frame: the text of the call, the path, the line and the function. -/
  newFrame (error : Datum A) (text path : String) (line : Nat) (function : String) : Datum A
  /-- Expressions declare no variables. -/
  names_eval {id : HostId} {m m' : Machine A W} {reply : Reply A}
    (h : eval id m = some (reply, m')) : m'.names = m.names
  eval_identifier {id : HostId} {m : Machine A W} {name : String} {datum : Datum A}
    (h : t.kind id = .identifier name) (hbound : m.store.visible name = some datum) :
    eval id m = some (.values [datum], m)
  eval_zero {id : HostId} {m : Machine A W} {type : TypeId}
    (h : types.SpellsZero type (t.kind id)) (hnil : m.store.visible "nil" = none)
    (hfalse : t.kind id = .literal "false" → m.store.visible "false" = none) :
    eval id m = some (.values [zero type], m)
  eval_notNil {id operand nil : HostId} {m : Machine A W} {datum : Datum A}
    (h : t.kind id = .binary .notEqual operand nil) (hnil : t.kind nil = .identifier "nil")
    (hfree : m.store.visible "nil" = none)
    (hoperand : eval operand m = some (.values [datum], m)) :
    eval id m = some (.values [.bool (!isNil datum)], m)
  eval_panic {id callee argument : HostId} {m : Machine A W} {datum : Datum A}
    (h : t.kind id = .call callee [argument] false) (hcallee : t.kind callee = .identifier "panic")
    (hfree : m.store.visible "panic" = none)
    (hargument : eval argument m = some (.values [datum], m)) :
    eval id m = some (.panics datum, m)
  eval_newFrame {id callee error text path line function : HostId} {m : Machine A W}
    {datum : Datum A} {textLiteral pathLiteral functionLiteral textValue pathValue functionValue :
      String} {lineValue : Nat}
    (h : t.kind id = .call callee [error, text, path, line, function] false)
    (hcallee : t.kind callee = .qualified framesPath "NewFrame")
    (herror : eval error m = some (.values [datum], m))
    (htext : t.kind text = .literal textLiteral)
    (htextValue : Quoted.interpreted? textLiteral = some textValue)
    (hpath : t.kind path = .literal pathLiteral)
    (hpathValue : Quoted.interpreted? pathLiteral = some pathValue)
    (hline : t.kind line = .literal (toString lineValue))
    (hfunction : t.kind function = .literal functionLiteral)
    (hfunctionValue : Quoted.interpreted? functionLiteral = some functionValue) :
    eval id m = some (.values [newFrame datum textValue pathValue lineValue functionValue], m)

namespace Effects

open Completion

variable {A W : Type} {t : HostTree} {types : TypeTable} (E : Effects A W t types)

/-- Expressions one after the other, until one panics. -/
def evalAll : List HostId → Machine A W → Option (Reply A × Machine A W)
  | [], m => some (.values [], m)
  | id :: rest, m =>
    match E.eval id m with
    | some (.values data, m) =>
      match evalAll rest m with
      | some (.values more, m) => some (.values (data ++ more), m)
      | reply => reply
    | reply => reply

/-- Goes on with values, or panics. -/
def withValues (reply : Option (Reply A × Machine A W))
    (next : List (Datum A) → Machine A W → Option (Completion (Machine A W) (Exit A))) :
    Option (Completion (Machine A W) (Exit A)) :=
  match reply with
  | some (.values data, m) => next data m
  | some (.panics datum, m) => some (.done (.panics datum) m)
  | none => none

/-- Runs a part in a scope of its own. -/
def inScope (part : Machine A W → Option (Completion (Machine A W) (Exit A)))
    (m : Machine A W) : Option (Completion (Machine A W) (Exit A)) :=
  (part (m.enter [])).map (Completion.map Machine.leave)

/-- Whether a statement has a label, or whether none is looked for. -/
def isReached (t : HostTree) (label : Option String) (id : HostId) : Bool :=
  match label, t.kind id with
  | some label, .labeled other _ => label == other
  | some _, _ => false
  | none, _ => true

/-- Runs the statements of a block from a label on, or from the first one. -/
def runList (t : HostTree)
    (step : HostId → Machine A W → Option (Completion (Machine A W) (Exit A))) :
    Option String → List HostId → Machine A W → Option (Completion (Machine A W) (Exit A))
  | none, [], m => some (.next m)
  | some label, [], m => some (.done (.jumps label) m)
  | label, id :: rest, m =>
    if isReached t label id then
      match step id m with
      | some (.next m) => runList t step none rest m
      | some (.done (.jumps label) m) => runList t step (some label) rest m
      | exit => exit
    else runList t step label rest m

/-- Runs a statement of some kind, and its parts with `step`. There is no result for other statements
than those named here and for what goes wrong. -/
def runKind (step : HostId → Machine A W → Option (Completion (Machine A W) (Exit A)))
    (kind : HostKind) (m : Machine A W) : Option (Completion (Machine A W) (Exit A)) :=
  match kind with
  | .block statements => inScope (runList t step none statements) m
  | .varDecl ⟨names, some type, [], _⟩ =>
    some (.next (m.declareAll (names.map (·, E.zero type))))
  | .assign lhs .plain rhs =>
    withValues (E.evalAll rhs m) (fun data m => do
      let names ← lhs.mapM t.name?
      if names.length = data.length then
        return .next { m with store := ← m.store.updateAll (names.zip data) }
      else none)
  | .expression value => withValues (E.eval value m) (fun _ m => some (.next m))
  | .ifElse none condition thenBranch elseBranch =>
    withValues (E.eval condition m) (fun data m =>
      match data with
      | [.bool true] => step thenBranch m
      | [.bool false] => runList t step none elseBranch.toList m
      | _ => none)
  | .ret [] => some (.done (.returns none) m)
  | .ret values =>
    withValues (E.evalAll values m) (fun data m => some (.done (.returns (some data)) m))
  | .branch .goto (some label) => some (.done (.jumps label) m)
  | .labeled _ body => runList t step none body.toList m
  | _ => none

/-- Runs a statement. There is no result for a statement that is nested too deeply. -/
def run : Nat → HostId → Machine A W → Option (Completion (Machine A W) (Exit A))
  | 0, _, _ => none
  | depth + 1, id, m => E.runKind (run depth) (t.kind id) m

theorem run_succ (depth : Nat) (id : HostId) (m : Machine A W) :
    E.run (depth + 1) id m = E.runKind (E.run depth) (t.kind id) m := rfl

/-- The named results of a function before it is run. -/
def resultFrame (results : List HostParam) : StoreFrame A :=
  results.filterMap (fun result => result.name.map (·, E.zero result.type))

/-- The results of a function that returns them by their names. -/
def namedResults (results : List HostParam) (store : Store A) : List (Datum A) :=
  results.map (fun result => (result.name.bind store.visible).getD (E.zero result.type))

/-- What the call of a function with named results gives when its body has been run. -/
def returned (results : List HostParam) :
    Option (Completion (Machine A W) (Exit A)) → Option (Reply A × Machine A W)
  | some (.done (.returns none) m) => some (.values (E.namedResults results m.store), m.leave)
  | some (.done (.returns (some data)) m) => some (.values data, m.leave)
  | some (.done (.panics datum) m) => some (.panics datum, m.leave)
  | _ => none

/-- The call of a function literal without parameters. -/
def call (depth : Nat) (id : HostId) (m : Machine A W) : Option (Reply A × Machine A W) :=
  match t.kind id with
  | .call callee [] false =>
    match t.kind callee with
    | .functionLiteral ⟨[], results, false⟩ body =>
      E.returned results (E.run depth body (m.enter (E.resultFrame results)))
    | _ => none
  | _ => none

end Effects

/-! ## Variables -/

namespace Store

variable {A : Type} {frame : StoreFrame A} {store back : Store A} {name : String}

theorem lookup_append {pre rest : StoreFrame A} (h : name ∉ pre.map Prod.fst) :
    (pre ++ rest : StoreFrame A).lookup name = rest.lookup name := by
  induction pre with
  | nil => rfl
  | cons entry pre ih =>
    rw [List.map_cons, List.mem_cons, not_or] at h
    rw [List.cons_append, List.lookup_cons, beq_eq_false_iff_ne.mpr h.1]
    exact ih h.2

theorem lookup_eq_none (h : name ∉ frame.map Prod.fst) : frame.lookup name = none := by
  rw [← List.append_nil frame, lookup_append h]
  rfl

theorem set_append {pre rest : StoreFrame A} (datum : Datum A) (h : name ∉ pre.map Prod.fst) :
    Keyed.set (pre ++ rest) name datum = pre ++ Keyed.set rest name datum := by
  induction pre with
  | nil => rfl
  | cons entry pre ih =>
    rw [List.map_cons, List.mem_cons, not_or] at h
    rw [List.cons_append, Keyed.set, beq_eq_false_iff_ne.mpr h.1, if_neg Bool.false_ne_true, ih h.2]
    rfl

theorem updateAll_append_values (values more : List (String × Datum A)) :
    store.updateAll (values ++ more) = (store.updateAll values).bind (·.updateAll more) :=
  List.foldlM_append ..

/-- A frame is left alone by updates of other names. -/
theorem updateAll_cons {values : List (String × Datum A)}
    (h : ∀ value ∈ values, value.1 ≠ Names.blank ∧ value.1 ∉ frame.map Prod.fst) :
    updateAll (frame :: store) values = (store.updateAll values).map (frame :: ·) := by
  induction values generalizing store with
  | nil => rfl
  | cons value values ih =>
    obtain ⟨⟨hblank, hframe⟩, hvalues⟩ := List.forall_mem_cons.mp h
    rw [updateAll, updateAll, List.foldlM_cons, List.foldlM_cons, update, update, if_neg hblank,
      if_neg hblank, assign, lookup_eq_none hframe,
      if_neg (show ¬(none : Option (Datum A)).isSome = true from Bool.false_ne_true)]
    cases store.assign value.1 value.2 with
    | none => rfl
    | some store => exact ih hvalues

/-- A frame with the values of some names after all of them have been given other values. -/
theorem updateAll_zip {names : List String} {data values : List (Datum A)} {pre : StoreFrame A}
    (hnodup : names.Nodup) (hblank : Names.blank ∉ names)
    (hpre : ∀ name ∈ names, name ∉ pre.map Prod.fst) (hdata : data.length = names.length)
    (hvalues : values.length = names.length) :
    updateAll ((pre ++ names.zip data) :: back) (names.zip values) =
      some ((pre ++ names.zip values) :: back) := by
  induction names generalizing data values pre with
  | nil => rfl
  | cons name names ih =>
    obtain ⟨datum, data, rfl⟩ := List.exists_cons_of_length_pos (l := data) (by simp [hdata])
    obtain ⟨value, values, rfl⟩ := List.exists_cons_of_length_pos (l := values) (by simp [hvalues])
    obtain ⟨hname, hnodup⟩ := List.nodup_cons.mp hnodup
    obtain ⟨hpreName, hpre⟩ := List.forall_mem_cons.mp hpre
    rw [List.mem_cons, not_or] at hblank
    have hset : Keyed.set (pre ++ (name, datum) :: names.zip data) name value =
        (pre ++ [(name, value)]) ++ names.zip data := by
      rw [set_append _ hpreName, Keyed.set, beq_self_eq_true, if_pos rfl, List.append_assoc]
      rfl
    have hsome : ((pre ++ (name, datum) :: names.zip data : StoreFrame A).lookup name).isSome =
        true := by
      rw [lookup_append hpreName, List.lookup_cons, beq_self_eq_true]
      rfl
    rw [List.zip_cons_cons, List.zip_cons_cons, updateAll, List.foldlM_cons, update,
      if_neg (Ne.symm hblank.1), assign, if_pos hsome, hset]
    have hother : ∀ other ∈ names, other ∉ (pre ++ [(name, value)]).map Prod.fst := by
      intro other hmem
      rw [List.map_append, List.mem_append, not_or]
      refine ⟨hpre other hmem, fun he => hname ?_⟩
      obtain rfl : other = name := List.mem_singleton.mp he
      exact hmem
    refine (ih hnodup hblank.2 hother (Nat.succ.inj hdata) (Nat.succ.inj hvalues)).trans ?_
    rw [List.append_assoc]
    rfl

theorem updateAll_zip_self {names : List String} {data values : List (Datum A)}
    (hnodup : names.Nodup) (hblank : Names.blank ∉ names) (hdata : data.length = names.length)
    (hvalues : values.length = names.length) :
    updateAll (names.zip data :: back) (names.zip values) = some (names.zip values :: back) := by
  rw [← List.nil_append (names.zip data), ← List.nil_append (names.zip values)]
  exact updateAll_zip hnodup hblank (fun _ _ => List.not_mem_nil) hdata hvalues

/-- What a frame of names and values shows under each of its names. -/
theorem visible_zip {names : List String} {values : List (Datum A)} (hnodup : names.Nodup)
    (hvalues : values.length = names.length) :
    names.map (visible (names.zip values :: back)) = values.map some := by
  induction names generalizing values with
  | nil => rw [List.length_eq_zero_iff.mp hvalues]; rfl
  | cons name names ih =>
    obtain ⟨value, values, rfl⟩ := List.exists_cons_of_length_pos (l := values) (by simp [hvalues])
    obtain ⟨hname, hnodup⟩ := List.nodup_cons.mp hnodup
    rw [List.map_cons, List.map_cons, ← ih hnodup (Nat.succ.inj hvalues)]
    refine congrArg₂ _ ?_ (List.map_congr_left fun other hother => ?_)
    · rw [List.zip_cons_cons, visible_cons, List.lookup_cons, beq_self_eq_true]
      rfl
    · have hne : other ≠ name := fun he => hname (he ▸ hother)
      rw [List.zip_cons_cons, visible_cons, visible_cons, List.lookup_cons,
        beq_eq_false_iff_ne.mpr hne]

theorem set_set (frame : StoreFrame A) (name : String) (datum value : Datum A) :
    Keyed.set (Keyed.set frame name datum) name value = Keyed.set frame name value := by
  induction frame with
  | nil => simp [Keyed.set]
  | cons entry frame ih =>
    by_cases h : name = entry.1
    · simp [Keyed.set, h]
    · simp [Keyed.set, h, ih]

/-- A variable that is declared and then given a value. -/
theorem update_declare (store : Store A) (hblank : name ≠ Names.blank) (datum value : Datum A) :
    (store.declare name datum).update name value = some (store.declare name value) := by
  unfold declare update
  rw [if_neg hblank, if_neg hblank, if_neg hblank]
  cases store with
  | nil =>
    dsimp only
    rw [assign, List.lookup_cons, beq_self_eq_true]
    simp [Keyed.set]
  | cons frame store =>
    dsimp only
    rw [assign, Keyed.lookup_set_self, if_pos (Option.isSome_some), set_set]

theorem visible_eq_none_iff :
    store.visible name = none ↔ ∀ frame ∈ store, name ∉ frame.map Prod.fst := by
  unfold visible
  rw [List.findSome?_eq_none_iff]
  refine forall₂_congr fun frame _ => ?_
  rw [List.lookup_eq_none_iff, List.mem_map]
  constructor
  · rintro h ⟨entry, hentry, rfl⟩
    exact absurd (h entry hentry) (by simp)
  · intro h entry hentry
    exact bne_iff_ne.mpr fun he => h ⟨entry, hentry, he.symm⟩

end Store

namespace Machine

variable {A W : Type} {m m' : Machine A W} {name : String}

/-- A name that is free stays so as long as no variables are declared. -/
theorem visible_eq_none_of_names (hnames : m'.names = m.names) (h : m.store.visible name = none) :
    m'.store.visible name = none := by
  rw [Store.visible_eq_none_iff] at h ⊢
  intro frame hframe
  have hmem : frame.map Prod.fst ∈ m.names := hnames ▸ List.mem_map_of_mem hframe
  obtain ⟨other, hother, he⟩ := List.mem_map.mp hmem
  rw [← he]
  exact h other hother

/-- What a scope does not declare is seen through it. -/
theorem visible_enter {frame : StoreFrame A} (h : name ∉ frame.map Prod.fst) :
    (m.enter frame).store.visible name = m.store.visible name := by
  rw [enter, Store.visible_cons, Store.lookup_eq_none h, Option.none_or]

theorem visible_enter_singleton {other : String} {datum : Datum A} (h : name ≠ other) :
    (m.enter [(other, datum)]).store.visible name = m.store.visible name :=
  visible_enter (fun hmem => h (List.mem_singleton.mp hmem))

/-- The machine is given more variables, which have some names. -/
inductive Adds (names : String → Prop) : (Machine A W → Machine A W) → Prop
  | enter {frame : StoreFrame A} (h : ∀ name ∈ frame.map Prod.fst, names name) :
      Adds names (·.enter frame)
  | declare {name : String} (h : names name) (datum : Datum A) :
      Adds names (·.declareAll [(name, datum)])

/-- Something that is run makes no difference between machines with variables of some names and
without them. -/
def BlindTo (names : String → Prop) (run : Machine A W → Option (Reply A × Machine A W)) : Prop :=
  ∀ add, Adds names add → ∀ m, run (add m) = (run m).map (Prod.map id add)

theorem BlindTo.enter {names : String → Prop}
    {run : Machine A W → Option (Reply A × Machine A W)} (h : BlindTo names run)
    {frame : StoreFrame A} (hframe : ∀ name ∈ frame.map Prod.fst, names name) (m : Machine A W) :
    run (m.enter frame) = (run m).map (Prod.map id (·.enter frame)) :=
  h _ (.enter hframe) m

/-- A name that is free is also free where variables of other names are added. -/
theorem Adds.visible_eq_none {names : String → Prop} {add : Machine A W → Machine A W}
    (h : Adds names add) (hname : ¬names name) (hfree : m.store.visible name = none) :
    (add m).store.visible name = none := by
  cases h with
  | enter hframe =>
    rw [Store.visible_eq_none_iff] at hfree ⊢
    exact List.forall_mem_cons.mpr ⟨fun hmem => hname (hframe name hmem), hfree⟩
  | @declare other hother datum =>
    have hne : name ≠ other := fun he => hname (he ▸ hother)
    change (m.store.declare other datum).visible name = none
    rw [Store.visible_declare, Variables.set_of_ne hne, hfree]

end Machine

/-! ## Statements -/

namespace Effects

open Completion

variable {A W : Type} {t : HostTree} {types : TypeTable} {E : Effects A W t types} {depth : Nat}
  {id : HostId} {m m' : Machine A W} {datum : Datum A}

/-- How statements end that are followed by no others. -/
inductive Leaves : Option (Completion (Machine A W) (Exit A)) → Prop
  | none : Leaves none
  | returns (data : Option (List (Datum A))) (m : Machine A W) :
      Leaves (some (.done (.returns data) m))
  | panics (datum : Datum A) (m : Machine A W) : Leaves (some (.done (.panics datum) m))

section

variable {step : HostId → Machine A W → Option (Completion (Machine A W) (Exit A))}
  {rest : List HostId}

theorem isReached_none : isReached t none id = true := rfl

theorem runList_next (h : step id m = some (.next m')) :
    runList t step none (id :: rest) m = runList t step none rest m' := by
  rw [runList, if_pos isReached_none, h]

theorem runList_leaves (h : Leaves (step id m)) :
    runList t step none (id :: rest) m = step id m := by
  rw [runList, if_pos isReached_none]
  generalize step id m = exit at h
  cases h <;> rfl

/-- The last statement decides how a block ends unless it is a jump. -/
theorem runList_last (h : ∀ label m', step id m ≠ some (.done (.jumps label) m')) :
    runList t step none [id] m = step id m := by
  rw [runList, if_pos isReached_none]
  rcases hstep : step id m with _ | ⟨m' | ⟨data | label | datum, m'⟩⟩
  · rfl
  · rfl
  · rfl
  · exact absurd hstep (h label m')
  · rfl

/-- A jump to a label that stands right behind it, at the end of a block. -/
theorem runList_jump {landing : HostId} {label : String}
    (hjump : step id m = some (.done (.jumps label) m))
    (hlabel : t.kind landing = .labeled label none)
    (hlanding : step landing m = some (.next m)) :
    runList t step none [id, landing] m = some (.next m) := by
  rw [runList, if_pos isReached_none, hjump]
  dsimp only
  rw [runList, if_pos (by simp [isReached, hlabel]), hlanding]
  rfl

end

theorem run_block {statements : List HostId} (h : t.kind id = .block statements) :
    E.run (depth + 1) id m = inScope (runList t (E.run depth) none statements) m := by
  rw [run_succ, h]
  rfl

theorem run_varDecl {name : String} {type : TypeId} {doc : Option String}
    (h : t.kind id = .varDecl ⟨[name], some type, [], doc⟩) :
    E.run (depth + 1) id m = some (.next (m.declareAll [(name, E.zero type)])) := by
  rw [run_succ, h]
  rfl

theorem evalAll_singleton : E.evalAll [id] m = E.eval id m := by
  rw [evalAll]
  rcases E.eval id m with _ | ⟨data | datum, m'⟩
  · rfl
  · exact congrArg (fun data => some (Reply.values data, m')) (List.append_nil data)
  · rfl

theorem run_assign {lhs : List HostId} {value : HostId} {names : List String}
    (h : t.kind id = .assign lhs .plain [value]) (hnames : lhs.mapM t.name? = some names) :
    E.run (depth + 1) id m = withValues (E.eval value m) (fun data m =>
      if names.length = data.length then
        (m.store.updateAll (names.zip data)).map (fun store => .next { m with store })
      else none) := by
  rw [run_succ, h, ← evalAll_singleton]
  refine congrArg (withValues _) (funext fun data => funext fun m => ?_)
  rw [hnames]
  dsimp only [bind, Option.bind]
  split
  · cases m.store.updateAll (names.zip data) <;> rfl
  · rfl

theorem run_expression_panics {value : HostId} (h : t.kind id = .expression value)
    (hvalue : E.eval value m = some (.panics datum, m')) :
    E.run (depth + 1) id m = some (.done (.panics datum) m') := by
  rw [run_succ, h]
  change withValues (E.eval value m) _ = _
  rw [hvalue]
  rfl

/-- A reply is returned from a function. -/
def returning (reply : Option (Reply A × Machine A W)) :
    Option (Completion (Machine A W) (Exit A)) :=
  withValues reply (fun data m => some (.done (.returns (some data)) m))

theorem leaves_returning (reply : Option (Reply A × Machine A W)) : Leaves (returning reply) := by
  rcases reply with _ | ⟨data | datum, m⟩
  · exact .none
  · exact .returns _ _
  · exact .panics _ _

theorem run_ret_none (h : t.kind id = .ret []) :
    E.run (depth + 1) id m = some (.done (.returns none) m) := by
  rw [run_succ, h]
  rfl

theorem run_ret {first : HostId} {rest : List HostId} (h : t.kind id = .ret (first :: rest)) :
    E.run (depth + 1) id m = returning (E.evalAll (first :: rest) m) := by
  rw [run_succ, h]
  rfl

theorem run_goto {label : String} (h : t.kind id = .branch .goto (some label)) :
    E.run (depth + 1) id m = some (.done (.jumps label) m) := by
  rw [run_succ, h]
  rfl

theorem run_labeled_none {label : String} (h : t.kind id = .labeled label none) :
    E.run (depth + 1) id m = some (.next m) := by
  rw [run_succ, h]
  rfl

end Effects

end GoLowering
