import Mathlib.Data.List.Basic
import GoLowering.Host.Execution

/-!
# Loops that stand one inside of the other

The code of a comprehension is a loop for each clause with a statement innermost (`IsNest`). To run
it is to run that statement for the combinations of elements that pass every guard, in the order of
the clauses (`run_nest`): each iteration has its own frames on the stack, which only hold what the
clauses name, and below them is the frame with the results, which only the statement changes.
-/

namespace GoLowering

open Completion

/-- The names that the code of a comprehension uses itself. -/
def Names.ofComprehensions : List String := [Names.result, Names.ok, "append", "true"]

namespace Completion

variable {α β σ τ ρ : Type} {step : α → σ → Option (Completion σ ρ)}

@[simp] theorem andThen_next (exit : Option (Completion σ ρ)) :
    andThen exit (some <| next ·) = exit := by
  rcases exit with _ | _ | _ <;> rfl

theorem andThen_assoc (exit : Option (Completion σ ρ)) (f g : σ → Option (Completion σ ρ)) :
    andThen (andThen exit f) g = andThen exit (fun s => andThen (f s) g) := by
  rcases exit with _ | _ | _ <;> rfl

@[simp] theorem runAll_singleton (a : α) (s : σ) : runAll step [a] s = step a s :=
  andThen_next _

theorem runAll_append (as bs : List α) (s : σ) :
    runAll step (as ++ bs) s = andThen (runAll step as s) (runAll step bs) := by
  induction as generalizing s with
  | nil => rfl
  | cons a as ih =>
    simp only [List.cons_append, runAll, andThen_assoc]
    exact congrArg _ (funext ih)

theorem runAll_flatMap (f : β → List α) (bs : List β) (s : σ) :
    runAll step (bs.flatMap f) s = runAll (fun b => runAll step (f b)) bs s := by
  induction bs generalizing s with
  | nil => rfl
  | cons b bs ih =>
    rw [List.flatMap_cons, runAll_append]
    exact congrArg _ (funext ih)

/-- Steps on one sort of state that are steps on another one. -/
theorem runAll_map {step' : α → τ → Option (Completion τ ρ)} {f : σ → τ} {as : List α}
    (h : ∀ a ∈ as, ∀ s, step' a (f s) = (step a s).map (Completion.map f)) (s : σ) :
    runAll step' as (f s) = (runAll step as s).map (Completion.map f) := by
  induction as generalizing s with
  | nil => rfl
  | cons a as ih =>
    rw [runAll, runAll, h a List.mem_cons_self]
    rcases step a s with _ | s' | _
    · rfl
    · exact ih (fun b hb => h b (List.mem_cons_of_mem _ hb)) s'
    · rfl

theorem map_map {υ : Type} (f : σ → τ) (g : τ → υ) (exit : Option (Completion σ ρ)) :
    (exit.map (Completion.map f)).map (Completion.map g) = exit.map (Completion.map (g ∘ f)) := by
  rcases exit with _ | _ | _ <;> rfl

end Completion

/-! ## Variables and frames -/

namespace Variables

variable {A : Type} {v w : Variables A}

/-- Whether the same variables can be seen, apart from the results of a comprehension. -/
def Alike (v w : Variables A) : Prop :=
  ∀ name, name ≠ Names.result → name ≠ Names.ok → v name = w name

theorem Alike.set (h : v.Alike w) (name : String) (datum : Datum A) :
    (v.set name datum).Alike (w.set name datum) := by
  intro other hresult hok
  unfold Variables.set
  split
  · exact h other hresult hok
  · rw [Function.update_apply, Function.update_apply, h other hresult hok]

theorem Alike.setAll (h : v.Alike w) (values : List (String × Datum A)) :
    (v.setAll values).Alike (w.setAll values) := by
  induction values generalizing v w with
  | nil => exact h
  | cons value values ih => exact ih (h.set value.1 value.2)

theorem set_of_ne {name other : String} {datum : Datum A} (h : other ≠ name) :
    v.set name datum other = v other := by
  unfold Variables.set
  split
  · rfl
  · exact Function.update_of_ne h _ _

theorem isSome_set {name other : String} {datum : Datum A} (h : (v other).isSome = true) :
    (v.set name datum other).isSome = true := by
  unfold Variables.set
  split
  · exact h
  · rw [Function.update_apply]
    split
    · rfl
    · exact h

theorem setAll_of_ne {values : List (String × Datum A)} {other : String}
    (h : ∀ value ∈ values, other ≠ value.1) : v.setAll values other = v other := by
  induction values generalizing v with
  | nil => rfl
  | cons value values ih =>
    exact (ih (fun value hvalue => h value (List.mem_cons_of_mem _ hvalue))).trans
      (set_of_ne (h value List.mem_cons_self))

theorem set_or (v w : Variables A) (name : String) (datum : Datum A) :
    (fun other => (v.set name datum other).or (w other)) =
      set (fun other => (v other).or (w other)) name datum := by
  unfold Variables.set
  split
  · rfl
  · funext other
    rw [Function.update_apply, Function.update_apply]
    split <;> rfl

theorem setAll_or (v w : Variables A) (values : List (String × Datum A)) :
    (fun other => (v.setAll values other).or (w other)) =
      setAll (fun other => (v other).or (w other)) values := by
  induction values generalizing v with
  | nil => rfl
  | cons value values ih => exact (ih _).trans (congrArg (setAll · values) (set_or v w _ _))

end Variables

namespace Store

variable {A : Type} {front front' back : Store A} {name : String}
  {values : List (String × Datum A)}

theorem visible_append (front back : Store A) (name : String) :
    (front ++ back).visible name = (front.visible name).or (back.visible name) :=
  List.findSome?_append ..

theorem visible_cons (frame : StoreFrame A) (store : Store A) (name : String) :
    visible (frame :: store) name = (frame.lookup name).or (store.visible name) := by
  unfold visible
  rw [List.findSome?_cons]
  cases frame.lookup name <;> rfl

theorem lookup_set (frame : StoreFrame A) (name other : String) (datum : Datum A) :
    (Keyed.set frame name datum).lookup other =
      if other = name then some datum else frame.lookup other := by
  split
  · rename_i h
    rw [h, Keyed.lookup_set_self]
  · rename_i h
    exact Keyed.lookup_set_of_ne h

theorem visible_declare (store : Store A) (name : String) (datum : Datum A) :
    (store.declare name datum).visible = store.visible.set name datum := by
  unfold declare Variables.set
  split
  · rfl
  funext other
  rw [Function.update_apply]
  cases store with
  | nil =>
    rw [visible_cons, List.lookup_cons]
    by_cases h : other = name <;> simp [h, beq_eq_false_iff_ne.mpr]
  | cons frame store =>
    rw [visible_cons, visible_cons, lookup_set]
    split <;> rfl

/-- The first frames of a stack after some variables in them have been given values. -/
structure Sets (front front' : Store A) (values : List (String × Datum A)) : Prop where
  length : front'.length = front.length
  visible : front'.visible = front.visible.setAll values

theorem Sets.visible_append (h : front.Sets front' values) (back : Store A) :
    (front' ++ back).visible = (front ++ back).visible.setAll values := by
  have happend (front : Store A) : (front ++ back).visible =
      fun name => (front.visible name).or (back.visible name) :=
    funext (Store.visible_append front back)
  rw [happend, happend, h.visible, Variables.setAll_or]

theorem Sets.cons {front₁ : Store A} {datum : Datum A} (h₁ : front.Sets front₁ [(name, datum)])
    (h : front₁.Sets front' values) : front.Sets front' ((name, datum) :: values) :=
  ⟨h.length.trans h₁.length, h.visible.trans (congrArg (·.setAll values) h₁.visible)⟩

theorem declare_append (h : front ≠ []) (name : String) (datum : Datum A) :
    (front ++ back).declare name datum = front.declare name datum ++ back := by
  obtain ⟨frame, rest, rfl⟩ := List.exists_cons_of_ne_nil h
  unfold declare
  split <;> rfl

theorem sets_declare (h : front ≠ []) (name : String) (datum : Datum A) :
    front.Sets (front.declare name datum) [(name, datum)] := by
  refine ⟨?_, visible_declare front name datum⟩
  obtain ⟨frame, rest, rfl⟩ := List.exists_cons_of_ne_nil h
  unfold declare
  split <;> rfl

theorem declareAll_append (h : front ≠ []) (values : List (String × Datum A)) :
    ∃ front', front.Sets front' values ∧
      ∀ back : Store A, (front ++ back).declareAll values = front' ++ back := by
  induction values generalizing front with
  | nil => exact ⟨front, ⟨rfl, rfl⟩, fun _ => rfl⟩
  | cons value values ih =>
    obtain ⟨name, datum⟩ := value
    have hdeclare := sets_declare h name datum
    have hne : front.declare name datum ≠ [] := by
      rw [← List.length_pos_iff, hdeclare.length]
      exact List.length_pos_iff.mpr h
    obtain ⟨front', hsets, hrest⟩ := ih hne
    refine ⟨front', hdeclare.cons hsets, fun back => ?_⟩
    rw [← hrest, ← declare_append h]
    rfl

theorem assign_append (h : (front.visible name).isSome = true) (datum : Datum A) :
    ∃ front', front'.length = front.length ∧
      front'.visible = Function.update front.visible name (some datum) ∧
      ∀ back : Store A, (front ++ back).assign name datum = some (front' ++ back) := by
  induction front with
  | nil => cases h
  | cons frame front ih =>
    cases hframe : (frame.lookup name).isSome with
    | true =>
      refine ⟨Keyed.set frame name datum :: front, rfl, funext fun other => ?_, fun back => ?_⟩
      · rw [visible_cons, lookup_set, Function.update_apply, visible_cons]
        split <;> rfl
      · rw [List.cons_append, assign, if_pos hframe]
        rfl
    | false =>
      have hnone := Option.isSome_eq_false_iff.mp hframe
      rw [visible_cons, Option.isNone_iff_eq_none.mp hnone, Option.none_or] at h
      obtain ⟨front', hlength, hvisible, hrest⟩ := ih h
      refine ⟨frame :: front', congrArg (· + 1) hlength, funext fun other => ?_, fun back => ?_⟩
      · rw [visible_cons, hvisible, Function.update_apply, Function.update_apply, visible_cons]
        split
        · rename_i hother
          rw [hother, Option.isNone_iff_eq_none.mp hnone, Option.none_or]
        · rfl
      · rw [List.cons_append, assign, if_neg (by rw [hframe]; exact Bool.false_ne_true), hrest]
        rfl

/-- What no frame above has a variable for is assigned below. -/
theorem assign_below (h : front.visible name = none) (back : Store A) (datum : Datum A) :
    (front ++ back).assign name datum = (back.assign name datum).map (front ++ ·) := by
  induction front with
  | nil => simp
  | cons frame front ih =>
    rw [visible_cons, Option.or_eq_none_iff] at h
    rw [List.cons_append, assign, if_neg (by rw [h.1]; exact Bool.false_ne_true), ih h.2,
      Option.map_map]
    rfl

theorem update_append (h : name = Names.blank ∨ (front.visible name).isSome = true)
    (datum : Datum A) : ∃ front', front.Sets front' [(name, datum)] ∧
      ∀ back : Store A, (front ++ back).update name datum = some (front' ++ back) := by
  unfold update
  by_cases hblank : name = Names.blank
  · exact ⟨front, ⟨rfl, (if_pos hblank).symm⟩, fun _ => if_pos hblank⟩
  · obtain ⟨front', hlength, hvisible, hrun⟩ := assign_append (h.resolve_left hblank) datum
    exact ⟨front', ⟨hlength, hvisible.trans (if_neg hblank).symm⟩,
      fun back => (if_neg hblank).trans (hrun back)⟩

theorem updateAll_append {values : List (String × Datum A)}
    (h : ∀ value ∈ values, value.1 = Names.blank ∨ (front.visible value.1).isSome = true) :
    ∃ front', front.Sets front' values ∧
      ∀ back : Store A, (front ++ back).updateAll values = some (front' ++ back) := by
  induction values generalizing front with
  | nil => exact ⟨front, ⟨rfl, rfl⟩, fun _ => rfl⟩
  | cons value values ih =>
    obtain ⟨name, datum⟩ := value
    obtain ⟨hvalue, hvalues⟩ := List.forall_mem_cons.mp h
    obtain ⟨front₁, hupdate, hrun⟩ := update_append hvalue datum
    have hbound : ∀ value ∈ values,
        value.1 = Names.blank ∨ (front₁.visible value.1).isSome = true := by
      intro value hmem
      rw [hupdate.visible]
      exact (hvalues value hmem).imp_right Variables.isSome_set
    obtain ⟨front', hsets, hrest⟩ := ih hbound
    refine ⟨front', hupdate.cons hsets, fun back => ?_⟩
    rw [updateAll, List.foldlM_cons, hrun]
    exact hrest back

end Store

/-! ## What clauses mean -/

/-- A clause of a comprehension, with expressions of the host for its parts. -/
structure LoopClause where
  key : Option String
  item : Option String
  source : HostId
  /-- What the type of the source is behind its names. -/
  shape : Ty
  init : Option HostId
  guard : Option HostId
  deriving DecidableEq, Repr

def LoopClause.names (clause : LoopClause) : List String :=
  clause.key.toList ++ clause.item.toList

section

variable {A : Type} {t : HostTree} {types : TypeTable}

namespace Evaluation

variable (E : Evaluation A t types)

/-- The variables after an initialization. -/
def initialized (init : Option HostId) (v : Variables A) : Variables A :=
  match init with
  | none => v
  | some id => v.setAll (((t.targets? id).getD []).zip (E.assigned id v))

/-- The variables of a clause at one element of its source. -/
def bound (clause : LoopClause) (v : Variables A) (element : Datum A × Datum A) : Variables A :=
  E.initialized clause.init (v.setAll
    [(clause.key.getD Names.blank, element.1), (clause.item.getD Names.blank, element.2)])

def passes (clause : LoopClause) (v : Variables A) : Bool :=
  clause.guard.all (fun guard => (E.value guard v).isTrue)

/-- The variables at each combination of elements that passes every guard, in the order of the
clauses. -/
def combinations : List LoopClause → Variables A → List (Variables A)
  | [], v => [v]
  | clause :: rest, v =>
    (E.value clause.source v).elements.flatMap (fun element =>
      if E.passes clause (E.bound clause v element) then
        combinations rest (E.bound clause v element)
      else [])

/-- An expression that the results of a comprehension make no difference to. -/
def Blind (id : HostId) : Prop := ∀ v w : Variables A, v.Alike w → E.value id v = E.value id w

/-- A simple statement that only gives values to variables which it declares or which are among
some names. -/
structure IsLocal (names : List String) (id : HostId) : Prop where
  targets : ∃ targets, t.targets? id = some targets ∧ ∀ name ∈ targets,
    name ∉ Names.ofComprehensions ∧
      (t.declares id = false → name = Names.blank ∨ name ∈ names)
  blind : ∀ v w : Variables A, v.Alike w → E.assigned id v = E.assigned id w

/-- A clause that has no side effects beyond its own variables and that does not use the names
that the code of comprehensions uses. -/
structure IsOrdinary (clause : LoopClause) : Prop where
  names : ∀ name ∈ clause.names, name ∉ Names.ofComprehensions
  source : E.Blind clause.source
  init : ∀ init ∈ clause.init, E.IsLocal clause.names init
  guard : ∀ guard ∈ clause.guard, E.Blind guard

end Evaluation

namespace HostTree

/-- The body of the loop of a clause. -/
def IsBody (t : HostTree) (clause : LoopClause) (inner statements : List HostId) : Prop :=
  match clause.guard with
  | none => statements = clause.init.toList ++ inner
  | some guard => ∃ guarded thenBranch, statements = [guarded] ∧
      t.kind guarded = .ifElse clause.init guard thenBranch none ∧
      t.kind thenBranch = .block inner

/-- The loops of clauses, one inside of the other, around a statement. -/
inductive IsNest (t : HostTree) (innermost : HostId) : List LoopClause → List HostId → Prop
  | innermost : IsNest t innermost [] [innermost]
  | loop {clause : LoopClause} {rest : List LoopClause} {inner statements : List HostId}
      {key item : Option HostId} {body loop : HostId}
      (hloop : t.kind loop = .range key item true clause.source body)
      (hkey : t.nameIfAny key = clause.key.getD Names.blank)
      (hitem : t.nameIfAny item = clause.item.getD Names.blank)
      (hblock : t.kind body = .block statements) (hbody : t.IsBody clause inner statements)
      (hinner : IsNest t innermost rest inner) : IsNest t innermost (clause :: rest) [loop]

end HostTree

/-! ## Runs inside of the loops -/

/-- The frames of the loops around a statement, above those that are seen from the outside, show
what a clause sees, and leave the results alone. -/
structure Inside (front outer : Store A) (v : Variables A) : Prop where
  alike : (front ++ outer).visible.Alike v
  result : front.visible Names.result = none
  ok : front.visible Names.ok = none
  append : v "append" = none
  truth : v "true" = none

namespace Store

/-- There are no variables in a frame but the results of a comprehension. -/
def HasOnlyResults (frame : StoreFrame A) : Prop :=
  ∀ name, name ≠ Names.result → name ≠ Names.ok → frame.lookup name = none

namespace HasOnlyResults

variable {name : String} {datum : Datum A} {frame : StoreFrame A}

theorem cons (hname : name = Names.result ∨ name = Names.ok) (h : HasOnlyResults frame) :
    HasOnlyResults ((name, datum) :: frame) := by
  intro other hresult hok
  have hne : other ≠ name := by
    rcases hname with rfl | rfl
    · exact hresult
    · exact hok
  rw [List.lookup_cons, beq_eq_false_iff_ne.mpr hne]
  exact h other hresult hok

theorem singleton (hname : name = Names.result ∨ name = Names.ok) :
    HasOnlyResults [(name, datum)] :=
  cons hname (fun _ _ _ => rfl)

end HasOnlyResults

end Store

namespace Inside

variable {front front' rest outer : Store A} {frame : StoreFrame A} {v : Variables A}
  {values : List (String × Datum A)}

theorem push (h : Inside front outer v) : Inside ([] :: front) outer v :=
  ⟨h.alike, h.result, h.ok, h.append, h.truth⟩

theorem sets (h : Inside (front ++ rest) outer v) (hsets : front.Sets front' values)
    (hvalues : ∀ value ∈ values, value.1 ∉ Names.ofComprehensions) :
    Inside (front' ++ rest) outer (v.setAll values) := by
  have hne {name : String} (hname : name ∈ Names.ofComprehensions) (value)
      (hvalue : value ∈ values) : name ≠ value.1 := fun he => hvalues value hvalue (he ▸ hname)
  refine ⟨?_, ?_, ?_, ?_, ?_⟩
  · rw [List.append_assoc, hsets.visible_append, ← List.append_assoc]
    exact h.alike.setAll values
  · rw [hsets.visible_append, Variables.setAll_of_ne (hne (by decide)), h.result]
  · rw [hsets.visible_append, Variables.setAll_of_ne (hne (by decide)), h.ok]
  · rw [Variables.setAll_of_ne (hne (by decide)), h.append]
  · rw [Variables.setAll_of_ne (hne (by decide)), h.truth]

/-- The frame with the results makes no difference to what clauses see. -/
theorem alike_results (h : Inside front outer v)
    (hframe : Store.HasOnlyResults frame) : (front ++ frame :: outer).visible.Alike v := by
  intro name hresult hok
  rw [Store.visible_append, Store.visible_cons, hframe name hresult hok, Option.none_or,
    ← Store.visible_append]
  exact h.alike name hresult hok

end Inside

namespace Evaluation

variable {E : Evaluation A t types} {σ : Type} {frame : σ → StoreFrame A}
  {front rest outer : Store A} {v : Variables A} {id : HostId} {names : List String}

theorem run_simple {targets : List String} (h : t.targets? id = some targets) (depth : Nat)
    (store : Store A) : E.run (depth + 1) id store = (E.runSimple id store).map .next := by
  unfold HostTree.targets? at h
  rw [run]
  split at h
  · rename_i hkind
    rw [hkind]
  · rename_i hkind
    rw [hkind]
  · rename_i hkind
    rw [hkind]
  · cases h

/-- An initialization only changes the frames of its own clause. -/
theorem run_init (hframe : ∀ s, Store.HasOnlyResults (frame s)) {init : Option HostId}
    (hinit : ∀ id ∈ init, E.IsLocal names id) (hfront : front ≠ [])
    (hbound : ∀ name ∈ names, name = Names.blank ∨ (front.visible name).isSome = true)
    (hinside : Inside (front ++ rest) outer v) :
    ∃ front' : Store A, front'.length = front.length ∧
      Inside (front' ++ rest) outer (E.initialized init v) ∧
      ∀ depth s, runAll (E.run (depth + 1)) init.toList (front ++ rest ++ frame s :: outer) =
        some (.next (front' ++ rest ++ frame s :: outer)) := by
  cases init with
  | none => exact ⟨front, rfl, hinside, fun _ _ => rfl⟩
  | some id =>
    obtain ⟨⟨targets, htargets, hfree⟩, hblind⟩ := hinit id rfl
    have hvalues : ∀ value ∈ targets.zip (E.assigned id v),
        value.1 ∉ Names.ofComprehensions ∧
          (t.declares id = false → value.1 = Names.blank ∨ value.1 ∈ names) :=
      fun value hvalue => hfree value.1 (List.of_mem_zip hvalue).1
    have hinitialized : E.initialized (some id) v = v.setAll (targets.zip (E.assigned id v)) := by
      rw [initialized, htargets]
      rfl
    obtain ⟨front', hsets, hrun⟩ : ∃ front', front.Sets front' (targets.zip (E.assigned id v)) ∧
        ∀ back : Store A, (if t.declares id then
            some ((front ++ back).declareAll (targets.zip (E.assigned id v)))
          else (front ++ back).updateAll (targets.zip (E.assigned id v))) =
            some (front' ++ back) := by
      cases hdeclares : t.declares id with
      | true =>
        obtain ⟨front', hsets, hrun⟩ :=
          Store.declareAll_append hfront (targets.zip (E.assigned id v))
        exact ⟨front', hsets, fun back => congrArg some (hrun back)⟩
      | false =>
        exact Store.updateAll_append (fun value hvalue =>
          ((hvalues value hvalue).2 hdeclares).elim .inl (hbound _))
    refine ⟨front', hsets.length, ?_, fun depth s => ?_⟩
    · rw [hinitialized]
      exact hinside.sets hsets (fun value hvalue => (hvalues value hvalue).1)
    · rw [Option.toList_some, runAll_singleton, run_simple htargets, runSimple, htargets,
        List.append_assoc, List.append_assoc]
      dsimp only
      rw [← List.append_assoc front, hblind _ v (hinside.alike_results (hframe s)),
        List.append_assoc, hrun]
      rfl

/-- The variables of a loop at one element. -/
theorem exists_step_frame {clause : LoopClause} (hclause : E.IsOrdinary clause)
    (hinside : Inside front outer v) (element : Datum A × Datum A) :
    ∃ step : Store A, step.length = 1 ∧
      Inside (step ++ front) outer (v.setAll
        [(clause.key.getD Names.blank, element.1), (clause.item.getD Names.blank, element.2)]) ∧
      (∀ name ∈ clause.names, name = Names.blank ∨ (step.visible name).isSome = true) ∧
      ∀ back : Store A, Store.declareAll ([] :: back)
        [(clause.key.getD Names.blank, element.1), (clause.item.getD Names.blank, element.2)] =
          step ++ back := by
  obtain ⟨step, hsets, hrun⟩ := Store.declareAll_append (show ([[]] : Store A) ≠ [] by simp)
    [(clause.key.getD Names.blank, element.1), (clause.item.getD Names.blank, element.2)]
  have hnames : ∀ name : Option String, (∀ n ∈ name, n ∈ clause.names) →
      name.getD Names.blank ∉ Names.ofComprehensions := by
    intro name hname
    cases name with
    | none => decide
    | some name => exact hclause.names name (hname name rfl)
  have hpushed : Inside ([[]] ++ front) outer v := hinside.push
  refine ⟨step, hsets.length, hpushed.sets hsets ?_, ?_, hrun⟩
  · simp only [List.forall_mem_cons, List.not_mem_nil, false_imp_iff, implies_true, and_true]
    exact ⟨hnames _ (fun _ hn => List.mem_append_left _ (Option.mem_toList.mpr hn)),
      hnames _ (fun _ hn => List.mem_append_right _ (Option.mem_toList.mpr hn))⟩
  · intro name hname
    by_cases hblank : name = Names.blank
    · exact .inl hblank
    refine .inr ?_
    rw [hsets.visible]
    simp only [LoopClause.names, List.mem_append, Option.mem_toList] at hname
    simp only [Variables.setAll, List.foldl_cons, List.foldl_nil, Variables.set]
    rcases hname with hkey | hitem
    · rw [hkey, Option.getD_some, if_neg hblank]
      split
      · simp
      · rw [Function.update_apply]
        split <;> simp
    · rw [hitem, Option.getD_some, if_neg hblank]
      simp

section

variable (hframe : ∀ s, Store.HasOnlyResults (frame s))

include hframe

/-- One iteration of the loop of a clause: what stands inside of it is run if the guard passes. -/
theorem run_iteration {clause : LoopClause} {body : HostId} {inner statements : List HostId}
    {within : Variables A → σ → Option (Completion σ (Option (List (Datum A))))} {depth : Nat}
    (hclause : E.IsOrdinary clause) (hblock : t.kind body = .block statements)
    (hbody : t.IsBody clause inner statements) (hinside : Inside front outer v)
    (hinner : ∀ {front v}, Inside front outer v → ∀ {depth'}, depth ≤ depth' → ∀ s,
      runAll (E.run depth') inner (front ++ frame s :: outer) =
        (within v s).map (Completion.map (front ++ frame · :: outer)))
    (element : Datum A × Datum A) (s : σ) :
    inBlock (fun store => E.run (depth + 3) body (store.declareAll
        [(clause.key.getD Names.blank, element.1), (clause.item.getD Names.blank, element.2)]))
      (front ++ frame s :: outer) =
      (if E.passes clause (E.bound clause v element) then within (E.bound clause v element) s
        else some (.next s)).map (Completion.map (front ++ frame · :: outer)) := by
  obtain ⟨step, hlength, hstep, hnames, hdeclare⟩ := exists_step_frame hclause hinside element
  obtain ⟨local₀, rfl⟩ := List.length_eq_one_iff.mp hlength
  unfold HostTree.IsBody at hbody
  rw [inBlock, hdeclare, run, hblock]
  cases hguard : clause.guard with
  | none =>
    rw [hguard] at hbody
    obtain ⟨front', hlength', hinside', hinit⟩ := run_init hframe hclause.init
      (show ([[], local₀] : Store A) ≠ [] by simp) hnames hstep.push
    obtain ⟨a, b, rfl⟩ := List.length_eq_two.mp hlength'
    have hpasses : E.passes clause (E.bound clause v element) = true := by
      rw [passes, hguard]
      rfl
    have hrun := hinit (depth + 1) s
    have hrest := hinner hinside' (Nat.le_add_right depth 2) s
    simp only [List.cons_append, List.nil_append] at hrun hrest ⊢
    rw [hpasses, if_pos rfl, hbody, inBlock, runAll_append, hrun, andThen, hrest, map_map, map_map]
    rfl
  | some guard =>
    rw [hguard] at hbody
    obtain ⟨guarded, thenBranch, rfl, hif, hthen⟩ := hbody
    obtain ⟨front', hlength', hinside', hinit⟩ := run_init hframe hclause.init
      (show ([[], [], local₀] : Store A) ≠ [] by simp) hnames hstep.push.push
    obtain ⟨a, b, d, rfl⟩ := List.length_eq_three.mp hlength'
    have hrun := hinit depth s
    have hrest := hinner hinside'.push (Nat.le_refl depth) s
    have hpasses : E.passes clause (E.bound clause v element) =
        (E.value guard (Store.visible ([a, b, d] ++ front ++ frame s :: outer))).isTrue := by
      rw [passes, hguard, hclause.guard guard hguard _ _ (hinside'.alike_results (hframe s))]
      rfl
    simp only [List.cons_append, List.nil_append] at hrun hrest hpasses ⊢
    unfold inBlock
    rw [runAll_singleton, run, hif]
    unfold inBlock
    dsimp only
    rw [hrun, andThen, ← hpasses]
    split
    · rw [run, hthen]
      unfold inBlock
      dsimp only
      rw [hrest, map_map, map_map, map_map, map_map]
      rfl
    · rfl

/-- To run nested loops is to run the statement innermost for each combination. -/
theorem run_nest {innermost : HostId}
    {act : Variables A → σ → Completion σ (Option (List (Datum A)))}
    (hinnermost : ∀ {front v}, Inside front outer v → ∀ depth s,
      E.run (depth + 1) innermost (front ++ frame s :: outer) =
        some ((act v s).map (front ++ frame · :: outer)))
    {clauses : List LoopClause} {statements : List HostId}
    (hnest : t.IsNest innermost clauses statements)
    (hclauses : ∀ clause ∈ clauses, E.IsOrdinary clause) (hinside : Inside front outer v)
    {depth : Nat} (hdepth : 4 * clauses.length < depth) (s : σ) :
    runAll (E.run depth) statements (front ++ frame s :: outer) =
      (runAll (fun v s => some (act v s)) (E.combinations clauses v) s).map
        (Completion.map (front ++ frame · :: outer)) := by
  induction hnest generalizing front v depth s with
  | innermost =>
    obtain ⟨depth, rfl⟩ := Nat.exists_eq_succ_of_ne_zero (Nat.ne_zero_of_lt hdepth)
    rw [runAll_singleton, hinnermost hinside, combinations, runAll_singleton]
    rfl
  | @loop clause rest inner statements key item body loop hloop hkey hitem hblock hbody hinner ih =>
    obtain ⟨hclause, hrest⟩ := List.forall_mem_cons.mp hclauses
    have hdeeper : 4 * rest.length < depth - 4 ∧ depth = depth - 4 + 4 := by
      rw [List.length_cons] at hdepth
      omega
    obtain ⟨hlt, heq⟩ := hdeeper
    rw [heq, runAll_singleton, run, hloop]
    dsimp only
    rw [hkey, hitem, hclause.source _ v (hinside.alike_results (hframe s)), combinations,
      runAll_flatMap]
    refine runAll_map (f := (front ++ frame · :: outer)) (fun element _ s => ?_) s
    rw [run_iteration hframe hclause hblock hbody hinside
      (fun hinside _ hle s => ih hrest hinside (Nat.lt_of_lt_of_le hlt hle) s)]
    split <;> rfl

end

end Evaluation

end

end GoLowering
