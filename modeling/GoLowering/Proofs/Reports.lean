import GoLowering.Lowering.Unit
import GoLowering.Proofs.Runs

/-!
# Reports

A failure ends in a report at the latest where a declaration ends, so the declarations of a unit
are always gone through (`answers_lowerDeclarations`).
-/

namespace GoLowering.Lowering

open Surface

/-- A part that never fails; what goes wrong in it is reported. -/
class Answers {α : Type} (m : Lower α) : Prop where
  ok (c : Context) (s : State) : ∃ a s', m c s = (.ok a, s')

section

variable {α β : Type}

instance answers_bind {m : Lower α} {f : α → Lower β} [hm : Answers m] [hf : ∀ a, Answers (f a)] :
    Answers (m >>= f) where
  ok c s := by
    obtain ⟨a, s₁, hrun⟩ := hm.ok c s
    obtain ⟨b, s', hrest⟩ := (hf a).ok c s₁
    exact ⟨b, s', bind_ok.mpr ⟨a, s₁, hrun, hrest⟩⟩

theorem Answers.before {m : Lower α} [Answers m] {f : α → Lower β} (h : ∀ a, Answers (f a)) :
    Answers (m >>= f) :=
  answers_bind

instance answers_pure (a : α) : Answers (pure a : Lower α) := ⟨fun _ s => ⟨a, s, rfl⟩⟩

instance answers_read : Answers (read : Lower Context) := ⟨fun c s => ⟨c, s, rfl⟩⟩

instance answers_get : Answers (get : Lower State) := ⟨fun _ s => ⟨s, s, rfl⟩⟩

instance answers_modify (f : State → State) : Answers (modify f : Lower Unit) :=
  ⟨fun _ s => ⟨(), f s, rfl⟩⟩

instance answers_onTypes (f : TypeTable → α × TypeTable) : Answers (onTypes f) :=
  ⟨fun _ s => ⟨(f s.types).1, { s with types := (f s.types).2 }, rfl⟩⟩

instance answers_attempt (m : Lower α) : Answers (attempt m) :=
  ⟨fun c s => ⟨(m c s).1, (m c s).2, run_attempt m c s⟩⟩

instance answers_ite {p : Prop} [Decidable p] {m n : Lower α} [hm : Answers m] [hn : Answers n] :
    Answers (if p then m else n) := by
  split
  · exact hm
  · exact hn

instance answers_map {m : Lower α} (f : α → β) [hm : Answers m] : Answers (f <$> m) := by
  rw [map_eq_pure_bind]
  infer_instance

instance answers_forM {f : α → Lower PUnit} {xs : List α} [h : ∀ a, Answers (f a)] :
    Answers (xs.forM f) := by
  induction xs with
  | nil => exact answers_pure _
  | cons x xs ih => exact answers_bind

end

instance answers_recordFailure (failure : Failure) : Answers (recordFailure failure) := by
  unfold recordFailure
  infer_instance

instance answers_reporting (part : Lower Unit) : Answers (reporting part) := by
  unfold reporting
  refine Answers.before (fun result => ?_)
  cases result <;> infer_instance

instance answers_declare (d : Declaration) : Answers (declare d) := by
  unfold declare
  refine Answers.before (fun s => ?_)
  split <;> infer_instance

instance answers_declareAt (root : NodeId) (d : Declaration) : Answers (declareAt root d) := by
  unfold declareAt onOutline
  infer_instance

/-! ## Collection -/

instance answers_collectImport (path : String) (localName : Option String) :
    Answers (collectImport path localName) := by
  unfold collectImport
  dsimp only
  infer_instance

instance answers_collectType (root : NodeId) (name : String) (isAlias : Bool) (span : Span) :
    Answers (collectType root name isAlias span) := by
  unfold collectType setGlobal
  infer_instance

instance answers_collectValues (root : NodeId) (kind : DeclKind) (names : List String) (span : Span)
    : Answers (collectValues root kind names span) := by
  have hvalue (name : String) : Answers (collectValue root kind span name) := by
    unfold collectValue setGlobal
    infer_instance
  unfold collectValues onOutline
  infer_instance

instance answers_collectFunction (root : NodeId) (decl : FunctionDecl) (span : Span) :
    Answers (collectFunction root decl span) := by
  unfold collectFunction setGlobal textOf textAt spanOf
  split <;> infer_instance

instance answers_collectFunctionRoot (root : NodeId) (decl : FunctionDecl) (span : Span)
    (sites : EntrySites) : Answers (collectFunctionRoot root decl span sites) := by
  unfold collectFunctionRoot
  refine Answers.before (fun c => ?_)
  dsimp only
  split
  · infer_instance
  · split <;> infer_instance

instance answers_collectRoot (root : NodeId) (sites : EntrySites) :
    Answers (collectRoot root sites) := by
  unfold collectRoot spanOf onOutline
  refine Answers.before (fun span => ?_)
  refine Answers.before (fun c => ?_)
  split <;> infer_instance

instance answers_collectRoots (roots : List NodeId) (sites : EntrySites) :
    Answers (collectRoots roots sites) := by
  induction roots generalizing sites with
  | nil => exact answers_pure _
  | cons root rest ih =>
    unfold collectRoots
    infer_instance

instance answers_collect (roots : List NodeId) : Answers (collect roots) := by
  unfold collect
  refine Answers.before (fun found => ?_)
  split
  · infer_instance
  · refine Answers.before (fun _ => ?_)
    split <;> infer_instance

/-! ## Phases -/

variable {walk : Walk}

instance answers_forEachRoot {step : NodeId → Lower Unit} [∀ root, Answers (step root)]
    (roots : List NodeId) : Answers (forEachRoot step roots) := by
  induction roots with
  | nil => exact answers_pure _
  | cons root rest ih =>
    unfold forEachRoot
    infer_instance

instance answers_lowerTypeRoot (root : NodeId) : Answers (lowerTypeRoot walk root) := by
  unfold lowerTypeRoot
  refine Answers.before (fun c => ?_)
  split <;> infer_instance

instance answers_lowerHeads (roots : List NodeId) (heads : FunctionHeads) :
    Answers (lowerHeads walk roots heads) := by
  induction roots generalizing heads with
  | nil => exact answers_pure _
  | cons root rest ih =>
    unfold lowerHeads
    refine Answers.before (fun s => ?_)
    split
    · infer_instance
    · refine Answers.before (fun c => ?_)
      split
      · refine Answers.before (fun result => ?_)
        cases result <;> infer_instance
      · infer_instance

instance answers_lowerValueRoot (root : NodeId) : Answers (lowerValueRoot walk root) := by
  unfold lowerValueRoot
  refine Answers.before (fun c => ?_)
  split
  · split <;> infer_instance
  · split <;> infer_instance
  · infer_instance

instance answers_lowerFunctionRoot (heads : FunctionHeads) (root : NodeId) :
    Answers (lowerFunctionRoot walk heads root) := by
  unfold lowerFunctionRoot
  refine Answers.before (fun c => ?_)
  split <;> infer_instance

instance answers_lowerEntryPhase : Answers (lowerEntryPhase walk) := by
  unfold lowerEntryPhase
  infer_instance

/-- The declarations of a unit are always gone through. -/
instance answers_lowerDeclarations (roots : List NodeId) :
    Answers (lowerDeclarations walk roots) := by
  unfold lowerDeclarations
  refine Answers.before (fun _ => ?_)
  refine Answers.before (fun _ => ?_)
  refine Answers.before (fun heads => ?_)
  infer_instance

end GoLowering.Lowering
