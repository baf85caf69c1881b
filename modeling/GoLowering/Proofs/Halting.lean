import GoLowering.Proofs.Phases
import GoLowering.Proofs.Situations
import GoLowering.Proofs.Tallies

/-!
# Halting at the first failure

A lowering that is halted by its first failure is halted between declarations only. What it
reports has been found by the one step that reports something first (`halts_trace`), and that step
may report more than one failure: it goes on with the other names of a declaration, and with a
declaration that needs a value which has failed. The failures of a step after the collection of
names are those of the values that it has been the first to need, and its own
(`length_diagnostics_task`).

So there is a single error just in case that step finds only one (`single_error_iff`).
-/

namespace GoLowering.Lowering

open Surface

variable {walk : Walk} {c : Context} {s s' : State}

/-! ## Tasks -/

/-- What is taken up one after the other once the names are collected. -/
inductive Task where
  | typeDecl (root : NodeId) (name : String) (type : NodeId) (isAlias : Bool)
    (doc : Option String)
  | functionHead (root : NodeId) (decl : FunctionDecl)
  | valueSpec (root : NodeId) (name : String)
  | functionBody (root : NodeId) (decl : FunctionDecl) (head : FunctionHead)
  | entry (statements : List NodeId)

/-- A task less the report of its failure. -/
def Task.run (walk : Walk) : Task → Lower Unit
  | typeDecl root name type isAlias doc => do
    let span ← spanOf root
    let definition ← lowerDefinition walk name type isAlias span
    let decl ← place (.typeDecl name definition isAlias doc) span
    onOutline (·.fill .type root decl)
  | functionHead root decl => do
    let _ ← lowerHead walk root decl
    return ()
  | valueSpec root name => do walk.value root name (← spanOf root)
  | functionBody root decl head => do
    let span ← spanOf root
    let body ← lowerFunctionBody walk decl head span
    let node ← place
      (.function ⟨head.receiver, decl.name, head.signature, body, decl.doc⟩) span
    let kind := if decl.receiver.isSome then DeclKind.method else .func
    onOutline (·.fill kind root node)
  | entry statements => lowerEntry walk statements

/-- A task with the report of its failure. -/
def Task.perform (walk : Walk) (task : Task) : Lower Unit := reporting (task.run walk)

/-- Some tasks are performed one after the other, each in a lowering that is not halted. -/
inductive Trace (walk : Walk) (c : Context) : State → List Task → State → Prop
  | nil (s : State) : Trace walk c s [] s
  | cons {s s' : State} {task : Task} {tasks : List Task} (running : s.halted = false)
      (rest : Trace walk c (task.perform walk c s).2 tasks s') :
      Trace walk c s (task :: tasks) s'

namespace Trace

theorem one (task : Task) (running : s.halted = false) :
    Trace walk c s [task] (task.perform walk c s).2 :=
  .cons running (.nil _)

theorem append {s₁ s₂ s₃ : State} {tasks tasks' : List Task} (h₁ : Trace walk c s₁ tasks s₂)
    (h₂ : Trace walk c s₂ tasks' s₃) : Trace walk c s₁ (tasks ++ tasks') s₃ := by
  induction h₁ with
  | nil s => exact h₂
  | cons running _ ih => exact .cons running (ih h₂)

theorem of_halted {tasks : List Task} (h : Trace walk c s tasks s') (hs : s.halted = true) :
    s' = s := by
  cases h with
  | nil => rfl
  | cons running => rw [running] at hs; cases hs

end Trace

/-- One state comes from another one by tasks. -/
def Performs (walk : Walk) (c : Context) (s s' : State) : Prop :=
  ∃ tasks, Trace walk c s tasks s'

instance : IsPreorder State (Performs walk c) where
  refl s := ⟨[], .nil s⟩
  trans _ _ _ := fun ⟨_, h₁⟩ ⟨_, h₂⟩ => ⟨_, h₁.append h₂⟩

theorem performs_one (task : Task) (running : s.halted = false) :
    Leads (Performs walk c) c s (task.perform walk) :=
  ⟨[task], .one task running⟩

theorem performs_bind {α β : Type} {m : Lower α} {f : α → Lower β} [hm : Answers m]
    (h : Leads (Performs walk c) c s m)
    (hf : ∀ a s', Leads (Performs walk c) c s' (f a)) : Leads (Performs walk c) c s (m >>= f) := by
  obtain ⟨a, s₁, hrun⟩ := hm.ok c s
  unfold Leads at h ⊢
  rw [hrun] at h
  rw [run_bind, hrun]
  exact trans_of (Performs walk c) h (hf a s₁)

theorem not_halted (h : ¬s.halted = true) : s.halted = false := by simpa using h

theorem performs_forEachRoot {step : NodeId → Lower Unit} [∀ root, Answers (step root)]
    (h : ∀ root s, s.halted = false → Leads (Performs walk c) c s (step root))
    (roots : List NodeId) (s : State) : Leads (Performs walk c) c s (forEachRoot step roots) := by
  induction roots generalizing s with
  | nil => exact .pure _
  | cons root rest ih =>
    unfold forEachRoot
    refine .get ?_
    split
    · exact .pure _
    · rename_i hs
      exact performs_bind (h root s (not_halted hs)) (fun _ s' => ih s')

theorem performs_lowerTypeRoot (root : NodeId) (s : State) (hs : s.halted = false) :
    Leads (Performs walk c) c s (lowerTypeRoot walk root) := by
  unfold lowerTypeRoot
  refine .read ?_
  split
  · rename_i name type isAlias doc _
    refine .get ?_
    split
    · exact performs_one (.typeDecl root name type isAlias doc) hs
    · exact .pure _
  · exact .pure _

theorem performs_lowerValueRoot (root : NodeId) (s : State) (hs : s.halted = false) :
    Leads (Performs walk c) c s (lowerValueRoot walk root) := by
  unfold lowerValueRoot
  refine .read ?_
  split
  · split
    · exact .pure _
    · rename_i name _ _
      exact performs_one (.valueSpec root name) hs
  · split
    · exact .pure _
    · rename_i name _ _
      exact performs_one (.valueSpec root name) hs
  · exact .pure _

theorem performs_lowerFunctionRoot (heads : FunctionHeads) (root : NodeId) (s : State)
    (hs : s.halted = false) : Leads (Performs walk c) c s (lowerFunctionRoot walk heads root) := by
  unfold lowerFunctionRoot
  refine .read ?_
  split
  · rename_i decl head _ _
    exact performs_one (.functionBody root decl head) hs
  · exact .pure _

theorem performs_lowerEntryPhase (s : State) (hs : s.halted = false) :
    Leads (Performs walk c) c s (lowerEntryPhase walk) := by
  unfold lowerEntryPhase
  refine .get (.read ?_)
  split
  · exact performs_one (.entry s.outline.entryStatements) hs
  · exact .pure _

theorem perform_functionHead (walk : Walk) (c : Context) (s : State) (root : NodeId)
    (decl : FunctionDecl) :
    ((Task.functionHead root decl).perform walk c s).2 =
      match lowerHead walk root decl c s with
      | (.ok _, s₁) => s₁
      | (.error failure, s₁) => (recordFailure failure c s₁).2 := by
  unfold Task.perform reporting
  rw [run_bind, run_attempt]
  unfold Task.run
  simp only [run_bind]
  rcases lowerHead walk root decl c s with ⟨r, s₁⟩
  cases r <;> rfl

theorem performs_lowerHeads (roots : List NodeId) (heads : FunctionHeads) (s : State) :
    Leads (Performs walk c) c s (lowerHeads walk roots heads) := by
  induction roots generalizing s heads with
  | nil => exact .pure _
  | cons root rest ih =>
    unfold lowerHeads
    refine .get ?_
    split
    · exact .pure _
    · rename_i hs
      refine .read ?_
      split
      · rename_i decl _
        have hperform := perform_functionHead walk c s root decl
        unfold Leads
        rw [run_bind, run_attempt]
        rcases hr : lowerHead walk root decl c s with ⟨r, s₁⟩
        rw [hr] at hperform
        cases r with
        | ok head =>
          obtain ⟨tasks, htasks⟩ := ih (heads.set root head) s₁
          refine ⟨.functionHead root decl :: tasks, .cons (not_halted hs) ?_⟩
          rw [hperform]
          exact htasks
        | error failure =>
          obtain ⟨tasks, htasks⟩ := ih heads (recordFailure failure c s₁).2
          refine ⟨.functionHead root decl :: tasks, .cons (not_halted hs) ?_⟩
          rw [hperform]
          exact htasks
      · exact ih heads s

/-- Once the names are collected, the lowering of a unit is made of tasks. -/
theorem performs_lowerDeclarations (walk : Walk) (c : Context) (s : State) (roots : List NodeId) :
    Performs walk c (collect roots c s).2 (lowerDeclarations walk roots c s).2 := by
  obtain ⟨_, s₁, hcollect⟩ := (answers_collect roots).ok c s
  unfold lowerDeclarations
  rw [run_bind, hcollect]
  change Leads (Performs walk c) c s₁ _
  refine performs_bind (performs_forEachRoot performs_lowerTypeRoot roots s₁) (fun _ s₂ => ?_)
  refine performs_bind (performs_lowerHeads roots [] s₂) (fun heads s₃ => ?_)
  refine performs_bind (performs_forEachRoot performs_lowerValueRoot roots s₃) (fun _ s₄ => ?_)
  refine performs_bind (performs_forEachRoot (performs_lowerFunctionRoot heads) roots s₄)
    (fun _ s₅ => ?_)
  refine .get ?_
  split
  · rename_i hs
    exact performs_lowerEntryPhase s₅ (by simpa using hs)
  · exact .pure _

/-! ## Reports of tasks -/

/-- A state with a report of the failure, if there is one. -/
def State.reporting (c : Context) (s : State) : Except Failure Unit → State
  | .ok _ => s
  | .error failure => (recordFailure failure c s).2

theorem perform_eq (task : Task) :
    (task.perform walk c s).2 = (task.run walk c s).2.reporting c (task.run walk c s).1 := by
  unfold Task.perform Lowering.reporting
  rw [run_bind, run_attempt]
  rcases task.run walk c s with ⟨r, s₁⟩
  cases r <;> rfl

section

variable [walk.Keeps tallying]

theorem additive_lowerHead_tallying (root : NodeId) (decl : FunctionDecl) :
    Additive tallying (lowerHead walk root decl) := by
  have hglobal (name : String) (global : Global) : Quiet tallying (setGlobal name global) :=
    quiet_modify_tallying (fun _ => ⟨rfl, rfl, rfl⟩)
  have htype (type : TypeId) : Quiet tallying (setFunctionType root decl.name type) := by
    unfold setFunctionType
    refine keeps_getting (fun s => ?_)
    split <;> infer_instance
  unfold lowerHead
  refine Keeps.before (fun x => ?_)
  split
  split
  · unfold lowerMethodHead
    refine keeps_reading (fun c => ?_)
    dsimp only
    refine Keeps.before (fun base => ?_)
    refine Keeps.before (fun owner => ?_)
    refine Keeps.bind (additive_of_quiet (h := quiet_modify_tallying (fun _ => ⟨rfl, rfl, rfl⟩)))
      (fun _ => ?_)
    infer_instance
  · exact Keeps.before (fun _ => keeps_reading (fun _ => inferInstance))

variable [∀ root name span, Additive tallying (walk.value root name span)]

instance additive_task (task : Task) : Additive tallying (task.run walk) := by
  cases task with
  | typeDecl root name type isAlias doc =>
    unfold Task.run
    infer_instance
  | functionHead root decl =>
    have : Additive tallying (lowerHead walk root decl) := additive_lowerHead_tallying root decl
    unfold Task.run
    infer_instance
  | valueSpec root name =>
    unfold Task.run
    infer_instance
  | functionBody root decl head =>
    unfold Task.run
    infer_instance
  | entry statements =>
    unfold Task.run lowerEntry
    refine keeps_reading (fun c => ?_)
    refine keeps_reading (fun c => ?_)
    split
    · refine Keeps.before (fun _ => ?_)
      refine Keeps.before (fun _ => ?_)
      refine Keeps.before (fun _ => ?_)
      refine Keeps.before (fun _ => ?_)
      infer_instance
    · refine Keeps.before (fun _ => ?_)
      refine Keeps.before (fun _ => ?_)
      refine Keeps.before (fun _ => ?_)
      refine Keeps.before (fun _ => ?_)
      infer_instance

/-- What a task reports are the failures of the values that it has been the first to need. -/
theorem tallies_run (task : Task) (c : Context) (s : State) :
    Tallies c s (task.run walk c s).2 :=
  Keeps.run (additive_task task) c s

/-- The state of a lowering that reports a failure of every value that fails, and is halted as
soon as something is reported. -/
structure Accounted (s : State) : Prop where
  values : s.failedValues ≤ s.diagnostics.length
  halts : s.HaltsOnReport

theorem Tallies.accounted {s₁ s₂ : State} (h : Tallies c s₁ s₂)
    (hpolicy : c.settings.errorPolicy = .haltOnFirst) (hs : Accounted s₁) : Accounted s₂ := by
  have := h.count
  have := hs.values
  exact ⟨by omega, h.halts hpolicy hs.halts⟩

theorem accounted_perform (hpolicy : c.settings.errorPolicy = .haltOnFirst) (hs : Accounted s)
    (task : Task) : Accounted (task.perform walk c s).2 := by
  have hrun : Accounted (task.run walk c s).2 := (tallies_run task c s).accounted hpolicy hs
  rw [perform_eq]
  rcases hr : task.run walk c s with ⟨r, s₁⟩
  rw [hr] at hrun
  cases r with
  | ok _ => exact hrun
  | error failure =>
    refine ⟨?_, ?_⟩
    · change s₁.failedValues ≤ (s₁.diagnostics ++ [failure.report]).length
      rw [List.length_append]
      exact Nat.le_add_right_of_le hrun.values
    · change (s₁.halted || c.settings.errorPolicy == .haltOnFirst) = true ↔
        s₁.diagnostics ++ [failure.report] ≠ []
      simp [hpolicy]

theorem Trace.accounted {tasks : List Task} (hpolicy : c.settings.errorPolicy = .haltOnFirst)
    (h : Trace walk c s tasks s') (hs : Accounted s) : Accounted s' := by
  induction h with
  | nil => exact hs
  | cons _ _ ih => exact ih (accounted_perform hpolicy hs _)

/-- The first task that reports something is the last one that is performed. -/
theorem halts_trace {tasks : List Task} (hpolicy : c.settings.errorPolicy = .haltOnFirst)
    (h : Trace walk c s tasks s') (hs : Accounted s) (hd : s.diagnostics = [])
    (hfails : s'.diagnostics ≠ []) :
    ∃ before, ∃ last : Task, ∃ s₁, Trace walk c s before s₁ ∧ s₁.diagnostics = [] ∧
      s' = (last.perform walk c s₁).2 := by
  induction h with
  | nil => exact absurd hd hfails
  | @cons s s' task tasks running rest ih =>
    by_cases hd₁ : (task.perform walk c s).2.diagnostics = []
    · obtain ⟨before, last, s₁, htrace, hs₁, hlast⟩ :=
        ih (accounted_perform hpolicy hs task) hd₁ hfails
      exact ⟨task :: before, last, s₁, .cons running htrace, hs₁, hlast⟩
    · have hhalted : (task.perform walk c s).2.halted = true :=
        (accounted_perform hpolicy hs task).halts.mpr hd₁
      exact ⟨[], task, s, .nil s, hd, rest.of_halted hhalted⟩

end

/-! ## Reports of the collection -/

/-- Some declarations are entered between two states, or reported. -/
structure Registers (c : Context) (n : Nat) (s s' : State) : Prop where
  count : s'.diagnostics.length + s'.outline.declared.length =
    s.diagnostics.length + s.outline.declared.length + n
  progress : s'.progress = s.progress
  halts : c.settings.errorPolicy = .haltOnFirst → s.HaltsOnReport → s'.HaltsOnReport

theorem registers_modify {f : State → State}
    (h : ∀ s, (f s).diagnostics = s.diagnostics ∧ (f s).outline.declared = s.outline.declared ∧
      (f s).progress = s.progress ∧ (f s).halted = s.halted) :
    Leads (Registers c 0) c s (modify f : Lower Unit) := by
  obtain ⟨hd, ho, hp, hh⟩ := h s
  refine ⟨?_, hp, fun _ hs => ?_⟩
  · change (f s).diagnostics.length + _ = _
    rw [hd]
    change _ + (f s).outline.declared.length = _
    rw [ho, Nat.add_zero]
  · change (f s).halted = true ↔ (f s).diagnostics ≠ []
    rw [hh, hd]
    exact hs

theorem Registers.trans {n k : Nat} {s₁ s₂ s₃ : State} (h₁ : Registers c n s₁ s₂)
    (h₂ : Registers c k s₂ s₃) : Registers c (n + k) s₁ s₃ where
  count := by
    have := h₁.count
    have := h₂.count
    omega
  progress := h₂.progress.trans h₁.progress
  halts hpolicy hs := h₂.halts hpolicy (h₁.halts hpolicy hs)

theorem registers_pure {α : Type} (a : α) : Leads (Registers c 0) c s (pure a : Lower α) :=
  ⟨rfl, rfl, fun _ hs => hs⟩

theorem registers_bind {α β : Type} {n k : Nat} {m : Lower α} {f : α → Lower β} [hm : Answers m]
    (h : Leads (Registers c n) c s m)
    (hf : ∀ a s', m c s = (.ok a, s') → Leads (Registers c k) c s' (f a)) :
    Leads (Registers c (n + k)) c s (m >>= f) := by
  obtain ⟨a, s₁, hrun⟩ := hm.ok c s
  unfold Leads at h ⊢
  rw [hrun] at h
  rw [run_bind, hrun]
  exact h.trans (hf a s₁ hrun)

/-- Nothing is entered by the first part. -/
theorem registers_after {α β : Type} {n : Nat} {m : Lower α} {f : α → Lower β} [Answers m]
    (h : Leads (Registers c 0) c s m)
    (hf : ∀ a s', m c s = (.ok a, s') → Leads (Registers c n) c s' (f a)) :
    Leads (Registers c n) c s (m >>= f) := by
  rw [← Nat.zero_add n]
  exact registers_bind h hf

/-- Nothing is entered after the first part. -/
theorem registers_before {α β : Type} {n : Nat} {m : Lower α} {f : α → Lower β} [Answers m]
    (h : Leads (Registers c n) c s m) (hf : ∀ a s', Leads (Registers c 0) c s' (f a)) :
    Leads (Registers c n) c s (m >>= f) :=
  registers_bind h (fun a s' _ => hf a s')

theorem registers_recordFailure (failure : Failure) :
    Leads (Registers c 1) c s (recordFailure failure) := by
  refine ⟨?_, rfl, fun hpolicy _ => ?_⟩
  · change (s.diagnostics ++ [failure.report]).length + s.outline.declared.length = _
    rw [List.length_append, List.length_singleton]
    omega
  · change (s.halted || c.settings.errorPolicy == .haltOnFirst) = true ↔
      s.diagnostics ++ [failure.report] ≠ []
    simp [hpolicy]

theorem registers_declare (d : Declaration) : Leads (Registers c 1) c s (declare d) := by
  unfold declare
  refine .get ?_
  split
  · rename_i o ho
    refine ⟨?_, rfl, fun _ hs => hs⟩
    obtain ⟨rfl, -⟩ := Outline.declare_ok ho
    change s.diagnostics.length + (s.outline.declared ++ [d]).length = _
    rw [List.length_append, List.length_singleton]
    omega
  · exact registers_before (registers_recordFailure _) (fun _ _ => registers_pure _)

theorem registers_onOutline {f : Outline NodeId HostId → Outline NodeId HostId}
    (h : ∀ o, (f o).declared = o.declared) : Leads (Registers c 0) c s (onOutline f) :=
  registers_modify (fun s => ⟨rfl, h s.outline, rfl, rfl⟩)

instance answers_onOutline (f : Outline NodeId HostId → Outline NodeId HostId) :
    Answers (onOutline f) :=
  answers_modify _

theorem declared_reserve (o : Outline NodeId HostId) (kind : DeclKind) (root : NodeId) :
    (o.reserve kind root).declared = o.declared := by
  cases kind <;> rfl

theorem registers_declareAt (root : NodeId) (d : Declaration) :
    Leads (Registers c 1) c s (declareAt root d) := by
  unfold declareAt
  refine registers_before (registers_declare d) (fun declared s₁ => ?_)
  cases declared with
  | false => exact registers_pure _
  | true =>
    exact registers_after (registers_onOutline (fun o => declared_reserve o d.kind root))
      (fun _ _ _ => registers_pure _)

theorem registers_setGlobal (name : String) (global : Global) :
    Leads (Registers c 0) c s (setGlobal name global) :=
  registers_modify (fun _ => ⟨rfl, rfl, rfl, rfl⟩)

theorem registers_collectType (root : NodeId) (name : String) (isAlias : Bool) (span : Span) :
    Leads (Registers c 1) c s (collectType root name isAlias span) := by
  unfold collectType
  refine registers_before (registers_declareAt root _) (fun declared s₁ => ?_)
  cases declared with
  | false => exact registers_pure _
  | true =>
    cases isAlias with
    | true => exact registers_after (registers_pure _) (fun _ _ _ => registers_setGlobal _ _)
    | false =>
      exact registers_after ⟨rfl, rfl, fun _ hs => hs⟩ (fun _ _ _ => registers_setGlobal _ _)

theorem registers_collectValue (root : NodeId) (kind : DeclKind) (span : Span) (name : String) :
    Leads (Registers c 1) c s (collectValue root kind span name) := by
  unfold collectValue
  refine registers_before (registers_declare _) (fun declared s₁ => ?_)
  split
  · exact registers_setGlobal _ _
  · exact registers_pure _

theorem registers_forM {f : String → Lower PUnit} [∀ name, Answers (f name)]
    (h : ∀ name s, Leads (Registers c 1) c s (f name)) (names : List String) (s : State) :
    Leads (Registers c names.length) c s (names.forM f) := by
  induction names generalizing s with
  | nil => exact registers_pure _
  | cons name names ih =>
    rw [List.length_cons, Nat.add_comm]
    exact registers_bind (h name s) (fun _ s₁ _ => ih s₁)

instance answers_collectValue (root : NodeId) (kind : DeclKind) (span : Span) (name : String) :
    Answers (collectValue root kind span name) := by
  unfold collectValue setGlobal
  infer_instance

theorem registers_collectValues (root : NodeId) (kind : DeclKind) (names : List String)
    (span : Span) (s : State) :
    Leads (Registers c names.length) c s (collectValues root kind names span) := by
  unfold collectValues
  refine registers_after (registers_onOutline (fun o => declared_reserve o kind root))
    (fun _ s₁ _ => ?_)
  exact registers_forM (fun name s => registers_collectValue root kind span name) names s₁

theorem registers_collectFunction (root : NodeId) (decl : FunctionDecl) (span : Span) :
    Leads (Registers c 1) c s (collectFunction root decl span) := by
  unfold collectFunction
  split
  · rename_i receiver _
    change Leads (Registers c 1) c s (declareAt root _ >>= fun _ => pure ())
    exact registers_before (registers_declareAt root _) (fun _ _ => registers_pure _)
  · refine registers_before (registers_declareAt root _) (fun declared s₁ => ?_)
    cases declared with
    | false => exact registers_pure _
    | true =>
      rw [if_pos rfl]
      split
      · exact registers_setGlobal _ _
      · exact registers_pure _

theorem registers_collectFunctionRoot {root : NodeId} {decl : FunctionDecl} {span : Span}
    {sites : EntrySites} :
    Leads (Registers c 1) c s (collectFunctionRoot root decl span sites) := by
  have hcollect (sites' : EntrySites) :
      Leads (Registers c 1) c s (collectFunction root decl span >>= fun _ => pure sites') :=
    registers_before (registers_collectFunction root decl span) (fun _ _ => registers_pure _)
  unfold collectFunctionRoot
  refine .read ?_
  dsimp only
  split
  · exact hcollect _
  · split
    · exact registers_before (registers_recordFailure _) (fun _ _ => registers_pure _)
    · exact hcollect _

/-- Each declaration of a statement that is collected is entered or reported. -/
theorem registers_collectRoot (root : NodeId) (sites : EntrySites) :
    Leads (Registers c (declarationsOf c root).length) c s (collectRoot root sites) := by
  have hbare (h : declarationsOf c root = []) {m : Lower Unit} [Answers m] {sites' : EntrySites}
      (hm : Leads (Registers c 0) c s m) :
      Leads (Registers c (declarationsOf c root).length) c s (m >>= fun _ => pure sites') := by
    rw [h]
    exact registers_before hm (fun _ _ => registers_pure _)
  have hpush : Leads (Registers c 0) c s (onOutline (·.pushEntryStatement root)) :=
    registers_onOutline (fun _ => rfl)
  unfold collectRoot spanOf
  refine .read (.read ?_)
  cases hstmt : c.unit.stmt? root with
  | none => exact hbare (by simp [declarationsOf, hstmt]) hpush
  | some statement =>
    cases statement with
    | importPackage path localName =>
      refine hbare (by simp [declarationsOf, hstmt]) ?_
      unfold collectImport
      dsimp only
      split
      · exact registers_modify (fun _ => ⟨rfl, rfl, rfl, rfl⟩)
      · exact registers_pure _
    | typeDecl name type isAlias doc =>
      rw [show (declarationsOf c root).length = 1 by simp [declarationsOf, hstmt]]
      exact registers_before (registers_collectType root name isAlias _)
        (fun _ _ => registers_pure _)
    | varDecl spec =>
      rw [show (declarationsOf c root).length = spec.names.length by simp [declarationsOf, hstmt]]
      exact registers_before (registers_collectValues root .var spec.names _ s)
        (fun _ _ => registers_pure _)
    | constDecl spec =>
      rw [show (declarationsOf c root).length = spec.names.length by simp [declarationsOf, hstmt]]
      exact registers_before (registers_collectValues root .const spec.names _ s)
        (fun _ _ => registers_pure _)
    | function decl =>
      rw [show (declarationsOf c root).length = 1 by
        simp only [declarationsOf, hstmt]
        split <;> rfl]
      exact registers_collectFunctionRoot
    | _ => exact hbare (by simp [declarationsOf, hstmt]) hpush

/-- Some declarations are entered by a part, or reported. -/
def Enters {α : Type} (c : Context) (s : State) (m : Lower α) : Prop :=
  ∃ n, Leads (Registers c n) c s m

theorem enters_collectRoots (roots : List NodeId) (sites : EntrySites) (s : State) :
    Enters c s (collectRoots roots sites) := by
  induction roots generalizing sites s with
  | nil => exact ⟨0, registers_pure _⟩
  | cons root rest ih =>
    unfold collectRoots
    by_cases hs : s.halted = true
    · refine ⟨0, .get ?_⟩
      rw [if_pos hs]
      exact registers_pure _
    · obtain ⟨sites₁, s₁, hroot⟩ := (answers_collectRoot root sites).ok c s
      obtain ⟨n, hrest⟩ := ih sites₁ s₁
      refine ⟨(declarationsOf c root).length + n, .get ?_⟩
      rw [if_neg hs]
      refine registers_bind (registers_collectRoot root sites) (fun sites' s' hrun => ?_)
      obtain ⟨rfl, rfl⟩ : sites₁ = sites' ∧ s₁ = s' := by
        rw [hroot] at hrun
        cases hrun
        exact ⟨rfl, rfl⟩
      exact hrest

/-- Whether statements stand outside of any function beside an entry function. -/
def EntrySites.mixed (sites : EntrySites) : Bool :=
  sites.function.isSome && sites.statement.isSome

/-- Entry functions and statements outside of any function are looked at after the statements of
the unit, halted or not. -/
theorem registers_collect_sites {roots : List NodeId} {sites : EntrySites} {s₁ : State}
    (h : collectRoots roots ⟨none, none⟩ c s = (.ok (some sites), s₁)) :
    Leads (fun _ s' => Registers c sites.mixed.toNat s₁ s') c s (collect roots) := by
  unfold Leads collect
  rw [run_bind, h]
  change Leads (Registers c sites.mixed.toNat) c s₁ (_ >>= fun _ => _)
  refine registers_after (registers_modify (fun _ => ⟨rfl, rfl, rfl, rfl⟩)) (fun _ s₂ _ => ?_)
  cases hfunction : sites.function with
  | none =>
    simp only [EntrySites.mixed, hfunction]
    exact registers_pure _
  | some entry =>
    cases hstatement : sites.statement with
    | none =>
      simp only [EntrySites.mixed, hfunction, hstatement]
      exact registers_pure _
    | some statement =>
      simp only [EntrySites.mixed, hfunction, hstatement]
      exact .read (registers_recordFailure _)

theorem outline_collect {roots : List NodeId} {sites : EntrySites} {s₁ : State}
    (h : collectRoots roots ⟨none, none⟩ c s = (.ok (some sites), s₁)) :
    (collect roots c s).2.outline = s₁.outline := by
  unfold collect
  rw [run_bind, h]
  obtain ⟨function, statement⟩ := sites
  cases function <;> cases statement <;> rfl

theorem collect_halted {roots : List NodeId} {s₁ : State}
    (h : collectRoots roots ⟨none, none⟩ c s = (.ok none, s₁)) : (collect roots c s).2 = s₁ := by
  unfold collect
  rw [run_bind, h]
  rfl

theorem enters_collect (roots : List NodeId) (s : State) : Enters c s (collect roots) := by
  obtain ⟨n, hroots⟩ := enters_collectRoots (c := c) roots ⟨none, none⟩ s
  rcases hrun : collectRoots roots ⟨none, none⟩ c s with ⟨found, s₁⟩
  obtain ⟨found', s₂, hok⟩ := (answers_collectRoots roots ⟨none, none⟩).ok c s
  obtain ⟨rfl, rfl⟩ : found = .ok found' ∧ s₁ = s₂ := by
    rw [hok] at hrun
    cases hrun
    exact ⟨rfl, rfl⟩
  unfold Leads at hroots
  rw [hrun] at hroots
  cases found' with
  | none => exact ⟨n, by rw [Leads, collect_halted hrun]; exact hroots⟩
  | some sites => exact ⟨_, hroots.trans (registers_collect_sites hrun)⟩

theorem Registers.accounted {n : Nat} (h : Registers c n s s')
    (hpolicy : c.settings.errorPolicy = .haltOnFirst) (hs : Accounted s)
    (hgrows : s.diagnostics <+: s'.diagnostics) : Accounted s' where
  values := by
    have hvalues := hs.values
    unfold State.failedValues at hvalues ⊢
    rw [h.progress]
    exact Nat.le_trans hvalues hgrows.length_le
  halts := h.halts hpolicy hs.halts

theorem Enters.accounted {α : Type} {m : Lower α} [hm : Quiet extension m] (h : Enters c s m)
    (hpolicy : c.settings.errorPolicy = .haltOnFirst) (hs : Accounted s) :
    Accounted (m c s).2 := by
  obtain ⟨n, hregisters⟩ := h
  exact Registers.accounted hregisters hpolicy hs (hm.run c s).diagnostics

/-! ## Collecting up to the first report -/

theorem collectRoots_cons {root : NodeId} {rest : List NodeId} {sites sites' : EntrySites}
    {s₁ : State} (hs : s.halted = false) (h : collectRoot root sites c s = (.ok sites', s₁)) :
    collectRoots (root :: rest) sites c s = collectRoots rest sites' c s₁ := by
  change (if s.halted = true then return none
    else collectRoot root sites >>= fun sites => collectRoots rest sites : Lower _) c s = _
  rw [if_neg (by simp [hs]), run_bind, h]

/-- Nothing more is collected once the lowering is halted, and only at the end of the unit this is
not noticed. -/
theorem collectRoots_halted {roots : List NodeId} {sites : EntrySites} (hs : s.halted = true) :
    collectRoots roots sites c s = (.ok (if roots = [] then some sites else none), s) := by
  cases roots with
  | nil => rfl
  | cons root rest =>
    change (if s.halted = true then return none
      else collectRoot root sites >>= fun sites => collectRoots rest sites : Lower _) c s = _
    rw [if_pos hs]
    rfl

theorem collectRoots_append {before rest : List NodeId} {sites sites' : EntrySites} {s₁ : State}
    (h : collectRoots before sites c s = (.ok (some sites'), s₁)) :
    collectRoots (before ++ rest) sites c s = collectRoots rest sites' c s₁ := by
  induction before generalizing sites s with
  | nil =>
    obtain ⟨hsites, rfl⟩ := pure_ok.mp h
    obtain rfl := Option.some.inj hsites
    rfl
  | cons root before ih =>
    obtain ⟨sites₁, s₂, hroot⟩ := (answers_collectRoot root sites).ok c s
    cases hs : s.halted with
    | true =>
      rw [collectRoots_halted hs] at h
      cases h
    | false =>
      rw [collectRoots_cons hs hroot] at h
      rw [List.cons_append, collectRoots_cons hs hroot]
      exact ih h

/-- Either nothing is reported for the statements of a unit, or there is a first one that something
is reported for. -/
theorem collectRoots_cases (hpolicy : c.settings.errorPolicy = .haltOnFirst)
    (roots : List NodeId) (sites : EntrySites) (hs : Accounted s) (hd : s.diagnostics = []) :
    (∃ sites' s₁, collectRoots roots sites c s = (.ok (some sites'), s₁) ∧ s₁.diagnostics = []) ∨
      ∃ before after root sites₁ sites₂ s₁ s₂, roots = before ++ root :: after ∧
        collectRoots before sites c s = (.ok (some sites₁), s₁) ∧ s₁.diagnostics = [] ∧
        collectRoot root sites₁ c s₁ = (.ok sites₂, s₂) ∧ s₂.diagnostics ≠ [] := by
  induction roots generalizing s sites with
  | nil => exact .inl ⟨sites, s, rfl, hd⟩
  | cons root rest ih =>
    have hrunning : s.halted = false := by
      have := hs.halts
      unfold State.HaltsOnReport at this
      simpa [hd] using this
    obtain ⟨sites₁, s₁, hroot⟩ := (answers_collectRoot root sites).ok c s
    by_cases hd₁ : s₁.diagnostics = []
    · have hs₁ : Accounted (collectRoot root sites c s).2 :=
        Enters.accounted ⟨_, registers_collectRoot root sites⟩ hpolicy hs
      rw [hroot] at hs₁
      rw [collectRoots_cons hrunning hroot]
      refine (ih sites₁ hs₁ hd₁).imp_right ?_
      rintro ⟨before, after, root', sites₂, sites₃, s₂, s₃, rfl, hbefore, hrest⟩
      refine ⟨root :: before, after, root', sites₂, sites₃, s₂, s₃, rfl, ?_, hrest⟩
      rw [collectRoots_cons hrunning hroot]
      exact hbefore
    · exact .inr ⟨[], rest, root, sites, sites₁, s, s₁, rfl, rfl, hd, hroot, hd₁⟩

/-! ## A single error -/

/-- The ways in which a lowering that is halted by its first failure reports that one only:

* a statement of which a single name is taken, unless a mixed unit ends with it;
* statements outside of any function beside an entry function;
* a task that fails without any value it needs having failed;
* a task that goes on after a single value it needs has failed. -/
inductive FailsOnce (walk : Walk) (c : Context) (roots : List NodeId) (s s' : State) : Prop
  | name {before after : List NodeId} {root : NodeId} {sites sites' : EntrySites} {s₁ s₂ : State}
      (split : roots = before ++ root :: after)
      (collected : collectRoots before ⟨none, none⟩ c s = (.ok (some sites), s₁))
      (clean : s₁.diagnostics = [])
      (statement : collectRoot root sites c s₁ = (.ok sites', s₂))
      (refused : s₂.outline.declared.length + 1 =
        s₁.outline.declared.length + (declarationsOf c root).length)
      (unmixed : after ≠ [] ∨ sites'.mixed = false)
  | mixed {sites : EntrySites} {s₁ : State}
      (collected : collectRoots roots ⟨none, none⟩ c s = (.ok (some sites), s₁))
      (clean : s₁.diagnostics = []) (mixed : sites.mixed = true)
  | task {tasks : List Task} {last : Task} {failure : Failure} {s₁ s₂ : State}
      (tasks : Trace walk c (collect roots c s).2 tasks s₁) (clean : s₁.diagnostics = [])
      (run : last.run walk c s₁ = (.error failure, s₂)) (values : s₂.failedValues = 0)
      (final : s' = (last.perform walk c s₁).2)
  | value {tasks : List Task} {last : Task} {s₁ s₂ : State}
      (tasks : Trace walk c (collect roots c s).2 tasks s₁) (clean : s₁.diagnostics = [])
      (run : last.run walk c s₁ = (.ok (), s₂)) (values : s₂.failedValues = 1)
      (final : s' = (last.perform walk c s₁).2)

section

variable {roots : List NodeId}

theorem lowerDeclarations_halted (h : (collect roots c s).2.halted = true) :
    (lowerDeclarations walk roots c s).2 = (collect roots c s).2 := by
  obtain ⟨tasks, htrace⟩ := performs_lowerDeclarations walk c s roots
  exact htrace.of_halted h

/-- What is reported for the first statement that something is reported for. -/
theorem length_diagnostics_root {root : NodeId} {sites sites' : EntrySites} {s₁ s₂ : State}
    (hclean : s₁.diagnostics = []) (hroot : collectRoot root sites c s₁ = (.ok sites', s₂)) :
    s₂.diagnostics.length + s₂.outline.declared.length =
      s₁.outline.declared.length + (declarationsOf c root).length := by
  have hregisters : Registers c _ s₁ (collectRoot root sites c s₁).2 :=
    registers_collectRoot root sites
  rw [hroot] at hregisters
  simpa [hclean] using hregisters.count

/-- What is reported when names of a statement are taken. -/
theorem length_diagnostics_name {before after : List NodeId} {root : NodeId}
    {sites sites' : EntrySites} {s₁ s₂ : State}
    (hpolicy : c.settings.errorPolicy = .haltOnFirst) (hs : Accounted s)
    (hsplit : roots = before ++ root :: after)
    (hbefore : collectRoots before ⟨none, none⟩ c s = (.ok (some sites), s₁))
    (hclean : s₁.diagnostics = []) (hroot : collectRoot root sites c s₁ = (.ok sites', s₂))
    (hfails : s₂.diagnostics ≠ []) :
    (lowerDeclarations walk roots c s).2.diagnostics.length =
      s₂.diagnostics.length + (after.isEmpty && sites'.mixed).toNat := by
  have hs₁ : Accounted (collectRoots before ⟨none, none⟩ c s).2 :=
    (enters_collectRoots before _ s).accounted hpolicy hs
  rw [hbefore] at hs₁
  have hrunning : s₁.halted = false := by
    have := hs₁.halts
    unfold State.HaltsOnReport at this
    simpa [hclean] using this
  have hs₂ : Accounted (collectRoot root sites c s₁).2 :=
    Enters.accounted ⟨_, registers_collectRoot root sites⟩ hpolicy hs₁
  rw [hroot] at hs₂
  have hhalted : s₂.halted = true := hs₂.halts.mpr hfails
  have hrun : collectRoots roots ⟨none, none⟩ c s =
      (.ok (if after = [] then some sites' else none), s₂) := by
    rw [hsplit, collectRoots_append hbefore, collectRoots_cons hrunning hroot,
      collectRoots_halted hhalted]
  cases after with
  | nil =>
    rw [if_pos rfl] at hrun
    have hregisters : Registers c _ s₂ (collect roots c s).2 := registers_collect_sites hrun
    have hcollect : Accounted (collect roots c s).2 :=
      (enters_collect roots s).accounted hpolicy hs
    have hcount := hregisters.count
    rw [outline_collect hrun] at hcount
    have hpos : 0 < s₂.diagnostics.length := List.length_pos_iff.mpr hfails
    rw [lowerDeclarations_halted (hcollect.halts.mpr (List.length_pos_iff.mp (by omega)))]
    simp only [List.isEmpty_nil, Bool.true_and]
    omega
  | cons other rest =>
    rw [if_neg (by simp)] at hrun
    have hcollect := collect_halted hrun
    rw [lowerDeclarations_halted (by rw [hcollect]; exact hhalted), hcollect]
    simp

/-- What is reported when the names of a mixed unit are all entered. -/
theorem length_diagnostics_mixed {sites : EntrySites} {s₁ : State}
    (hpolicy : c.settings.errorPolicy = .haltOnFirst) (hs : Accounted s)
    (h : collectRoots roots ⟨none, none⟩ c s = (.ok (some sites), s₁))
    (hclean : s₁.diagnostics = []) (hmixed : sites.mixed = true) :
    (lowerDeclarations walk roots c s).2.diagnostics.length = 1 := by
  have hregisters : Registers c _ s₁ (collect roots c s).2 := registers_collect_sites h
  have hcollect : Accounted (collect roots c s).2 := (enters_collect roots s).accounted hpolicy hs
  have hcount := hregisters.count
  rw [outline_collect h, hclean, hmixed] at hcount
  simp only [List.length_nil, Bool.toNat_true] at hcount
  rw [lowerDeclarations_halted (hcollect.halts.mpr (List.length_pos_iff.mp (by omega)))]
  omega

theorem failsOnce_of_name {before after : List NodeId} {root : NodeId}
    {sites sites' : EntrySites} {s₁ s₂ : State}
    (hpolicy : c.settings.errorPolicy = .haltOnFirst) (hs : Accounted s)
    (hsplit : roots = before ++ root :: after)
    (hbefore : collectRoots before ⟨none, none⟩ c s = (.ok (some sites), s₁))
    (hclean : s₁.diagnostics = []) (hroot : collectRoot root sites c s₁ = (.ok sites', s₂))
    (hfails : s₂.diagnostics ≠ [])
    (hone : (lowerDeclarations walk roots c s).2.diagnostics.length = 1) :
    FailsOnce walk c roots s (lowerDeclarations walk roots c s).2 := by
  rw [length_diagnostics_name hpolicy hs hsplit hbefore hclean hroot hfails] at hone
  have hpos : 0 < s₂.diagnostics.length := List.length_pos_iff.mpr hfails
  have hcount := length_diagnostics_root hclean hroot
  have hunmixed : (after.isEmpty && sites'.mixed) = false := by
    cases hlast : after.isEmpty && sites'.mixed with
    | false => rfl
    | true =>
      rw [hlast, Bool.toNat_true] at hone
      omega
  rw [hunmixed, Bool.toNat_false] at hone
  refine .name hsplit hbefore hclean hroot (by omega) ?_
  exact (Bool.and_eq_false_iff.mp hunmixed).imp_left (fun h => by simpa using h)

variable [walk.Keeps tallying] [∀ root name span, Additive tallying (walk.value root name span)]

/-- What is reported by the first task that reports something. -/
theorem length_diagnostics_task {tasks : List Task} {last : Task} {s₁ : State}
    (hpolicy : c.settings.errorPolicy = .haltOnFirst) (hs : Accounted s)
    (htrace : Trace walk c (collect roots c s).2 tasks s₁) (hclean : s₁.diagnostics = []) :
    (last.perform walk c s₁).2.diagnostics.length =
      (last.run walk c s₁).2.failedValues +
        match (last.run walk c s₁).1 with
        | .ok _ => 0
        | .error _ => 1 := by
  have hs₁ : Accounted s₁ :=
    htrace.accounted hpolicy ((enters_collect roots s).accounted hpolicy hs)
  have hvalues := hs₁.values
  have htally : Tallies c s₁ (last.run walk c s₁).2 := tallies_run last c s₁
  have hcount := htally.count
  rw [hclean, List.length_nil] at hvalues hcount
  rw [perform_eq]
  rcases hrun : last.run walk c s₁ with ⟨r, s₂⟩
  rw [hrun] at hcount
  dsimp only at hcount
  cases r with
  | ok _ =>
    change s₂.diagnostics.length = s₂.failedValues + 0
    omega
  | error failure =>
    change (s₂.diagnostics ++ [failure.report]).length = s₂.failedValues + 1
    rw [List.length_append, List.length_singleton]
    omega

theorem failsOnce_of_task (hpolicy : c.settings.errorPolicy = .haltOnFirst) (hs : Accounted s)
    (hnil : (collect roots c s).2.diagnostics = [])
    (hone : (lowerDeclarations walk roots c s).2.diagnostics.length = 1) :
    FailsOnce walk c roots s (lowerDeclarations walk roots c s).2 := by
  have hfails : (lowerDeclarations walk roots c s).2.diagnostics ≠ [] :=
    List.length_pos_iff.mp (by omega)
  obtain ⟨tasks, htrace⟩ := performs_lowerDeclarations walk c s roots
  obtain ⟨before, last, s₁, hbefore, hclean, hfinal⟩ :=
    halts_trace hpolicy htrace ((enters_collect roots s).accounted hpolicy hs) hnil hfails
  rw [hfinal, length_diagnostics_task hpolicy hs hbefore hclean] at hone
  rcases hrun : last.run walk c s₁ with ⟨r, s₂⟩
  rw [hrun] at hone
  cases r with
  | ok _ => exact .value hbefore hclean hrun hone hfinal
  | error failure => exact .task hbefore hclean hrun (Nat.succ.inj hone) hfinal

theorem failsOnce_iff (hpolicy : c.settings.errorPolicy = .haltOnFirst) (hs : Accounted s)
    (hd : s.diagnostics = []) :
    (lowerDeclarations walk roots c s).2.diagnostics.length = 1 ↔
      FailsOnce walk c roots s (lowerDeclarations walk roots c s).2 := by
  constructor
  · intro hone
    rcases collectRoots_cases hpolicy roots ⟨none, none⟩ hs hd with
      ⟨sites, s₁, hroots, hclean⟩ |
      ⟨before, after, root, sites, sites', s₁, s₂, hsplit, hbefore, hclean, hroot, hfails⟩
    · cases hmixed : sites.mixed with
      | true => exact .mixed hroots hclean hmixed
      | false =>
        have hregisters : Registers c _ s₁ (collect roots c s).2 := registers_collect_sites hroots
        have hcount := hregisters.count
        rw [outline_collect hroots, hclean, hmixed] at hcount
        simp only [List.length_nil, Bool.toNat_false] at hcount
        exact failsOnce_of_task hpolicy hs (List.length_eq_zero_iff.mp (by omega)) hone
    · exact failsOnce_of_name hpolicy hs hsplit hbefore hclean hroot hfails hone
  · rintro (@⟨before, after, root, sites, sites', s₁, s₂, hsplit, hbefore, hclean, hroot, hrefused,
      hunmixed⟩ | ⟨hroots, hclean, hmixed⟩ | ⟨htrace, hclean, hrun, hvalues, hfinal⟩ |
      ⟨htrace, hclean, hrun, hvalues, hfinal⟩)
    · have hcount := length_diagnostics_root hclean hroot
      have hunmixed : (after.isEmpty && sites'.mixed) = false :=
        Bool.and_eq_false_iff.mpr (hunmixed.imp_left (fun h => by simpa using h))
      rw [length_diagnostics_name hpolicy hs hsplit hbefore hclean hroot
        (List.length_pos_iff.mp (by omega)), hunmixed, Bool.toNat_false]
      omega
    · exact length_diagnostics_mixed hpolicy hs hroots hclean hmixed
    · rw [hfinal, length_diagnostics_task hpolicy hs htrace hclean, hrun]
      exact congrArg (· + 1) hvalues
    · rw [hfinal, length_diagnostics_task hpolicy hs htrace hclean, hrun]
      exact hvalues

end

theorem accounted_initial (unit : SourceUnit) (types : TypeTable) :
    Accounted (.initial unit types) :=
  ⟨Nat.le_refl 0, by simp [State.HaltsOnReport, State.initial]⟩

/-- A lowering that is halted by its first failure reports a single error just in case the step
that finds it finds only one. -/
theorem single_error_iff {types : TypeTable} {reports : List Diagnostic}
    (hpolicy : c.settings.errorPolicy = .haltOnFirst)
    (h : lowerUnitWith c.unit c.sources ⟨types, c.env⟩ c.settings c.registry = .error reports) :
    ∃ errors, reports = errors ++ (State.final c types).warnings ∧
      (errors.length = 1 ↔ FailsOnce (walkWithin (depthBound c.unit)) c c.unit.roots
        (.initial c.unit types) (.final c types)) :=
  ⟨(State.final c types).diagnostics, (lowerUnitWith_error.mp h).2,
    failsOnce_iff hpolicy (accounted_initial c.unit types) rfl⟩

/-- `var b = y` and `var c = z`, to be halted by the first failure. -/
def haltSample : Context :=
  { Context.sample
      [.expr (.identifier "y"), .stmt (.varDecl ⟨["b"], none, [⟨0⟩], none⟩),
        .expr (.identifier "z"), .stmt (.varDecl ⟨["c"], none, [⟨2⟩], none⟩)]
      [⟨1⟩, ⟨3⟩] with
    settings := { Settings.standard with errorPolicy := .haltOnFirst } }

theorem single_error_iff_sample :
    haltSample.settings.errorPolicy = .haltOnFirst ∧ ∃ reports,
      lowerUnitWith haltSample.unit haltSample.sources ⟨.initial, haltSample.env⟩
        haltSample.settings haltSample.registry = .error reports ∧
      reports.map (·.message) = ["undefined: y"] ∧
      ∃ errors, reports = errors ++ (State.final haltSample .initial).warnings ∧
        (errors.length = 1 ↔ FailsOnce (walkWithin (depthBound haltSample.unit)) haltSample
          haltSample.unit.roots (.initial haltSample.unit .initial)
          (.final haltSample .initial)) :=
  have hpolicy : haltSample.settings.errorPolicy = .haltOnFirst := rfl
  have h := lowerUnitWith_error.mpr ⟨by decide +kernel, rfl⟩
  ⟨hpolicy, _, h, by decide +kernel, single_error_iff hpolicy h⟩

/-- `var a = b + z` and `var b = y`, to be halted by the first failure. -/
def nestedHaltSample : Context :=
  { Context.sample
      [.expr (.identifier "b"), .expr (.identifier "z"), .expr (.binary .add ⟨0⟩ ⟨1⟩),
        .stmt (.varDecl ⟨["a"], none, [⟨2⟩], none⟩), .expr (.identifier "y"),
        .stmt (.varDecl ⟨["b"], none, [⟨4⟩], none⟩)]
      [⟨3⟩, ⟨5⟩] with
    settings := { Settings.standard with errorPolicy := .haltOnFirst } }

/-- A declaration goes on and fails after a value it needs has failed. -/
theorem nested_value_reported_twice : ∃ reports,
    lowerUnitWith nestedHaltSample.unit nestedHaltSample.sources ⟨.initial, nestedHaltSample.env⟩
      nestedHaltSample.settings nestedHaltSample.registry = .error reports ∧
    nestedHaltSample.settings.errorPolicy = .haltOnFirst ∧
    reports.map (fun report => (report.severity, report.message)) =
      [(.error, "undefined: y"), (.error, "undefined: z")] :=
  ⟨_, lowerUnitWith_error.mpr ⟨by decide +kernel, rfl⟩, rfl, by decide +kernel⟩

end GoLowering.Lowering
