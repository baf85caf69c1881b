import GoLowering.Proofs.Filling

/-!
# Reports of values that fail

A declaration of values that fails is reported where it is needed first, and what has needed it
goes on. The parts of the walk report nothing else: between the states before and after a part
there is a report for each declaration of values that has failed in it (`Tallies`), whether the
part itself fails or not.
-/

namespace GoLowering.Lowering

open Surface

/-! ## Values that fail -/

theorem countP_set {κ α : Type} [DecidableEq κ] (entries : Keyed κ α) (key : κ) (value : α)
    (p : α → Bool) :
    (Keyed.set entries key value).countP (fun entry => p entry.2) +
        (entries.lookup key).toList.countP p =
      entries.countP (fun entry => p entry.2) + [value].countP p := by
  induction entries with
  | nil => simp [Keyed.set]
  | cons entry rest ih =>
    obtain ⟨k, v⟩ := entry
    by_cases h : key = k
    · subst h
      simp only [Keyed.set, BEq.rfl, if_true, List.lookup_cons, Option.toList_some,
        List.countP_cons, List.countP_nil]
      omega
    · have hb : (key == k) = false := by simpa using h
      simp only [Keyed.set, hb, Bool.false_eq_true, if_false, List.lookup_cons,
        List.countP_cons] at ih ⊢
      omega

/-- How many declarations of values have failed. -/
def State.failedValues (s : State) : Nat := s.progress.countP (fun entry => entry.2 == .failed)

/-- Whether a state is halted just in case something has been reported. -/
def State.HaltsOnReport (s : State) : Prop := s.halted = true ↔ s.diagnostics ≠ []

/-- Between two states, a report has been made for each declaration of values that has failed, and
nothing else has been reported. -/
structure Tallies (c : Context) (s s' : State) : Prop where
  kept : ∀ root progress, s.progress.lookup root = some progress →
    s'.progress.lookup root = some progress
  count : s'.diagnostics.length + s.failedValues = s.diagnostics.length + s'.failedValues
  halts : c.settings.errorPolicy = .haltOnFirst → s.HaltsOnReport → s'.HaltsOnReport

namespace Tallies

variable {c : Context} {s s₁ s₂ s₃ s' : State}

theorem of_eq (hp : s'.progress = s.progress) (hd : s'.diagnostics = s.diagnostics)
    (hh : s'.halted = s.halted) : Tallies c s s' where
  kept root progress h := hp ▸ h
  count := by simp only [State.failedValues, hp, hd]
  halts _ h := by
    unfold State.HaltsOnReport
    rw [hd, hh]
    exact h

theorem trans (h₁ : Tallies c s₁ s₂) (h₂ : Tallies c s₂ s₃) : Tallies c s₁ s₃ where
  kept root progress h := h₂.kept root progress (h₁.kept root progress h)
  count := by
    have := h₁.count
    have := h₂.count
    omega
  halts hpolicy h := h₂.halts hpolicy (h₁.halts hpolicy h)

theorem of_stays (h : Stays s s') : Tallies c s s' :=
  .of_eq (congrArg Ledger.progress h.ledger) (congrArg Ledger.diagnostics h.ledger)
    (congrArg Ledger.halted h.ledger)

end Tallies

/-- What is reported between two states, at every level of care. -/
def Tallying (care : Care) (c : Context) (s s' : State) : Prop :=
  match care with
  | .still => Stays s s'
  | _ => Tallies c s s'

theorem Tallying.congr {care : Care} {c : Context} {s₁ s₂ s s' : State} (hc : care ≠ .still)
    (h : Tallying care c s₁ s₂) (h₁ : s₁.ledger = s.ledger) (h₂ : s'.ledger = s₂.ledger) :
    Tallying care c s s' := by
  have of_ledger {s s' : State} (h : s'.ledger = s.ledger) : Tallies c s s' :=
    .of_eq (congrArg Ledger.progress h) (congrArg Ledger.diagnostics h) (congrArg Ledger.halted h)
  have same (h : Tallies c s₁ s₂) : Tallies c s s' := ((of_ledger h₁).trans h).trans (of_ledger h₂)
  cases care with
  | still => exact absurd rfl hc
  | quiet | additive | steady => exact same h

instance : Frame Tallying where
  refl
    | .still, _, s => refl_of Stays s
    | .quiet, _, _ | .additive, _, _ | .steady, _, _ => .of_eq rfl rfl rfl
  trans {care} _ _ _ _ h₁ h₂ := by
    cases care with
    | still => exact trans_of Stays h₁ h₂
    | quiet | additive | steady => exact Tallies.trans h₁ h₂
  still h := h.toStays
  quiet h := Tallies.of_stays h
  additive h := h
  steady h := h
  inScope {care} _ s s' kind h := by
    cases care with
    | still =>
      have hs : GivesBack .still default { s with scopes := s.scopes.push kind } s' := h
      have hback : GivesBack .still default s
          { s' with scopes := s'.scopes.setCurrent s.scopes.current } := Frame.inScope kind hs
      exact hback
    | quiet | additive | steady => exact Tallying.congr (by decide) h rfl rfl
  inFunction _ _ h := Tallying.congr (by decide) h rfl rfl
  inFrame _ h := Tallying.congr (by decide) h rfl rfl
  atPackageLevel h := Tallying.congr (by decide) h rfl rfl
  hoisting h := Tallying.congr (by decide) h rfl rfl
  takeHoisted _ _ := .of_eq rfl rfl rfl
  hoist h _ _ := Tallies.trans (.of_stays h) (.of_eq rfl rfl rfl)
  declareType _ h := Tallies.trans h (.of_eq rfl rfl rfl)
  noteLiteral _ _ _ _ := .of_eq rfl rfl rfl
  needAlias _ _ _ _ _ := .of_eq rfl rfl rfl
  openAlias _ h := Tallying.congr (by decide) h rfl rfl
  setAlias _ _ h := Tallies.trans h (.of_eq rfl rfl rfl)

instance : Redefines Tallying where
  define _ _ _ _ := .of_eq rfl rfl rfl

/-- That a report is made for each declaration of values that fails, and for nothing else. -/
abbrev tallying : Regime := .ofFrame Tallying

variable {walk : Walk} {c : Context} {s s' : State}

/-- A change of the state that reports nothing. -/
theorem quiet_modify_tallying {f : State → State}
    (h : ∀ s, (f s).progress = s.progress ∧ (f s).diagnostics = s.diagnostics ∧
      (f s).halted = s.halted) : Quiet tallying (modify f : Lower Unit) :=
  keeps_ofFrame (fun _ s => Tallies.of_eq (h s).1 (h s).2.1 (h s).2.2)

instance quiet_onOutline_tallying (f : Outline NodeId HostId → Outline NodeId HostId) :
    Quiet tallying (onOutline f) :=
  quiet_modify_tallying (fun _ => ⟨rfl, rfl, rfl⟩)

instance quiet_note_tallying (event : Event) : Quiet tallying (note event) :=
  quiet_modify_tallying (fun _ => ⟨rfl, rfl, rfl⟩)

instance quiet_exhaust_tallying {α : Type} : Quiet tallying (exhaust : Lower α) := by
  unfold exhaust
  infer_instance

instance additive_lowerGlobalValue_tallying [walk.Keeps tallying] (root : NodeId) :
    Additive tallying (lowerGlobalValue walk root) := by
  have hspec (spec : ValueSpec) (kind : DeclKind) :
      Additive tallying (lowerGlobalSpec walk root spec kind) := by
    unfold lowerGlobalSpec
    refine Keeps.before (fun span => ?_)
    refine Keeps.before (fun decl => ?_)
    refine Keeps.before (fun _ => ?_)
    split <;> infer_instance
  unfold lowerGlobalValue
  refine keeps_getting (fun s => Keeps.before (fun _ => ?_))
  refine Keeps.read (fun _ => rfl) (fun c => ?_)
  split <;> infer_instance

/-- A declaration of values is started. -/
theorem tallies_start {root : NodeId} {name : String} {span : Span}
    (h : s.progress.lookup root = none) : Tallies c s (s.starting root name span) := by
  have hcount : (s.starting root name span).failedValues = s.failedValues := by
    simpa [State.failedValues, h] using
      countP_set s.progress root Progress.started (· == Progress.failed)
  refine ⟨fun other progress hother => ?_, by rw [hcount]; rfl, fun _ h => h⟩
  have hne : other ≠ root := by
    rintro rfl
    rw [h] at hother
    cases hother
  exact (Keyed.lookup_set_of_ne hne).trans hother

/-- A declaration of values that has been started comes to its end. It is reported if it has
failed. -/
theorem tallies_end {root : NodeId} {s₁ s₂ : State} (h : s.progress.lookup root = none)
    (h₁ : Tallies c s s₁) (hstarted : s₁.progress.lookup root = some .started)
    (hp : s₂.progress = s₁.progress.set root .done ∧ s₂.diagnostics = s₁.diagnostics ∧
        s₂.halted = s₁.halted ∨
      ∃ report, s₂.progress = s₁.progress.set root .failed ∧
        s₂.diagnostics = s₁.diagnostics ++ [report] ∧
        s₂.halted = (s₁.halted || c.settings.errorPolicy == .haltOnFirst)) :
    Tallies c s s₂ := by
  have kept (progress : Progress) (hp : s₂.progress = s₁.progress.set root progress)
      (other : NodeId) (before : Progress) (hother : s.progress.lookup other = some before) :
      s₂.progress.lookup other = some before := by
    have hne : other ≠ root := by
      rintro rfl
      rw [h] at hother
      cases hother
    rw [hp, Keyed.lookup_set_of_ne hne]
    exact h₁.kept other before hother
  have hcount := h₁.count
  rcases hp with ⟨hp, hd, hh⟩ | ⟨report, hp, hd, hh⟩
  · have hsame : s₂.failedValues = s₁.failedValues := by
      simpa [State.failedValues, hp, hstarted] using
        countP_set s₁.progress root Progress.done (· == Progress.failed)
    refine ⟨kept _ hp, by rw [hd, hsame]; exact hcount, fun hpolicy hs => ?_⟩
    unfold State.HaltsOnReport
    rw [hd, hh]
    exact h₁.halts hpolicy hs
  · have hmore : s₂.failedValues = s₁.failedValues + 1 := by
      simpa [State.failedValues, hp, hstarted] using
        countP_set s₁.progress root Progress.failed (· == Progress.failed)
    refine ⟨kept _ hp, ?_, fun hpolicy _ => ?_⟩
    · rw [hd, hmore, List.length_append, List.length_singleton]
      omega
    · simp [State.HaltsOnReport, hd, hh, hpolicy]

theorem quiet_ensureValue_tallying [walk.Keeps tallying] (root : NodeId) (name : String)
    (span : Span) : Quiet tallying (ensureValue walk root name span) := by
  refine keeps_ofFrame (fun c s => ?_)
  unfold Leads
  cases hfound : s.progress.lookup root with
  | some progress =>
    by_cases hp : progress = .started
    · subst hp
      rw [run_ensureValue_started hfound]
      exact Tallies.of_eq rfl rfl rfl
    · rw [run_ensureValue_ended hfound hp]
      exact Tallies.of_eq rfl rfl rfl
  | none =>
    rw [run_ensureValue_new hfound]
    have hquiet : Quiet tallying (atPackageLevel (lowerGlobalValue walk root)) := inferInstance
    have hrun : Tallies c _ _ := Keeps.run hquiet c (s.starting root name span)
    have hstarted := hrun.kept root .started (Keyed.lookup_set_self ..)
    have hs := (tallies_start (c := c) hfound).trans hrun
    rcases hr : atPackageLevel (lowerGlobalValue walk root) c (s.starting root name span)
      with ⟨r, s₁⟩
    rw [hr] at hs hstarted
    cases r with
    | ok _ => exact tallies_end hfound hs hstarted (.inl ⟨rfl, rfl, rfl⟩)
    | error failure => exact tallies_end hfound hs hstarted (.inr ⟨failure.report, rfl, rfl, rfl⟩)

instance keeps_walkWithin_tallying (depth : Nat) : (walkWithin depth).Keeps tallying := by
  induction depth with
  | zero =>
    have h {α : Type} : Additive tallying (exhaust : Lower α) := inferInstance
    exact Walk.keeps_ofFrame (fun _ _ => h) (fun _ => h) (fun _ => h) (fun _ => h)
      (fun _ _ _ c s _ => Keeps.run h c s)
  | succ depth ih =>
    exact Walk.keeps_ofFrame additive_lowerExpr additive_lowerStmt additive_lowerType
      additive_lowerType
      (fun root name span c s _ =>
        Frame.additive (Keeps.run (quiet_ensureValue_tallying root name span) c s))

instance additive_value_tallying (depth : Nat) (root : NodeId) (name : String) (span : Span) :
    Additive tallying ((walkWithin depth).value root name span) := by
  cases depth with
  | zero => exact additive_of_quiet (h := quiet_exhaust_tallying)
  | succ depth => exact additive_of_quiet (h := quiet_ensureValue_tallying root name span)

end GoLowering.Lowering
