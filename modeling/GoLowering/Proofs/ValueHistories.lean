import GoLowering.Proofs.Histories
import GoLowering.Proofs.Phases
import GoLowering.Proofs.Situations

/-!
# Declarations of values over a whole lowering

Every part of a lowering adds an orderly history to that of the parts before it, and whatever it
meets that needs itself is its own failure or has been reported (`logging`). So each declaration of
values goes through its progress once, and it is lowered then, at the level of the package; none is
left on its way, and a unit that is lowered without a report has no values that need each other
(`value_declarations_settled`).
-/

namespace GoLowering

namespace Lowering

open Surface

/-- What is known about the names of a unit so far. -/
structure Log where
  history : List Event
  progress : Keyed NodeId Progress
  diagnostics : List Diagnostic

def State.log (s : State) : Log := ⟨s.history, s.progress, s.diagnostics⟩

/-- The failure that a run ends with. -/
def failure? {α : Type} : Except Failure α → Option Failure
  | .ok _ => none
  | .error failure => some failure

/-- Some events lead from one log to another. What has been met that needs itself is the failure
at the end, or it has been reported. -/
structure Logged (outcome : Option Failure) (before after : Log) (events : List Event) : Prop where
  history : after.history = before.history ++ events
  orderly : Orderly before.progress events
  progress : after.progress = replay before.progress events
  diagnostics : before.diagnostics <+: after.diagnostics
  cycles : ∀ event ∈ events, ∀ failure, event.cycle? = some failure →
    outcome = some failure ∨ failure.report ∈ after.diagnostics

def Logs (outcome : Option Failure) (before after : Log) : Prop :=
  ∃ events, Logged outcome before after events

/-- A part adds to the log, and it accounts for what it meets that needs itself. -/
def logging : Regime :=
  ⟨fun _ _ m => ∀ c s, Logs (failure? (m c s).1) s.log (m c s).2.log⟩

variable {α β : Type} {care : Care} {outcome : Option Failure} {c : Context} {s s' : State}
  {before middle after : Log} {events more : List Event}

namespace Logged

theorem trans (h₁ : Logged none before middle events) (h₂ : Logged outcome middle after more) :
    Logged outcome before after (events ++ more) where
  history := by rw [h₂.history, h₁.history, List.append_assoc]
  orderly := h₁.orderly.append (h₁.progress ▸ h₂.orderly)
  progress := by rw [h₂.progress, h₁.progress, replay_append]
  diagnostics := h₁.diagnostics.trans h₂.diagnostics
  cycles event hevent failure hcycle := by
    rcases List.mem_append.mp hevent with hevent | hevent
    · have hreport := (h₁.cycles event hevent failure hcycle).resolve_left nofun
      exact .inr (h₂.diagnostics.subset hreport)
    · exact h₂.cycles event hevent failure hcycle

/-- Nothing has happened but that more is reported. -/
theorem reports {s s' : State} (hhistory : s'.history = s.history)
    (hprogress : s'.progress = s.progress) (hdiagnostics : s.diagnostics <+: s'.diagnostics) :
    Logged outcome s.log s'.log [] where
  history := hhistory.trans (List.append_nil _).symm
  orderly := .nil _
  progress := hprogress
  diagnostics := hdiagnostics
  cycles := by simp

end Logged

/-! ## Steps -/

theorem logs_refl (outcome : Option Failure) (s : State) : Logs outcome s.log s.log :=
  ⟨[], .reports rfl rfl List.prefix_rfl⟩

theorem Settles.logs (h : Settles s s') : Logs outcome s.log s'.log :=
  ⟨[], .reports h.history (congrArg Ledger.progress h.ledger) h.diagnostics⟩

theorem logs_bind {m : Lower α} {f : α → Lower β}
    (hm : Logs (failure? (m c s).1) s.log (m c s).2.log)
    (hf : ∀ a s₁, m c s = (.ok a, s₁) → Logs (failure? (f a c s₁).1) s₁.log (f a c s₁).2.log) :
    Logs (failure? ((m >>= f) c s).1) s.log ((m >>= f) c s).2.log := by
  rw [run_bind]
  rcases h : m c s with ⟨r, s₁⟩
  rw [h] at hm
  cases r with
  | error failure => exact hm
  | ok a =>
    obtain ⟨events, h₁⟩ := hm
    obtain ⟨more, h₂⟩ := hf a s₁ h
    exact ⟨_, h₁.trans h₂⟩

theorem logging_bind {m : Lower α} {f : α → Lower β} (hm : logging.Holds care m)
    (hf : ∀ a, logging.Holds care (f a)) : logging.Holds care (m >>= f) :=
  fun c s => logs_bind (hm c s) (fun a s₁ _ => hf a c s₁)

/-- A part is run under changes of the state that leave the log alone. -/
theorem logging_within {enter : State → State} {leave : State → State → State} {part : Lower α}
    (henter : ∀ s, (enter s).log = s.log) (hleave : ∀ s s', (leave s s').log = s'.log)
    (h : logging.Holds care part) : logging.Holds care (within enter leave part) := by
  intro c s
  rw [run_within, hleave, ← henter s]
  exact h c (enter s)

instance : Pointwise logging where
  reading hf := fun c s => hf c c s
  getting hf := fun c s => hf s c s

instance : Footing logging where
  pure _ := fun _ s => logs_refl _ s
  throw _ := fun _ s => logs_refl _ s
  bind := logging_bind
  read _ hf := fun c s => hf c c s
  get _ hf := fun c s => hf s c s
  quiet hm := hm
  additive hm := hm
  steady hm := hm
  addNode kind origin := fun c s => (settles_addNode kind origin c s).logs
  onTypes h := fun c s => (settles_onTypes h c s).logs
  freshName := fun c s => (settles_freshName c s).logs
  warn problem span := fun c s => (settles_warn problem span c s).logs
  bindName name symbol := fun c s => (settles_bindName name symbol c s).logs
  bindNew span name symbol := fun c s => (settles_bindNew span name symbol c s).logs
  packagePath name span := fun c s => (settles_packagePath name span c s).logs
  inScope {_ _} _ {_} h := logging_within (fun _ => rfl) (fun _ _ => rfl) h
  inFunction {_} _ _ {_} h := logging_within (fun _ => rfl) (fun _ _ => rfl) h
  inFrame {_} _ {_} h := logging_within (fun _ => rfl) (fun _ _ => rfl) h
  atPackageLevel {_ _} h := by
    unfold atPackageLevel
    exact Pointwise.reading (fun _ => logging_within (fun _ => rfl) (fun _ _ => rfl) h)
  hoisting {_ _} h :=
    logging_within (fun _ => rfl) (fun _ _ => rfl)
      (logging_bind h (fun _ => logging_bind (m := takeHoisted)
        (fun _ _ => ⟨[], .reports rfl rfl List.prefix_rfl⟩) (fun _ _ s => logs_refl _ s)))
  takeHoisted := fun _ _ => ⟨[], .reports rfl rfl List.prefix_rfl⟩
  noteLiteral _ _ := fun _ _ => ⟨[], .reports rfl rfl List.prefix_rfl⟩

/-- A change of the state that leaves the log alone. -/
theorem logging_modify {f : State → State} (h : ∀ s, (f s).log = s.log) :
    Keeps logging care (modify f : Lower Unit) :=
  ⟨fun _ s => (h s).symm ▸ logs_refl none s⟩

/-! ## Parts of the walk -/

instance : Discipline logging where
  propagate call values text span := by
    have hoisted (id : HostId) : Additive logging (hoist id) := logging_modify (fun _ => rfl)
    have noted (names : List String) : Additive logging (notePropagation call names) :=
      logging_modify (fun _ => rfl)
    have h : Additive logging (wrapPropagate call values text span) := by
      unfold wrapPropagate hoistTemporary
      refine Keeps.before (fun found => ?_)
      split
      · infer_instance
      · infer_instance
      · refine Keeps.before (fun temporary => ?_)
        refine Keeps.before (fun _ => ?_)
        infer_instance
      · infer_instance
    exact h.holds
  localType {walk} type h name doc span := by
    have : Additive logging (walk.type type) := ⟨h⟩
    have defined (named definition : TypeId) : Additive logging
        (modify (fun s => { s with types := s.types.define named definition }) : Lower Unit) :=
      logging_modify (fun _ => rfl)
    have h : Additive logging (lowerLocalType walk name type false doc span) := by
      unfold lowerLocalType lowerLocalDefinition
      infer_instance
    exact h.holds

instance : Redefining logging := ⟨fun _ _ _ s => logs_refl none s⟩

/-- A failure is reported, and with it what needs itself. -/
theorem logged_recordFailure {failure : Failure}
    (h : Logged (some failure) before s.log events) :
    Logged none before (recordFailure failure c s).2.log events where
  history := h.history
  orderly := h.orderly
  progress := h.progress
  diagnostics := h.diagnostics.trans (List.prefix_append _ _)
  cycles event hevent other hcycle := by
    refine .inr (List.mem_append.mpr ?_)
    rcases h.cycles event hevent other hcycle with hother | hreport
    · exact .inr (List.mem_singleton.mpr (congrArg Failure.report (Option.some.inj hother).symm))
    · exact .inl hreport

instance : Declaring logging where
  enter h := fun _ s => ⟨[], .reports (h s).history (h s).progress (h s).diagnostics⟩
  recover {_ _ part next rest} hpart hok herror hrest := by
    intro c s
    rw [run_bind, run_attempt]
    dsimp only
    have h := hpart c s
    rcases hrun : part c s with ⟨r, s₁⟩
    rw [hrun] at h
    obtain ⟨events, h⟩ := h
    cases r with
    | ok a =>
      obtain ⟨more, h'⟩ := hok a c s₁
      exact ⟨_, h.trans h'⟩
    | error failure =>
      dsimp only
      rw [herror]
      obtain ⟨more, h'⟩ := hrest c (recordFailure failure c s₁).2
      exact ⟨_, (logged_recordFailure h).trans h'⟩

/-! ## Names of the package -/

variable {walk : Walk}

/-- What is looked up about names keeps to a regime as soon as the parts of the walk, aliases and
values do. -/
theorem Walk.keeps_of {L : Regime} [Discipline L] [Pointwise L]
    (expr : ∀ id expect, Additive L (walk.expr id expect))
    (statement : ∀ id, Additive L (walk.statement id)) (type : ∀ id, Additive L (walk.type id))
    (target : ∀ name root span, Additive L (aliasTarget walk name root span))
    (value : ∀ root name span, Additive L (walk.value root name span)) : walk.Keeps L := by
  have typeOfName (name : String) (span : Span) : Additive L (typeOfName walk name span) := by
    unfold Lowering.typeOfName
    refine keeps_getting (fun s => ?_)
    split
    · infer_instance
    · infer_instance
    · refine keeps_getting (fun s => ?_)
      split
      · infer_instance
      · exact target _ _ _
      · infer_instance
      · refine keeps_reading (fun c => ?_)
        split <;> infer_instance
  refine ⟨expr, statement, type, typeOfName, fun name span => ?_⟩
  unfold unboundOperand?
  refine keeps_getting (fun s => ?_)
  split
  · have h (global : Global) : Additive L (globalOperand walk global name span) := by
      unfold globalOperand
      split
      · refine Keeps.bind (value _ _ _) (fun _ => keeps_getting (fun s => ?_))
        split <;> infer_instance
      · infer_instance
      · exact Keeps.bind (typeOfName _ _) (fun _ => inferInstance)
    infer_instance
  · refine keeps_getting (fun s => ?_)
    split
    · infer_instance
    · refine keeps_reading (fun c => ?_)
      split <;> infer_instance

theorem logged_note {event : Event} (orderly : Orderly s.progress [event])
    (unmoved : replay s.progress [event] = s.progress)
    (cycles : ∀ failure, event.cycle? = some failure → outcome = some failure) :
    Logged outcome s.log (s.noting event).log [event] where
  history := rfl
  orderly := orderly
  progress := unmoved.symm
  diagnostics := List.prefix_rfl
  cycles _ hother failure hcycle :=
    .inl (cycles failure (List.mem_singleton.mp hother ▸ hcycle))

/-- An alias that is looked for already is a failure, and otherwise its target is looked for. -/
theorem logging_aliasTarget (target : ∀ id, Additive logging (walk.target id)) (name : String)
    (root : NodeId) (span : Span) : Additive logging (aliasTarget walk name root span) := by
  unfold aliasTarget
  refine keeps_getting (fun s => ?_)
  dsimp only
  cases s.openAliases.contains name with
  | true => exact ⟨fun c s => ⟨_, logged_note (.ofAlias _ _ _ _) rfl (fun _ => id)⟩⟩
  | false =>
    have noted : Additive logging (note (.aliasNeeded name span false)) :=
      ⟨fun c s => ⟨_, logged_note (.ofAlias _ _ _ _) rfl nofun⟩⟩
    refine Keeps.before (fun _ => ?_)
    rw [if_neg (by simp)]
    refine keeps_reading (fun c => ?_)
    split
    · refine Keeps.bind ⟨logging_within (fun _ => rfl) (fun _ _ => rfl) (target _).holds⟩
        (fun type => ?_)
      exact Keeps.bind (logging_modify (fun _ => rfl)) (fun _ => keeps_pure type)
    · infer_instance

/-! ## Values of the package -/

/-- The history of a declaration that is needed for the first time, with what happens while it is
lowered in between. -/
theorem logged_value {root : NodeId} {name : String} {span : Span} {result : Progress}
    (fresh : s.progress.lookup root = none) (ended : result ≠ .started)
    (h : Logged outcome
      ((s.starting root name span).noting (.lowered root Scopes.package none)).log s'.log events) :
    Logged outcome s.log (s'.moving root result).log (.valueNeeded root name span none ::
      .moved root .started :: .lowered root Scopes.package none ::
        (events ++ [.moved root result])) where
  history := by
    change s'.history ++ [_] = s.history ++ _
    rw [show s'.history = _ from h.history]
    simp [State.log, State.starting, State.moving, State.noting]
  orderly := .first name span fresh h.orderly ended
  progress := by
    change s'.progress.set root result = _
    rw [show s'.progress = _ from h.progress]
    exact (replay_append (s.progress.set root .started) events [.moved root result]).symm
  diagnostics := h.diagnostics
  cycles event hevent failure hcycle := by
    have hmem : event ∈ events := by
      simp only [List.mem_cons, List.mem_append, List.not_mem_nil, or_false] at hevent
      rcases hevent with rfl | rfl | rfl | hevent | rfl
      · cases hcycle
      · cases hcycle
      · cases hcycle
      · exact hevent
      · cases hcycle
    exact h.cycles event hmem failure hcycle

/-- A declaration is lowered where it is noted to be. -/
theorem run_lowerGlobalValue (root : NodeId) (c : Context) (s : State) :
    lowerGlobalValue walk root c s =
      (match c.unit.stmt? root with
        | some (.varDecl spec) => lowerGlobalSpec walk root spec .var
        | some (.constDecl spec) => lowerGlobalSpec walk root spec .const
        | _ => return () : Lower Unit) c
          (s.noting (.lowered root s.scopes.current s.function)) :=
  rfl

/-- At the level of the package there is no function around. -/
theorem logs_lowerGlobalValue [walk.Keeps logging] (root : NodeId) (c : Context) (s : State) :
    Logs (failure? (atPackageLevel (lowerGlobalValue walk root) c s).1)
      (s.noting (.lowered root Scopes.package none)).log
      (atPackageLevel (lowerGlobalValue walk root) c s).2.log := by
  have h : Additive logging (match c.unit.stmt? root with
      | some (.varDecl spec) => lowerGlobalSpec walk root spec .var
      | some (.constDecl spec) => lowerGlobalSpec walk root spec .const
      | _ => return () : Lower Unit) := by
    split <;> infer_instance
  rw [run_atPackageLevel (run_lowerGlobalValue root c _)]
  exact h.holds c _

theorem logging_ensureValue [walk.Keeps logging] (root : NodeId) (name : String) (span : Span) :
    Additive logging (ensureValue walk root name span) := by
  refine ⟨fun c s => ?_⟩
  cases hfound : s.progress.lookup root with
  | none =>
    obtain ⟨events, h⟩ := @logs_lowerGlobalValue walk _ root c (s.starting root name span)
    rw [run_ensureValue_new hfound]
    rcases hrun : atPackageLevel (lowerGlobalValue walk root) c (s.starting root name span)
      with ⟨r, s₁⟩
    rw [hrun] at h
    cases r with
    | ok _ => exact ⟨_, logged_value hfound nofun h⟩
    | error failure => exact ⟨_, logged_recordFailure (logged_value hfound nofun h)⟩
  | some progress =>
    by_cases hended : progress = .started
    · subst hended
      rw [run_ensureValue_started hfound]
      exact ⟨_, logged_note (.again name span hfound) rfl (fun _ => id)⟩
    · rw [run_ensureValue_ended hfound hended]
      refine ⟨_, logged_note (.again name span hfound) rfl ?_⟩
      cases progress with
      | started => exact absurd rfl hended
      | done | failed => exact nofun

/-! ## The walk -/

theorem logging_exhaust : Additive logging (exhaust : Lower α) :=
  ⟨fun _ _ => ⟨_, logged_note (.exhausted _) rfl nofun⟩⟩

instance logging_walkWithin (depth : Nat) : (walkWithin depth).Keeps logging := by
  induction depth with
  | zero =>
    exact Walk.keeps_of (fun _ _ => logging_exhaust) (fun _ => logging_exhaust)
      (fun _ => logging_exhaust) (logging_aliasTarget (fun _ => logging_exhaust))
      (fun _ _ _ => logging_exhaust)
  | succ depth ih =>
    exact Walk.keeps_of additive_lowerExpr additive_lowerStmt additive_lowerType
      (logging_aliasTarget additive_lowerType) logging_ensureValue

instance logging_value (depth : Nat) (root : NodeId) (name : String) (span : Span) :
    Additive logging ((walkWithin depth).value root name span) := by
  cases depth with
  | zero => exact logging_exhaust
  | succ depth => exact logging_ensureValue root name span

/-- All of a lowering is logged. -/
theorem logged_final (c : Context) (types : TypeTable) :
    Logged none (State.initial c.unit types).log (State.final c types).log
      (State.final c types).history := by
  have hanswers : Answers (lowerDeclarations (walkWithin (depthBound c.unit)) c.unit.roots) :=
    answers_lowerDeclarations c.unit.roots
  obtain ⟨_, s', hrun⟩ := hanswers.ok c (.initial c.unit types)
  have hlogging : Additive logging
      (lowerDeclarations (walkWithin (depthBound c.unit)) c.unit.roots) := inferInstance
  obtain ⟨events, h⟩ := hlogging.holds c (.initial c.unit types)
  rw [hrun] at h
  have hfinal : State.final c types = s' := congrArg Prod.snd hrun
  rw [hfinal]
  have hevents : s'.history = events := h.history
  rw [hevents]
  exact h

/-! ## Main result -/

/-- Over the whole lowering of a unit the progress of its declarations of values is what the
history tells. Each declaration has been left alone, or it has been started once, lowered once, in
the package scope and outside of any function, and then has been done or has failed; so none is
left on its way. In a unit that is lowered without a report no declaration needs itself, however
indirectly. -/
theorem value_declarations_settled (c : Context) (types : TypeTable) :
    (State.final c types).progress = replay [] (State.final c types).history ∧
    (∀ root,
      (moves root (State.final c types).history = [] ∧
          lowerings root (State.final c types).history = [] ∨
        (moves root (State.final c types).history = [.started, .done] ∨
            moves root (State.final c types).history = [.started, .failed]) ∧
          lowerings root (State.final c types).history = [(Scopes.package, none)]) ∧
      (State.final c types).progress.lookup root ≠ some .started) ∧
    ((∃ out, lowerUnitWith c.unit c.sources ⟨types, c.env⟩ c.settings c.registry = .ok out) →
      ∀ root, ¬Relation.TransGen
        (fun a b => (a, b) ∈ demands [] (State.final c types).history) root root) := by
  have h := logged_final c types
  have horderly : Orderly [] (State.final c types).history := h.orderly
  have hprogress : (State.final c types).progress = replay [] (State.final c types).history :=
    h.progress
  refine ⟨hprogress, fun root => ?_, fun ⟨out, hout⟩ => ?_⟩
  · rw [hprogress, lookup_replay]
    rcases horderly.once root with ⟨hmoves, hlowerings⟩ | ⟨-, ⟨result, hended, hmoves⟩, hlowerings⟩
    · exact ⟨.inl ⟨hmoves, hlowerings⟩, by simp [hmoves]⟩
    · rw [hmoves, hlowerings]
      cases result with
      | started => exact absurd rfl hended
      | done | failed => simp
  · refine horderly.acyclic (fun event hevent => ?_)
    by_contra hcyclic
    obtain ⟨failure, hfailure⟩ := Option.ne_none_iff_exists'.mp hcyclic
    have hreport := (h.cycles event hevent failure hfailure).resolve_left nofun
    rw [show (State.final c types).log.diagnostics = [] from (lowerUnitWith_ok.mp hout).1] at hreport
    cases hreport

/-- `var a = b` before `var b = 1`. -/
def valueSample : Context :=
  .sample
    [.expr (.identifier "b"), .stmt (.varDecl ⟨["a"], none, [⟨0⟩], none⟩),
      .expr (.literal .int "1"), .stmt (.varDecl ⟨["b"], none, [⟨2⟩], none⟩)]
    [⟨1⟩, ⟨3⟩]

/-- The second declaration is lowered when the first one needs it. -/
theorem value_declarations_settled_sample :
    (∃ out, lowerUnitWith valueSample.unit valueSample.sources ⟨.initial, valueSample.env⟩
      valueSample.settings valueSample.registry = .ok out) ∧
    endings (State.final valueSample .initial).history = [⟨3⟩, ⟨1⟩] ∧
    demands [] (State.final valueSample .initial).history = [(⟨1⟩, ⟨3⟩)] ∧
    ∀ root, ¬Relation.TransGen
      (fun a b => (a, b) ∈ demands [] (State.final valueSample .initial).history) root root :=
  have h : ∃ out, lowerUnitWith valueSample.unit valueSample.sources ⟨.initial, valueSample.env⟩
      valueSample.settings valueSample.registry = .ok out :=
    ⟨_, lowerUnitWith_ok.mpr ⟨by decide +kernel, rfl⟩⟩
  ⟨h, by decide +kernel, by decide +kernel, (value_declarations_settled valueSample .initial).2.2 h⟩

end Lowering

end GoLowering
