import GoLowering.Proofs.PropagatedErrors
import GoLowering.Proofs.ValueHistories

/-!
# Generated names

The temporaries and the labels of all calls whose errors are returned are numbered by one counter,
which the whole lowering of a unit shares: no part of it gives numbers back, whatever it fails with,
and what is noted of a call stays true of everything that comes later (`numbering`). So the code of
each call that is noted stands in the tree of the unit, and no two of their names are the same
(`numbers_final`). What this code does is part of the same theorem (`propagated_errors`).
-/

namespace GoLowering

/-- The code of a call whose error is returned stands in a tree, under the names that are noted. -/
def Lowering.Propagation.StandsIn (p : Lowering.Propagation) (t : HostTree) : Prop :=
  ∃ label zeros text path line function temporaries code,
    p.names = temporaries.map Prod.fst ++ [label] ∧
    t.IsPropagating p.call label zeros text path line function temporaries code

namespace Lowering

open Surface

variable {α β : Type} {care : Care} {c : Context} {s s' s₁ : State}

theorem drawn_append (h₁ : s.temporaries ≤ s₁.temporaries)
    (h₂ : s₁.temporaries ≤ s'.temporaries) : drawn s s₁ ++ drawn s₁ s' = drawn s s' := by
  have hfirst : s₁.temporaries + 1 =
      s.temporaries + 1 + 1 * (s₁.temporaries - s.temporaries) := by
    omega
  have hcount : s₁.temporaries - s.temporaries + (s'.temporaries - s₁.temporaries) =
      s'.temporaries - s.temporaries := by
    omega
  rw [drawn, drawn, drawn, ← List.map_append, hfirst, List.range'_append, hcount]

theorem nodup_drawn (s s' : State) : (drawn s s').Nodup :=
  (List.nodup_range' ..).map (fun _ _ h => Names.temporary_inj h)

/-- Between two states the errors of some calls are returned, under names that are drawn in
between. -/
structure Numbers (s s' : State) (log : List Propagation) : Prop where
  precedes : s.Precedes s'
  counter : s.temporaries ≤ s'.temporaries
  noted : s'.propagations = s.propagations ++ log
  names : (log.flatMap (·.names)).Sublist (drawn s s')
  stands : ∀ p ∈ log, ∀ final, s'.Precedes final → p.StandsIn final.tree

theorem Numbers.trans {s₂ s₃ : State} {log more : List Propagation} (h₁ : Numbers s₁ s₂ log)
    (h₂ : Numbers s₂ s₃ more) : Numbers s₁ s₃ (log ++ more) where
  precedes := h₁.precedes.trans h₂.precedes
  counter := h₁.counter.trans h₂.counter
  noted := by rw [h₂.noted, h₁.noted, List.append_assoc]
  names := by
    rw [List.flatMap_append, ← drawn_append h₁.counter h₂.counter]
    exact h₁.names.append h₂.names
  stands p hp final hfinal := by
    rcases List.mem_append.mp hp with hp | hp
    · exact h₁.stands p hp final (h₂.precedes.trans hfinal)
    · exact h₂.stands p hp final hfinal

/-- No error is returned. -/
theorem Numbers.none (hprecedes : s.Precedes s') (hcounter : s.temporaries ≤ s'.temporaries)
    (hnoted : s'.propagations = s.propagations) : Numbers s s' [] where
  precedes := hprecedes
  counter := hcounter
  noted := hnoted.trans (List.append_nil _).symm
  names := List.nil_sublist _
  stands := by simp

theorem Numbers.of_tree_eq (htree : s'.tree = s.tree) (htypes : s'.types = s.types)
    (hcounter : s'.temporaries = s.temporaries) (hnoted : s'.propagations = s.propagations) :
    Numbers s s' [] :=
  .none ⟨htree ▸ .refl _, htypes ▸ .refl _⟩ hcounter.ge hnoted

/-! ## Parts of the walk -/

/-- A part returns the errors of some calls, under names that it draws. -/
def numbering : Regime := ⟨fun _ _ m => ∀ c s, ∃ log, Numbers s (m c s).2 log⟩

theorem numbers_refl (s : State) : ∃ log, Numbers s s log := ⟨_, .of_tree_eq rfl rfl rfl rfl⟩

theorem numbering_bind {m : Lower α} {f : α → Lower β} (hm : numbering.Holds care m)
    (hf : ∀ a, numbering.Holds care (f a)) : numbering.Holds care (m >>= f) := by
  intro c s
  obtain ⟨log, h₁⟩ := hm c s
  rw [run_bind]
  rcases h : m c s with ⟨r, s₁⟩
  rw [h] at h₁
  cases r with
  | error failure => exact ⟨log, h₁⟩
  | ok a =>
    obtain ⟨more, h₂⟩ := hf a c s₁
    exact ⟨_, h₁.trans h₂⟩

/-- A part is run under changes of the state that neither draw nor note anything. -/
theorem numbering_within {enter : State → State} {leave : State → State → State} {part : Lower α}
    (henter : ∀ s, Numbers s (enter s) []) (hleave : ∀ s s', Numbers s' (leave s s') [])
    (h : numbering.Holds care part) : numbering.Holds care (within enter leave part) := by
  intro c s
  obtain ⟨log, hpart⟩ := h c (enter s)
  rw [run_within]
  exact ⟨_, (henter s).trans (hpart.trans (hleave s _))⟩

/-- What is tried may fail, which makes no difference to what has been noted. -/
theorem numbering_attempt {part : Lower α} (h : numbering.Holds care part) :
    numbering.Holds care (attempt part) := by
  intro c s
  rw [run_attempt]
  exact h c s

/-- A change of the state that neither draws nor notes anything. -/
theorem numbering_modify {f : State → State} (h : ∀ s, Numbers s (f s) []) :
    Keeps numbering care (modify f : Lower Unit) :=
  ⟨fun _ s => ⟨_, h s⟩⟩

theorem numbering_fail (problem : Problem) (span : Span) :
    Keeps numbering care (fail problem span : Lower α) :=
  ⟨fun _ s => numbers_refl s⟩

theorem numbering_recordFailure (failure : Failure) :
    Keeps numbering care (recordFailure failure) :=
  ⟨fun _ _ => ⟨_, .of_tree_eq rfl rfl rfl rfl⟩⟩

theorem Settles.precedes (h : Settles s s') : s.Precedes s' := ⟨h.tree, h.types⟩

instance : Pointwise numbering where
  reading hf := fun c s => hf c c s
  getting hf := fun c s => hf s c s

instance : Footing numbering where
  pure _ := fun _ s => numbers_refl s
  throw _ := fun _ s => numbers_refl s
  bind := numbering_bind
  read _ hf := fun c s => hf c c s
  get _ hf := fun c s => hf s c s
  quiet hm := hm
  additive hm := hm
  steady hm := hm
  addNode kind origin := fun c s =>
    ⟨_, .none (settles_addNode kind origin c s).precedes (Nat.le_refl _) rfl⟩
  onTypes h := fun c s => ⟨_, .none (settles_onTypes h c s).precedes (Nat.le_refl _) rfl⟩
  freshName := fun c s => ⟨_, .none (settles_freshName c s).precedes (Nat.le_succ _) rfl⟩
  warn problem span := fun c s =>
    ⟨_, .none (settles_warn problem span c s).precedes (Nat.le_refl _) rfl⟩
  bindName name symbol := fun _ _ => ⟨_, .of_tree_eq rfl rfl rfl rfl⟩
  bindNew span name symbol := by
    have h : Still numbering (bindNew span name symbol) := by
      unfold bindNew
      refine keeps_getting (fun s => ?_)
      split
      · exact numbering_modify (fun _ => .of_tree_eq rfl rfl rfl rfl)
      · exact numbering_fail _ _
    exact h.holds
  packagePath name span := by
    have h : Still numbering (packagePath name span) := by
      unfold packagePath
      refine keeps_getting (fun s => ?_)
      split
      · exact ⟨fun _ s => numbers_refl s⟩
      · refine keeps_reading (fun c => ?_)
        split
        · exact ⟨fun _ s => numbers_refl s⟩
        · exact numbering_fail _ _
    exact h.holds
  inScope {_ _} _ {_} h :=
    numbering_within (fun _ => .of_tree_eq rfl rfl rfl rfl)
      (fun _ _ => .of_tree_eq rfl rfl rfl rfl) h
  inFunction {_} _ _ {_} h :=
    numbering_within (fun _ => .of_tree_eq rfl rfl rfl rfl)
      (fun _ _ => .of_tree_eq rfl rfl rfl rfl) h
  inFrame {_} _ {_} h :=
    numbering_within (fun _ => .of_tree_eq rfl rfl rfl rfl)
      (fun _ _ => .of_tree_eq rfl rfl rfl rfl) h
  atPackageLevel {_ _} h := by
    unfold atPackageLevel
    exact Pointwise.reading (fun _ => numbering_within (fun _ => .of_tree_eq rfl rfl rfl rfl)
      (fun _ _ => .of_tree_eq rfl rfl rfl rfl) h)
  hoisting {_ _} h :=
    numbering_within (fun _ => .of_tree_eq rfl rfl rfl rfl)
      (fun _ _ => .of_tree_eq rfl rfl rfl rfl)
      (numbering_bind h (fun _ => numbering_bind (m := takeHoisted)
        (fun _ _ => ⟨_, .of_tree_eq rfl rfl rfl rfl⟩) (fun _ _ s => numbers_refl s)))
  takeHoisted := fun _ _ => ⟨_, .of_tree_eq rfl rfl rfl rfl⟩
  noteLiteral _ _ := fun _ _ => ⟨_, .of_tree_eq rfl rfl rfl rfl⟩

/-- A call whose error cannot be returned leaves everything as it is. -/
theorem wrapPropagate_error {call : HostId} {values : List TypeId} {text : String} {span : Span}
    {failure : Failure}
    (hrun : wrapPropagate call values text span c s = (.error failure, s')) : s' = s := by
  have hanswers {m : Lower Operand} [hm : Answers m] (h : m c s = (.error failure, s')) :
      s' = s := by
    obtain ⟨r, t, hok⟩ := hm.ok c s
    rw [hok] at h
    cases h
  unfold wrapPropagate at hrun
  rw [run_bind, run_errorResults?] at hrun
  generalize s.function.filter _ = found at hrun
  dsimp only at hrun
  split at hrun
  · exact (Prod.mk.inj hrun).2.symm
  · exact hanswers hrun
  · unfold hoistTemporary at hrun
    exact hanswers hrun
  · exact (Prod.mk.inj hrun).2.symm

/-- A call whose error is returned is noted, with all names that are drawn for it. -/
theorem numbers_wrapPropagate (call : HostId) (values : List TypeId) (text : String)
    (span : Span) (c : Context) (s : State) :
    ∃ log, Numbers s (wrapPropagate call values text span c s).2 log := by
  rcases hrun : wrapPropagate call values text span c s with ⟨r, s'⟩
  cases r with
  | error failure =>
    obtain rfl := wrapPropagate_error hrun
    exact numbers_refl s'
  | ok r =>
    obtain ⟨_, temporaries, label, _, _, -, -, hdrawn, -, -, -, hnoted⟩ :=
      wrapPropagate_ok hrun (.refl s')
    refine ⟨_, precedes_run hrun, ?_, hnoted, ?_, ?_⟩
    · have hlength := congrArg List.length hdrawn
      simp only [List.length_append, List.length_singleton, drawn, List.length_map,
        List.length_range'] at hlength
      change s.temporaries ≤ s'.temporaries
      omega
    · rw [List.flatMap_singleton]
    · intro p hp final hfinal
      obtain rfl := List.mem_singleton.mp hp
      obtain ⟨_, temporaries, label, zeros, code, -, -, hdrawn, -, -, hpropagating, -⟩ :=
        wrapPropagate_ok hrun hfinal
      exact ⟨label, zeros, _, _, _, _, temporaries, code, hdrawn.symm, hpropagating⟩

instance : Discipline numbering where
  propagate := numbers_wrapPropagate
  localType {walk} type h name doc span := by
    have : Additive numbering (walk.type type) := ⟨h⟩
    have defined (named definition : TypeId) : Additive numbering
        (modify (fun s => { s with types := s.types.define named definition }) : Lower Unit) :=
      numbering_modify (fun _ =>
        .none ⟨.refl _, TypeTable.grows_define _ _ _⟩ (Nat.le_refl _) rfl)
    have h : Additive numbering (lowerLocalType walk name type false doc span) := by
      unfold lowerLocalType lowerLocalDefinition
      infer_instance
    exact h.holds

instance : Redefining numbering :=
  ⟨fun _ _ _ _ => ⟨_, .none ⟨.refl _, TypeTable.grows_define _ _ _⟩ (Nat.le_refl _) rfl⟩⟩

instance : Declaring numbering where
  enter h := fun _ s =>
    ⟨_, .of_tree_eq (h s).tree (h s).types (h s).temporaries (h s).propagations⟩
  recover hpart hok herror hrest := by
    refine numbering_bind (numbering_attempt hpart) (fun result => ?_)
    cases result with
    | ok a => exact hok a
    | error failure =>
      rw [herror]
      exact numbering_bind (numbering_recordFailure failure).holds (fun _ => hrest)

/-! ## The walk -/

variable {walk : Walk}

theorem numbering_note (event : Event) : Keeps numbering care (note event) :=
  numbering_modify (fun _ => .of_tree_eq rfl rfl rfl rfl)

theorem numbering_aliasTarget (target : ∀ id, Additive numbering (walk.target id)) (name : String)
    (root : NodeId) (span : Span) : Additive numbering (aliasTarget walk name root span) := by
  unfold aliasTarget
  refine keeps_getting (fun s => ?_)
  dsimp only
  refine Keeps.bind (numbering_note _) (fun _ => ?_)
  split
  · infer_instance
  · refine keeps_reading (fun c => ?_)
    split
    · refine Keeps.bind ⟨numbering_within (fun _ => .of_tree_eq rfl rfl rfl rfl)
        (fun _ _ => .of_tree_eq rfl rfl rfl rfl) (target _).holds⟩
        (fun type => ?_)
      exact Keeps.bind (numbering_modify (fun _ => .of_tree_eq rfl rfl rfl rfl)) (fun _ => keeps_pure type)
    · infer_instance

theorem numbering_lowerGlobalValue [walk.Keeps numbering] (root : NodeId) :
    Additive numbering (lowerGlobalValue walk root) := by
  unfold lowerGlobalValue
  refine keeps_getting (fun s => ?_)
  refine Keeps.bind (numbering_note _) (fun _ => ?_)
  refine keeps_reading (fun c => ?_)
  split <;> infer_instance

theorem numbering_ensureValue [walk.Keeps numbering] (root : NodeId) (name : String) (span : Span) :
    Additive numbering (ensureValue walk root name span) := by
  have moved (progress : Progress) : Additive numbering (setProgress root progress) :=
    numbering_modify (fun _ => .of_tree_eq rfl rfl rfl rfl)
  unfold ensureValue
  refine keeps_getting (fun s => ?_)
  refine Keeps.bind (numbering_note _) (fun _ => ?_)
  split
  · infer_instance
  · infer_instance
  · infer_instance
  · have lowered : Additive numbering (lowerGlobalValue walk root) := numbering_lowerGlobalValue root
    have level : Additive numbering (atPackageLevel (lowerGlobalValue walk root)) := inferInstance
    have tried : Additive numbering (attempt (atPackageLevel (lowerGlobalValue walk root))) :=
      ⟨numbering_attempt level.holds⟩
    refine Keeps.bind (moved _) (fun _ => tried.bind (fun result => ?_))
    split
    · exact moved _
    · exact Keeps.bind (moved _) (fun _ => numbering_recordFailure _)

theorem numbering_exhaust : Additive numbering (exhaust : Lower α) :=
  ⟨fun _ _ => ⟨_, .of_tree_eq rfl rfl rfl rfl⟩⟩

instance numbering_walkWithin (depth : Nat) : (walkWithin depth).Keeps numbering := by
  induction depth with
  | zero =>
    exact Walk.keeps_of (fun _ _ => numbering_exhaust) (fun _ => numbering_exhaust)
      (fun _ => numbering_exhaust) (numbering_aliasTarget (fun _ => numbering_exhaust))
      (fun _ _ _ => numbering_exhaust)
  | succ depth ih =>
    exact Walk.keeps_of additive_lowerExpr additive_lowerStmt additive_lowerType
      (numbering_aliasTarget additive_lowerType) numbering_ensureValue

instance numbering_value (depth : Nat) (root : NodeId) (name : String) (span : Span) :
    Additive numbering ((walkWithin depth).value root name span) := by
  cases depth with
  | zero => exact numbering_exhaust
  | succ depth => exact numbering_ensureValue root name span

/-- The errors that a unit returns are noted from its first statement to its last. -/
theorem numbers_final (c : Context) (types : TypeTable) :
    Numbers (.initial c.unit types) (.final c types) (State.final c types).propagations := by
  have hanswers : Answers (lowerDeclarations (walkWithin (depthBound c.unit)) c.unit.roots) :=
    answers_lowerDeclarations c.unit.roots
  obtain ⟨_, s', hrun⟩ := hanswers.ok c (.initial c.unit types)
  have hnumbering : Additive numbering
      (lowerDeclarations (walkWithin (depthBound c.unit)) c.unit.roots) := inferInstance
  obtain ⟨log, h⟩ := hnumbering.holds c (.initial c.unit types)
  rw [hrun] at h
  obtain rfl : State.final c types = s' := congrArg Prod.snd hrun
  have hlog : (State.final c types).propagations = log := h.noted
  exact hlog ▸ h

/-- The code of every call of a unit whose error is returned stands in its tree, and no two of their
temporaries and labels have the same name. A call with `?` is noted for this, and made once, in front
of the statement that it stands in, or as a statement of its own if it has no value. Without
an error the statement goes on with a temporary that has the value of the call. With one, a frame of
the error is returned from the function around, behind what is written for the zero values of its
other results, which is right for all types but those that are remote. -/
theorem propagated_errors (c : Context) :
    (∀ types, ((State.final c types).propagations.flatMap (·.names)).Nodup ∧
      ∀ p ∈ (State.final c types).propagations, p.StandsIn (State.final c types).tree) ∧
    ∀ {depth : Nat} {inner : NodeId} {span : Span} {s s' final : State} {r : Operand},
      TypeTable.initial.Grows s.types →
      lowerErrorWrap (walkWithin depth) inner .propagate span c s = (.ok r, s') →
      s'.Precedes final →
      ∃ call s₁ values results temporaries label zeros code,
        lowerWrappedCall (walkWithin depth) inner c s = (.ok call, s₁) ∧
        resultsBeforeError? (s₁.types.resultsOf call.type) = some values ∧
        s.function = some (results ++ [TypeTable.error]) ∧
        temporaries.map Prod.snd = values ∧ temporaries.map Prod.fst ++ [label] = drawn s₁ s' ∧
        s'.propagations =
          s₁.propagations ++ [⟨call.id, temporaries.map Prod.fst ++ [label]⟩] ∧
        Stands final.tree s₁ s' r temporaries code ∧
        final.tree.IsPropagating call.id label zeros (c.sources.slice (c.unit.span inner))
          (displayPath c.sources c.settings span.file)
          (c.sources.lineColumn span.file span.start).1 s.frameName temporaries code ∧
        List.Forall₂ (fun id type => s₁.types.SpellsZero type (final.tree.kind id) ↔
          s₁.types.HasZero type ∧ ¬s₁.types.Remote type) zeros results ∧
        ∀ {A W : Type} (E : Effects A W final.tree s₁.types),
          E.GivesError (fun name => name = Names.err ∨ name ∈ temporaries.map Prod.fst) call.id
            values.length →
          List.Forall₂ (fun id type => s₁.types.SpellsZero type (final.tree.kind id)) zeros
            results →
          ∀ {m : Machine A W} (depth : Nat), m.store.visible "nil" = none →
            (∀ id ∈ zeros, final.tree.kind id = .literal "false" →
              m.store.visible "false" = none) →
            Effects.runList final.tree (E.run (depth + 4)) none code m =
              E.propagating call.id temporaries results
                (E.newFrame · (c.sources.slice (c.unit.span inner))
                  (displayPath c.sources c.settings span.file)
                  (c.sources.lineColumn span.file span.start).1 s.frameName) m := by
  refine ⟨fun types => ?_, fun {depth inner span s s' final r} hgrows hrun hfinal => ?_⟩
  · have hnumbers := numbers_final c types
    exact ⟨hnumbers.names.nodup (nodup_drawn _ _),
      fun p hp => hnumbers.stands p hp _ (.refl _)⟩
  · obtain ⟨call, s₁, values, hcall, hresults, hwrap⟩ := lowerErrorWrap_ok hrun
    obtain ⟨results, temporaries, label, zeros, code, hfunction, hvalues, hdrawn, hstands, hzeros,
      hpropagating, hnoted⟩ := wrapPropagate_ok hwrap hfinal
    have hs := extends_run hcall
    have hinvalid := TypeTable.hasInvalid_initial.grows (hgrows.trans hs.types)
    rw [hs.function] at hfunction
    rw [hs.frameName] at hpropagating
    refine ⟨call, s₁, values, results, temporaries, label, zeros, code, hcall, hresults, hfunction,
      hvalues, hdrawn, hdrawn ▸ hnoted, hstands, hpropagating, ?_, fun E hgives hspells m depth hnil hfalse => ?_⟩
    · refine hzeros.imp (fun id type hkind => ?_)
      rw [hkind]
      exact TypeTable.spellsZero_zeroKind_iff hinvalid
    · have hlength : values.length = temporaries.length := by rw [← hvalues, List.length_map]
      refine Effects.runList_propagating hspells hnil hfalse hpropagating ?_ (hlength ▸ hgives)
      intro temporary htemporary
      have hmem : temporary.1 ∈ drawn s₁ s' :=
        hdrawn ▸ List.mem_append_left _ (List.mem_map_of_mem htemporary)
      exact exists_of_mem_drawn hmem

/-- `g()?` in a function that returns an `int` and an error. -/
def returnedCall : Except Failure Operand × State :=
  lowerErrorWrap (walkWithin 2) ⟨1⟩ .propagate .synthetic failingSample
    (failingState [TypeTable.int, TypeTable.error])

/-- The zero of `int` is returned with a frame of the error that `g` gives, which is called once. -/
theorem propagated_errors_returns :
    ∃ types, ∃ E : Effects Unit Nat returnedCall.2.tree types, ∃ store,
      Effects.runList returnedCall.2.tree (E.run 4) none returnedCall.2.hoisted ⟨[], 0⟩ =
        some (.done (.returns (some [E.zero TypeTable.int,
          E.newFrame (.text []) "" "" 0 "main.main"])) ⟨store, 1⟩) := by
  have hgrows := grows_failingState [TypeTable.int, TypeTable.error]
  obtain ⟨r, s', hrun⟩ : ∃ r s', returnedCall = (.ok r, s') := exists_ok (by decide +kernel)
  obtain ⟨call, s₁, values, results, temporaries, label, zeros, code, hcall, hresults, hfunction,
    hvalues, hdrawn, hnoted, hstands, hpropagating, hspells, hruns⟩ :=
      (propagated_errors failingSample).2 hgrows hrun (.refl s')
  obtain rfl : returnedCall.2 = s' := congrArg Prod.snd hrun
  obtain ⟨hid, hcount⟩ : call.id = ⟨1⟩ ∧ values.length = 1 := by
    have hfailing : failingCall? [TypeTable.int, TypeTable.error] = some (⟨1⟩, 1) := by
      decide +kernel
    rw [failingCall?, hcall] at hfailing
    dsimp only at hfailing
    rw [hresults] at hfailing
    exact Prod.mk.inj (Option.some.inj hfailing)
  have hnames : returnedCall.2.tree.nodes.all (hasNames returnedCall.2.tree ·.kind) = true := by
    decide +kernel
  have hg : returnedCall.2.tree.kind ⟨1⟩ = .call ⟨0⟩ [] false ∧
      returnedCall.2.tree.kind ⟨0⟩ = .identifier "g" := by
    decide +kernel
  obtain rfl : results = [TypeTable.int] :=
    List.append_cancel_right (Option.some.inj hfunction).symm
  obtain ⟨zero, rest, hspelled, hrest, rfl⟩ := List.forall₂_cons_right_iff.mp hspells
  obtain rfl := List.forall₂_nil_right_iff.mp hrest
  have hzero : s₁.types.SpellsZero TypeTable.int (returnedCall.2.tree.kind zero) := by
    have hint : s₁.types.get TypeTable.int = .basic .int :=
      (hgrows.trans (extends_run hcall).types).get_eq (by decide) (by decide)
    have hplain : s₁.types.isNamed TypeTable.int = false := by rw [TypeTable.isNamed, hint]; rfl
    refine hspelled.mpr ⟨⟨_, .number (.here hplain) hint rfl rfl⟩, ?_⟩
    rintro ⟨-, n, base, hn, hleads⟩
    obtain ⟨rfl, -⟩ := hleads.of_isNamed_eq_false hplain
    exact absurd hn (by decide)
  have hgives := givesError_failingEffects hg.1 hg.2
    (fun name => name = Names.err ∨ name ∈ temporaries.map Prod.fst) s₁.types hnames
  have hruns := hruns (failingEffects returnedCall.2.tree s₁.types hnames)
    (by rwa [hid, hcount]) (.cons hzero .nil) (m := ⟨[], 0⟩) 0 rfl (fun _ _ _ => rfl)
  have heval : (failingEffects returnedCall.2.tree s₁.types hnames).eval ⟨1⟩ ⟨[], 0⟩ =
      some (.values [.int 0, .text []], ⟨[], 1⟩) :=
    failingEffect_call hg.1 hg.2 ⟨[], 0⟩
  have htexts : failingSample.sources.slice (failingSample.unit.span ⟨1⟩) = "" ∧
      displayPath failingSample.sources failingSample.settings Span.synthetic.file = "" := by
    decide +kernel
  rw [hid, htexts.1, htexts.2, Effects.propagating, heval] at hruns
  have hhoisted : returnedCall.2.hoisted = code := by
    cases hstands with
    | statement => exact absurd ((congrArg List.length hvalues).trans hcount) (by decide)
    | before hhoisted =>
      cases hpropagating with
      | value =>
        have hlength : returnedCall.2.hoisted.length = 2 := by decide +kernel
        rw [hhoisted, List.length_append] at hlength
        obtain hempty : s₁.hoisted = [] := List.length_eq_zero_iff.mp (Nat.add_right_cancel hlength)
        rw [hhoisted, hempty]
        rfl
  rw [hhoisted]
  exact ⟨s₁.types, failingEffects returnedCall.2.tree s₁.types hnames, _, hruns⟩

/-- `g()?` in a function that returns a `T63` and an error. -/
def distantReturn : Except Failure Operand × State :=
  lowerErrorWrap (walkWithin 2) ⟨1⟩ .propagate .synthetic failingSample
    (distantState [⟨95⟩, TypeTable.error])

/-- What is returned on an error is not the zero value of its type. -/
theorem propagated_errors_distant :
    ∃ r s' call label zero text path line function temporaries code,
      distantReturn = (.ok r, s') ∧
      s'.tree.IsPropagating call label [zero] text path line function temporaries code ∧
      TypeTable.distant.HasZero ⟨95⟩ ∧
      ¬TypeTable.distant.SpellsZero ⟨95⟩ (s'.tree.kind zero) := by
  obtain ⟨r, s', hrun⟩ : ∃ r s', distantReturn = (.ok r, s') := exists_ok (by decide +kernel)
  obtain ⟨call, s₁, values, hcall, hresults, hwrap⟩ := lowerErrorWrap_ok hrun
  obtain ⟨results, temporaries, label, zeros, code, hfunction, -, -, -, hzeros, hpropagating, -⟩ :=
    wrapPropagate_ok hwrap (.refl s')
  obtain ⟨htypes, -⟩ := distantCall?_eq (by decide +kernel) hcall hresults
  rw [(extends_run hcall).function] at hfunction
  obtain rfl : results = [⟨95⟩] := List.append_cancel_right (Option.some.inj hfunction).symm
  obtain ⟨zero, rest, hkind, hrest, rfl⟩ := List.forall₂_cons_right_iff.mp hzeros
  obtain rfl := List.forall₂_nil_right_iff.mp hrest
  rw [htypes] at hkind
  obtain ⟨hhas, hspells⟩ := TypeTable.not_spellsZero_distant
  exact ⟨r, s', call.id, label, zero, _, _, _, _, temporaries, code, hrun, hpropagating, hhas,
    hkind ▸ hspells⟩

end Lowering

end GoLowering
