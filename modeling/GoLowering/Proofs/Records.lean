import GoLowering.Proofs.FrameDeclarations

/-!
# What is hoisted between two states

Statements that are hoisted are also noted in a log, which is never taken back. What a part has
hoisted is the end of the log that it has added: nodes it has made, in the order it has made them
(`Pushes`). Those that are still hoisted after the part are some of them, in the same order, and
there are none of them unless the function around returns an error (`Recording`).
-/

namespace GoLowering.Lowering

open Surface

/-- The second state comes after the first one, and some statements have been hoisted in between,
each of them just made. -/
structure Pushes (s s' : State) (pushed : List HostId) : Prop where
  tree : s.tree.Grows s'.tree
  function : s'.function = s.function
  diagnostics : s.diagnostics <+: s'.diagnostics
  log : s'.hoistLog = s.hoistLog ++ pushed
  level : s.levelLog <+: s'.levelLog
  made : ∀ id ∈ pushed, MadeBetween s s' id
  order : pushed.Pairwise (·.index < ·.index)

/-- The second state comes after the first one. Outside of functions that return an error nothing
is hoisted. -/
structure Records (s s' : State) : Prop where
  pushes : ∃ pushed, Pushes s s' pushed
  outside : ¬ s.ReturnsError → s'.hoisted.Sublist s.hoisted

namespace Pushes

variable {s s₁ s₂ s₃ : State} {pushed₁ pushed₂ : List HostId}

theorem refl (s : State) : Pushes s s [] :=
  ⟨.refl _, rfl, List.prefix_rfl, by simp, List.prefix_rfl, by simp, .nil⟩

theorem trans (h₁ : Pushes s₁ s₂ pushed₁) (h₂ : Pushes s₂ s₃ pushed₂) :
    Pushes s₁ s₃ (pushed₁ ++ pushed₂) where
  tree := h₁.tree.trans h₂.tree
  function := h₂.function.trans h₁.function
  diagnostics := h₁.diagnostics.trans h₂.diagnostics
  log := by rw [h₂.log, h₁.log, List.append_assoc]
  level := h₁.level.trans h₂.level
  made id hid := by
    rcases List.mem_append.mp hid with hid | hid
    · exact (h₁.made id hid).mono (.refl _) h₂.tree
    · exact (h₂.made id hid).mono h₁.tree (.refl _)
  order := by
    refine List.pairwise_append.mpr ⟨h₁.order, h₂.order, fun a ha b hb => ?_⟩
    exact Nat.lt_of_lt_of_le (h₁.made a ha).2 (h₂.made b hb).1

theorem of_settles (h : Settles s s₁) : Pushes s s₁ [] :=
  ⟨h.tree, h.function, h.diagnostics, by rw [h.hoistLog, List.append_nil],
    h.levelLog ▸ List.prefix_rfl, by simp, .nil⟩

end Pushes

namespace Records

variable {s s₁ s₂ s₃ : State}

theorem diagnostics (h : Records s s₁) : s.diagnostics <+: s₁.diagnostics :=
  h.pushes.elim (fun _ h => h.diagnostics)

theorem function (h : Records s s₁) : s₁.function = s.function :=
  h.pushes.elim (fun _ h => h.function)

theorem returnsError (h : Records s s₁) : s₁.ReturnsError ↔ s.ReturnsError := by
  unfold State.ReturnsError
  rw [h.function]

theorem refl (s : State) : Records s s := ⟨⟨[], .refl s⟩, fun _ => .refl _⟩

theorem trans (h₁ : Records s₁ s₂) (h₂ : Records s₂ s₃) : Records s₁ s₃ where
  pushes := by
    obtain ⟨pushed₁, hpushes₁⟩ := h₁.pushes
    obtain ⟨pushed₂, hpushes₂⟩ := h₂.pushes
    exact ⟨_, hpushes₁.trans hpushes₂⟩
  outside hs := (h₂.outside (mt h₁.returnsError.mp hs)).trans (h₁.outside hs)

end Records

/-- Some of the statements that were hoisted between two states are still hoisted in the second
one, after those that had been hoisted before the first one. -/
structure Hoists (s s' : State) (pushed kept : List HostId) : Prop extends Pushes s s' pushed where
  hoisted : s'.hoisted = s.hoisted ++ kept
  sublist : kept.Sublist pushed
  inside : kept ≠ [] → s.ReturnsError

theorem Hoists.trans {s₁ s₂ s₃ : State} {pushed₁ pushed₂ kept₁ kept₂ : List HostId}
    (h₁ : Hoists s₁ s₂ pushed₁ kept₁) (h₂ : Hoists s₂ s₃ pushed₂ kept₂) :
    Hoists s₁ s₃ (pushed₁ ++ pushed₂) (kept₁ ++ kept₂) where
  toPushes := h₁.toPushes.trans h₂.toPushes
  hoisted := by rw [h₂.hoisted, h₁.hoisted, List.append_assoc]
  sublist := h₁.sublist.append h₂.sublist
  inside hkept := by
    by_cases hkept₁ : kept₁ = []
    · obtain ⟨results, hfunction, hlast⟩ := h₂.inside (by simpa [hkept₁] using hkept)
      exact ⟨results, h₁.function ▸ hfunction, hlast⟩
    · exact h₁.inside hkept₁

/-- What is recorded by the parts of a lowering. -/
def Recording (care : Care) (_ : Context) (s s' : State) : Prop :=
  match care with
  | .still => Settles s s'
  | .quiet => ∃ pushed, Hoists s s' pushed []
  | .additive => ∃ pushed kept, Hoists s s' pushed kept
  | .steady => Records s s'

/-- Changes of what is around a part that its record does not tell. -/
theorem Pushes.within {s s' t t' : State} {pushed : List HostId} (h : Pushes s s' pushed)
    (htree : s.tree = t.tree) (hlog : s.hoistLog = t.hoistLog)
    (hdiagnostics : s.diagnostics = t.diagnostics) (htree' : s'.tree = t'.tree)
    (hlog' : s'.hoistLog = t'.hoistLog) (hdiagnostics' : s'.diagnostics = t'.diagnostics)
    (hfunction : t'.function = t.function) (hlevel : t.levelLog <+: t'.levelLog) :
    Pushes t t' pushed where
  tree := htree ▸ htree' ▸ h.tree
  function := hfunction
  level := hlevel
  diagnostics := hdiagnostics ▸ hdiagnostics' ▸ h.diagnostics
  log := hlog ▸ hlog' ▸ h.log
  made id hid := by
    have hid := h.made id hid
    unfold MadeBetween at hid ⊢
    rwa [← htree, ← htree']
  order := h.order

theorem Pushes.quiet {s s' : State} {pushed : List HostId} (h : Pushes s s' pushed)
    (hoisted : s'.hoisted = s.hoisted) : Hoists s s' pushed [] :=
  ⟨h, by rw [hoisted, List.append_nil], List.nil_sublist _, fun hne => absurd rfl hne⟩

theorem Pushes.apart {s s' t t' : State} {pushed : List HostId} (h : Pushes s s' pushed)
    (htree : s.tree = t.tree) (hlog : s.hoistLog = t.hoistLog)
    (hdiagnostics : s.diagnostics = t.diagnostics) (htree' : s'.tree = t'.tree)
    (hlog' : s'.hoistLog = t'.hoistLog) (hdiagnostics' : s'.diagnostics = t'.diagnostics)
    (hfunction : t'.function = t.function) (hlevel : t.levelLog <+: t'.levelLog)
    (hoisted : t'.hoisted = t.hoisted) : Hoists t t' pushed [] :=
  (h.within htree hlog hdiagnostics htree' hlog' hdiagnostics' hfunction hlevel).quiet hoisted

instance : Frame Recording where
  refl
    | .still, _, s => refl_of Settles s
    | .quiet, _, s => ⟨[], (Pushes.refl s).quiet rfl⟩
    | .additive, _, s => ⟨[], [], (Pushes.refl s).quiet rfl⟩
    | .steady, _, s => .refl s
  trans {care} _ _ _ _ h₁ h₂ := by
    cases care with
    | still => exact trans_of Settles h₁ h₂
    | quiet =>
      obtain ⟨pushed₁, h₁⟩ := h₁
      obtain ⟨pushed₂, h₂⟩ := h₂
      exact ⟨_, h₁.trans h₂⟩
    | additive =>
      obtain ⟨pushed₁, kept₁, h₁⟩ := h₁
      obtain ⟨pushed₂, kept₂, h₂⟩ := h₂
      exact ⟨_, _, h₁.trans h₂⟩
    | steady => exact Records.trans h₁ h₂
  still h := h
  quiet {_ _ _} h := ⟨[], (Pushes.of_settles h).quiet (Settles.toStays h).hoisted⟩
  additive := fun ⟨pushed, h⟩ => ⟨pushed, [], h⟩
  steady := fun ⟨pushed, kept, h⟩ => ⟨⟨pushed, h.toPushes⟩, fun hs => by
    rw [h.hoisted, not_imp_comm.mp h.inside hs, List.append_nil]⟩
  inScope {care} _ s s' kind h := by
    cases care with
    | still =>
      have h : Settles { s with scopes := s.scopes.push kind } s' := h
      exact .of_eq h.tree h.begins ((s.scopes.grows_push kind).trans h.scopes) rfl h.function
        h.frameName h.openAliases h.warnings h.hoisted h.hoistLog h.levelLog h.literals h.history
        h.ledger
    | quiet =>
      obtain ⟨pushed, h⟩ := h
      exact ⟨pushed, h.toPushes.apart rfl rfl rfl rfl rfl rfl h.function h.level
        (by simpa using h.hoisted)⟩
    | additive =>
      obtain ⟨pushed, kept, h⟩ := h
      exact ⟨pushed, kept, h.toPushes.within rfl rfl rfl rfl rfl rfl h.function h.level,
        h.hoisted, h.sublist, h.inside⟩
    | steady =>
      obtain ⟨pushed, hpushes⟩ := h.pushes
      exact ⟨⟨pushed, hpushes.within rfl rfl rfl rfl rfl rfl h.function hpushes.level⟩, h.outside⟩
  inFunction _ _ := fun ⟨⟨pushed, h⟩, _⟩ =>
    ⟨pushed, h.apart rfl rfl rfl rfl rfl rfl rfl h.level rfl⟩
  inFrame _ := fun ⟨pushed, h⟩ =>
    ⟨pushed, h.toPushes.apart rfl rfl rfl rfl rfl rfl h.function h.level
      (by simpa using h.hoisted)⟩
  atPackageLevel := fun ⟨⟨pushed, h⟩, _⟩ =>
    ⟨pushed, h.apart rfl rfl rfl rfl rfl rfl rfl List.prefix_rfl rfl⟩
  hoisting := fun ⟨⟨pushed, h⟩, _⟩ =>
    ⟨pushed, h.apart rfl rfl rfl rfl rfl rfl h.function h.level rfl⟩
  takeHoisted _ s :=
    ⟨⟨[], (Pushes.refl s).within rfl rfl rfl rfl rfl rfl rfl List.prefix_rfl⟩, fun _ => List.nil_sublist _⟩
  hoist {_ s s' id} h made inside := by
    have hs : Settles s s' := h
    have hlog : s'.hoistLog = s.hoistLog := hs.hoistLog
    have hlevel : s.levelLog <+: s'.levelLog ++ [id] := ⟨[id], by rw [hs.levelLog]⟩
    refine ⟨[id], [id], ⟨hs.tree, hs.function, hs.diagnostics, congrArg (· ++ [id]) hlog, hlevel,
      ?_, List.pairwise_singleton _ _⟩, congrArg (· ++ [id]) hs.hoisted, .refl _, fun _ => inside⟩
    intro other hother
    rw [List.mem_singleton.mp hother]
    exact made
  declareType {_ s s' _ _ _ _ _} _ := fun ⟨pushed, kept, h⟩ => by
    have htree := HostTree.grows_add s'.tree
    exact ⟨pushed, kept, ⟨h.tree.trans (htree _ _), h.function, h.diagnostics, h.log,
      h.level, fun id hid => (h.made id hid).mono (.refl _) (htree _ _), h.order⟩, h.hoisted, h.sublist,
      h.inside⟩
  noteLiteral _ s _ _ :=
    ⟨[], (Pushes.refl s).apart rfl rfl rfl rfl rfl rfl rfl List.prefix_rfl rfl⟩
  needAlias _ s _ _ _ :=
    ⟨[], [], (Pushes.refl s).apart rfl rfl rfl rfl rfl rfl rfl List.prefix_rfl rfl⟩
  openAlias _ := fun ⟨pushed, kept, h⟩ =>
    ⟨pushed, kept, h.toPushes.within rfl rfl rfl rfl rfl rfl h.function h.level, h.hoisted,
      h.sublist, h.inside⟩
  setAlias _ _ := fun ⟨pushed, kept, h⟩ =>
    ⟨pushed, kept, h.toPushes.within rfl rfl rfl rfl rfl rfl h.function h.level, h.hoisted,
      h.sublist, h.inside⟩

instance : Notes Recording where
  note {_ s s'} h := by
    have hpushes : Pushes s s' [] :=
      ⟨h.tree ▸ .refl _, h.function, h.diagnostics, by rw [h.hoistLog, List.append_nil],
        h.levelLog ▸ List.prefix_rfl, by simp, .nil⟩
    exact ⟨[], hpushes.quiet h.hoisted⟩

instance : Redefines Recording where
  define _ s _ _ := ⟨[], [], (Pushes.refl s).within rfl rfl rfl rfl rfl rfl rfl List.prefix_rfl,
    by simp, .refl _, fun hne => absurd rfl hne⟩

/-- That parts hoist what they have made, in that order. -/
abbrev recording : Regime := .ofFrame Recording

/-! ## Statements -/

variable {α : Type} {m : Lower α} {c : Context} {s s' : State} {a : α}

theorem Still.settles [h : Still recording m] (run : m c s = (.ok a, s')) : Settles s s' := by
  have hs : Settles s (m c s).2 := Keeps.run h c s
  rwa [run] at hs

theorem Steady.records [h : Steady recording m] (run : m c s = (.ok a, s')) : Records s s' := by
  have hs : Records s (m c s).2 := Keeps.run h c s
  rwa [run] at hs

theorem Additive.hoists [h : Additive recording m] (run : m c s = (.ok a, s')) :
    ∃ pushed kept, Hoists s s' pushed kept := by
  have hs : ∃ pushed kept, Hoists s (m c s).2 pushed kept := Keeps.run h c s
  rwa [run] at hs

theorem Quiet.hoists [h : Quiet recording m] (run : m c s = (.ok a, s')) :
    ∃ pushed, Hoists s s' pushed [] := by
  have hs : ∃ pushed, Hoists s (m c s).2 pushed [] := Keeps.run h c s
  rwa [run] at hs

/-- What a part hoists that is answered apart is some of what it has hoisted, in that order. -/
theorem hoisting_sublist [hm : Additive recording m] {hoisted : List HostId}
    (run : hoisting m c s = (.ok (hoisted, a), s')) :
    ∃ pushed, s'.hoistLog = s.hoistLog ++ pushed ∧ s'.hoisted = s.hoisted ∧
      hoisted.Sublist pushed := by
  obtain ⟨s₁, hrun, rfl, rfl⟩ := hoisting_ok run
  obtain ⟨pushed, kept, h⟩ := hm.hoists hrun
  refine ⟨pushed, h.log, rfl, ?_⟩
  rw [h.hoisted]
  exact h.sublist

/-- A statement becomes what is hoisted for it, in the order in which it has been hoisted, and at
most one statement after that. -/
theorem lowerStatement_sublist {walk : Walk} [walk.Keeps recording] {id : NodeId}
    {statements : List HostId} (run : lowerStatement walk id c s = (.ok statements, s')) :
    ∃ pushed kept node, s'.hoistLog = s.hoistLog ++ pushed ∧ s'.hoisted = s.hoisted ∧
      kept.Sublist pushed ∧ statements = kept ++ Option.toList node := by
  unfold lowerStatement at run
  obtain ⟨⟨hoisted, node⟩, _, hrun, hlist⟩ := bind_ok.mp run
  obtain ⟨rfl, rfl⟩ := pure_ok.mp hlist
  have hwalk : Additive recording (walk.statement id) := Walk.Keeps.statement id
  obtain ⟨pushed, hlog, hhoisted, hsublist⟩ := hoisting_sublist hrun
  exact ⟨pushed, hoisted, node, hlog, hhoisted, hsublist, rfl⟩

end GoLowering.Lowering
