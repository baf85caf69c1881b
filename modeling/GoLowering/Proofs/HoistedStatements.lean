import GoLowering.Proofs.BalancedDeclarations
import GoLowering.Proofs.EntryFunction

/-!
# Hoisted statements

A statement that is hoisted while a unit is lowered stands exactly once in the statement lists of
the output, and below just those function literals that it has been hoisted in; when the lowering
ends nothing is left hoisted (`hoisted_once`). Its place is found by balancing the books of the
phases one after the other, from a state in which nothing has been hoisted.

What is hoisted is put at three kinds of places: before a statement, before what the header of a
for-phrase guards, and before what a lambda returns. At each of them it stands in the order in which
it has been hoisted (`Walk.KeepsOrder`).
-/

namespace GoLowering.Lowering

open Surface

/-! ## Order -/

/-- What is hoisted comes first where it is put, in the order in which it has been hoisted. -/
structure Walk.KeepsOrder (walk : Walk) : Prop where
  statement ⦃c : Context⦄ ⦃s : State⦄ ⦃id : NodeId⦄ ⦃statements : List HostId⦄ ⦃s' : State⦄ :
    lowerStatement walk id c s = (.ok statements, s') →
      ∃ pushed kept node, s'.hoistLog = s.hoistLog ++ pushed ∧ kept.Sublist pushed ∧
        statements = kept ++ Option.toList node
  phrase ⦃c : Context⦄ ⦃s : State⦄ ⦃clause : ForClause⦄ ⦃body : NodeId⦄
    ⦃statements : List HostId⦄ ⦃s' : State⦄ :
    lowerPhraseBody walk clause body c s = (.ok statements, s') →
      ∃ pushed later kept rest, s'.hoistLog = s.hoistLog ++ pushed ++ later ∧
        kept.Sublist pushed ∧ statements = kept ++ rest
  lambda ⦃c : Context⦄ ⦃s : State⦄ ⦃values : List NodeId⦄ ⦃results : List TypeId⦄ ⦃span : Span⦄
    ⦃body : HostId⦄ ⦃s' : State⦄ :
    lowerLambdaExpressions walk values results span c s = (.ok body, s') → results ≠ [] →
      s.hoisted = [] → ∃ pushed kept node, s'.hoistLog = s.hoistLog ++ pushed ∧
        kept.Sublist pushed ∧ s'.tree.kind body = .block (kept ++ [node])

section

variable {walk : Walk} [walk.Keeps recording] {c : Context} {s s' : State}

theorem lowerPhraseBody_sublist {clause : ForClause} {body : NodeId} {statements : List HostId}
    (run : lowerPhraseBody walk clause body c s = (.ok statements, s')) :
    ∃ pushed later kept rest, s'.hoistLog = s.hoistLog ++ pushed ++ later ∧
      kept.Sublist pushed ∧ statements = kept ++ rest := by
  unfold lowerPhraseBody at run
  obtain ⟨⟨hoisted, init, guard⟩, s₁, hheader, hrest⟩ := bind_ok.mp run
  obtain ⟨pushed, hlog, -, hsublist⟩ := hoisting_sublist hheader
  cases guard with
  | none =>
    obtain ⟨nodes, s₂, hnodes, hlist⟩ := bind_ok.mp hrest
    obtain ⟨rfl, rfl⟩ := pure_ok.mp hlist
    obtain ⟨later, hlater⟩ := (Steady.records hnodes).pushes
    exact ⟨pushed, later, hoisted, init.toList ++ nodes, by rw [hlater.log, hlog], hsublist,
      List.append_assoc _ _ _⟩
  | some condition =>
    obtain ⟨thenBranch, s₂, hthen, hrest⟩ := bind_ok.mp hrest
    obtain ⟨span, s₃, hspan, hrest⟩ := bind_ok.mp hrest
    obtain ⟨node, s₄, hnode, hlist⟩ := bind_ok.mp hrest
    obtain ⟨rfl, rfl⟩ := pure_ok.mp hlist
    obtain ⟨later, hlater⟩ := (Steady.records hthen).pushes
    refine ⟨pushed, later, hoisted, [node], ?_, hsublist, rfl⟩
    rw [(Still.settles hnode).hoistLog, (Still.settles hspan).hoistLog, hlater.log, hlog]

omit [walk.Keeps recording] in
/-- What a lambda returns is put after what has been hoisted for it. -/
theorem returnBlock_ok {ids hoisted : List HostId} {span : Span} {body : HostId}
    (run : (do blockNode (hoisted ++ [← place (.ret ids) span])) c s = (.ok body, s')) :
    s'.hoistLog = s.hoistLog ∧ ∃ node, s'.tree.kind body = .block (hoisted ++ [node]) := by
  obtain ⟨node, s₁, hnode, hblock⟩ := bind_ok.mp run
  have hmade : Made s₁ s' (.block (hoisted ++ [node])) body := addNode_ok hblock
  exact ⟨(Still.settles hblock).hoistLog.trans (Still.settles hnode).hoistLog, node, hmade.kind⟩

theorem lowerLambdaExpressions_sublist {values : List NodeId} {results : List TypeId} {span : Span}
    {body : HostId} (run : lowerLambdaExpressions walk values results span c s = (.ok body, s'))
    (hresults : results ≠ []) (hs : s.hoisted = []) :
    ∃ pushed kept node, s'.hoistLog = s.hoistLog ++ pushed ∧ kept.Sublist pushed ∧
      s'.tree.kind body = .block (kept ++ [node]) := by
  unfold lowerLambdaExpressions at run
  rw [if_neg (by simpa using hresults)] at run
  obtain ⟨ids, s₁, hids, hrest⟩ := bind_ok.mp run
  obtain ⟨hoisted, s₂, htake, hrest⟩ := bind_ok.mp hrest
  obtain ⟨hhoisted, rfl⟩ := Prod.mk.inj htake
  obtain rfl := Except.ok.inj hhoisted
  have hvalues : Additive recording (lowerLambdaValues walk values results span) := inferInstance
  obtain ⟨pushed, kept, h⟩ := hvalues.hoists hids
  have hkept : s₁.hoisted = kept := by rw [h.hoisted, hs, List.nil_append]
  have returns (span : Span) {s₂ : State}
      (hrun : (do blockNode (s₁.hoisted ++ [← place (.ret ids) span])) c s₂ = (.ok body, s'))
      (hlog : s₂.hoistLog = s₁.hoistLog) :
      ∃ pushed kept node, s'.hoistLog = s.hoistLog ++ pushed ∧ kept.Sublist pushed ∧
        s'.tree.kind body = .block (kept ++ [node]) := by
    obtain ⟨hlog', node, hkind⟩ := returnBlock_ok hrun
    exact ⟨pushed, kept, node, by rw [hlog', hlog, h.log], h.sublist, hkept ▸ hkind⟩
  cases hhead : values.head? with
  | none =>
    rw [hhead] at hrest
    exact returns span hrest rfl
  | some first =>
    cases hlast : values.getLast? with
    | none =>
      rw [hhead, hlast] at hrest
      exact returns span hrest rfl
    | some last =>
      rw [hhead, hlast] at hrest
      obtain ⟨head, s₂, hspan, hrest⟩ := bind_ok.mp hrest
      obtain ⟨tail, s₃, hspan', hrest⟩ := bind_ok.mp hrest
      exact returns (head.merge tail) hrest
        ((Still.settles hspan').hoistLog.trans (Still.settles hspan).hoistLog)

end

theorem keepsOrder (walk : Walk) [walk.Keeps recording] : walk.KeepsOrder where
  statement _ _ _ _ _ run := by
    obtain ⟨pushed, kept, node, hlog, -, hsublist, hlist⟩ := lowerStatement_sublist run
    exact ⟨pushed, kept, node, hlog, hsublist, hlist⟩
  phrase _ _ _ _ _ _ := lowerPhraseBody_sublist
  lambda _ _ _ _ _ _ _ := lowerLambdaExpressions_sublist

/-! ## The books of all phases -/

section

variable (w : Watch) {c : Context} {s s' : State} {since : Moment}

theorem balances_lowerBeforeEntry (hw : w.level) (depth : Nat) (roots : List NodeId) :
    w.atLarge.Balances 0 (lowerBeforeEntry (walkWithin depth) roots) (fun _ => 0) := by
  obtain ⟨hwalk, hvalue⟩ := balanced_walkWithin w hw depth
  unfold lowerBeforeEntry
  refine .pass (balances_collect roots) (fun _ => ?_)
  refine .pass (balances_forEachRoot (balances_lowerTypeRoot w) roots) (fun _ => ?_)
  refine .pass (balances_lowerHeads w roots []).atLarge (fun heads => ?_)
  refine .pass (balances_forEachRoot (fun root => ?_) roots) (fun _ => ?_)
  · exact (balances_lowerValueRoot w hvalue root).atLarge
  · exact balances_forEachRoot (balances_lowerFunctionRoot w heads) roots

theorem values_setEntry (d : Declaration) (id : HostId) (hentry : s.outline.entry = none) :
    w.values ({ s with outline := s.outline.setEntry d id } : State).output =
      w.value id + w.values s.output := by
  simp only [State.output, Outline.setEntry, Outline.typeOutput, Outline.constantOutput,
    Outline.functionOutput, hentry, Option.toList_some, Option.toList_none, Watch.values_append,
    Watch.values_cons, Watch.values_nil]
  abel

theorem balances_makeEntry (walk : Walk) [walk.Balanced w] (c : Context)
    (statements : List NodeId) (origin : Span) :
    w.Balances 0 (makeEntry walk c statements origin) w.value :=
  .wholly (balances_lowerStatements w statements).inQuietFunction.inFrame (fun nodes =>
    .wholly (.scaffolding (by simp)) (fun body => .placing (by simp)))

/-- The entry function is put out in a place that has been empty. -/
theorem books_lowerEntryPhase (hw : w.level) {depth : Nat} (hentry : s.outline.entry = none)
    (hrun : lowerEntryPhase (walkWithin depth) c s = (.ok (), s')) (ho : s'.Before w.final) :
    s.Before w.final ∧ (w.atLarge.Books since 0 s → w.atLarge.Books since 0 s') := by
  obtain ⟨hwalk, -⟩ := balanced_walkWithin w hw depth
  obtain ⟨_, _, hget, hrun⟩ := bind_ok.mp hrun
  obtain ⟨hstate, rfl⟩ := Prod.mk.inj hget
  obtain rfl := Except.ok.inj hstate
  obtain ⟨_, _, hread, hrun⟩ := bind_ok.mp hrun
  obtain ⟨-, rfl⟩ := Prod.mk.inj hread
  split at hrun
  · obtain ⟨origin, id, s₁, hmake, rfl⟩ := putsEntry_lowerEntry (reporting_ok hrun ho.clean)
    have hs₁ : s₁.Before w.final := ho.congr rfl rfl rfl
    have hmakes :=
      (balances_makeEntry w (walkWithin depth) c s.outline.entryStatements origin).atLarge
    refine ⟨hmakes.before hmake hs₁, fun hb => ?_⟩
    have hb₁ := hmakes.settled hmake hs₁ since 0 hb
    have hnone : s₁.outline.entry = none := by
      rw [(filled_of_ok hmake hs₁.clean).outline_eq]
      exact hentry
    refine ⟨hb₁.logged, hb₁.count.trans ?_, fun hlevel => Bool.noConfusion hlevel, hb₁.literals⟩
    rw [values_setEntry w.atLarge _ _ hnone]
    simp only [Watch.value_atLarge]
    abel
  · obtain ⟨-, rfl⟩ := pure_ok.mp hrun
    exact ⟨ho, id⟩

end

/-! ## All hoisted statements -/

/-- No statement is hoisted twice, and when the lowering ends nothing is left hoisted. -/
theorem nodup_hoistLog (c : Context) (types : TypeTable) :
    (State.final c types).hoistLog.Nodup ∧ (State.final c types).hoisted = [] := by
  have hlowering : Additive recording
      (lowerDeclarations (walkWithin (depthBound c.unit)) c.unit.roots) := inferInstance
  obtain ⟨pushed, kept, h⟩ : ∃ pushed kept,
      Hoists (.initial c.unit types) (State.final c types) pushed kept :=
    Keeps.run hlowering c (.initial c.unit types)
  have hnone : kept = [] := by
    by_contra hkept
    obtain ⟨results, hfunction, -⟩ := h.inside hkept
    cases hfunction
  refine ⟨?_, by rw [h.hoisted, hnone]; rfl⟩
  rw [h.log]
  exact h.order.imp (fun hlt he => absurd (congrArg HostId.index he) (Nat.ne_of_lt hlt))

theorem books_final {types : TypeTable} {out : LoweredUnit} (w : Watch) (hw : w.level)
    (hfinal : w.final = State.final c types)
    (h : lowerUnitWith c.unit c.sources ⟨types, c.env⟩ c.settings c.registry = .ok out) :
    ∃ since, w.Books since 0 (State.final c types) := by
  obtain ⟨hbefore, hwaiting, hentry⟩ := run_final h
  have hinitial : w.atLarge.Books ⟨0, 0⟩ (0 + 0) (.initial c.unit types) :=
    ⟨by simp [State.initial], by simp [State.initial, State.output]; rfl,
      fun hlevel => Bool.noConfusion hlevel, by simp [State.initial]⟩
  obtain ⟨ho, hsettled⟩ :=
    books_lowerEntryPhase w hw hwaiting.entry hentry (hfinal ▸ State.Before.refl _)
  have hphases := balances_lowerBeforeEntry w hw (depthBound c.unit) c.unit.roots
  exact (hsettled ((hphases.settled hbefore ho _ _ hinitial).congr (add_zero 0))).now

/-- All nodes that a unit puts out. -/
theorem output_ofState (c : Context) (s : State) :
    (LoweredUnit.ofState c s).file.typeDecls ++ (LoweredUnit.ofState c s).file.valueDecls ++
      (LoweredUnit.ofState c s).file.functionDecls = s.output := by
  unfold LoweredUnit.ofState
  dsimp only
  split <;> rfl

/-- `func g() (int, error) { return g() }` and
`var f = func() (int, error) { return g()?, nil }`. -/
def hoistingSample : Context :=
  .sample
    [.type (.named none "int"), .type (.named none "error"),
      .type (.func [] [⟨none, ⟨0⟩⟩, ⟨none, ⟨1⟩⟩] false), .expr (.identifier "g"),
      .expr (.call ⟨3⟩ [] false), .stmt (.ret [⟨4⟩]), .stmt (.block [⟨5⟩]),
      .stmt (.function ⟨none, "g", ⟨2⟩, some ⟨6⟩, none⟩), .expr (.errorWrap ⟨4⟩ .propagate),
      .expr (.identifier "nil"), .stmt (.ret [⟨8⟩, ⟨9⟩]), .stmt (.block [⟨10⟩]),
      .expr (.functionLiteral ⟨2⟩ ⟨11⟩), .stmt (.varDecl ⟨["f"], none, [⟨12⟩], none⟩)]
    [⟨7⟩, ⟨13⟩]

end GoLowering.Lowering
