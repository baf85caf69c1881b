import GoLowering.Proofs.ComprehensionResults
import GoLowering.Proofs.FrameDeclarations
import GoLowering.Proofs.HeaderOrder
import GoLowering.Proofs.HostAssignability
import GoLowering.Proofs.KnownValues
import GoLowering.Proofs.LiteralElements
import GoLowering.Proofs.Outcomes
import GoLowering.Proofs.Records

/-!
# Comprehensions as loops

A comprehension that is lowered becomes the call of a function literal with a loop for each of its
clauses, with the parts of the clause in their places (`lowerComprehension_ok`): nothing is hoisted
out of it, since the function returns no error. What the call gives is a matter of the combinations
of elements that pass the guards (`comprehension_results`).
-/

namespace GoLowering.Lowering

open Surface

variable {α β : Type} {walk : Walk} {c : Context} {s s₁ s' start final : State}

/-- The nodes and the types of the first state are also those of the second one. -/
structure State.Precedes (s s' : State) : Prop where
  tree : s.tree.Grows s'.tree
  types : s.types.Grows s'.types

theorem State.Precedes.refl (s : State) : s.Precedes s := ⟨.refl _, .refl _⟩

theorem State.Precedes.trans (h₁ : s.Precedes s₁) (h₂ : s₁.Precedes s') : s.Precedes s' :=
  ⟨h₁.tree.trans h₂.tree, h₁.types.trans h₂.types⟩

theorem precedes_run {m : Lower α} {a : α} [hm : Steady extension m]
    (hrun : m c s = (.ok a, s')) : s.Precedes s' := by
  have hs := hm.run c s
  rw [hrun] at hs
  exact ⟨hs.tree, hs.types⟩

/-- Nothing is hoisted in a function that returns no error. -/
structure State.Unhoisted (s : State) : Prop where
  hoisted : s.hoisted = []
  plain : ¬s.ReturnsError

theorem State.Unhoisted.run {m : Lower α} {a : α} [Steady recording m] (h : s.Unhoisted)
    (hrun : m c s = (.ok a, s')) : s'.Unhoisted := by
  have hs := Steady.records hrun
  exact ⟨List.sublist_nil.mp (h.hoisted ▸ hs.outside h.plain), mt hs.returnsError.mp h.plain⟩

theorem State.Unhoisted.takeHoisted {hoisted : List HostId} (h : s.Unhoisted)
    (hrun : takeHoisted c s = (.ok hoisted, s')) : hoisted = [] := by
  obtain ⟨hhoisted, -⟩ := Prod.mk.inj hrun
  exact (Except.ok.inj hhoisted).symm.trans h.hoisted

theorem kind_addNode {kind : HostKind} {origin : Option Span} {id : HostId}
    (hrun : addNode kind origin c s = (.ok id, s')) (hfinal : s'.Precedes final) :
    final.tree.kind id = kind :=
  (addNode_ok hrun).kind_of_grows hfinal.tree

/-! ## What is yielded -/

/-- A value of a comprehension, lowered for a type. -/
def YieldsValue (walk : Walk) (c : Context) (start final : State) (value : NodeId)
    (expected : Option TypeId) (id : HostId) (type : TypeId) : Prop :=
  ∃ s s', start.Precedes s ∧ lowerYieldValue walk value expected c s = (.ok (id, type), s') ∧
    s'.Precedes final

namespace ComprehensionFrame

/-- The type that is expected of the elements of a list. -/
def elementType? (frame : ComprehensionFrame) (types : TypeTable) : Option TypeId :=
  match types.shape <$> frame.expected with
  | some (.slice element) => some element
  | _ => none

/-- The types that are expected of the keys and the values of a map. -/
def entryTypes? (frame : ComprehensionFrame) (types : TypeTable) :
    Option TypeId × Option TypeId :=
  match types.shape <$> frame.expected with
  | some (.map key value) => (some key, some value)
  | _ => (none, none)

end ComprehensionFrame

/-- What a comprehension makes of its combinations, lowered. -/
inductive LoweredYield (walk : Walk) (c : Context) (start final : State)
    (frame : ComprehensionFrame) (yielded : Yielded) : Yield → YieldForm → Prop
  | list {value : NodeId} {id : HostId} {u : State} (hu : start.Precedes u)
      (h : YieldsValue walk c start final value (frame.elementType? u.types) id yielded.value) :
      LoweredYield walk c start final frame yielded (.list value) (.list id)
  | map {key value : NodeId} {keyId id : HostId} {u : State} (hu : start.Precedes u)
      (hkey : YieldsValue walk c start final key (frame.entryTypes? u.types).1 keyId yielded.key)
      (hvalue :
        YieldsValue walk c start final value (frame.entryTypes? u.types).2 id yielded.value) :
      LoweredYield walk c start final frame yielded (.map key value) (.map keyId id)
  | existence : LoweredYield walk c start final frame yielded .existence .existence
  | select {value : NodeId} {id : HostId}
      (h : YieldsValue walk c start final value frame.expected id yielded.value) :
      LoweredYield walk c start final frame yielded (.select value)
        (.select id yielded.value frame.withOk)

theorem YieldsValue.mono {value : NodeId} {expected : Option TypeId} {id : HostId} {type : TypeId}
    (hs : start.Precedes s) (h : YieldsValue walk c s final value expected id type) :
    YieldsValue walk c start final value expected id type := by
  obtain ⟨u, u', hu, hrun⟩ := h
  exact ⟨u, u', hs.trans hu, hrun⟩

theorem LoweredYield.mono {frame : ComprehensionFrame} {yielded : Yielded} {yields : Yield}
    {form : YieldForm} (hs : start.Precedes s)
    (h : LoweredYield walk c s final frame yielded yields form) :
    LoweredYield walk c start final frame yielded yields form := by
  cases h with
  | list hu h => exact .list (hs.trans hu) (h.mono hs)
  | map hu hkey hvalue => exact .map (hs.trans hu) (hkey.mono hs) (hvalue.mono hs)
  | existence => exact .existence
  | select h => exact .select (h.mono hs)

/-- What a selection says about having found something. -/
theorem found_ok {f : List HostId → Lower β} {withOk : Bool} {b : β}
    (hrun : (if withOk then do
        let found ← literalNode "true"
        let found ← pure [found]
        f found
      else do
        let found ← pure []
        f found) c s = (.ok b, s')) :
    ∃ found s₁, s.Precedes s₁ ∧ (∀ {u : State}, s₁.Precedes u →
      if withOk then ∃ ok, found = [ok] ∧ u.tree.kind ok = .literal "true" else found = []) ∧
        f found c s₁ = (.ok b, s') := by
  cases withOk with
  | false => exact ⟨[], s, .refl s, fun _ => rfl, hrun⟩
  | true =>
    obtain ⟨ok, s₁, hok, hrun⟩ := bind_ok.mp hrun
    exact ⟨[ok], s₁, precedes_run hok, fun hu => ⟨ok, rfl, kind_addNode hok hu⟩, hrun⟩

theorem lowerYieldStatement_ok [walk.Keeps extension] {frame : ComprehensionFrame} {id : HostId}
    {yielded : Yielded}
    (hrun : lowerYieldStatement walk frame c s = (.ok (id, yielded), s'))
    (hstart : start.Precedes s) (hfinal : s'.Precedes final) :
    ∃ form, LoweredYield walk c start final frame yielded frame.yields form ∧
      final.tree.IsYield form id := by
  unfold lowerYieldStatement at hrun
  obtain ⟨_, _, ⟨⟩, hrun⟩ := bind_ok.mp hrun
  cases hyields : frame.yields with
  | list value =>
    simp only [hyields] at hrun
    obtain ⟨⟨valueId, type⟩, s₁, hvalue, hrun⟩ := bind_ok.mp hrun
    obtain ⟨append, s₂, happend, hrun⟩ := bind_ok.mp hrun
    obtain ⟨result, s₃, hresult, hrun⟩ := bind_ok.mp hrun
    obtain ⟨call, s₄, hcall, hrun⟩ := bind_ok.mp hrun
    obtain ⟨target, s₅, htarget, hrun⟩ := bind_ok.mp hrun
    obtain ⟨statement, s₆, hstatement, hrun⟩ := bind_ok.mp hrun
    obtain ⟨hpair, rfl⟩ := pure_ok.mp hrun
    obtain ⟨rfl, rfl⟩ := Prod.mk.inj hpair
    have h₅ := (precedes_run hstatement).trans hfinal
    have h₄ := (precedes_run htarget).trans h₅
    have h₃ := (precedes_run hcall).trans h₄
    have h₂ := (precedes_run hresult).trans h₃
    have h₁ := (precedes_run happend).trans h₂
    exact ⟨.list valueId, .list hstart ⟨s, s₁, hstart, hvalue, h₁⟩, target, call, append, result,
      kind_addNode hstatement hfinal, kind_addNode htarget h₅, kind_addNode hcall h₄,
      kind_addNode happend h₂, kind_addNode hresult h₃⟩
  | map key value =>
    simp only [hyields] at hrun
    obtain ⟨⟨keyId, keyType⟩, s₁, hkey, hrun⟩ := bind_ok.mp hrun
    obtain ⟨⟨valueId, type⟩, s₂, hvalue, hrun⟩ := bind_ok.mp hrun
    obtain ⟨result, s₃, hresult, hrun⟩ := bind_ok.mp hrun
    obtain ⟨slot, s₄, hslot, hrun⟩ := bind_ok.mp hrun
    obtain ⟨statement, s₅, hstatement, hrun⟩ := bind_ok.mp hrun
    obtain ⟨hpair, rfl⟩ := pure_ok.mp hrun
    obtain ⟨rfl, rfl⟩ := Prod.mk.inj hpair
    have h₄ := (precedes_run hstatement).trans hfinal
    have h₃ := (precedes_run hslot).trans h₄
    have h₂ := (precedes_run hresult).trans h₃
    have h₁ := (precedes_run hvalue).trans h₂
    exact ⟨.map keyId valueId, .map hstart ⟨s, s₁, hstart, hkey, h₁⟩
      ⟨s₁, s₂, hstart.trans (precedes_run hkey), hvalue, h₂⟩, slot, result,
      kind_addNode hstatement hfinal, kind_addNode hslot h₄, kind_addNode hresult h₃⟩
  | existence =>
    simp only [hyields] at hrun
    obtain ⟨found, s₁, hfound, hrun⟩ := bind_ok.mp hrun
    obtain ⟨statement, s₂, hstatement, hrun⟩ := bind_ok.mp hrun
    obtain ⟨hpair, rfl⟩ := pure_ok.mp hrun
    obtain ⟨rfl, rfl⟩ := Prod.mk.inj hpair
    have h₁ := (precedes_run hstatement).trans hfinal
    exact ⟨.existence, .existence, found, kind_addNode hstatement hfinal,
      kind_addNode hfound h₁⟩
  | select value =>
    simp only [hyields] at hrun
    obtain ⟨⟨valueId, type⟩, s₁, hvalue, hrun⟩ := bind_ok.mp hrun
    obtain ⟨found, s₂, hs₂, hfound, hrun⟩ := found_ok hrun
    obtain ⟨statement, s₃, hstatement, hrun⟩ := bind_ok.mp hrun
    obtain ⟨hpair, rfl⟩ := pure_ok.mp hrun
    obtain ⟨rfl, rfl⟩ := Prod.mk.inj hpair
    have h₂ := (precedes_run hstatement).trans hfinal
    exact ⟨.select valueId type frame.withOk, .select ⟨s, s₁, hstart, hvalue, hs₂.trans h₂⟩, found,
      kind_addNode hstatement hfinal, hfound h₂⟩

/-! ## Loops -/

/-- Whether a type is behind its names a slice, an array or a string. -/
def IsSequence : Ty → Prop
  | .slice _ | .array _ _ => True
  | .basic kind => kind = .string ∨ kind = .untypedString
  | _ => False

/-- A clause of a comprehension, lowered. -/
structure LoweredClause (walk : Walk) (c : Context) (start final : State) (clause : ForClause)
    (form : LoopClause) : Prop where
  key : form.key = clause.key
  item : form.item = clause.value
  source : ∃ s s₁ s₂ operand type, start.Precedes s ∧
    walk.expr clause.source .none c s = (.ok operand, s₁) ∧
    defaultValue operand c s₁ = (.ok (form.source, type), s₂) ∧
    s₂.types.shape type = form.shape ∧ s₂.Precedes final
  init : ∃ s s₁ init, start.Precedes s ∧ clause.init.mapM walk.statement c s = (.ok init, s₁) ∧
    init.join = form.init ∧ s₁.Precedes final
  guard : ∃ s s₁, start.Precedes s ∧
    clause.guard.mapM (lowerCondition walk) c s = (.ok form.guard, s₁) ∧ s₁.Precedes final

theorem LoweredClause.mono {clause : ForClause} {form : LoopClause} (hs : start.Precedes s)
    (h : LoweredClause walk c s final clause form) :
    LoweredClause walk c start final clause form := by
  obtain ⟨hkey, hitem, ⟨u, u₁, u₂, operand, type, hu, hsource⟩, ⟨v, v₁, init, hv, hinit⟩,
    w, w₁, hw, hguard⟩ := h
  exact ⟨hkey, hitem, ⟨u, u₁, u₂, operand, type, hs.trans hu, hsource⟩,
    ⟨v, v₁, init, hs.trans hv, hinit⟩, w, w₁, hs.trans hw, hguard⟩

/-- What can be said to be a slice, an array or a string is ranged over by the host itself. -/
theorem planRange_sequence {type : TypeId} {span : Span} {plan : RangePlan}
    (hrun : planRange type span c s = (.ok plan, s')) (h : IsSequence (s.types.shape type)) :
    ∃ key value, plan = .native key value := by
  obtain ⟨key, value, htypes⟩ : ∃ key value, s.types.rangeTypes? type = some (key, value) := by
    unfold TypeTable.rangeTypes?
    unfold TypeTable.shape IsSequence at h
    dsimp only
    split at h
    · rename_i hget
      exact ⟨_, _, by rw [hget]⟩
    · rename_i hget
      exact ⟨_, _, by rw [hget]⟩
    · rename_i kind hget
      rcases h with rfl | rfl
      · exact ⟨_, _, by rw [hget]; rfl⟩
      · exact ⟨_, _, by rw [hget]; rfl⟩
    · exact h.elim
  unfold planRange at hrun
  rw [run_read, run_get, rangePlan?, htypes] at hrun
  obtain ⟨rfl, -⟩ := pure_ok.mp hrun
  exact ⟨key, value, rfl⟩

theorem nameIfAny_identNode {name : String} {node : HostId}
    (hrun : identNode name c s = (.ok node, s')) (hfinal : s'.Precedes final) :
    final.tree.nameIfAny (some node) = name := by
  rw [HostTree.nameIfAny, Option.bind_some, HostTree.name?, kind_addNode hrun hfinal]
  rfl

theorem nameIfAny_mapM {name : Option String} {node : Option HostId}
    (hrun : name.mapM identNode c s = (.ok node, s')) (hfinal : s'.Precedes final) :
    final.tree.nameIfAny node = name.getD Names.blank := by
  cases name with
  | none =>
    obtain ⟨rfl, -⟩ := pure_ok.mp hrun
    rfl
  | some name =>
    rw [Option.mapM_some] at hrun
    obtain ⟨node, hnode, rfl⟩ := map_ok.mp hrun
    exact nameIfAny_identNode hnode hfinal

theorem emitNative_ok {source : HostId} {key value : Option String} {body : List HostId}
    {span : Span} {loop : HostId}
    (hrun : emitNative source key value body span c s = (.ok loop, s'))
    (hfinal : s'.Precedes final) :
    ∃ keyNode valueNode block, final.tree.kind loop = .range keyNode valueNode true source block ∧
      final.tree.nameIfAny keyNode = key.getD Names.blank ∧
      final.tree.nameIfAny valueNode = value.getD Names.blank ∧
      final.tree.kind block = .block body := by
  obtain ⟨keyNode, s₁, hkey, hrun⟩ := bind_ok.mp hrun
  obtain ⟨valueNode, s₂, hvalue, hrun⟩ := bind_ok.mp hrun
  obtain ⟨named, s₃, hs₃, hnamed, hrun⟩ : ∃ named s₃, s₂.Precedes s₃ ∧
      (s₃.Precedes final → final.tree.nameIfAny named = key.getD Names.blank) ∧
      (do
        let body ← blockNode body
        place (.range named valueNode true source body) span) c s₃ = (.ok loop, s') := by
    split at hrun
    · obtain ⟨named, s₃, hblank, hrun⟩ := bind_ok.mp hrun
      obtain ⟨node, hnode, rfl⟩ := map_ok.mp hblank
      refine ⟨_, s₃, precedes_run hblank, fun hs₃ => ?_, hrun⟩
      rw [nameIfAny_identNode hnode hs₃]
      cases key with
      | none => rfl
      | some name =>
        rw [Option.mapM_some] at hkey
        obtain ⟨_, -, hsome⟩ := map_ok.mp hkey
        cases hsome
    · exact ⟨keyNode, s₂, .refl _, fun hs₂ => nameIfAny_mapM hkey
        ((precedes_run hvalue).trans hs₂), hrun⟩
  obtain ⟨block, s₄, hblock, hloop⟩ := bind_ok.mp hrun
  have h₄ := (precedes_run hloop).trans hfinal
  have h₃ := (precedes_run hblock).trans h₄
  exact ⟨named, valueNode, block, kind_addNode hloop hfinal, hnamed h₃,
    nameIfAny_mapM hvalue (hs₃.trans h₃), kind_addNode hblock h₄⟩

section

variable [walk.Keeps recording]

/-- What stands in the body of the loop of a clause. -/
theorem lowerClauseBody_ok {clause : ForClause} {inner : Lower (List HostId × Yielded)}
    {statements : List HostId} {yielded : Yielded} [Steady recording inner]
    (h : s.Unhoisted)
    (hrun : lowerClauseBody walk clause inner c s = (.ok (statements, yielded), s'))
    (hfinal : s'.Precedes final) :
    ∃ init s₁ guard s₂ s₃ within s₄, clause.init.mapM walk.statement c s = (.ok init, s₁) ∧
      clause.guard.mapM (lowerCondition walk) c s₁ = (.ok guard, s₂) ∧ s₂.Precedes s₃ ∧
      s₃.Unhoisted ∧ inner c s₃ = (.ok (within, yielded), s₄) ∧ s₄.Precedes final ∧
      ∀ form : LoopClause, form.init = init.join → form.guard = guard →
        final.tree.IsBody form within statements := by
  unfold lowerClauseBody at hrun
  obtain ⟨init, s₁, hinit, hrun⟩ := bind_ok.mp hrun
  obtain ⟨guard, s₂, hguard, hrun⟩ := bind_ok.mp hrun
  obtain ⟨hoisted, s₃, htake, hrun⟩ := bind_ok.mp hrun
  obtain ⟨⟨within, yielded'⟩, s₄, hinner, hrun⟩ := bind_ok.mp hrun
  have hs₂ : s₂.Unhoisted := (h.run hinit).run hguard
  obtain rfl := hs₂.takeHoisted htake
  refine ⟨init, s₁, guard, s₂, s₃, within, s₄, hinit, hguard, precedes_run htake, hs₂.run htake, ?_⟩
  cases guard with
  | none =>
    obtain ⟨hpair, rfl⟩ := pure_ok.mp hrun
    obtain ⟨rfl, rfl⟩ := Prod.mk.inj hpair
    refine ⟨hinner, hfinal, fun form hform hguard => ?_⟩
    rw [HostTree.IsBody, hguard, hform]
    rfl
  | some condition =>
    obtain ⟨thenBranch, s₅, hthen, hrun⟩ := bind_ok.mp hrun
    obtain ⟨guarded, s₆, hguarded, hrun⟩ := bind_ok.mp hrun
    obtain ⟨hpair, rfl⟩ := pure_ok.mp hrun
    obtain ⟨rfl, rfl⟩ := Prod.mk.inj hpair
    have h₅ := (precedes_run hguarded).trans hfinal
    refine ⟨hinner, (precedes_run hthen).trans h₅, fun form hform hguard => ?_⟩
    rw [HostTree.IsBody, hguard, hform]
    exact ⟨guarded, thenBranch, rfl, kind_addNode hguarded hfinal, kind_addNode hthen h₅⟩

/-- The loop that a clause becomes, around what the clauses after it become. -/
theorem lowerClauses_cons_ok [walk.Keeps extension] {frame : ComprehensionFrame}
    {clause : ForClause} {rest : List ForClause} {statements : List HostId} {yielded : Yielded}
    (h : s.Unhoisted)
    (hrun : lowerClauses walk frame (clause :: rest) c s = (.ok (statements, yielded), s'))
    (hfinal : s'.Precedes final) :
    ∃ form u within u', LoweredClause walk c s final clause form ∧ s.Precedes u ∧ u.Unhoisted ∧
      lowerClauses walk frame rest c u = (.ok (within, yielded), u') ∧ u'.Precedes final ∧
      (IsSequence form.shape → ∀ {innermost forms}, final.tree.IsNest innermost forms within →
        final.tree.IsNest innermost (form :: forms) statements) := by
  unfold lowerClauses at hrun
  obtain ⟨source, s₁, hsource, hrun⟩ := bind_ok.mp hrun
  obtain ⟨⟨sourceId, sourceType⟩, s₂, hdefault, hrun⟩ := bind_ok.mp hrun
  obtain ⟨plan, s₃, hplan, hrun⟩ := bind_ok.mp hrun
  split at hrun
  · exact absurd hrun Fails.fails
  obtain ⟨hoisted, s₄, htake, hrun⟩ := bind_ok.mp hrun
  obtain ⟨⟨body, yielded'⟩, s₅, hscope, hrun⟩ := bind_ok.mp hrun
  obtain ⟨loop, s₆, hloop, hrun⟩ := bind_ok.mp hrun
  obtain ⟨hpair, rfl⟩ := pure_ok.mp hrun
  obtain ⟨rfl, rfl⟩ := Prod.mk.inj hpair
  obtain ⟨t, hpart, rfl⟩ := inScope_ok.mp hscope
  obtain ⟨_, u, hbind, hbody⟩ := bind_ok.mp hpart
  have h₃ : s₃.Unhoisted := ((h.run hsource).run hdefault).run hplan
  obtain rfl := h₃.takeHoisted htake
  have h₄ : s₄.Unhoisted := h₃.run htake
  have hscoped : State.Unhoisted { s₄ with scopes := s₄.scopes.push plan.scopeKind } :=
    ⟨h₄.hoisted, h₄.plain⟩
  have hafter := (precedes_run hloop).trans hfinal
  have ht : t.Precedes final := ⟨hafter.tree, hafter.types⟩
  obtain ⟨init, u₁, guard, u₂, u₃, within, u₄, hinit, hguard, hu₃, hu, hinner, hu₄, hform⟩ :=
    lowerClauseBody_ok (hscoped.run hbind) hbody ht
  have hs₂ : s.Precedes s₂ := (precedes_run hsource).trans (precedes_run hdefault)
  have hentered := precedes_run hbind
  have hs₄ : s₂.Precedes u := ((precedes_run hplan).trans (precedes_run htake)).trans
    ⟨hentered.tree, hentered.types⟩
  have hsu₁ : s.Precedes u₁ := (hs₂.trans hs₄).trans (precedes_run hinit)
  have hu₂ : u₂.Precedes final := (hu₃.trans (precedes_run hinner)).trans hu₄
  have hu₁ : u₁.Precedes final := (precedes_run hguard).trans hu₂
  refine ⟨⟨clause.key, clause.value, sourceId, s₂.types.shape sourceType, init.join, guard⟩,
    u₃, within, u₄, ⟨rfl, rfl, ?_, ?_, ?_⟩, ?_, hu, hinner, hu₄, fun hsequence _ _ hnest => ?_⟩
  · exact ⟨s, s₁, s₂, source, sourceType, .refl s, hsource, hdefault, rfl,
      hs₄.trans ((precedes_run hinit).trans hu₁)⟩
  · exact ⟨u, u₁, init, hs₂.trans hs₄, hinit, rfl, hu₁⟩
  · exact ⟨u₁, u₂, hsu₁, hguard, hu₂⟩
  · exact (hsu₁.trans (precedes_run hguard)).trans hu₃
  · obtain ⟨keyType, valueType, rfl⟩ := planRange_sequence hplan hsequence
    obtain ⟨keyNode, valueNode, block, hrange, hkey, hvalue, hblock⟩ := emitNative_ok hloop hfinal
    exact .loop hrange hkey hvalue hblock (hform _ rfl rfl) hnest

/-- The loops that clauses become. -/
theorem lowerClauses_ok [walk.Keeps extension] {frame : ComprehensionFrame}
    {clauses : List ForClause} {statements : List HostId} {yielded : Yielded} (h : s.Unhoisted)
    (hrun : lowerClauses walk frame clauses c s = (.ok (statements, yielded), s'))
    (hfinal : s'.Precedes final) :
    ∃ forms form innermost, List.Forall₂ (LoweredClause walk c s final) clauses forms ∧
      LoweredYield walk c s final frame yielded frame.yields form ∧
      final.tree.IsYield form innermost ∧
      ((∀ form ∈ forms, IsSequence form.shape) → final.tree.IsNest innermost forms statements) := by
  induction clauses generalizing s s' statements with
  | nil =>
    unfold lowerClauses lowerYield at hrun
    obtain ⟨⟨statement, yielded'⟩, s₁, hstatement, hrun⟩ := bind_ok.mp hrun
    obtain ⟨hoisted, s₂, htake, hrun⟩ := bind_ok.mp hrun
    obtain ⟨hpair, rfl⟩ := pure_ok.mp hrun
    obtain ⟨rfl, rfl⟩ := Prod.mk.inj hpair
    obtain rfl := (h.run hstatement).takeHoisted htake
    obtain ⟨form, hform, hyield⟩ :=
      lowerYieldStatement_ok hstatement (.refl s) ((precedes_run htake).trans hfinal)
    exact ⟨[], form, statement, .nil, hform, hyield, fun _ => .innermost⟩
  | cons clause rest ih =>
    obtain ⟨form, u, within, u', hclause, hsu, hu, hinner, hu', hloop⟩ :=
      lowerClauses_cons_ok h hrun hfinal
    obtain ⟨forms, yields, innermost, hforms, hyield, hstatement, hnest⟩ := ih hu hinner hu'
    refine ⟨form :: forms, yields, innermost, .cons hclause (hforms.imp fun _ _ h => h.mono hsu),
      hyield.mono hsu, hstatement, fun hsequences => ?_⟩
    obtain ⟨hsequence, hsequences⟩ := List.forall_mem_cons.mp hsequences
    exact hloop hsequence (hnest hsequences)

end

/-! ## The function -/

theorem shape_intern {entry : Ty} {type : TypeId}
    (hrun : onTypes (·.intern entry) c s = (.ok type, s')) (hfinal : s'.Precedes final)
    (hvalid : entry ≠ .invalid) (hnamed : entry.isNamed = false) :
    final.types.shape type = entry := by
  obtain ⟨htype, hs'⟩ := Prod.mk.inj hrun
  have hget : s'.types.get type = entry := by
    rw [← Except.ok.inj htype, ← hs']
    exact (s.types.get_intern entry).2
  have hget : final.types.get type = entry := by
    rw [hfinal.types.get_eq (by rw [hget]; exact hvalid) (by rw [hget]; exact hnamed), hget]
  rw [TypeTable.shape, TypeTable.underlying_of_isNamed_eq_false, hget]
  rw [TypeTable.isNamed, hget, hnamed]

/-- The results of the function of a comprehension. -/
theorem comprehensionResults_ok {frame : ComprehensionFrame} {yielded : Yielded}
    {results : List HostParam} {form : YieldForm}
    (hyield : LoweredYield walk c start final frame yielded frame.yields form)
    (hrun : comprehensionResults frame yielded c s = (.ok results, s'))
    (hfinal : s'.Precedes final) :
    form.HasResults final.types results ∧ ∀ key value, frame.yields = .map key value →
      ∃ type, results = [⟨some Names.result, type⟩] ∧
        final.types.shape type = .map yielded.key yielded.value := by
  unfold comprehensionResults at hrun
  generalize frame.yields = yields at hyield hrun
  cases hyield with
  | list =>
    obtain ⟨type, s₁, htype, hrun⟩ := bind_ok.mp hrun
    obtain ⟨rfl, rfl⟩ := pure_ok.mp hrun
    exact ⟨⟨type, yielded.value, rfl, shape_intern htype hfinal (by simp) rfl⟩, by simp⟩
  | map =>
    obtain ⟨type, s₁, htype, hrun⟩ := bind_ok.mp hrun
    obtain ⟨rfl, rfl⟩ := pure_ok.mp hrun
    exact ⟨⟨type, rfl⟩, fun _ _ _ => ⟨type, rfl, shape_intern htype hfinal (by simp) rfl⟩⟩
  | existence =>
    obtain ⟨rfl, rfl⟩ := pure_ok.mp hrun
    exact ⟨rfl, by simp⟩
  | select h =>
    obtain ⟨rfl, rfl⟩ := pure_ok.mp hrun
    exact ⟨rfl, by simp⟩

/-- The statement before the loops. -/
theorem lowerEmptyResult_ok {frame : ComprehensionFrame} {yielded : Yielded}
    {results : List HostParam} {form : YieldForm} {statements : List HostId}
    (hyield : LoweredYield walk c start final frame yielded frame.yields form)
    (hresults : ∀ key value, frame.yields = .map key value →
      ∃ type, results = [⟨some Names.result, type⟩] ∧
        final.types.shape type = .map yielded.key yielded.value)
    (hrun : lowerEmptyResult frame results c s = (.ok statements, s'))
    (hfinal : s'.Precedes final) : final.tree.IsStart final.types form statements := by
  unfold lowerEmptyResult at hrun
  generalize frame.yields = yields at hyield hresults hrun
  cases hyield with
  | map =>
    obtain ⟨type, rfl, hshape⟩ := hresults _ _ rfl
    obtain ⟨target, s₁, htarget, hrun⟩ := bind_ok.mp hrun
    obtain ⟨empty, s₂, hempty, hrun⟩ := bind_ok.mp hrun
    obtain ⟨statement, s₃, hstatement, hrun⟩ := bind_ok.mp hrun
    obtain ⟨rfl, rfl⟩ := pure_ok.mp hrun
    have h₂ := (precedes_run hstatement).trans hfinal
    have h₁ := (precedes_run hempty).trans h₂
    exact ⟨statement, target, empty, type, yielded.key, yielded.value, rfl,
      kind_addNode hstatement hfinal, kind_addNode htarget h₁, kind_addNode hempty h₂, hshape⟩
  | _ =>
    obtain ⟨rfl, -⟩ := pure_ok.mp hrun
    rfl

theorem resultOperand_id {call : HostId} {results : List TypeId} {span : Span} {r : Operand}
    (hrun : resultOperand call results span c s = (.ok r, s')) : r.id = call := by
  unfold resultOperand at hrun
  split at hrun
  · obtain ⟨rfl, -⟩ := pure_ok.mp hrun
    rfl
  · obtain ⟨type, s₁, -, hrun⟩ := bind_ok.mp hrun
    obtain ⟨rfl, -⟩ := pure_ok.mp hrun
    rfl

theorem immediateCall_ok {results : List HostParam} {body : List HostId} {span : Span} {r : Operand}
    (hrun : immediateCall results body span c s = (.ok r, s')) (hfinal : s'.Precedes final) :
    ∃ literal block, final.tree.kind r.id = .call literal [] false ∧
      final.tree.kind literal = .functionLiteral ⟨[], results, false⟩ block ∧
      final.tree.kind block = .block body := by
  obtain ⟨block, s₁, hblock, hrun⟩ := bind_ok.mp hrun
  obtain ⟨literal, s₂, hliteral, hrun⟩ := bind_ok.mp hrun
  obtain ⟨call, s₃, hcall, hrun⟩ := bind_ok.mp hrun
  have h₃ := (precedes_run hrun).trans hfinal
  have h₂ := (precedes_run hcall).trans h₃
  have h₁ := (precedes_run hliteral).trans h₂
  rw [resultOperand_id hrun]
  exact ⟨literal, block, kind_addNode hcall h₃, kind_addNode hliteral h₂, kind_addNode hblock h₁⟩

/-- What a comprehension becomes. -/
theorem lowerComprehension_ok [walk.Keeps extension] [walk.Keeps recording] {yields : Yield}
    {clauses : List ForClause} {span : Span} {expect : Expectation} {r : Operand}
    (hrun : lowerComprehension walk yields clauses span expect c s = (.ok r, s'))
    (hfinal : s'.Precedes final) :
    ∃ forms form yielded, List.Forall₂ (LoweredClause walk c s final) clauses forms ∧
      LoweredYield walk c s final
        ⟨yields, span, expect.type, isSelection yields && expect.results == 2⟩ yielded yields form ∧
      ((∀ form ∈ forms, IsSequence form.shape) →
        final.tree.IsComprehension final.types form forms r.id) := by
  unfold lowerComprehension at hrun
  obtain ⟨⟨loops, yielded⟩, s₁, hloops, hrun⟩ := bind_ok.mp hrun
  obtain ⟨t, hpart, rfl⟩ := within_ok.mp hloops
  obtain ⟨results, s₂, hresults, hrun⟩ := bind_ok.mp hrun
  obtain ⟨statements, s₃, hstart, hrun⟩ := bind_ok.mp hrun
  obtain ⟨done, s₄, hdone, hrun⟩ := bind_ok.mp hrun
  have h₄ := (precedes_run hrun).trans hfinal
  have h₃ := (precedes_run hdone).trans h₄
  have h₂ := (precedes_run hstart).trans h₃
  have h₁ := (precedes_run hresults).trans h₂
  have hplain : State.Unhoisted
      { s with scopes := s.scopes.push .closure, function := some [], hoisted := [] } := by
    refine ⟨rfl, ?_⟩
    rintro ⟨_, ⟨⟩, ⟨⟩⟩
  obtain ⟨forms, form, innermost, hclauses, hyield, hstatement, hnest⟩ :=
    lowerClauses_ok hplain hpart ⟨h₁.tree, h₁.types⟩
  have hentered : s.Precedes
      { s with scopes := s.scopes.push .closure, function := some [], hoisted := [] } :=
    ⟨.refl _, .refl _⟩
  obtain ⟨hforms, hmap⟩ := comprehensionResults_ok hyield hresults h₂
  obtain ⟨literal, block, hcall, hliteral, hblock⟩ := immediateCall_ok hrun hfinal
  refine ⟨forms, form, yielded, hclauses.imp fun _ _ h => h.mono hentered,
    hyield.mono hentered, fun hsequences => ⟨literal, block, results, statements, loops, done,
      innermost, hcall, hliteral, hblock, kind_addNode hdone h₄, hforms,
      lowerEmptyResult_ok hyield hmap hstart h₃, hnest hsequences, hstatement⟩⟩

/-! ## A comprehension over a text -/

/-- The value of a literal of a text without escapes. -/
def runesOf (literal : String) : List Rune :=
  (literal.toList.drop 1).dropLast.map (fun c => ⟨c.toNat, c.utf8Size⟩)

/-- The value of an expression that is no call: only names, texts and truth are told apart. -/
def leafValue (v : Variables Unit) : HostKind → Datum Unit
  | .identifier name => (v name).getD (.atom ())
  | .literal text => if text = "true" then .bool true else .text (runesOf text)
  | .composite _ _ => .map []
  | _ => .atom ()

/-- Nothing is called by an expression itself. -/
def isLeaf : HostKind → Bool
  | .call _ _ _ => false
  | _ => true

/-- The value of an expression where all calls with two arguments are `append`, and none stands
inside of another one. -/
def flatValue (t : HostTree) (id : HostId) (v : Variables Unit) : Datum Unit :=
  match t.kind id with
  | .call _ [list, item] _ => (leafValue v (t.kind list)).append (leafValue v (t.kind item))
  | kind => leafValue v kind

theorem flatValue_of_isLeaf {t : HostTree} {id : HostId} {v : Variables Unit}
    (h : isLeaf (t.kind id) = true) : flatValue t id v = leafValue v (t.kind id) := by
  unfold flatValue
  split
  · rename_i hkind
    rw [hkind] at h
    cases h
  · rfl

/-- Calls have no calls for arguments. -/
def hasLeaves (t : HostTree) : HostKind → Bool
  | .call _ args _ => args.all (fun arg => isLeaf (t.kind arg))
  | _ => true

def zeroOf : Ty → Datum Unit
  | .slice _ => .list []
  | .basic .bool => .bool false
  | _ => .atom ()

def flatEvaluation (t : HostTree) (types : TypeTable)
    (hleaves : t.nodes.all (hasLeaves t ·.kind) = true)
    (hbool : types.shape TypeTable.bool = .basic .bool) : Evaluation Unit t types where
  value := flatValue t
  combine _ _ _ := .atom ()
  zero type := zeroOf (types.shape type)
  value_identifier h hbound := by
    rw [flatValue_of_isLeaf (by rw [h]; rfl), h, leafValue, hbound]
    rfl
  value_true h _ := by
    rw [flatValue_of_isLeaf (by rw [h]; rfl), h]
    rfl
  value_append := by
    intro id callee list item v h _ _
    have hargs := HostTree.all_kinds (p := hasLeaves t) rfl hleaves id
    rw [h, hasLeaves, List.all_cons, List.all_cons, List.all_nil, Bool.and_true,
      Bool.and_eq_true] at hargs
    rw [flatValue_of_isLeaf hargs.1, flatValue_of_isLeaf hargs.2, flatValue, h]
  value_emptyMap h _ := by
    rw [flatValue_of_isLeaf (by rw [h]; rfl), h]
    rfl
  zero_slice h := by
    rw [h]
    rfl
  zero_bool := by
    rw [hbool]
    rfl

/-- A text that is used as a value. -/
theorem defaultValue_text {literal : HostId} {text : String} {span : Span}
    (hbasics : s.types.HasBasics) :
    defaultValue (.ofConstant literal (TypeTable.basic .untypedString) (some (.string text)) span)
      c s = (.ok (literal, TypeTable.string), s) := by
  have huntyped : s.types.isUntyped (TypeTable.basic .untypedString) = true :=
    hbasics.isUntyped_basic .untypedString
  have hbig : s.types.isBig (TypeTable.basic .untypedString) = false := by
    rw [TypeTable.isBig, hbasics]
    rfl
  have hdefault : s.types.defaultType (TypeTable.basic .untypedString) = TypeTable.string := by
    rw [TypeTable.defaultType, hbasics]
  have hstring : s.types.basic? TypeTable.string = some .string := hbasics.basic?_basic .string
  have hcheck : checkValue (.ofConstant literal (TypeTable.basic .untypedString)
      (some (.string text)) span) c s = (.ok (), s) := by
    unfold checkValue Operand.ofConstant
    dsimp only
    rw [run_bind, run_getTypes]
    dsimp only
    rw [hbasics]
    rfl
  unfold defaultValue
  rw [run_bind, hcheck]
  dsimp only
  unfold Operand.ofConstant
  dsimp only
  rw [if_neg (by decide), run_isUntypedBig_bind, hbig, if_neg Bool.false_ne_true, run_bind,
    run_getTypes]
  dsimp only
  rw [if_pos huntyped, hdefault, hstring, if_neg (by simp [overflows, BasicType.isInteger])]
  rfl

theorem text_ok {depth : Nat} {node : NodeId} {text : String} {expect : Expectation}
    {operand : Operand} {id : HostId} {type : TypeId}
    (hbasics : s.types.HasBasics) (hnode : c.unit.expr? node = some (.literal .string text))
    (hrun : (walkWithin (depth + 1)).expr node expect c s = (.ok operand, s₁))
    (hvalue : defaultValue operand c s₁ = (.ok (id, type), s')) (hfinal : s'.Precedes final) :
    final.tree.kind id = .literal text ∧ type = TypeTable.string := by
  obtain ⟨span, _, ⟨⟩, hread⟩ := bind_ok.mp hrun
  obtain ⟨_, _, ⟨⟩, hlower⟩ := bind_ok.mp hread
  rw [hnode] at hlower
  obtain ⟨literal, s₂, hliteral, hoperand⟩ := bind_ok.mp hlower
  obtain ⟨rfl, rfl⟩ := pure_ok.mp hoperand
  rw [defaultValue_text (hbasics.grows (precedes_run hliteral).types)] at hvalue
  obtain ⟨hpair, rfl⟩ := Prod.mk.inj hvalue
  obtain ⟨rfl, rfl⟩ := Prod.mk.inj (Except.ok.inj hpair)
  exact ⟨kind_addNode hliteral hfinal, rfl⟩

/-- The nodes of the parts of `["c" for x <- "ab"]`. -/
def textSample : Context :=
  .sample [.expr (.literal .string "\"ab\""), .expr (.literal .string "\"c\"")] []

def textState : State := .initial textSample.unit .initial

def textClause : ForClause := ⟨none, some "x", ⟨0⟩, none, none⟩

def loweredText : Except Failure Operand × State :=
  lowerComprehension (walkWithin 1) (.list ⟨1⟩) [textClause] .synthetic .none textSample textState

theorem loweredText_ok : ∃ r, loweredText = (.ok r, loweredText.2) := by
  have hok : loweredText.1.toOption.isSome = true := by decide +kernel
  rcases h : loweredText with ⟨failure | r, s'⟩
  · rw [h] at hok
    cases hok
  · exact ⟨r, rfl⟩

def textEvaluation : Evaluation Unit loweredText.2.tree loweredText.2.types :=
  flatEvaluation _ _ (by decide +kernel) (by decide +kernel)

theorem textEvaluation_value {id : HostId} {text : String}
    (h : loweredText.2.tree.kind id = .literal text) (htrue : text ≠ "true")
    (v : Variables Unit) : textEvaluation.value id v = .text (runesOf text) := by
  change flatValue _ id v = _
  rw [flatValue_of_isLeaf (by rw [h]; rfl), h, leafValue, if_neg htrue]

def textForm (source : HostId) : LoopClause :=
  ⟨none, some "x", source, .basic .string, none, none⟩

theorem textClause_ok {form : LoopClause} {final : State}
    (h : LoweredClause (walkWithin 1) textSample textState final textClause form) :
    form = textForm form.source ∧ final.tree.kind form.source = .literal "\"ab\"" := by
  obtain ⟨hkey, hitem, ⟨u, u₁, u₂, operand, type, hu, hrun, hvalue, hshape, hfinal⟩,
    ⟨v, v₁, init, -, hinit, hjoin, -⟩, w, w₁, -, hguard, -⟩ := h
  obtain ⟨hkind, rfl⟩ :=
    text_ok (TypeTable.hasFixed_of_grows hu.types).basics rfl hrun hvalue hfinal
  have hstring : u₂.types.shape TypeTable.string = .basic .string := by
    have hu₂ := (hu.trans (precedes_run hrun)).trans (precedes_run hvalue)
    exact TypeTable.shape_of_basic?
      ((TypeTable.hasFixed_of_grows hu₂.types).basics.basic?_basic .string)
  obtain ⟨rfl, -⟩ := pure_ok.mp hinit
  obtain ⟨hnone, -⟩ := pure_ok.mp hguard
  refine ⟨?_, hkind⟩
  obtain ⟨key, item, source, shape, init, guard⟩ := form
  simp only [textForm, LoopClause.mk.injEq]
  exact ⟨hkey, hitem, trivial, hshape.symm.trans hstring, hjoin.symm, hnone.symm⟩

theorem blind_text {id : HostId} {text : String}
    (h : loweredText.2.tree.kind id = .literal text) (htrue : text ≠ "true") :
    textEvaluation.Blind id := fun v w _ =>
  (textEvaluation_value h htrue v).trans (textEvaluation_value h htrue w).symm

theorem isOrdinary_textForm {source : HostId}
    (h : loweredText.2.tree.kind source = .literal "\"ab\"") :
    textEvaluation.IsOrdinary (textForm source) where
  names := List.forall_mem_singleton.mpr (by decide)
  source := blind_text h (by decide)
  init := by simp [textForm]
  guard := by simp [textForm]

/-! ## What comprehensions give -/

/-- To call the function that a comprehension over slices, arrays and strings becomes gives what the
combinations of elements that pass every guard yield, in the order of the clauses. The store is left
as it is. -/
theorem comprehension_results {depth : Nat} {yields : Yield} {clauses : List ForClause}
    {span : Span} {expect : Expectation} {r : Operand}
    (hrun : lowerComprehension (walkWithin depth) yields clauses span expect c s = (.ok r, s'))
    (hfinal : s'.Precedes final) :
    ∃ forms form yielded,
      List.Forall₂ (LoweredClause (walkWithin depth) c s final) clauses forms ∧
      LoweredYield (walkWithin depth) c s final
        ⟨yields, span, expect.type, isSelection yields && expect.results == 2⟩ yielded yields form ∧
      ∀ {A : Type} (E : Evaluation A final.tree final.types) (store : Store A),
        (∀ clause ∈ forms, IsSequence clause.shape ∧ E.IsOrdinary clause) →
        (∀ id ∈ form.operands, E.Blind id) →
        store.visible "append" = none → store.visible "true" = none →
        ∀ fuel, 4 * clauses.length + 1 < fuel →
          ∃ results, E.call fuel r.id store = some (results, store) ∧
            E.Yields (E.combinations forms store.visible) form results := by
  obtain ⟨forms, form, yielded, hclauses, hyield, hcomprehension⟩ :=
    lowerComprehension_ok hrun hfinal
  refine ⟨forms, form, yielded, hclauses, hyield, ?_⟩
  intro A E store hforms hoperands happend htruth fuel hfuel
  rw [hclauses.length_eq] at hfuel
  exact Evaluation.exists_call_eq (fun clause hclause => (hforms clause hclause).2) happend htruth
    hfuel (hcomprehension (fun clause hclause => (hforms clause hclause).1)) hoperands

/-- `["c" for x <- "ab"]` gives `["c", "c"]`. -/
theorem comprehension_results_text : ∃ r s', loweredText = (.ok r, s') ∧
    ∃ E : Evaluation Unit s'.tree s'.types,
      E.call 6 r.id [] = some ([.list [.text [⟨99, 1⟩], .text [⟨99, 1⟩]]], []) := by
  obtain ⟨r, hrun⟩ := loweredText_ok
  obtain ⟨forms, form, yielded, hforms, hyield, hresults⟩ :=
    comprehension_results hrun (.refl loweredText.2)
  obtain ⟨source, rfl, hsource⟩ : ∃ source, forms = [textForm source] ∧
      loweredText.2.tree.kind source = .literal "\"ab\"" := by
    cases hforms with
    | cons hclause hnil =>
      cases hnil
      obtain ⟨hform, hsource⟩ := textClause_ok hclause
      exact ⟨_, congrArg ([·]) hform, hsource⟩
  cases hyield with
  | list hu h =>
    obtain ⟨u, u', hu, hvalue, hfinal⟩ := h
    obtain ⟨operand, u₁, hoperand, hdefault⟩ := bind_ok.mp hvalue
    have hnode : textSample.unit.expr? ⟨1⟩ = some (.literal .string "\"c\"") := rfl
    obtain ⟨hkind, -⟩ := text_ok (TypeTable.hasFixed_of_grows hu.types).basics hnode hoperand
      hdefault hfinal
    obtain ⟨results, hcall, hyields⟩ := hresults textEvaluation []
      (List.forall_mem_singleton.mpr ⟨.inl rfl, isOrdinary_textForm hsource⟩)
      (List.forall_mem_singleton.mpr (blind_text hkind (by decide))) rfl rfl 6 (by decide)
    refine ⟨r, _, hrun, textEvaluation, hcall.trans ?_⟩
    have hsourceValue := textEvaluation_value hsource (by decide)
    have hitem := textEvaluation_value hkind (by decide)
    have hab : runesOf "\"ab\"" = [⟨97, 1⟩, ⟨98, 1⟩] := by decide +kernel
    have hc : runesOf "\"c\"" = [⟨99, 1⟩] := by decide +kernel
    rw [hab] at hsourceValue
    rw [hc] at hitem
    rw [hyields]
    simp [Evaluation.combinations, Evaluation.passes, textForm, hsourceValue, hitem,
      Datum.elements, Datum.runesFrom]

end GoLowering.Lowering
