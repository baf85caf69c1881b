import GoLowering.Proofs.FrameDeclarations
import GoLowering.Proofs.Situations

/-!
# Where headers leave what they hoist

The init statement of a header is left in the header, and a label on its statement, while what
the rest of the header hoists is left to the list of statements around. There it comes before
the whole statement, and so before the init statement and before the label.

`hoists_run_after_header_iff` says exactly when that makes no difference: when nothing is to run
first, or when nothing is hoisted.
-/

namespace GoLowering

/-- What happens where a statement stands in a list. -/
inductive Event where
  /-- The init statement of a header is run, or a label is passed. -/
  | first (node : HostId)
  /-- The rest of a statement is run. -/
  | run (node : HostId)
  deriving DecidableEq, Repr

/-- Whether a node has an init statement or a label. -/
def HostKind.hasFirst : HostKind → Bool
  | .ifElse init _ _ _ | .loop init _ _ _ | .switch init _ _ | .typeSwitch init _ _ _ =>
    init.isSome
  | .labeled _ _ => true
  | _ => false

namespace HostTree

def events (t : HostTree) (id : HostId) : List Event :=
  (if (t.kind id).hasFirst then [.first id] else []) ++ [.run id]

/-- What happens in a list of statements, in the order in which it happens. -/
def order (t : HostTree) (ids : List HostId) : List Event := ids.flatMap t.events

/-- Some statements of a list are run after the init statement or the label of one of them. -/
def RunAfterFirst (t : HostTree) (ids : List HostId) (node : HostId) (hoists : List HostId) :
    Prop :=
  (t.kind node).hasFirst → ∀ id ∈ hoists, [.first node, .run id].Sublist (t.order ids)

instance (t : HostTree) (ids : List HostId) (node : HostId) (hoists : List HostId) :
    Decidable (t.RunAfterFirst ids node hoists) :=
  inferInstanceAs (Decidable (_ → ∀ id ∈ hoists, _))

/-- The statements of the body of a loop, which is the literal of a loop by callback. -/
def loopBody (t : HostTree) (id : HostId) : List HostId :=
  match t.kind id with
  | .range _ _ _ _ body | .loop _ _ _ body => t.statements body
  | .expression call =>
    match t.kind call with
    | .call _ [literal] _ =>
      match t.kind literal with
      | .functionLiteral _ body => t.statements body
      | _ => []
    | _ => []
  | _ => []

theorem mem_order_of_first {t : HostTree} {ids : List HostId} {node : HostId}
    (h : Event.first node ∈ t.order ids) : node ∈ ids := by
  obtain ⟨id, hid, he⟩ := List.mem_flatMap.mp h
  unfold events at he
  split at he <;> simp at he
  rwa [he]

/-- What stands before a statement in a list does not run after its init statement. -/
theorem not_sublist_order {t : HostTree} {before : List HostId} {node id : HostId}
    (hnode : node ∉ before) (hid : id ∈ before) :
    ¬ [Event.first node, .run id].Sublist (t.order (before ++ [node])) := by
  intro h
  have hne : id ≠ node := fun he => hnode (he ▸ hid)
  have hfirst : Event.first node ∉ t.order before := fun hm => hnode (mem_order_of_first hm)
  rw [order, List.flatMap_append, List.sublist_append_iff] at h
  obtain ⟨l₁, l₂, he, h₁, h₂⟩ := h
  cases l₁ with
  | cons e l₁ =>
    rw [List.cons_append] at he
    rw [← (List.cons.inj he).1] at h₁
    exact hfirst (h₁.subset (List.mem_cons_self))
  | nil =>
    rw [List.nil_append] at he
    subst he
    have hrun : Event.run id ∈ t.events node := by
      have := h₂.subset (List.mem_cons_of_mem _ (List.mem_singleton_self (Event.run id)))
      simpa using this
    unfold events at hrun
    split at hrun <;> simp [hne] at hrun

/-- The list of a header: the statement of the header is its last one, and what is hoisted out
of the header comes before it. -/
structure HeaderList (t : HostTree) (ids hoists : List HostId) (first : Bool) : Prop where
  subset : hoists ⊆ ids
  last : hoists = [] ∨
    ∃ before node, ids = before ++ [node] ∧ node ∉ before ∧ hoists ⊆ before ∧
      (t.kind node).hasFirst = first

theorem HeaderList.runAfterFirst_iff {t : HostTree} {ids hoists : List HostId} {first : Bool}
    (h : HeaderList t ids hoists first) {node : HostId} (hn : ids.getLast? = some node) :
    t.RunAfterFirst ids node hoists ↔ first = false ∨ hoists = [] := by
  rcases h.last with rfl | ⟨before, node', rfl, hnode, hsub, hfirst⟩
  · exact ⟨fun _ => .inr rfl, fun _ _ id hid => absurd hid (List.not_mem_nil)⟩
  · obtain rfl : node' = node := by simpa using hn
    constructor
    · intro hrun
      cases hf : first with
      | false => exact .inl rfl
      | true =>
        refine .inr (List.eq_nil_iff_forall_not_mem.mpr (fun id hid => ?_))
        exact not_sublist_order hnode (hsub hid) (hrun (hfirst.trans hf) id hid)
    · rintro (rfl | rfl) hhas
      · rw [hfirst] at hhas
        cases hhas
      · exact fun id hid => absurd hid (List.not_mem_nil)

end HostTree

namespace Lowering

open Surface

/-! ## What headers hoist -/

/-- Runs an init statement and what comes after it in a header. Answers whether the init
statement has become one of the output, and what the rest hoists. -/
def headerPart {α : Type} (walk : Walk) (init : Option NodeId) (rest : Lower α) :
    Lower (Bool × List HostId) := do
  let init ← init.mapM walk.statement
  let before ← hoistedCount
  let _ ← rest
  return (init.join.isSome, (← get).hoisted.drop before)

/-- Whether a statement has a header that may hoist something, or a label. -/
def hasHeader : Stmt → Bool
  | .ifElse .. | .switch .. | .typeSwitch .. | .forPhrase .. | .labeled .. => true
  | _ => false

/-- What is hoisted out of the condition, the tag, the subject or the guard of a header, or out
of a statement with a label, and whether there is something to run first. -/
def headerHoists (walk : Walk) : Stmt → Lower (Bool × List HostId)
  | .ifElse init condition _ _ =>
    inScope .block (headerPart walk init (lowerCondition walk condition))
  | .switch init tag _ => inScope .block (headerPart walk init (tag.mapM (lowerByDefault walk)))
  | .typeSwitch init _ subject _ =>
    inScope .block (headerPart walk init (lowerSubject walk subject))
  | .forPhrase clause _ => do
    let (_, plan) ← lowerSource walk clause.source
    inScope plan.scopeKind (do
      bindRange plan clause.key clause.value
      return (← hoisting
        (headerPart walk clause.init (clause.guard.mapM (lowerCondition walk)))).2)
  | .labeled _ body => do
    let (_, hoists) ← headerPart walk none (walk.statement body)
    return (true, hoists)
  | _ => return (false, [])

/-- The list that the statement of a header stands in: for a for-phrase the body of its loop,
for any other statement the list that it becomes itself. -/
def headerList (t : HostTree) (statement : Stmt) (ids : List HostId) : List HostId :=
  match statement with
  | .forPhrase _ _ => (ids.getLast?.map t.loopBody).getD []
  | _ => ids

variable {α β : Type} {walk : Walk} [walk.Keeps extension]

omit [walk.Keeps extension] in
/-- A header whose parts have been run. -/
theorem headerPart_ok {init : Option NodeId} {rest : Lower α} [hrest : Additive extension rest]
    {c : Context} {s s₁ s₂ : State} {first : Option (Option HostId)} {a : α}
    (hi : init.mapM walk.statement c s = (.ok first, s₁)) (hr : rest c s₁ = (.ok a, s₂)) :
    ∃ hoists, headerPart walk init rest c s = (.ok (first.join.isSome, hoists), s₂) ∧
      s₂.hoisted = s₁.hoisted ++ hoists := by
  have hs := hrest.run c s₁
  rw [hr] at hs
  obtain ⟨hoists, he, -⟩ := hs.hoisted
  refine ⟨hoists, ?_, he⟩
  refine bind_ok.mpr ⟨first, s₁, hi, bind_ok.mpr ⟨s₁.hoisted.length, s₁, rfl,
    bind_ok.mpr ⟨a, s₂, hr, bind_ok.mpr ⟨s₂, s₂, rfl, ?_⟩⟩⟩⟩
  rw [he, List.drop_left]
  rfl

/-- Where nothing is hoisted before a part, a node made after it is not hoisted by it. -/
theorem Advances.not_mem_hoisted {s s' : State} (h : Advances s s') (hs : s.hoisted = [])
    {id : HostId} (hid : s'.tree.size ≤ id.index) : id ∉ s'.hoisted := by
  obtain ⟨more, he, hmade⟩ := h.hoisted
  intro hm
  rw [he, hs, List.nil_append] at hm
  exact absurd (hmade id hm).2 (Nat.not_lt.mpr hid)

/-- What a run of a statement with a header has come to: the statement is made after what is
hoisted, and the hoists of its header are among that. -/
structure HeaderRun (walk : Walk) (statement : Stmt) (c : Context) (s s' : State)
    (id : HostId) (first : Bool) (hoists : List HostId) : Prop where
  replayed : ∃ s₁, headerHoists walk statement c s = (.ok (first, hoists), s₁)
  hoisted : hoists ⊆ s'.hoisted
  apart : id ∉ s'.hoisted
  hasFirst : (s'.tree.kind id).hasFirst = first

omit [walk.Keeps extension] in
theorem HeaderRun.headerList {statement : Stmt} {c : Context} {s s' : State} {id : HostId}
    {first : Bool} {hoists : List HostId} (h : HeaderRun walk statement c s s' id first hoists) :
    s'.tree.HeaderList (s'.hoisted ++ [id]) hoists first :=
  ⟨List.Subset.trans h.hoisted (List.subset_append_left _ _),
    .inr ⟨s'.hoisted, id, rfl, h.apart, h.hoisted, h.hasFirst⟩⟩

/-- A header in a scope of its own, with a statement made for it. -/
theorem header_ok {init : Option NodeId} {part : Lower β}
    {build : Option (Option HostId) → β → Lower HostKind} {span : Span} {c : Context}
    {s s' : State} {id : HostId} [hpart : Additive extension part]
    (hbuild : ∀ i b, Additive extension (build i b))
    (hkind : ∀ i b c s k s', build i b c s = (.ok k, s') → k.hasFirst = i.join.isSome)
    (h : (do
      let kind ← inScope .block (do
        let init ← init.mapM walk.statement
        let b ← part
        build init b)
      place kind span) c s = (.ok id, s'))
    (hs : s.hoisted = []) :
    ∃ first hoists s₁, inScope .block (headerPart walk init part) c s = (.ok (first, hoists), s₁) ∧
      hoists ⊆ s'.hoisted ∧ id ∉ s'.hoisted ∧ (s'.tree.kind id).hasFirst = first := by
  obtain ⟨kind, s₄, hscope, hplace⟩ := bind_ok.mp h
  obtain ⟨s₃, hrun, rfl⟩ := inScope_ok.mp hscope
  obtain ⟨i, s₁, hi, hrun⟩ := bind_ok.mp hrun
  obtain ⟨b, s₂, hb, hrun⟩ := bind_ok.mp hrun
  obtain ⟨hoists, hpart', he⟩ := headerPart_ok hi hb
  have hnode := addNode_ok hplace
  have hinit : Additive extension (init.mapM walk.statement) := inferInstance
  have hm : Advances { s with scopes := s.scopes.push .block } s₃ := by
    have h₁ := hinit.run c { s with scopes := s.scopes.push .block }
    have h₂ := hpart.run c s₁
    have h₃ := (hbuild i b).run c s₂
    rw [hi] at h₁
    rw [hb] at h₂
    rw [hrun] at h₃
    exact (h₁.trans h₂).trans h₃
  refine ⟨_, hoists, _, inScope_ok.mpr ⟨s₂, hpart', rfl⟩, ?_, ?_, ?_⟩
  · rw [hnode.hoisted]
    have h₃ := (hbuild i b).run c s₂
    rw [hrun] at h₃
    obtain ⟨more, hmore, -⟩ := h₃.hoisted
    intro id' hid'
    change id' ∈ s₃.hoisted
    rw [hmore, he]
    exact List.mem_append_left _ (List.mem_append_right _ hid')
  · rw [hnode.hoisted]
    exact hm.not_mem_hoisted hs (Nat.le_of_eq hnode.index.symm)
  · rw [hnode.kind]
    exact hkind i b c s₂ kind s₃ hrun

theorem headerRun_if {init : Option NodeId} {condition thenBlock : NodeId}
    {elseBranch : Option NodeId} {span : Span} {c : Context} {s s' : State} {id : HostId}
    (h : lowerIf walk init condition thenBlock elseBranch span c s = (.ok id, s'))
    (hs : s.hoisted = []) :
    ∃ first hoists,
      HeaderRun walk (.ifElse init condition thenBlock elseBranch) c s s' id first hoists := by
  unfold lowerIf at h
  obtain ⟨first, hoists, s₁, hr, hsub, hapart, hfirst⟩ := header_ok
    (fun i b => inferInstance)
    (fun i b c s k s' hk => by
      obtain ⟨_, _, _, hk⟩ := bind_ok.mp hk
      obtain ⟨_, _, _, hk⟩ := bind_ok.mp hk
      rw [← (pure_ok.mp hk).1]
      rfl) h hs
  exact ⟨first, hoists, ⟨s₁, hr⟩, hsub, hapart, hfirst⟩

theorem headerRun_switch {init tag : Option NodeId}
    {clauses : List CaseClause} {span : Span} {c : Context} {s s' : State} {id : HostId}
    (h : lowerSwitch walk init tag clauses span c s = (.ok id, s')) (hs : s.hoisted = []) :
    ∃ first hoists, HeaderRun walk (.switch init tag clauses) c s s' id first hoists := by
  unfold lowerSwitch at h
  obtain ⟨first, hoists, s₁, hr, hsub, hapart, hfirst⟩ := header_ok
    (fun i b => inferInstance)
    (fun i b c s k s' hk => by
      obtain ⟨_, _, _, hk⟩ := bind_ok.mp hk
      rw [← (pure_ok.mp hk).1]
      rfl) h hs
  exact ⟨first, hoists, ⟨s₁, hr⟩, hsub, hapart, hfirst⟩

theorem headerRun_typeSwitch {init : Option NodeId}
    {binding : Option String} {subject : NodeId} {clauses : List CaseClause} {span : Span}
    {c : Context} {s s' : State} {id : HostId}
    (h : lowerTypeSwitch walk init binding subject clauses span c s = (.ok id, s'))
    (hs : s.hoisted = []) :
    ∃ first hoists,
      HeaderRun walk (.typeSwitch init binding subject clauses) c s s' id first hoists := by
  unfold lowerTypeSwitch at h
  obtain ⟨first, hoists, s₁, hr, hsub, hapart, hfirst⟩ := header_ok
    (fun i b => inferInstance)
    (fun i b c s k s' hk => by
      obtain ⟨_, _, _, hk⟩ := bind_ok.mp hk
      rw [← (pure_ok.mp hk).1]
      rfl) h hs
  exact ⟨first, hoists, ⟨s₁, hr⟩, hsub, hapart, hfirst⟩

theorem headerRun_labeled {label : String} {body : NodeId} {span : Span}
    {c : Context} {s s' : State} {result : Option HostId}
    (h : lowerStmtKind walk (.labeled label body) span c s = (.ok result, s'))
    (hs : s.hoisted = []) :
    ∃ id hoists, result = some id ∧
      HeaderRun walk (.labeled label body) c s s' id true hoists := by
  obtain ⟨statement, s₁, hb, h⟩ := bind_ok.mp h
  obtain ⟨id, s₂, hplace, h⟩ := bind_ok.mp h
  obtain ⟨rfl, rfl⟩ := pure_ok.mp h
  obtain ⟨hoists, hpart, he⟩ := headerPart_ok
    (rfl : Option.mapM walk.statement none c s = _) hb
  have hnode := addNode_ok hplace
  have hbody : Additive extension (walk.statement body) := inferInstance
  have hm := hbody.run c s
  rw [hb] at hm
  refine ⟨id, hoists, rfl, ⟨s₁, bind_ok.mpr ⟨_, s₁, hpart, rfl⟩⟩, ?_, ?_, ?_⟩
  · rw [hnode.hoisted, he]
    exact List.subset_append_right _ _
  · rw [hnode.hoisted]
    exact hm.not_mem_hoisted hs (Nat.le_of_eq hnode.index.symm)
  · rw [hnode.kind]
    rfl

/-! ## For-phrases -/

theorem Made.kind_of_grows {s s' : State} {kind : HostKind} {id : HostId}
    (h : Made s s' kind id) {t : HostTree} (ht : s'.tree.Grows t) : t.kind id = kind := by
  rw [ht.kind_eq (by rw [h.index, h.size]; exact Nat.lt_succ_self _), h.kind]

/-- A sequence whose first part has been run; the tree has not lost anything. -/
theorem bind_grows {m : Lower α} {f : α → Lower β} [hm : Steady extension m] {c : Context} {s s' : State}
    {b : β} (h : (m >>= f) c s = (.ok b, s')) :
    ∃ a s₁, m c s = (.ok a, s₁) ∧ s.tree.size ≤ s₁.tree.size ∧ f a c s₁ = (.ok b, s') := by
  obtain ⟨a, s₁, ha, h⟩ := bind_ok.mp h
  have hs := hm.run c s
  rw [ha] at hs
  exact ⟨a, s₁, ha, hs.tree.size_le, h⟩

theorem loopBody_emitNative {source : HostId} {key value : Option String} {body : List HostId}
    {span : Span} {c : Context} {s s' : State} {id : HostId}
    (h : emitNative source key value body span c s = (.ok id, s')) :
    s'.tree.loopBody id = body := by
  obtain ⟨keyNode, s₁, -, h⟩ := bind_ok.mp h
  obtain ⟨valueNode, s₂, -, h⟩ := bind_ok.mp h
  obtain ⟨keyNode, s₃, h⟩ : ∃ keyNode s₃, (do
      let body ← blockNode body
      place (.range keyNode valueNode true source body) span) c s₃ = (.ok id, s') := by
    split at h
    · obtain ⟨keyNode, s₃, -, h⟩ := bind_ok.mp h
      exact ⟨keyNode, s₃, h⟩
    · exact ⟨_, s₂, h⟩
  obtain ⟨block, s₄, hblock, h⟩ := bind_ok.mp h
  have hloop := addNode_ok h
  simp only [HostTree.loopBody, hloop.kind, HostTree.statements,
    (addNode_ok hblock).kind_of_grows hloop.grows]

theorem loopBody_emitPush {source : HostId} {method : String} {params : List HostParam}
    {body : List HostId} {span : Span} {c : Context} {s s' : State} {id : HostId}
    (h : emitPush source method params body span c s = (.ok id, s')) :
    s'.tree.loopBody id = body := by
  obtain ⟨block, s₁, hblock, h⟩ := bind_ok.mp h
  obtain ⟨literal, s₂, hliteral, h⟩ := bind_ok.mp h
  obtain ⟨callee, s₃, hcallee, h⟩ := bind_ok.mp h
  obtain ⟨call, s₄, hcall, h⟩ := bind_ok.mp h
  have hstatement := addNode_ok h
  have hcall := addNode_ok hcall
  have g₄ := hcall.grows.trans hstatement.grows
  have g₃ := (addNode_ok hcallee).grows.trans g₄
  have hliteral := addNode_ok hliteral
  simp only [HostTree.loopBody, hstatement.kind, hcall.kind_of_grows hstatement.grows,
    hliteral.kind_of_grows g₃, HostTree.statements,
    (addNode_ok hblock).kind_of_grows (hliteral.grows.trans g₃)]

theorem loopBody_emitPull {source : HostId} {method : String} {names : List String}
    {body : List HostId} {span : Span} {c : Context} {s s' : State} {id : HostId}
    (h : emitPull source method names body span c s = (.ok id, s')) :
    ∃ fetch check, s'.tree.loopBody id = fetch :: check :: body ∧
      s.tree.size ≤ fetch.index ∧ s.tree.size ≤ check.index := by
  obtain ⟨_, s₁, -, h₁, h⟩ := bind_grows h
  obtain ⟨_, s₂, -, h₂, h⟩ := bind_grows h
  obtain ⟨_, s₃, -, h₃, h⟩ := bind_grows h
  obtain ⟨_, s₄, -, h₄, h⟩ := bind_grows h
  obtain ⟨_, s₅, -, h₅, h⟩ := bind_grows h
  obtain ⟨_, s₆, -, h₆, h⟩ := bind_grows h
  obtain ⟨_, s₇, -, h₇, h⟩ := bind_grows h
  obtain ⟨_, s₈, -, h₈, h⟩ := bind_grows h
  obtain ⟨fetch, s₉, hfetch, h₉, h⟩ := bind_grows h
  obtain ⟨_, s₁₀, -, h₁₀, h⟩ := bind_grows h
  obtain ⟨_, s₁₁, -, h₁₁, h⟩ := bind_grows h
  obtain ⟨_, s₁₂, -, h₁₂, h⟩ := bind_grows h
  obtain ⟨_, s₁₃, -, h₁₃, h⟩ := bind_grows h
  obtain ⟨check, s₁₄, hcheck, h₁₄, h⟩ := bind_grows h
  obtain ⟨block, s₁₅, hblock, h⟩ := bind_ok.mp h
  have hloop := addNode_ok h
  refine ⟨fetch, check, ?_, ?_, ?_⟩
  · simp only [HostTree.loopBody, hloop.kind, HostTree.statements,
      (addNode_ok hblock).kind_of_grows hloop.grows]
  · rw [(addNode_ok hfetch).index]
    omega
  · rw [(addNode_ok hcheck).index]
    omega

/-- The statements of an iteration are the last ones of the body of its loop. -/
theorem loopBody_emitRange {plan : RangePlan} {source : HostId} {key value : Option String}
    {body : List HostId} {span : Span} {c : Context} {s s' : State} {id : HostId}
    (h : emitRange plan source key value body span c s = (.ok id, s')) :
    ∃ before, s'.tree.loopBody id = before ++ body ∧
      ∀ node ∈ before, s.tree.size ≤ node.index := by
  unfold emitRange at h
  cases plan with
  | native keyType valueType =>
    exact ⟨[], by rw [loopBody_emitNative h, List.nil_append], by simp⟩
  | push method keyType valueType =>
    exact ⟨[], by rw [loopBody_emitPush h, List.nil_append], by simp⟩
  | pull method keyType valueType =>
    obtain ⟨fetch, check, hbody, hfetch, hcheck⟩ := loopBody_emitPull h
    refine ⟨[fetch, check], hbody, fun node hnode => ?_⟩
    rcases List.mem_pair.mp hnode with rfl | rfl
    · exact hfetch
    · exact hcheck

/-- The header of a for-phrase that has been run: what it hoists comes before what its guard
hoists, and a guard leaves its init statement to the `if` that it becomes. -/
theorem phraseHeader_ok {clause : ForClause} {c : Context} {s s' : State}
    {hoisted : List HostId} {init guard : Option HostId}
    (h : hoisting (lowerPhraseHeader walk clause) c s = (.ok (hoisted, init, guard), s')) :
    ∃ hoists, (∃ before,
        hoisting (headerPart walk clause.init (clause.guard.mapM (lowerCondition walk))) c s =
          (.ok (before, init.isSome, hoists), s')) ∧
      hoists ⊆ hoisted ∧ (guard = none → hoists = []) ∧
      ∀ id ∈ hoisted, id.index < s'.tree.size := by
  obtain ⟨s₃, hrun, hh, rfl⟩ := hoisting_ok h
  obtain ⟨i, s₁, hi, hrun⟩ := bind_ok.mp hrun
  obtain ⟨g, s₂, hg, hrun⟩ := bind_ok.mp hrun
  obtain ⟨heq, rfl⟩ := pure_ok.mp hrun
  obtain ⟨rfl, rfl⟩ := Prod.mk.inj heq
  have hinit : Additive extension (clause.init.mapM walk.statement) := inferInstance
  have hguard : Additive extension (clause.guard.mapM (lowerCondition walk)) := inferInstance
  obtain ⟨hoists, hpart, he⟩ := headerPart_ok hi hg
  refine ⟨hoists, ⟨s₂.hoisted, ?_⟩, ?_, ?_, ?_⟩
  · refine within_ok.mpr ⟨{ s₂ with hoisted := [] }, ?_, rfl⟩
    exact bind_ok.mpr ⟨_, s₂, hpart, bind_ok.mpr ⟨s₂.hoisted, _, rfl, rfl⟩⟩
  · rw [hh, he]
    exact List.subset_append_right _ _
  · rintro rfl
    cases hclause : clause.guard with
    | none =>
      rw [hclause] at hg
      obtain ⟨-, rfl⟩ := pure_ok.mp hg
      exact List.self_eq_append_right.mp he
    | some condition =>
      rw [hclause] at hg
      obtain ⟨_, _, _, hg⟩ := bind_ok.mp (by simpa only [Option.mapM_some, map_eq_pure_bind] using hg)
      cases (pure_ok.mp hg).1
  · have h₁ := hinit.run c { s with hoisted := [] }
    have h₂ := hguard.run c s₁
    rw [hi] at h₁
    rw [hg] at h₂
    obtain ⟨more, hmore, hmade⟩ := (h₁.trans h₂).hoisted
    intro id hid
    rw [hh, hmore] at hid
    exact (hmade id hid).2

/-- The guard of a for-phrase stands last in the body of the loop. -/
theorem headerList_forPhrase {clause : ForClause} {body : NodeId}
    {span : Span} {c : Context} {s s' : State} {id : HostId}
    (h : lowerForPhrase walk clause body span c s = (.ok id, s')) :
    ∃ first hoists s₁,
      headerHoists walk (.forPhrase clause body) c s = (.ok (first, hoists), s₁) ∧
        s'.tree.HeaderList (s'.tree.loopBody id) hoists first := by
  obtain ⟨⟨source, plan⟩, s₁, hsource, h⟩ := bind_ok.mp h
  obtain ⟨statements, s₅, hscope, h⟩ := bind_ok.mp h
  obtain ⟨s₄, hrun, rfl⟩ := inScope_ok.mp hscope
  obtain ⟨_, s₂, hbind, hrun⟩ := bind_ok.mp hrun
  obtain ⟨⟨hoisted, init, guard⟩, s₃, hheader, hrun⟩ := bind_ok.mp hrun
  obtain ⟨hoists, ⟨before, hpart⟩, hsub, hnone, hlt⟩ := phraseHeader_ok hheader
  obtain ⟨around, hbody, haround⟩ := loopBody_emitRange h
  have hgrows := (Still.run (still_emitRange plan source clause.key clause.value statements span)) c
    { s₄ with scopes := s₄.scopes.setCurrent s₁.scopes.current }
  rw [h] at hgrows
  refine ⟨init.isSome, hoists, _, bind_ok.mpr ⟨(source, plan), s₁, hsource, inScope_ok.mpr
    ⟨s₃, bind_ok.mpr ⟨_, s₂, hbind, bind_ok.mpr ⟨_, s₃, hpart, rfl⟩⟩, rfl⟩⟩, ?_⟩
  rw [hbody]
  cases guard with
  | none =>
    obtain rfl := hnone rfl
    exact ⟨List.nil_subset _, .inl rfl⟩
  | some condition =>
    obtain ⟨thenBranch, s₆, hthen, hrun⟩ := bind_ok.mp hrun
    obtain ⟨guardSpan, s₇, hspan, hrun⟩ := bind_ok.mp hrun
    obtain ⟨node, s₈, hnode, hrun⟩ := bind_ok.mp hrun
    obtain ⟨rfl, rfl⟩ := pure_ok.mp hrun
    have hnode := addNode_ok hnode
    have hquiet : Quiet extension (lowerBody walk body) := inferInstance
    have g₁ := (hquiet.run c s₃).tree
    have g₂ := ((Still.run (still_spanOf (clause.guard.getD body))) c s₆).tree
    rw [hthen] at g₁
    rw [hspan] at g₂
    have hsize : s₃.tree.size ≤ s₇.tree.size := (g₁.trans g₂).size_le
    have hindex := hnode.index
    have hsize' := hnode.size
    have hnotMem : node ∉ around ++ hoisted := by
      intro hm
      rcases List.mem_append.mp hm with hm | hm
      · have : s₈.tree.size ≤ node.index := haround node hm
        omega
      · have := hlt node hm
        omega
    refine ⟨fun id hid => ?_, .inr ⟨around ++ hoisted, node, (List.append_assoc _ _ _).symm,
      hnotMem, fun id hid => List.mem_append_right _ (hsub hid), ?_⟩⟩
    · exact List.mem_append_right _ (List.mem_append_left _ (hsub hid))
    · rw [hnode.kind_of_grows hgrows.tree]
      rfl

/-! ## Statements with headers -/

/-- What the header of a statement hoists is run after the init statement of the header, or
after the label of the statement, just in case there is nothing to run first or nothing is
hoisted. -/
theorem hoists_run_after_header_iff (depth : Nat) {c : Context} {s s' : State} {id : NodeId}
    {statement : Stmt} {ids : List HostId} (hid : c.unit.stmt? id = some statement)
    (hheader : hasHeader statement)
    (h : lowerStatement (walkWithin (depth + 1)) id c s = (.ok ids, s')) :
    ∃ first hoists s₁,
      headerHoists (walkWithin depth) statement c { s with hoisted := [] } =
        (.ok (first, hoists), s₁) ∧
      hoists ⊆ headerList s'.tree statement ids ∧
      ∀ node, (headerList s'.tree statement ids).getLast? = some node →
        (s'.tree.RunAfterFirst (headerList s'.tree statement ids) node hoists ↔
          first = false ∨ hoists = []) := by
  obtain ⟨⟨hoisted, result⟩, s₁, hstatement, hpure⟩ := bind_ok.mp h
  obtain ⟨rfl, rfl⟩ := pure_ok.mp hpure
  obtain ⟨s₂, hrun, rfl, rfl⟩ := hoisting_ok hstatement
  have hkind : lowerStmtKind (walkWithin depth) statement (c.unit.span id) c
      { s with hoisted := [] } = (.ok result, s₂) := by
    change lowerStmt (walkWithin depth) id c { s with hoisted := [] } = _ at hrun
    unfold lowerStmt at hrun
    obtain ⟨_, _, hread, hrun⟩ := bind_ok.mp hrun
    obtain ⟨hc, rfl⟩ := Prod.mk.inj hread
    obtain rfl := Except.ok.inj hc
    rw [hid] at hrun
    exact hrun
  clear hrun hstatement h hpure
  have close {first : Bool} {hoists : List HostId} {list : List HostId}
      (hl : s₂.tree.HeaderList list hoists first) :
      hoists ⊆ list ∧ ∀ node, list.getLast? = some node →
        (s₂.tree.RunAfterFirst list node hoists ↔ first = false ∨ hoists = []) :=
    ⟨hl.subset, fun node hn => hl.runAfterFirst_iff hn⟩
  cases statement with
  | ifElse init condition thenBlock elseBranch =>
    obtain ⟨node, s₃, hif, hp⟩ := bind_ok.mp hkind
    obtain ⟨rfl, rfl⟩ := pure_ok.mp hp
    obtain ⟨first, hoists, hr⟩ := headerRun_if hif rfl
    obtain ⟨s₁, hreplayed⟩ := hr.replayed
    exact ⟨first, hoists, s₁, hreplayed, close hr.headerList⟩
  | switch init tag clauses =>
    obtain ⟨node, s₃, hswitch, hp⟩ := bind_ok.mp hkind
    obtain ⟨rfl, rfl⟩ := pure_ok.mp hp
    obtain ⟨first, hoists, hr⟩ := headerRun_switch hswitch rfl
    obtain ⟨s₁, hreplayed⟩ := hr.replayed
    exact ⟨first, hoists, s₁, hreplayed, close hr.headerList⟩
  | typeSwitch init binding subject clauses =>
    obtain ⟨node, s₃, hswitch, hp⟩ := bind_ok.mp hkind
    obtain ⟨rfl, rfl⟩ := pure_ok.mp hp
    obtain ⟨first, hoists, hr⟩ := headerRun_typeSwitch hswitch rfl
    obtain ⟨s₁, hreplayed⟩ := hr.replayed
    exact ⟨first, hoists, s₁, hreplayed, close hr.headerList⟩
  | forPhrase clause body =>
    obtain ⟨node, s₃, hphrase, hp⟩ := bind_ok.mp hkind
    obtain ⟨rfl, rfl⟩ := pure_ok.mp hp
    obtain ⟨first, hoists, s₁, hreplayed, hl⟩ := headerList_forPhrase hphrase
    refine ⟨first, hoists, s₁, hreplayed, ?_⟩
    simp only [headerList, Option.toList_some, List.getLast?_concat, Option.map_some,
      Option.getD_some]
    exact close hl
  | labeled label body =>
    obtain ⟨node, hoists, rfl, hr⟩ := headerRun_labeled hkind rfl
    obtain ⟨s₁, hreplayed⟩ := hr.replayed
    exact ⟨true, hoists, s₁, hreplayed, close hr.headerList⟩
  | _ => cases hheader

/-! ### An `if` whose init statement declares what its condition uses -/

/-- `if x := b; g(x)? { }` -/
def initSample : List NodeKind :=
  [.expr (.identifier "x"), .expr (.identifier "b"), .stmt (.assign [⟨0⟩] .define [⟨1⟩]),
    .expr (.identifier "g"), .expr (.identifier "x"), .expr (.call ⟨3⟩ [⟨4⟩] false),
    .expr (.errorWrap ⟨5⟩ .propagate), .stmt (.block []),
    .stmt (.ifElse (some ⟨2⟩) ⟨6⟩ ⟨7⟩ none)]

/-- The type of `g`, which is a function from `bool` to `bool` and an error. -/
def initSampleTypes : TypeId × TypeTable :=
  TypeTable.initial.func [TypeTable.bool] [TypeTable.bool, TypeTable.error] false

def initSampleState : State :=
  .inside initSampleTypes.2 [TypeTable.error]
    [("b", TypeTable.bool), ("g", initSampleTypes.1)]

/-- The call of `g` is hoisted before the `if` that declares its argument. -/
theorem hoists_before_init :
    ∃ ids s', lowerStatement (walkWithin 4) ⟨8⟩ (.bare initSample) initSampleState =
        (.ok ids, s') ∧
      ∃ first hoists s₁, headerHoists (walkWithin 3) (.ifElse (some ⟨2⟩) ⟨6⟩ ⟨7⟩ none)
          (.bare initSample) { initSampleState with hoisted := [] } =
          (.ok (first, hoists), s₁) ∧
        ∃ node, ids.getLast? = some node ∧ ¬ s'.tree.RunAfterFirst ids node hoists :=
  ⟨[⟨6⟩, ⟨29⟩, ⟨32⟩], _, Prod.ext (by decide +kernel) rfl, true, [⟨6⟩, ⟨29⟩], _,
    Prod.ext (by decide +kernel) rfl, ⟨32⟩, rfl, by decide +kernel⟩

theorem hoists_run_after_header_iff_sample :
    (Context.bare initSample).unit.stmt? ⟨8⟩ = some (.ifElse (some ⟨2⟩) ⟨6⟩ ⟨7⟩ none) ∧
      ∃ ids s', lowerStatement (walkWithin 4) ⟨8⟩ (.bare initSample) initSampleState =
          (.ok ids, s') ∧
        ∃ first hoists s₁, headerHoists (walkWithin 3) (.ifElse (some ⟨2⟩) ⟨6⟩ ⟨7⟩ none)
            (.bare initSample) { initSampleState with hoisted := [] } =
            (.ok (first, hoists), s₁) ∧
          hoists ⊆ ids ∧ ∀ node, ids.getLast? = some node →
            (s'.tree.RunAfterFirst ids node hoists ↔ first = false ∨ hoists = []) :=
  have hid : (Context.bare initSample).unit.stmt? ⟨8⟩ =
      some (.ifElse (some ⟨2⟩) ⟨6⟩ ⟨7⟩ none) := by decide +kernel
  have hrun : lowerStatement (walkWithin 4) ⟨8⟩ (.bare initSample) initSampleState =
      (.ok [⟨6⟩, ⟨29⟩, ⟨32⟩],
        (lowerStatement (walkWithin 4) ⟨8⟩ (.bare initSample) initSampleState).2) :=
    Prod.ext (by decide +kernel) rfl
  ⟨hid, _, _, hrun, hoists_run_after_header_iff 3 hid rfl hrun⟩

end Lowering

end GoLowering
