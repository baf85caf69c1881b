import GoLowering.Proofs.Balances
import GoLowering.Proofs.NodeForms

/-!
# Parts that form nodes

A part *forms* nodes if all nodes that it makes fit, whether or not it fails, provided that
something is known where it begins; when it has run to its end, something is known of its result
(`Forms`). What a part lets be known of its result to those that use it is chosen once for each part
(`Provides`). Most parts put nodes together that they have just got, so what is known where they
make a node tells that the node fits, and `infer_instance` finds it.
-/

namespace GoLowering.Lowering

open Surface

/-- All nodes of a state fit, and what is to be put out is there. -/
structure State.Sound (c : Context) (s : State) : Prop where
  formed : c.Formed s.tree
  hoisted : ∀ id ∈ s.hoisted, id.index < s.tree.size
  output : ∀ id ∈ s.output, id.index < s.tree.size

/-- A run that has begun in a state leaves a state whose nodes fit, and something is known of its
result. -/
structure Forming (c : Context) (s : State) {α : Type} (P : α → Fact)
    (r : Except Failure α × State) : Prop where
  precedes : s.Precedes r.2
  sound : r.2.Sound c
  result : ∀ a, r.1 = .ok a → (P a).Holds r.2

/-- A part forms nodes. -/
class Forms (c : Context) (Γ : Fact) {α : Type} (m : Lower α) (P : α → Fact) : Prop where
  run {s : State} : s.Sound c → Γ.Holds s → Forming c s P (m c s)

/-- What is known of the result of a part that forms nodes, to those who use it. -/
class Provides (c : Context) (Γ : Fact) {α : Type} (m : Lower α) (P : outParam (α → Fact)) :
    Prop where
  forms : Forms c Γ m P

/-- Neither nodes nor what is to be put out has changed between two states. -/
structure SameNodes (s s' : State) : Prop where
  tree : s'.tree = s.tree
  hoisted : s'.hoisted = s.hoisted
  output : s'.output = s.output
  types : s.types.Grows s'.types

/-- A part that neither makes nor puts out nodes. -/
class Idle {α : Type} (m : Lower α) : Prop where
  run (c : Context) (s : State) : SameNodes s (m c s).2

section

variable {c : Context} {Γ φ : Fact} {α β γ : Type} {m : Lower α} {f : α → Lower β} {P Q : α → Fact}
  {R : β → Fact} {s s' : State}

/-! ## Idle parts -/

theorem SameNodes.refl (s : State) : SameNodes s s := ⟨rfl, rfl, rfl, .refl _⟩

theorem SameNodes.trans {s₁ s₂ s₃ : State} (h₁ : SameNodes s₁ s₂) (h₂ : SameNodes s₂ s₃) :
    SameNodes s₁ s₃ :=
  ⟨h₂.tree.trans h₁.tree, h₂.hoisted.trans h₁.hoisted, h₂.output.trans h₁.output,
    h₁.types.trans h₂.types⟩

theorem SameNodes.precedes (h : SameNodes s s') : s.Precedes s' := ⟨h.tree ▸ .refl _, h.types⟩

theorem SameNodes.sound (h : SameNodes s s') (hs : s.Sound c) : s'.Sound c := by
  obtain ⟨hformed, hhoisted, houtput⟩ := hs
  exact ⟨h.tree ▸ hformed, h.hoisted ▸ h.tree ▸ hhoisted, h.output ▸ h.tree ▸ houtput⟩

instance idle_reads [h : Reads m] : Idle m :=
  ⟨fun c s => (h.state_eq c s).symm ▸ .refl s⟩

instance idle_bind [hm : Idle m] [hf : ∀ a, Idle (f a)] : Idle (m >>= f) where
  run c s := by
    have h := hm.run c s
    rw [run_bind]
    rcases hrun : m c s with ⟨r, s₁⟩
    rw [hrun] at h
    cases r with
    | error failure => exact h
    | ok a => exact h.trans ((hf a).run c s₁)

theorem Idle.before [Idle m] (hf : ∀ a, Idle (f a)) : Idle (m >>= f) := idle_bind

instance idle_map {g : α → β} [Idle m] : Idle (g <$> m) := by
  rw [map_eq_pure_bind]
  infer_instance

instance idle_ite {p : Prop} [Decidable p] {n : Lower α} [hm : Idle m] [hn : Idle n] :
    Idle (if p then m else n) := by
  split
  · exact hm
  · exact hn

instance idle_forM {g : γ → Lower PUnit} {xs : List γ} [h : ∀ x, Idle (g x)] :
    Idle (xs.forM g) := by
  induction xs with
  | nil => exact idle_reads (m := pure _)
  | cons x xs ih => exact idle_bind

instance idle_allM {g : γ → Lower Bool} {xs : List γ} [h : ∀ x, Idle (g x)] :
    Idle (xs.allM g) := by
  induction xs with
  | nil => exact idle_reads (m := pure true)
  | cons x xs ih =>
    refine Idle.before (fun b => ?_)
    cases b with
    | true => exact ih
    | false => exact idle_reads (m := pure false)

/-! ## Sequences -/

theorem Forms.pure {a : α} (h : Yields Γ (P a)) : Forms c Γ (Pure.pure a) P := by
  refine ⟨fun hs hΓ => ⟨.refl _, hs, fun b hb => ?_⟩⟩
  obtain rfl := Except.ok.inj hb
  exact h.of hΓ

theorem Forms.bind (hm : Forms c Γ m P) (hf : ∀ a, Forms c (Γ.and (P a)) (f a) R) :
    Forms c Γ (m >>= f) R := by
  refine ⟨fun {s} hs hΓ => ?_⟩
  have h := hm.run hs hΓ
  rw [run_bind]
  rcases hrun : m c s with ⟨r, s₁⟩
  rw [hrun] at h
  cases r with
  | error failure => exact ⟨h.precedes, h.sound, nofun⟩
  | ok a =>
    have h' := (hf a).run h.sound ⟨Γ.stays h.precedes hΓ, h.result a rfl⟩
    exact ⟨h.precedes.trans h'.precedes, h'.sound, h'.result⟩

theorem Forms.weaken (hm : Forms c Γ m P) (h : ∀ a, Yields (Γ.and (P a)) (Q a)) :
    Forms c Γ m Q := by
  refine ⟨fun hs hΓ => ?_⟩
  have hrun := hm.run hs hΓ
  exact ⟨hrun.precedes, hrun.sound, fun a ha =>
    (h a).of ⟨Γ.stays hrun.precedes hΓ, hrun.result a ha⟩⟩

/-- What is known lets something else be known first. -/
theorem Forms.given [h : Yields Γ φ] (hm : Forms c (Γ.and φ) m P) : Forms c Γ m P :=
  ⟨fun hs hΓ => hm.run hs ⟨hΓ, h.of hΓ⟩⟩

theorem Forms.knowing {p : Prop} [h : Yields Γ (.known p)] (hm : p → Forms c Γ m P) :
    Forms c Γ m P :=
  ⟨fun hs hΓ => (hm (h.of hΓ)).run hs hΓ⟩

/-- Of the result of an idle part that runs to its end something may be known at once. -/
theorem Forms.idle [hm : Idle m]
    (h : ∀ s a s', Γ.Holds s → m c s = (.ok a, s') → (P a).Holds s') : Forms c Γ m P :=
  ⟨fun {s} hs hΓ => ⟨(hm.run c s).precedes, (hm.run c s).sound hs, fun a ha =>
    h s a _ hΓ (Prod.ext ha rfl)⟩⟩

theorem Forms.skip [hm : Idle m] (hf : ∀ a, Forms c Γ (f a) R) : Forms c Γ (m >>= f) R :=
  (Forms.idle (P := fun _ => .known True) (fun _ _ _ _ _ => trivial)).bind (fun a =>
    ⟨fun hs hΓ => (hf a).run hs hΓ.1⟩)

instance forms_pure {a : α} [h : Yields Γ (P a)] : Forms c Γ (pure a) P := .pure h

instance (priority := low) forms_provided [hm : Provides c Γ m Q]
    [h : ∀ a, Yields (Γ.and (Q a)) (P a)] : Forms c Γ m P :=
  hm.forms.weaken h

instance (priority := low) forms_failing [Idle m] [hm : Fails m] : Forms c Γ m P :=
  .idle (fun _ _ _ _ hrun => absurd hrun hm.fails)

instance (priority := low) forms_idle [hm : Idle m] [h : ∀ a, Yields Γ (P a)] : Forms c Γ m P :=
  ⟨fun {s} hs hΓ => ⟨(hm.run c s).precedes, (hm.run c s).sound hs, fun a _ =>
    (P a).stays (hm.run c s).precedes ((h a).of hΓ)⟩⟩

instance forms_bind [hm : Provides c Γ m P] [hf : ∀ a, Forms c (Γ.and (P a)) (f a) R] :
    Forms c Γ (m >>= f) R :=
  hm.forms.bind hf

instance (priority := low) forms_skip [Idle m] [hf : ∀ a, Forms c Γ (f a) R] :
    Forms c Γ (m >>= f) R :=
  .skip hf

instance forms_failing_bind [Idle m] [hm : Fails m] : Forms c Γ (m >>= f) R :=
  (Forms.idle (P := fun _ => .known False) (fun _ _ _ _ hrun => absurd hrun hm.fails)).bind
    (fun _ => ⟨fun _ hΓ => hΓ.2.elim⟩)

instance forms_return {a : α} [h : Forms c Γ (f a) R] : Forms c Γ (pure a >>= f) R := by
  rwa [pure_bind]

instance forms_ite {p : Prop} [Decidable p] {n : Lower α} [hm : Forms c Γ m P]
    [hn : Forms c Γ n P] : Forms c Γ (if p then m else n) P := by
  split
  · exact hm
  · exact hn

theorem Forms.read {g : Context → Lower α} (h : Forms c Γ (g c) P) : Forms c Γ (read >>= g) P :=
  ⟨h.run⟩

instance forms_read {g : Context → Lower α} [h : Forms c Γ (g c) P] :
    Forms c Γ (read >>= g) P :=
  h.read

instance forms_map {g : α → β} [h : Forms c Γ (m >>= fun a => pure (g a)) R] :
    Forms c Γ (g <$> m) R := by
  rwa [map_eq_pure_bind]

instance forms_map_bind {g : α → β} {k : β → Lower γ} {R : γ → Fact}
    [h : Forms c Γ (m >>= fun a => k (g a)) R] : Forms c Γ ((g <$> m) >>= k) R := by
  rwa [map_eq_pure_bind, bind_assoc, funext fun a => pure_bind (g a) k]

/-! ## Lists -/

/-- A part is run for each of some things, of each of which something is known. -/
theorem Forms.mapM {g : γ → Lower α} {xs : List γ} (K : γ → Fact) [hxs : Yields Γ (.each K xs)]
    (h : ∀ x ∈ xs, ∀ Δ : Fact, Forms c (Δ.and (K x)) (g x) P) :
    Forms c Γ (xs.mapM g) (.each P) := by
  induction xs generalizing Γ with
  | nil => exact .pure yields_nil
  | cons x xs ih =>
    have hx : Yields Γ (K x) := ⟨fun hs => hxs.of hs x List.mem_cons_self⟩
    have hrest : Yields Γ (.each K xs) :=
      ⟨fun hs y hy => hxs.of hs y (List.mem_cons_of_mem x hy)⟩
    rw [List.mapM_cons]
    refine Forms.bind (.given (φ := K x) (h x List.mem_cons_self Γ)) (fun a => ?_)
    refine (ih (fun y hy => h y (List.mem_cons_of_mem x hy))).bind (fun as => ?_)
    infer_instance

instance provides_mapM {g : γ → Lower α} {xs : List γ} [h : ∀ x Δ, Provides c Δ (g x) P] :
    Provides c Γ (xs.mapM g) (.each P) :=
  have : Yields Γ (.each (fun _ => .nothing) xs) := ⟨fun _ _ _ => trivial⟩
  ⟨.mapM (fun _ => .nothing) (fun x _ _ => (h x _).forms)⟩

instance provides_optionMapM {g : γ → Lower α} {x : Option γ} [h : ∀ x Δ, Provides c Δ (g x) P] :
    Provides c Γ (x.mapM g) (fun r => .each P r.toList) := by
  constructor
  cases x with
  | none => exact .pure yields_none
  | some x => exact forms_map

/-! ## Steps -/

instance idle_onTypes {f : TypeTable → α × TypeTable} [h : TypeTable.Adds f] : Idle (onTypes f) :=
  ⟨fun _ s => ⟨rfl, rfl, rfl, (h.begins s.types).grows⟩⟩

instance idle_define (named definition : TypeId) :
    Idle (modify (fun s => { s with types := s.types.define named definition }) : Lower Unit) :=
  ⟨fun _ s => ⟨rfl, rfl, rfl, s.types.grows_define named definition⟩⟩

/-- A step that leaves nodes, types and the output alone. -/
theorem idle_modify {g : State → State} (htree : ∀ s, (g s).tree = s.tree)
    (hhoisted : ∀ s, (g s).hoisted = s.hoisted) (houtput : ∀ s, (g s).output = s.output)
    (htypes : ∀ s, (g s).types = s.types) : Idle (modify g : Lower Unit) :=
  ⟨fun _ s => ⟨htree s, hhoisted s, houtput s, (htypes s).symm ▸ .refl _⟩⟩

instance idle_bindName (name : String) (symbol : Symbol) : Idle (Lowering.bind name symbol) :=
  idle_modify (fun _ => rfl) (fun _ => rfl) (fun _ => rfl) (fun _ => rfl)

instance idle_modifyScopes (scopes : Scopes) :
    Idle (modify (fun s => { s with scopes := scopes }) : Lower Unit) :=
  idle_modify (fun _ => rfl) (fun _ => rfl) (fun _ => rfl) (fun _ => rfl)

instance idle_bindNew (span : Span) (name : String) (symbol : Symbol) :
    Idle (bindNew span name symbol) := by
  unfold bindNew
  refine Idle.before (fun s => ?_)
  split <;> infer_instance

instance idle_modifyGlobals (g : State → Keyed String Global) :
    Idle (modify (fun s => { s with globals := g s }) : Lower Unit) :=
  idle_modify (fun _ => rfl) (fun _ => rfl) (fun _ => rfl) (fun _ => rfl)

instance idle_warn (problem : Problem) (span : Span) : Idle (warn problem span) :=
  idle_modify (fun _ => rfl) (fun _ => rfl) (fun _ => rfl) (fun _ => rfl)

instance idle_note (event : Event) : Idle (note event) :=
  idle_modify (fun _ => rfl) (fun _ => rfl) (fun _ => rfl) (fun _ => rfl)

instance idle_noteLiteral (id : HostId) (statements : List HostId) :
    Idle (noteLiteral id statements) :=
  idle_modify (fun _ => rfl) (fun _ => rfl) (fun _ => rfl) (fun _ => rfl)

instance provides_freshName : Provides c Γ freshName (fun name => .known (c.Declares name)) :=
  have : Idle freshName := ⟨fun _ _ => ⟨rfl, rfl, rfl, .refl _⟩⟩
  ⟨.idle (fun s _ _ _ hrun => .temporary (s.temporaries + 1)
    (Except.ok.inj (Prod.mk.inj hrun).1).symm)⟩

instance provides_hoist {id : HostId} [h : Yields Γ (.node id)] :
    Provides c Γ (hoist id) (fun _ => .nothing) :=
  ⟨⟨fun {s} hs hΓ => ⟨⟨.refl s.tree, .refl s.types⟩, ⟨hs.formed, List.forall_mem_append.mpr
    ⟨hs.hoisted, List.forall_mem_singleton.mpr (show id.index < s.tree.size from h.of hΓ)⟩,
    hs.output⟩, fun _ _ => trivial⟩⟩⟩

instance provides_takeHoisted : Provides c Γ takeHoisted (.each .node) := by
  refine ⟨⟨fun {s} hs _ => ⟨⟨.refl s.tree, .refl s.types⟩, ⟨hs.formed, nofun, hs.output⟩,
    fun ids hids => ?_⟩⟩⟩
  obtain rfl := Except.ok.inj hids
  exact hs.hoisted

/-! ## Parts under changes of the state -/

/-- What is run under changes of the state that concern no nodes forms nodes. -/
theorem Forms.within {enter : State → State} {leave : State → State → State}
    (henter : ∀ s, (enter s).tree = s.tree ∧ (enter s).types = s.types ∧
      (∀ id ∈ (enter s).hoisted, id ∈ s.hoisted) ∧ (enter s).output = s.output)
    (hleave : ∀ s s', (leave s s').tree = s'.tree ∧ (leave s s').types = s'.types ∧
      (∀ id ∈ (leave s s').hoisted, id ∈ s.hoisted ∨ id ∈ s'.hoisted) ∧
      (leave s s').output = s'.output)
    (h : Forms c Γ m P) : Forms c Γ (within enter leave m) P := by
  refine ⟨fun {s} hs hΓ => ?_⟩
  obtain ⟨htree, htypes, hhoisted, houtput⟩ := henter s
  have hbegin : s.Precedes (enter s) := ⟨htree ▸ .refl _, htypes ▸ .refl _⟩
  obtain ⟨hprecedes, hsound, hresult⟩ := h.run (s := enter s)
    ⟨htree ▸ hs.formed, fun id hid => htree ▸ hs.hoisted id (hhoisted id hid),
      houtput ▸ htree ▸ hs.output⟩ (Γ.stays hbegin hΓ)
  rw [run_within]
  generalize (m c (enter s)).2 = s' at hprecedes hsound hresult ⊢
  obtain ⟨htree', htypes', hhoisted', houtput'⟩ := hleave s s'
  have hend : s'.Precedes (leave s s') := ⟨htree' ▸ .refl _, htypes' ▸ .refl _⟩
  refine ⟨(hbegin.trans hprecedes).trans hend, ⟨htree' ▸ hsound.formed, fun id hid => ?_,
    houtput' ▸ htree' ▸ hsound.output⟩, fun a ha => (P a).stays hend (hresult a ha)⟩
  rcases hhoisted' id hid with hid | hid
  · exact Nat.lt_of_lt_of_le (hs.hoisted id hid)
      ((hbegin.trans hprecedes).trans hend).tree.size_le
  · exact htree' ▸ hsound.hoisted id hid

theorem Forms.inScope {kind : ScopeKind} (h : Forms c Γ m P) : Forms c Γ (inScope kind m) P :=
  h.within (fun _ => ⟨rfl, rfl, fun _ => id, rfl⟩) (fun _ _ => ⟨rfl, rfl, fun _ => .inr, rfl⟩)

theorem Forms.inFunction {kind : ScopeKind} {results : List TypeId} (h : Forms c Γ m P) :
    Forms c Γ (inFunction kind results m) P :=
  h.within (fun _ => ⟨rfl, rfl, nofun, rfl⟩) (fun _ _ => ⟨rfl, rfl, fun _ => .inl, rfl⟩)

theorem Forms.inFrame {name : String} (h : Forms c Γ m P) : Forms c Γ (inFrame name m) P :=
  h.within (fun _ => ⟨rfl, rfl, fun _ => id, rfl⟩) (fun _ _ => ⟨rfl, rfl, fun _ => .inr, rfl⟩)

theorem Forms.atPackageLevel (h : Forms c Γ m P) : Forms c Γ (atPackageLevel m) P := by
  unfold Lowering.atPackageLevel
  refine .read ?_
  exact h.within (fun _ => ⟨rfl, rfl, nofun, rfl⟩) (fun _ _ => ⟨rfl, rfl, fun _ => .inl, rfl⟩)

instance provides_inScope {kind : ScopeKind} [h : Provides c Γ m P] :
    Provides c Γ (inScope kind m) P :=
  ⟨h.forms.inScope⟩

instance provides_hoisting [h : Provides c Γ m P] :
    Provides c Γ (hoisting m) (fun r => (Fact.each .node r.1).and (P r.2)) := by
  refine ⟨Forms.within (fun _ => ⟨rfl, rfl, nofun, rfl⟩) (fun _ _ => ⟨rfl, rfl, fun _ => .inl, rfl⟩)
    (h.forms.bind (fun a => ?_))⟩
  refine provides_takeHoisted.forms.bind (fun ids => ?_)
  infer_instance

/-! ## Nodes -/

theorem made_of_kind {kind : HostKind} {id : HostId} (hid : id.index < s.tree.size)
    (hkind : s.tree.kind id = kind) : (Fact.made kind id).Holds s := by
  cases kind
  all_goals first | exact hid | exact ⟨hid, congrArg HostKind.isInline hkind⟩

theorem forms_addNode {P : HostId → Fact} {kind : HostKind} {origin : Option Span}
    [h : Yields Γ (.fits c kind)]
    (hP : ∀ {s : State} {id : HostId}, id.index < s.tree.size → s.tree.kind id = kind →
      (P id).Holds s) :
    Forms c Γ (addNode kind origin) P := by
  refine ⟨fun {s} hs hΓ => ?_⟩
  have hgrows := s.tree.grows_add kind origin
  rw [run_addNode]
  refine ⟨⟨hgrows, .refl _⟩, ⟨hs.formed.add (h.of hΓ) origin, fun id hid => ?_, fun id hid => ?_⟩,
    fun id hid => ?_⟩
  · exact Nat.lt_of_lt_of_le (hs.hoisted id hid) hgrows.size_le
  · exact Nat.lt_of_lt_of_le (hs.output id hid) hgrows.size_le
  · obtain rfl := Except.ok.inj hid
    refine hP ?_ (s.tree.kind_add kind origin)
    exact Nat.lt_of_lt_of_eq (Nat.lt_succ_self _) (s.tree.size_add kind origin).symm

instance provides_addNode {kind : HostKind} {origin : Option Span} [Yields Γ (.fits c kind)] :
    Provides c Γ (addNode kind origin) (.made kind) :=
  ⟨forms_addNode made_of_kind⟩

instance provides_place {kind : HostKind} {span : Span} [Yields Γ (.fits c kind)] :
    Provides c Γ (place kind span) (.made kind) :=
  provides_addNode

instance provides_scaffold {kind : HostKind} [Yields Γ (.fits c kind)] :
    Provides c Γ (scaffold kind) (.made kind) :=
  provides_addNode

/-- A node of any kind is there once it is placed. -/
theorem forms_place {kind : HostKind} {span : Span} [Yields Γ (.fits c kind)] :
    Forms c Γ (place kind span) .node :=
  forms_addNode (fun hid _ => hid)

instance provides_identNode {name : String} : Provides c Γ (identNode name) .inline :=
  provides_scaffold

/-- A name that can be declared. -/
theorem forms_declarable {name : String} [h : c.Declares name] {origin : Option Span} :
    Forms c Γ (addNode (.identifier name) origin)
      (fun id => (Fact.inline id).and (.declarable c id)) :=
  forms_addNode (fun hid hkind =>
    ⟨⟨hid, congrArg HostKind.isInline hkind⟩, hid, name, hkind, h⟩)

instance (priority := high) provides_declarableNode {name : String} [c.Declares name] :
    Provides c Γ (identNode name) (fun id => (Fact.inline id).and (.declarable c id)) :=
  ⟨forms_declarable⟩

instance provides_qualifiedNode {package name : String} :
    Provides c Γ (qualifiedNode package name) .inline :=
  provides_scaffold

instance provides_literalNode {text : String} : Provides c Γ (literalNode text) .inline :=
  provides_scaffold

section

variable {id left right : HostId} {ids args : List HostId}

instance provides_callNode [Yields Γ (.inline id)] [Yields Γ (.each (.loose c) args)] :
    Provides c Γ (callNode id args) .inline :=
  provides_scaffold

instance provides_selectorNode {name : String} [Yields Γ (.inline id)] :
    Provides c Γ (selectorNode id name) .inline :=
  provides_scaffold

instance provides_binaryNode {op : BinaryOp} [Yields Γ (.inline left)] [Yields Γ (.inline right)] :
    Provides c Γ (binaryNode op left right) .inline :=
  provides_scaffold

instance provides_unaryNode {op : UnaryOp} [Yields Γ (.inline id)] :
    Provides c Γ (unaryNode op id) .inline :=
  provides_scaffold

instance provides_assignNode [Yields Γ (.each .inline ids)] [Yields Γ (.each .inline args)] :
    Provides c Γ (assignNode ids args) .inline :=
  provides_scaffold

instance provides_defineNode [Yields Γ (.each (.declarable c) ids)]
    [Yields Γ (.each .inline args)] : Provides c Γ (defineNode ids args) .inline :=
  provides_scaffold

instance provides_blockNode [Yields Γ (.each .node ids)] : Provides c Γ (blockNode ids) .node :=
  provides_scaffold

instance provides_returnNode [Yields Γ (.each .inline ids)] :
    Provides c Γ (returnNode ids) .inline :=
  provides_scaffold

instance provides_typeNode {type : TypeId} : Provides c Γ (typeNode type) .inline :=
  provides_scaffold

end

/-- A walk whose parts form nodes: expressions become operands, and statements statements. -/
class Walk.Forms (c : Context) (walk : Walk) : Prop where
  expr (Γ : Fact) (id : NodeId) (expect : Expectation) :
    Provides c Γ (walk.expr id expect) (.operand c)
  statement (Γ : Fact) (id : NodeId) :
    Provides c Γ (walk.statement id)
      (fun r => (Fact.each .node r.toList).and (.each (.statement c id) r.toList))
  type (Γ : Fact) (id : NodeId) : Provides c Γ (walk.type id) (fun _ => .nothing)
  target (Γ : Fact) (id : NodeId) : Provides c Γ (walk.target id) (fun _ => .nothing)
  value (Γ : Fact) (root : NodeId) (name : String) (span : Span) :
    Provides c Γ (walk.value root name span) (fun _ => .nothing)

attribute [instance] Walk.Forms.expr Walk.Forms.statement Walk.Forms.type Walk.Forms.target
  Walk.Forms.value

end

instance declares_blank {c : Context} : c.Declares Names.blank := .blank rfl

instance declares_found {c : Context} : c.Declares Names.ok := .found rfl

instance declares_iterator {c : Context} : c.Declares Names.iterator := .iterator rfl

instance declares_parsed {c : Context} : c.Declares "v" := .parsed rfl

instance declares_err {c : Context} : c.Declares Names.err := .reserved (.inl rfl)

end GoLowering.Lowering
