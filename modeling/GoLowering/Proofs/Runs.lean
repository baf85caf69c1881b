import Mathlib.Data.List.Basic
import Mathlib.Logic.Relation
import Mathlib.Order.Defs.Unbundled
import GoLowering.Host.Imports
import GoLowering.Lowering.Nodes

/-!
# Runs of a lowering

Trees, tables of types and scopes only grow while a unit is lowered (`HostTree.Grows`,
`TypeTable.Grows`, `Scopes.Grows`). A run of a part of the lowering is a run of the parts that it
is put together from, one after the other (`run_bind`, `bind_ok`).
-/

namespace GoLowering

namespace HostTree

/-- The nodes of the first tree are the first ones of the second. -/
def Grows (t u : HostTree) : Prop := t.nodes.toList <+: u.nodes.toList

theorem Grows.refl (t : HostTree) : Grows t t := List.prefix_rfl

theorem Grows.trans {t u v : HostTree} (h₁ : Grows t u) (h₂ : Grows u v) : Grows t v :=
  List.IsPrefix.trans h₁ h₂

theorem Grows.size_le {t u : HostTree} (h : Grows t u) : t.size ≤ u.size := by
  have := List.IsPrefix.length_le h
  simpa [size] using this

theorem Grows.get? {t u : HostTree} (h : Grows t u) {id : HostId} {node : HostNode}
    (hn : t.get? id = some node) : u.get? id = some node := by
  obtain ⟨rest, hrest⟩ := h
  simp only [HostTree.get?, ← Array.getElem?_toList] at hn ⊢
  rw [← hrest]
  exact List.getElem?_append_left (List.getElem?_eq_some_iff.mp hn).1 ▸ hn

theorem grows_add (t : HostTree) (kind : HostKind) (origin : Option Span) :
    Grows t (t.add kind origin).2 := by
  simp [Grows, add]

@[simp] theorem size_add (t : HostTree) (kind : HostKind) (origin : Option Span) :
    (t.add kind origin).2.size = t.size + 1 := by
  simp [size, add]

@[simp] theorem index_add (t : HostTree) (kind : HostKind) (origin : Option Span) :
    (t.add kind origin).1.index = t.size := rfl

theorem get?_add (t : HostTree) (kind : HostKind) (origin : Option Span) :
    (t.add kind origin).2.get? (t.add kind origin).1 = some ⟨kind, origin⟩ := by
  simp [get?, add]

theorem kind_add (t : HostTree) (kind : HostKind) (origin : Option Span) :
    (t.add kind origin).2.kind ⟨t.size⟩ = kind := by
  simp [HostTree.kind, show (t.add kind origin).2.get? ⟨t.size⟩ = some ⟨kind, origin⟩ from
    t.get?_add kind origin]

theorem Grows.kind_eq {t u : HostTree} (h : t.Grows u) {id : HostId} (hid : id.index < t.size) :
    u.kind id = t.kind id := by
  obtain ⟨node, hn⟩ : ∃ node, t.get? id = some node := ⟨_, Array.getElem?_eq_getElem hid⟩
  simp only [kind, hn, h.get? hn]

/-- A node is another one or stands above it. -/
def Reaches (t : HostTree) : HostId → HostId → Prop :=
  Relation.ReflTransGen (fun a b => b ∈ (t.kind a).children)

theorem reaches_iff {t : HostTree} {a b : HostId} :
    t.Reaches a b ↔ a = b ∨ ∃ child ∈ (t.kind a).children, t.Reaches child b := by
  constructor
  · intro h
    rcases Relation.ReflTransGen.cases_head h with he | ⟨child, hc, hr⟩
    · exact .inl he
    · exact .inr ⟨child, hc, hr⟩
  · rintro (rfl | ⟨child, hc, hr⟩)
    · exact .refl
    · exact .head hc hr

theorem reaches_child {t : HostTree} {a b : HostId} (h : b ∈ (t.kind a).children) :
    t.Reaches a b :=
  Relation.ReflTransGen.single h

end HostTree

namespace TypeTable

/-- The types of the first table are types of the second; only named types may have been given
another definition. -/
def Grows (t u : TypeTable) : Prop :=
  ∀ id, id.index < t.size → id.index < u.size ∧
    (u.get id = t.get id ∨ (t.get id).isNamed ∧ (u.get id).isNamed)

theorem Grows.refl (t : TypeTable) : Grows t t := fun _ h => ⟨h, .inl rfl⟩

theorem Grows.trans {t u v : TypeTable} (h₁ : Grows t u) (h₂ : Grows u v) : Grows t v := by
  intro id hid
  obtain ⟨hid', h⟩ := h₁ id hid
  obtain ⟨hid'', h'⟩ := h₂ id hid'
  refine ⟨hid'', ?_⟩
  rcases h' with he | ⟨hn, hn'⟩
  · rw [he]
    exact h
  · rcases h with he | ⟨hn₀, -⟩
    · exact .inr ⟨he ▸ hn, hn'⟩
    · exact .inr ⟨hn₀, hn'⟩

/-- The types of the first table are the first ones of the second, as they were. -/
def Begins (t u : TypeTable) : Prop := t.entries.toList <+: u.entries.toList

theorem Begins.refl (t : TypeTable) : Begins t t := List.prefix_rfl

theorem Begins.trans {t u v : TypeTable} (h₁ : Begins t u) (h₂ : Begins u v) : Begins t v :=
  List.IsPrefix.trans h₁ h₂

theorem Begins.size_le {t u : TypeTable} (h : Begins t u) : t.size ≤ u.size := by
  have := List.IsPrefix.length_le h
  simpa [size] using this

theorem Begins.get_eq {t u : TypeTable} (h : Begins t u) {id : TypeId}
    (hid : id.index < t.size) : u.get id = t.get id := by
  obtain ⟨rest, hrest⟩ := h
  have hlist : id.index < t.entries.toList.length := by simpa [size] using hid
  simp only [get, Array.getD_eq_getD_getElem?, ← Array.getElem?_toList, ← hrest]
  rw [List.getElem?_append_left hlist]

theorem Begins.grows {t u : TypeTable} (h : Begins t u) : Grows t u :=
  fun _ hid => ⟨Nat.lt_of_lt_of_le hid h.size_le, .inl (h.get_eq hid)⟩

theorem begins_push (t : TypeTable) (entry : Ty) : Begins t (t.push entry).2 := by
  simp [Begins, push]

theorem begins_intern (t : TypeTable) (entry : Ty) : Begins t (t.intern entry).2 := by
  unfold intern
  split
  · exact .refl t
  · exact begins_push t entry

theorem begins_declareNamed (t : TypeTable) (package : Option String) (name : String) :
    Begins t (t.declareNamed package name).2 := by
  unfold declareNamed
  split
  · exact .refl t
  · exact begins_push t _

/-- An operation on tables that adds to them and gives back something of what it has added. -/
class Adds {α : Type} (f : TypeTable → α × TypeTable) : Prop where
  begins (t : TypeTable) : Begins t (f t).2

instance (target : TypeId) : Adds (·.pointer target) := ⟨fun t => t.begins_intern _⟩

instance (element : TypeId) : Adds (·.slice element) := ⟨fun t => t.begins_intern _⟩

instance (element : TypeId) (length : Nat) : Adds (·.array element length) :=
  ⟨fun t => t.begins_intern _⟩

instance (key value : TypeId) : Adds (·.map key value) := ⟨fun t => t.begins_intern _⟩

instance (element : TypeId) (dir : ChanDir) : Adds (·.chan element dir) :=
  ⟨fun t => t.begins_intern _⟩

instance (params results : List TypeId) (variadic : Bool) : Adds (·.func params results variadic) :=
  ⟨fun t => t.begins_intern _⟩

instance (fields : List Field) : Adds (·.struct fields) := ⟨fun t => t.begins_intern _⟩

instance (methods : List InterfaceMethod) : Adds (·.interface methods) :=
  ⟨fun t => t.begins_intern _⟩

instance (elements : List TypeId) : Adds (·.tuple elements) := ⟨fun t => t.begins_intern _⟩

instance (package : Option String) (name : String) : Adds (·.declareNamed package name) :=
  ⟨fun t => t.begins_declareNamed package name⟩

theorem grows_define (t : TypeTable) (named definition : TypeId) :
    Grows t (t.define named definition) := by
  unfold define
  split
  · rename_i package name previous hget
    intro id hid
    have hid' : id.index < t.entries.size := hid
    refine ⟨by simpa [size] using hid', ?_⟩
    by_cases h : id.index = named.index
    · obtain rfl : id = named := by
        cases id
        cases named
        exact congrArg TypeId.mk h
      refine .inr ⟨by rw [hget]; rfl, ?_⟩
      simp [get, hid', Ty.isNamed]
    · refine .inl ?_
      simp [get, Ne.symm h]
  · exact .refl t

theorem index_lt_of_get {t : TypeTable} {id : TypeId} (h : t.get id ≠ .invalid) :
    id.index < t.size := by
  by_contra hlt
  exact h (by simp [get, show ¬ id.index < t.entries.size from hlt])

theorem Grows.get_eq {t u : TypeTable} (h : t.Grows u) {id : TypeId}
    (hi : t.get id ≠ .invalid) (hn : (t.get id).isNamed = false) : u.get id = t.get id := by
  rcases (h id (index_lt_of_get hi)).2 with he | ⟨hn', -⟩
  · exact he
  · rw [hn] at hn'
    cases hn'

theorem isInvalid_eq_false {t : TypeTable} {id : TypeId} :
    t.isInvalid id = false ↔ t.get id ≠ .invalid := beq_eq_false_iff_ne

theorem Grows.isUntyped_eq {t u : TypeTable} (h : t.Grows u) {id : TypeId}
    (hi : t.isInvalid id = false) : u.isUntyped id = t.isUntyped id := by
  rw [TypeTable.isInvalid_eq_false] at hi
  simp only [isUntyped]
  rcases (h id (index_lt_of_get hi)).2 with he | ⟨hn, hn'⟩
  · rw [he]
  · cases ht : t.get id <;> rw [ht] at hn <;> cases hn
    cases hu : u.get id <;> first | rfl | (rw [hu] at hn'; cases hn')

theorem Grows.isUntyped_of {t u : TypeTable} (h : t.Grows u) {id : TypeId}
    (hu : t.isUntyped id = true) : u.isUntyped id = true := by
  rw [h.isUntyped_eq ?_, hu]
  rw [TypeTable.isInvalid_eq_false]
  intro hi
  simp [isUntyped, hi] at hu

end TypeTable

namespace Scopes

/-- The scopes of the first are scopes of the second, in which more names may be bound. -/
def Grows (s t : Scopes) : Prop :=
  ∀ id scope, s.get? id = some scope → ∃ symbols, t.get? id = some { scope with symbols }

theorem Grows.refl (s : Scopes) : Grows s s := fun _ scope h => ⟨scope.symbols, h⟩

theorem Grows.trans {s t u : Scopes} (h₁ : Grows s t) (h₂ : Grows t u) : Grows s u := by
  intro id scope h
  obtain ⟨symbols, h⟩ := h₁ id scope h
  exact h₂ id { scope with symbols } h

theorem grows_push (s : Scopes) (kind : ScopeKind) : Grows s (s.push kind) := by
  intro id scope h
  have hid : id.index < s.scopes.size := (Array.getElem?_eq_some_iff.mp h).1
  refine ⟨scope.symbols, ?_⟩
  rw [get?, push, Array.getElem?_push_lt hid]
  exact (Array.getElem?_eq_getElem hid).symm.trans h

theorem grows_define {s s' : Scopes} {name : String} {symbol : Symbol}
    (h : s.define name symbol = .ok s') : Grows s s' := by
  unfold define at h
  split at h
  · cases h
    exact .refl s
  · split at h <;> cases h
    intro id scope hscope
    rw [get?] at hscope
    by_cases hid : s.current.index = id.index
    · exact ⟨scope.symbols ++ [(name, symbol)], by simp [get?, Array.getElem?_modify, hid, hscope]⟩
    · exact ⟨scope.symbols, by simp [get?, Array.getElem?_modify, hid, hscope]⟩

end Scopes

namespace Lowering

/-! ## Runs -/

/-- Nodes made between two states. -/
def MadeBetween (s s' : State) (id : HostId) : Prop :=
  s.tree.size ≤ id.index ∧ id.index < s'.tree.size

theorem MadeBetween.mono {s₁ s₂ s₃ s₄ : State} {id : HostId} (h : MadeBetween s₂ s₃ id)
    (h₁ : s₁.tree.Grows s₂.tree) (h₂ : s₃.tree.Grows s₄.tree) : MadeBetween s₁ s₄ id :=
  ⟨Nat.le_trans h₁.size_le h.1, Nat.lt_of_lt_of_le h.2 h₂.size_le⟩

variable {α β : Type}

theorem run_bind (m : Lower α) (f : α → Lower β) (c : Context) (s : State) :
    (m >>= f) c s =
      match m c s with
      | (.ok a, s') => f a c s'
      | (.error e, s') => (.error e, s') := by
  change ExceptT.bindCont (fun a => f a c) (m c s).1 (m c s).2 = _
  rcases m c s with ⟨r, s'⟩
  cases r <;> rfl

theorem bind_ok {m : Lower α} {f : α → Lower β} {c : Context} {s s' : State} {b : β} :
    (m >>= f) c s = (.ok b, s') ↔
      ∃ a s₁, m c s = (.ok a, s₁) ∧ f a c s₁ = (.ok b, s') := by
  rw [run_bind]
  constructor
  · intro h
    rcases hm : m c s with ⟨r, s₁⟩
    rw [hm] at h
    cases r with
    | error e => cases h
    | ok a => exact ⟨a, s₁, rfl, h⟩
  · rintro ⟨a, s₁, hm, h⟩
    rw [hm]
    exact h

theorem exists_ok {m : Lower α} {c : Context} {s : State} (h : (m c s).1.isOk = true) :
    ∃ a s', m c s = (.ok a, s') := by
  rcases hm : m c s with ⟨r, s'⟩
  rw [hm] at h
  cases r with
  | error e => cases h
  | ok a => exact ⟨a, s', rfl⟩

theorem pure_ok {a b : α} {c : Context} {s s' : State} :
    (pure a : Lower α) c s = (.ok b, s') ↔ a = b ∧ s = s' := by
  constructor
  · intro h
    obtain ⟨ha, hs⟩ := Prod.mk.inj h
    exact ⟨Except.ok.inj ha, hs⟩
  · rintro ⟨rfl, rfl⟩
    rfl

theorem map_ok {f : α → β} {m : Lower α} {c : Context} {s s' : State} {b : β} :
    (f <$> m) c s = (.ok b, s') ↔ ∃ a, m c s = (.ok a, s') ∧ f a = b := by
  rw [map_eq_pure_bind, bind_ok]
  constructor
  · rintro ⟨a, s₁, ha, h⟩
    obtain ⟨rfl, rfl⟩ := pure_ok.mp h
    exact ⟨a, ha, rfl⟩
  · rintro ⟨a, ha, rfl⟩
    exact ⟨a, s', ha, rfl⟩

theorem run_attempt (m : Lower α) (c : Context) (s : State) :
    attempt m c s = (.ok (m c s).1, (m c s).2) := by
  unfold attempt
  rcases m c s with ⟨r, s'⟩
  rfl

theorem run_within (enter : State → State) (leave : State → State → State) (part : Lower α)
    (c : Context) (s : State) :
    within enter leave part c s = ((part c (enter s)).1, leave s (part c (enter s)).2) := by
  unfold within
  simp only [run_bind]
  change (match ((.ok (part c (enter s)).1, (part c (enter s)).2) : Except Failure _ × State) with
    | (.ok result, s') => settle result c (leave s s')
    | (.error e, s') => (.error e, s')) = _
  rcases part c (enter s) with ⟨r, s'⟩
  cases r <;> rfl

theorem within_ok {enter : State → State} {leave : State → State → State} {part : Lower α}
    {c : Context} {s s' : State} {a : α} :
    within enter leave part c s = (.ok a, s') ↔
      ∃ s₁, part c (enter s) = (.ok a, s₁) ∧ leave s s₁ = s' := by
  rw [run_within]
  constructor
  · intro h
    obtain ⟨ha, hs⟩ := Prod.mk.inj h
    exact ⟨(part c (enter s)).2, Prod.ext ha rfl, hs⟩
  · rintro ⟨s₁, h, rfl⟩
    rw [h]

theorem inScope_ok {kind : ScopeKind} {part : Lower α} {c : Context} {s s' : State} {a : α} :
    inScope kind part c s = (.ok a, s') ↔
      ∃ s₁, part c { s with scopes := s.scopes.push kind } = (.ok a, s₁) ∧
        { s₁ with scopes := s₁.scopes.setCurrent s.scopes.current } = s' :=
  within_ok

theorem run_read (f : Context → Lower α) (c : Context) (s : State) :
    (read >>= f) c s = f c c s := rfl

theorem run_get (f : State → Lower α) (c : Context) (s : State) :
    (get >>= f) c s = f s c s := rfl

/-- A part that is run at the level of the package does not see where it is needed. -/
theorem run_atPackageLevel {part : Lower α} {c : Context} {s s' : State} {r : Except Failure α}
    (h : part c { s with
        scopes := s.scopes.setCurrent Scopes.package
        function := none
        hoisted := []
        levelLog := []
        frameName := packageFrame c.unit } = (r, s')) :
    atPackageLevel part c s = (r, { s' with
      scopes := s'.scopes.setCurrent s.scopes.current
      function := s.function
      hoisted := s.hoisted
      levelLog := s.levelLog
      frameName := s.frameName }) := by
  unfold atPackageLevel
  rw [run_read, run_within, h]

theorem hoisting_ok {part : Lower α} {c : Context} {s s' : State} {hoisted : List HostId} {a : α}
    (h : hoisting part c s = (.ok (hoisted, a), s')) :
    ∃ s₁, part c { s with hoisted := [] } = (.ok a, s₁) ∧ hoisted = s₁.hoisted ∧
      s' = { s₁ with hoisted := s.hoisted } := by
  unfold hoisting at h
  obtain ⟨s₁, hp, rfl⟩ := within_ok.mp h
  obtain ⟨a, s₂, ha, hp⟩ := bind_ok.mp hp
  obtain ⟨hoisted, s₃, ht, hp⟩ := bind_ok.mp hp
  obtain ⟨hr, rfl⟩ := pure_ok.mp hp
  obtain ⟨rfl, rfl⟩ := Prod.mk.inj hr
  obtain ⟨hh, rfl⟩ := Prod.mk.inj ht
  exact ⟨s₂, ha, (Except.ok.inj hh).symm, rfl⟩

/-! ## Where a part leads -/

/-- A part, failing or not, leads from a state to one that is related to it. -/
def Leads (R : State → State → Prop) (c : Context) (s : State) (m : Lower α) : Prop :=
  R s (m c s).2

namespace Leads

variable {R : State → State → Prop} {c : Context} {s : State}

theorem pure [Std.Refl R] (a : α) : Leads R c s (pure a : Lower α) := Std.Refl.refl s

theorem get {f : State → Lower α} (h : Leads R c s (f s)) : Leads R c s (get >>= f) := h

theorem read {f : Context → Lower α} (h : Leads R c s (f c)) : Leads R c s (read >>= f) := h

end Leads

theorem run_addNode (kind : HostKind) (origin : Option Span) (c : Context) (s : State) :
    addNode kind origin c s =
      (.ok (s.tree.add kind origin).1, { s with tree := (s.tree.add kind origin).2 }) := rfl

/-- A node that has been made. -/
structure Made (s s' : State) (kind : HostKind) (id : HostId) : Prop where
  index : id.index = s.tree.size
  size : s'.tree.size = s.tree.size + 1
  kind : s'.tree.kind id = kind
  hoisted : s'.hoisted = s.hoisted
  grows : s.tree.Grows s'.tree

theorem addNode_ok {kind : HostKind} {origin : Option Span} {c : Context} {s s' : State}
    {id : HostId} (h : addNode kind origin c s = (.ok id, s')) : Made s s' kind id := by
  obtain ⟨hid, rfl⟩ := Prod.mk.inj h
  obtain rfl := Except.ok.inj hid
  exact ⟨rfl, HostTree.size_add _ _ _, by simp [HostTree.kind, HostTree.get?], rfl,
    HostTree.grows_add _ _ _⟩

theorem made_place {kind : HostKind} {span : Span} {c : Context} {s s' : State} {id : HostId}
    (h : place kind span c s = (.ok id, s')) : MadeBetween s s' id := by
  obtain ⟨hid, hs⟩ := Prod.mk.inj h
  rw [← Except.ok.inj hid, ← hs]
  refine ⟨Nat.le_refl _, ?_⟩
  change _ < (s.tree.add kind _).2.size
  rw [HostTree.size_add]
  exact Nat.lt_succ_self _

theorem current_define {scopes scopes' : Scopes} {name : String} {symbol : Symbol}
    (h : scopes.define name symbol = .ok scopes') : scopes'.current = scopes.current := by
  unfold Scopes.define at h
  split at h
  · cases h
    rfl
  · split at h <;> cases h
    rfl

end Lowering

end GoLowering
