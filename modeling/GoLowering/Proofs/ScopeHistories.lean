import GoLowering.Proofs.ScopeBindings
import GoLowering.Proofs.ScopeChains

/-!
# Histories of scopes

Scopes are opened, left, given names, and returned to in any order. Whatever has been done, the
parents of the current scope lead out to the package, since every scope is younger than its parent
(`Scopes.Rooted`), and a name stands for its binding in the nearest scope on that way that has one
(`Scopes.Nearest`). A definition is refused just in case the name is bound in the current scope
itself, and otherwise changes what that name stands for in the current scope and in those inside of
it only (`Scopes.Rooted.lookupFrom_define`).

A scope that is returned to gives all names the meaning they had, apart from those that have been
defined since in it or in a scope around it (`Scopes.scopes_are_lexical`). The scopes around it
cannot be left out of account (`Scopes.lookup_changed_around`).
-/

namespace GoLowering

/-- An operation on scopes. -/
inductive ScopeRequest where
  | push (kind : ScopeKind)
  | pop
  | define (name : String) (symbol : Symbol)
  | setCurrent (id : ScopeId)

theorem findSome?_congr {α β : Type} {xs : List α} {f g : α → Option β}
    (h : ∀ x ∈ xs, f x = g x) : xs.findSome? f = xs.findSome? g := by
  induction xs with
  | nil => rfl
  | cons x xs ih =>
    rw [List.findSome?_cons, List.findSome?_cons, h x List.mem_cons_self,
      ih fun y hy => h y (List.mem_cons_of_mem x hy)]

namespace Scopes

variable {s t u : Scopes} {id other : ScopeId} {ids : List ScopeId} {name : String}
  {symbol : Symbol}

/-- A name that is taken leaves the scopes as they are. -/
def perform (s : Scopes) : ScopeRequest → Scopes
  | .push kind => s.push kind
  | .pop => s.pop
  | .define name symbol =>
    match s.define name symbol with
    | .ok t => t
    | .error _ => s
  | .setCurrent id => s.setCurrent id

def performAll (s : Scopes) (requests : List ScopeRequest) : Scopes := requests.foldl perform s

/-- Whether only scopes that have been opened by then are returned to. -/
def Admits (s : Scopes) : List ScopeRequest → Prop
  | [] => True
  | request :: rest =>
    (∀ id, request = .setCurrent id → id.index < s.scopes.size) ∧ (s.perform request).Admits rest

/-- What a name is bound to in a scope itself. -/
def binding? (s : Scopes) (id : ScopeId) (name : String) : Option Symbol :=
  (s.get? id).bind (·.symbols.lookup name)

/-- What a name stands for in a scope. -/
def lookupFrom (s : Scopes) (id : ScopeId) (name : String) : Option Symbol :=
  (s.setCurrent id).lookup? name

/-- From a scope, the parents lead out through these scopes to one that has none. -/
inductive Chain (s : Scopes) : ScopeId → List ScopeId → Prop
  | outermost {id : ScopeId} {scope : Scope} (hscope : s.get? id = some scope)
      (hparent : scope.parent = none) : Chain s id [id]
  | inner {id parent : ScopeId} {scope : Scope} {ids : List ScopeId}
      (hscope : s.get? id = some scope) (hparent : scope.parent = some parent)
      (rest : Chain s parent ids) : Chain s id (id :: ids)

/-- Of some scopes, the innermost first, the nearest one that binds a name binds it to a symbol. -/
def Nearest (s : Scopes) (ids : List ScopeId) (name : String) (symbol : Symbol) : Prop :=
  ∃ inner id outer, ids = inner ++ id :: outer ∧ s.binding? id name = some symbol ∧
    ∀ i ∈ inner, s.binding? i name = none

/-- The bindings that operations make, by scope and name. The blank name is never bound. -/
def definitions (s : Scopes) : List ScopeRequest → List (ScopeId × String)
  | [] => []
  | request :: rest => made request ++ (s.perform request).definitions rest
where
  made : ScopeRequest → List (ScopeId × String)
    | .define name symbol =>
      match s.define name symbol with
      | .ok _ => if name = "_" then [] else [(s.current, name)]
      | .error _ => []
    | _ => []

/-! ## The scopes that there are -/

/-- The current scope is there, all scopes but that of the package have an older parent, and no
scope binds the blank name. -/
structure Rooted (s : Scopes) : Prop where
  isOpen : s.IsOpen
  outermost : ∃ scope, s.get? package = some scope ∧ scope.parent = none
  parent : ∀ id scope, s.get? id = some scope → id ≠ package →
    ∃ parent, scope.parent = some parent ∧ parent.index < id.index
  blank : ∀ id, s.binding? id "_" = none

theorem get?_eq_none (h : s.scopes.size ≤ id.index) : s.get? id = none :=
  Array.getElem?_eq_none h

theorem index_lt_of_get? {scope : Scope} (h : s.get? id = some scope) :
    id.index < s.scopes.size :=
  (Array.getElem?_eq_some_iff.mp h).1

theorem exists_get? (h : id.index < s.scopes.size) : ∃ scope, s.get? id = some scope :=
  ⟨_, Array.getElem?_eq_getElem h⟩

theorem rooted_initial : initial.Rooted where
  isOpen := Nat.one_pos
  outermost := ⟨⟨none, .package, []⟩, rfl, rfl⟩
  parent id scope hscope hid := by
    have hindex : id.index < 1 := index_lt_of_get? hscope
    refine absurd ?_ hid
    cases id
    exact congrArg ScopeId.mk (Nat.lt_one_iff.mp hindex)
  blank id := by
    rcases Nat.eq_zero_or_pos id.index with hid | hid
    · simp [binding?, get?, initial, hid]
    · simp [binding?, get?_eq_none (show initial.scopes.size ≤ id.index from hid)]

/-- A scope that has a parent is not that of the package. -/
theorem Rooted.parent_lt {parent : ScopeId} {scope : Scope} (h : s.Rooted)
    (hscope : s.get? id = some scope) (hparent : scope.parent = some parent) :
    parent.index < id.index := by
  have hne : id ≠ package := by
    rintro rfl
    obtain ⟨outer, houter, hnone⟩ := h.outermost
    obtain rfl : scope = outer := Option.some.inj (hscope.symm.trans houter)
    cases hparent.symm.trans hnone
  obtain ⟨older, holder, hlt⟩ := h.parent id scope hscope hne
  obtain rfl : parent = older := Option.some.inj (hparent.symm.trans holder)
  exact hlt

/-! ### One operation -/

theorem get?_push_of_lt (kind : ScopeKind) (h : id.index < s.scopes.size) :
    (s.push kind).get? id = s.get? id := by
  rw [get?, push, Array.getElem?_push_lt h, get?, Array.getElem?_eq_getElem h]

theorem get?_push_cases {kind : ScopeKind} {scope : Scope}
    (h : (s.push kind).get? id = some scope) :
    s.get? id = some scope ∨ id = ⟨s.scopes.size⟩ ∧ scope = ⟨some s.current, kind, []⟩ := by
  have hlt : id.index < s.scopes.size + 1 := by
    have hindex := index_lt_of_get? h
    rwa [push, Array.size_push] at hindex
  rcases Nat.lt_succ_iff_lt_or_eq.mp hlt with hlt | hlast
  · left
    rwa [get?_push_of_lt kind hlt] at h
  · right
    obtain rfl : id = ⟨s.scopes.size⟩ := by
      cases id
      exact congrArg ScopeId.mk hlast
    have hnew : some (⟨some s.current, kind, []⟩ : Scope) = some scope :=
      (s.get?_push kind).symm.trans h
    exact ⟨rfl, (Option.some.inj hnew).symm⟩

theorem locals_lookup (s : Scopes) (name : String) :
    s.locals.lookup name = s.binding? s.current name := by
  unfold locals binding?
  cases s.get? s.current <;> rfl

/-- A name can be defined unless it is bound in the current scope itself. -/
theorem define_eq_error_iff {taken : Symbol} : s.define name symbol = .error taken ↔
    name ≠ "_" ∧ s.binding? s.current name = some taken := by
  unfold define
  rw [locals_lookup]
  by_cases hname : name = "_"
  · simp [hname]
  · have hb : (name == "_") = false := beq_eq_false_iff_ne.mpr hname
    simp only [hb, Bool.false_eq_true, if_false, ne_eq, hname, not_false_eq_true, true_and]
    cases s.binding? s.current name with
    | some found => exact ⟨fun h => congrArg some (Except.error.inj h), fun h => by cases h; rfl⟩
    | none => simp

theorem current_of_define (h : s.define name symbol = .ok t) : t.current = s.current := by
  unfold define at h
  split at h
  · cases h; rfl
  · split at h <;> cases h
    rfl

/-- What a definition binds is not bound before. -/
theorem binding?_define_self (hs : s.IsOpen) (h : s.define name symbol = .ok t)
    (hname : name ≠ "_") : t.binding? s.current name = some symbol := by
  have hb : (name == "_") = false := beq_eq_false_iff_ne.mpr hname
  obtain ⟨scope, hscope⟩ := exists_get? hs
  unfold define at h
  rw [hb, locals_lookup] at h
  simp only [Bool.false_eq_true, if_false] at h
  split at h <;> cases h
  rename_i hnone
  rw [binding?, hscope, Option.bind_some] at hnone
  rw [get?] at hscope
  simp [binding?, get?, Array.getElem?_modify, hscope, List.lookup_append, hnone]

/-- A definition binds nothing else, and nothing in another scope. -/
theorem binding?_define_of_ne {name' : String} (h : s.define name symbol = .ok t)
    (hne : ¬(id = s.current ∧ name' = name ∧ name ≠ "_")) :
    t.binding? id name' = s.binding? id name' := by
  by_cases hid : id = s.current
  · subst hid
    unfold define at h
    split at h
    · cases h; rfl
    · rename_i hblank
      have hother : name' ≠ name := fun he => hne ⟨rfl, he, fun hb => hblank (beq_iff_eq.mpr hb)⟩
      split at h <;> cases h
      cases hscope : s.scopes[s.current.index]? with
      | none => simp [binding?, get?, Array.getElem?_modify, hscope]
      | some scope =>
        simp [binding?, get?, Array.getElem?_modify, hscope, List.lookup_append, List.lookup_cons,
          beq_eq_false_iff_ne.mpr hother]
  · rw [binding?, get?_define h hid, binding?]

theorem size_define (h : s.define name symbol = .ok t) : t.scopes.size = s.scopes.size := by
  unfold define at h
  split at h
  · cases h; rfl
  · split at h <;> cases h
    exact Array.size_modify

/-- Leaving the current scope leads to its parent, or nowhere. -/
theorem pop_cases (s : Scopes) : s.pop = s ∨ ∃ scope parent, s.get? s.current = some scope ∧
    scope.parent = some parent ∧ s.pop = s.setCurrent parent := by
  unfold pop
  cases hscope : s.get? s.current with
  | none => exact .inl rfl
  | some scope =>
    cases hparent : scope.parent with
    | none => left; simp [hparent]
    | some parent => exact .inr ⟨scope, parent, rfl, hparent, by simp [hparent, setCurrent]⟩

theorem keeps_perform (s : Scopes) (request : ScopeRequest) : s.Keeps (s.perform request) := by
  cases request with
  | push kind => exact s.keeps_push kind
  | pop =>
    change s.Keeps s.pop
    rcases s.pop_cases with he | ⟨scope, parent, -, -, he⟩
    · rw [he]
      exact .refl s
    · rw [he]
      exact .of_get?_eq fun _ => rfl
  | define name symbol =>
    unfold perform
    dsimp only
    split
    · rename_i t hdefine
      exact keeps_define hdefine
    · exact .refl s
  | setCurrent id => exact .of_get?_eq fun _ => rfl

/-! ### What all operations keep -/

namespace Rooted

theorem setCurrent (h : s.Rooted) (hid : id.index < s.scopes.size) : (s.setCurrent id).Rooted where
  isOpen := hid
  outermost := h.outermost
  parent := h.parent
  blank := h.blank

theorem push (h : s.Rooted) (kind : ScopeKind) : (s.push kind).Rooted where
  isOpen := index_lt_of_get? (s.get?_push kind)
  outermost := by
    obtain ⟨scope, hscope, hparent⟩ := h.outermost
    exact ⟨scope, (get?_push_of_lt kind (index_lt_of_get? hscope)).trans hscope, hparent⟩
  parent id scope hscope hid := by
    rcases get?_push_cases hscope with hold | ⟨rfl, rfl⟩
    · exact h.parent id scope hold hid
    · exact ⟨s.current, rfl, h.isOpen⟩
  blank id := by
    cases hscope : (s.push kind).get? id with
    | none => rw [binding?, hscope]; rfl
    | some scope =>
      rcases get?_push_cases hscope with hold | ⟨rfl, rfl⟩
      · have hblank := h.blank id
        rwa [binding?, hold, ← hscope] at hblank
      · rw [binding?, hscope]
        rfl

theorem pop (h : s.Rooted) : s.pop.Rooted := by
  rcases s.pop_cases with he | ⟨scope, parent, hscope, hparent, he⟩
  · rwa [he]
  · rw [he]
    apply h.setCurrent
    exact Nat.lt_trans (h.parent_lt hscope hparent) h.isOpen

theorem define (h : s.Rooted) (hdefine : s.define name symbol = .ok t) : t.Rooted where
  isOpen := by
    rw [IsOpen, current_of_define hdefine, size_define hdefine]
    exact h.isOpen
  outermost := by
    obtain ⟨scope, hscope, hparent⟩ := h.outermost
    obtain ⟨more, hmore⟩ := keeps_define hdefine _ _ hscope
    exact ⟨_, hmore, hparent⟩
  parent id scope hscope hid := by
    have hlt := index_lt_of_get? hscope
    rw [size_define hdefine] at hlt
    obtain ⟨old, hold⟩ := exists_get? hlt
    obtain ⟨more, hmore⟩ := keeps_define hdefine _ _ hold
    rw [hmore] at hscope
    cases hscope
    exact h.parent id old hold hid
  blank id := by
    rw [binding?_define_of_ne hdefine fun hne => hne.2.2 hne.2.1.symm]
    exact h.blank id

theorem perform (h : s.Rooted) {request : ScopeRequest}
    (hadmitted : ∀ id, request = .setCurrent id → id.index < s.scopes.size) :
    (s.perform request).Rooted := by
  cases request with
  | push kind => exact h.push kind
  | pop => exact h.pop
  | define name symbol =>
    unfold Scopes.perform
    dsimp only
    split
    · rename_i t hdefine
      exact h.define hdefine
    · exact h
  | setCurrent id => exact h.setCurrent (hadmitted id rfl)

theorem performAll (h : s.Rooted) {requests : List ScopeRequest} (hadmitted : s.Admits requests) :
    (s.performAll requests).Rooted := by
  induction requests generalizing s with
  | nil => exact h
  | cons request rest ih => exact ih (h.perform hadmitted.1) hadmitted.2

end Rooted

theorem keeps_performAll (s : Scopes) (requests : List ScopeRequest) :
    s.Keeps (s.performAll requests) := by
  induction requests generalizing s with
  | nil => exact .refl s
  | cons request rest ih => exact (s.keeps_perform request).trans (ih _)

/-! ## Chains -/

namespace Chain

theorem unique {ids' : List ScopeId} (h : s.Chain id ids) (h' : s.Chain id ids') : ids = ids' := by
  induction h generalizing ids' with
  | outermost hscope hparent =>
    cases h' with
    | outermost _ _ => rfl
    | inner hscope' hparent' _ =>
      obtain rfl := Option.some.inj (hscope.symm.trans hscope')
      cases hparent.symm.trans hparent'
  | inner hscope hparent _ ih =>
    cases h' with
    | outermost hscope' hparent' =>
      obtain rfl := Option.some.inj (hscope.symm.trans hscope')
      cases hparent.symm.trans hparent'
    | inner hscope' hparent' rest' =>
      obtain rfl := Option.some.inj (hscope.symm.trans hscope')
      obtain rfl := Option.some.inj (hparent.symm.trans hparent')
      rw [ih rest']

/-- Parents are never changed. -/
theorem mono (h : s.Chain id ids) (hkeeps : s.Keeps t) : t.Chain id ids := by
  induction h with
  | outermost hscope hparent =>
    obtain ⟨more, hmore⟩ := hkeeps _ _ hscope
    exact .outermost hmore hparent
  | inner hscope hparent _ ih =>
    obtain ⟨more, hmore⟩ := hkeeps _ _ hscope
    exact .inner hmore hparent ih

theorem mem_self (h : s.Chain id ids) : id ∈ ids := by
  cases h with
  | outermost _ _ | inner _ _ _ => exact List.mem_cons_self

theorem index_lt (h : s.Chain id ids) : ∀ i ∈ ids, i.index < s.scopes.size := by
  induction h with
  | outermost hscope _ =>
    intro i hi
    rw [List.mem_singleton.mp hi]
    exact index_lt_of_get? hscope
  | inner hscope _ _ ih =>
    intro i hi
    rcases List.mem_cons.mp hi with rfl | hi
    · exact index_lt_of_get? hscope
    · exact ih i hi

/-- A search that is allowed as many steps as the scope has others before it comes to the end of
the chain. -/
theorem findSome?_chainWithin (h : s.Chain id ids) (hs : s.Rooted) (name : String) {steps : Nat}
    (hsteps : id.index < steps) :
    (s.chainWithin steps id).findSome? (·.symbols.lookup name) =
      ids.findSome? (s.binding? · name) := by
  induction h generalizing steps with
  | outermost hscope hparent =>
    obtain ⟨steps, rfl⟩ := Nat.exists_eq_succ_of_ne_zero (Nat.ne_zero_of_lt hsteps)
    rw [chainWithin, hscope]
    dsimp only
    rw [hparent, List.findSome?_cons, List.findSome?_cons, binding?, hscope]
    rfl
  | @inner id parent scope ids hscope hparent _ ih =>
    obtain ⟨steps, rfl⟩ := Nat.exists_eq_succ_of_ne_zero (Nat.ne_zero_of_lt hsteps)
    have holder : parent.index < id.index := hs.parent_lt hscope hparent
    have hrest := ih (Nat.lt_of_lt_of_le holder (Nat.le_of_lt_succ hsteps))
    rw [chainWithin, hscope]
    dsimp only
    rw [hparent, List.findSome?_cons, List.findSome?_cons, hrest, binding?, hscope]
    rfl

end Chain

/-- From every scope, the parents lead out to the package. -/
theorem Rooted.exists_chain (h : s.Rooted) (hid : id.index < s.scopes.size) :
    ∃ ids, s.Chain id ids ∧ ids.getLast? = some package := by
  induction hn : id.index using Nat.strongRecOn generalizing id with
  | ind n ih =>
    obtain ⟨scope, hscope⟩ := exists_get? hid
    by_cases hpackage : id = package
    · obtain ⟨outer, houter, hnone⟩ := h.outermost
      rw [hpackage]
      exact ⟨[package], .outermost houter hnone, rfl⟩
    · obtain ⟨parent, hparent, hlt⟩ := h.parent id scope hscope hpackage
      obtain ⟨ids, hchain, hlast⟩ :=
        ih parent.index (hn ▸ hlt) (Nat.lt_trans hlt hid) rfl
      refine ⟨id :: ids, .inner hscope hparent hchain, ?_⟩
      rw [List.getLast?_cons, hlast]
      rfl

theorem Rooted.lookupFrom_eq (h : s.Rooted) (hchain : s.Chain id ids) (name : String) :
    s.lookupFrom id name = ids.findSome? (s.binding? · name) := by
  have hkeeps : s.Keeps (s.setCurrent id) := .of_get?_eq fun _ => rfl
  have hrooted := h.setCurrent (hchain.index_lt id hchain.mem_self)
  have hwithin := (hchain.mono hkeeps).findSome?_chainWithin hrooted name
    (Nat.lt_succ_self id.index)
  exact hwithin

/-- A name stands for its binding in the nearest scope that has one. -/
theorem Rooted.lookupFrom_eq_some_iff (h : s.Rooted) (hchain : s.Chain id ids) :
    s.lookupFrom id name = some symbol ↔ s.Nearest ids name symbol := by
  rw [h.lookupFrom_eq hchain, List.findSome?_eq_some_iff]
  constructor
  · rintro ⟨inner, i, outer, hids, hfound, hinner⟩
    exact ⟨inner, i, outer, hids, hfound, hinner⟩
  · rintro ⟨inner, i, outer, hids, hfound, hinner⟩
    exact ⟨inner, i, outer, hids, hfound, hinner⟩

/-! ## Definitions -/

/-- A definition changes what its own name stands for in the current scope and in those inside of
it, and nothing else. -/
theorem Rooted.lookupFrom_define {name' : String} (h : s.Rooted)
    (hdefine : s.define name symbol = .ok t) (hchain : s.Chain id ids)
    (hapart : name' ≠ name ∨ s.current ∉ ids) : t.lookupFrom id name' = s.lookupFrom id name' := by
  have hlater := hchain.mono (keeps_define hdefine)
  rw [(h.define hdefine).lookupFrom_eq hlater, h.lookupFrom_eq hchain]
  apply findSome?_congr
  intro i hi
  refine binding?_define_of_ne hdefine fun ⟨hcurrent, hname, _⟩ => ?_
  rcases hapart with hother | hout
  · exact hother hname
  · exact hout (hcurrent ▸ hi)

theorem Rooted.lookup?_define (h : s.Rooted) (hdefine : s.define name symbol = .ok t)
    (hname : name ≠ "_") : t.lookup? name = some symbol := by
  apply lookup?_of_locals
  rw [locals_lookup, current_of_define hdefine]
  exact binding?_define_self h.isOpen hdefine hname

/-- A scope binds a name later as it does now, unless the name is defined in it since. -/
theorem binding?_perform {request : ScopeRequest} (hid : id.index < s.scopes.size)
    (hmade : (id, name) ∉ definitions.made s request) :
    (s.perform request).binding? id name = s.binding? id name := by
  cases request with
  | push kind =>
    change (s.push kind).binding? id name = _
    rw [binding?, get?_push_of_lt kind hid, binding?]
  | pop =>
    change s.pop.binding? id name = _
    rcases s.pop_cases with he | ⟨scope, parent, -, -, he⟩
    · rw [he]
    · rw [he]
      rfl
  | define name' symbol =>
    cases hdefine : s.define name' symbol with
    | error taken => simp only [perform, hdefine]
    | ok t =>
      simp only [definitions.made, hdefine] at hmade
      simp only [perform, hdefine]
      refine binding?_define_of_ne hdefine fun ⟨hcurrent, hname, hblank⟩ => hmade ?_
      rw [if_neg hblank, hcurrent, hname]
      exact List.mem_singleton_self _
  | setCurrent other => rfl

theorem binding?_performAll {requests : List ScopeRequest} (hid : id.index < s.scopes.size)
    (hmade : (id, name) ∉ s.definitions requests) :
    (s.performAll requests).binding? id name = s.binding? id name := by
  induction requests generalizing s with
  | nil => rfl
  | cons request rest ih =>
    have hfirst : (id, name) ∉ definitions.made s request :=
      fun h => hmade (List.mem_append_left _ h)
    have hrest : (id, name) ∉ (s.perform request).definitions rest :=
      fun h => hmade (List.mem_append_right _ h)
    obtain ⟨scope, hscope⟩ := exists_get? hid
    obtain ⟨more, hmore⟩ := s.keeps_perform request id scope hscope
    exact (ih (index_lt_of_get? hmore) hrest).trans (binding?_perform hid hfirst)

/-- A scope that is returned to gives a name the meaning that it had, unless the name has been
defined since in the scope or in one around it. -/
theorem Rooted.lookupFrom_performAll {requests : List ScopeRequest} (h : s.Rooted)
    (hadmitted : s.Admits requests) (hchain : s.Chain id ids)
    (hmade : ∀ i ∈ ids, (i, name) ∉ s.definitions requests) :
    (s.performAll requests).lookupFrom id name = s.lookupFrom id name := by
  have hlater := hchain.mono (s.keeps_performAll requests)
  rw [(h.performAll hadmitted).lookupFrom_eq hlater, h.lookupFrom_eq hchain]
  apply findSome?_congr
  intro i hi
  exact binding?_performAll (hchain.index_lt i hi) (hmade i hi)

/-! ## Histories -/

/-- Names are found, refused and bound by the scopes around the current one. -/
structure Lexical (s : Scopes) : Prop where
  chain : ∃ ids, s.Chain s.current ids ∧ ids.getLast? = some package
  nearest : ∀ ids name symbol, s.Chain s.current ids →
    (s.lookup? name = some symbol ↔ s.Nearest ids name symbol)
  refused : ∀ name symbol taken,
    s.define name symbol = .error taken ↔ s.binding? s.current name = some taken
  unchanged : ∀ name symbol taken, s.define name symbol = .error taken →
    s.perform (.define name symbol) = s
  bound : ∀ name symbol t, s.define name symbol = .ok t → name ≠ "_" →
    t.lookup? name = some symbol
  apart : ∀ name symbol t, s.define name symbol = .ok t → ∀ id ids other, s.Chain id ids →
    other ≠ name ∨ s.current ∉ ids → t.lookupFrom id other = s.lookupFrom id other

theorem Rooted.lexical (h : s.Rooted) : s.Lexical where
  chain := h.exists_chain h.isOpen
  nearest _ _ _ hchain := h.lookupFrom_eq_some_iff hchain
  refused name symbol taken := by
    rw [define_eq_error_iff]
    refine ⟨fun hrefused => hrefused.2, fun htaken => ⟨?_, htaken⟩⟩
    rintro rfl
    rw [h.blank] at htaken
    cases htaken
  unchanged name symbol taken hrefused := by rw [Scopes.perform, hrefused]
  bound _ _ _ hdefine hname := h.lookup?_define hdefine hname
  apart _ _ _ hdefine _ _ _ hchain hapart := h.lookupFrom_define hdefine hchain hapart

theorem Admits.split {earlier later : List ScopeRequest} (h : s.Admits (earlier ++ later)) :
    s.Admits earlier ∧ (s.performAll earlier).Admits later := by
  induction earlier generalizing s with
  | nil => exact ⟨trivial, h⟩
  | cons request rest ih =>
    obtain ⟨hrest, hlater⟩ := ih h.2
    exact ⟨⟨h.1, hrest⟩, hlater⟩

/-- Whatever has been done to scopes, names are found, refused and bound lexically; and whatever is
done then, every scope of before, when it is returned to, gives all names the meaning they had,
apart from those that have been defined since in it or in a scope around it. -/
theorem scopes_are_lexical (earlier later : List ScopeRequest)
    (hadmitted : initial.Admits (earlier ++ later)) :
    let s := initial.performAll earlier
    let t := s.performAll later
    s.Lexical ∧ ∀ id, id.index < s.scopes.size → ∃ ids, s.Chain id ids ∧
      ∀ name, (∀ i ∈ ids, (i, name) ∉ s.definitions later) →
        t.lookupFrom id name = s.lookupFrom id name := by
  intro s t
  obtain ⟨hearlier, hlater⟩ := hadmitted.split
  have hrooted : s.Rooted := rooted_initial.performAll hearlier
  refine ⟨hrooted.lexical, fun id hid => ?_⟩
  obtain ⟨ids, hchain, -⟩ := hrooted.exists_chain hid
  exact ⟨ids, hchain, fun name hmade => hrooted.lookupFrom_performAll hlater hchain hmade⟩

/-- A function binds `x`, and a block inside of it binds `x` again. -/
def shadowed : List ScopeRequest :=
  [.push .function, .define "x" (.variable TypeTable.int), .push .block,
    .define "x" (.variable TypeTable.string)]

/-- The package is given a `y`, and the block is returned to. -/
def throughPackage : List ScopeRequest :=
  [.setCurrent package, .define "y" (.variable TypeTable.bool), .setCurrent ⟨2⟩]

theorem scopes_are_lexical_shadowed :
    initial.Admits (shadowed ++ throughPackage) ∧
      let s := initial.performAll shadowed
      let t := s.performAll throughPackage
      s.lookupFrom ⟨2⟩ "x" = some (.variable TypeTable.string) ∧
        t.lookupFrom ⟨2⟩ "x" = s.lookupFrom ⟨2⟩ "x" := by
  have hadmitted : initial.Admits (shadowed ++ throughPackage) := by
    refine ⟨nofun, nofun, nofun, nofun, ?_, nofun, ?_, trivial⟩
    · rintro id ⟨⟩
      decide
    · rintro id ⟨⟩
      decide
  obtain ⟨-, hreturn⟩ := scopes_are_lexical shadowed throughPackage hadmitted
  obtain ⟨ids, hchain, hsame⟩ := hreturn ⟨2⟩ (by decide)
  have hids : ids = [⟨2⟩, ⟨1⟩, ⟨0⟩] :=
    hchain.unique (.inner rfl rfl (.inner rfl rfl (.outermost rfl rfl)))
  refine ⟨hadmitted, rfl, hsame "x" fun i _ hmade => ?_⟩
  have hdefinitions : (initial.performAll shadowed).definitions throughPackage =
      [(package, "y")] := rfl
  rw [hdefinitions] at hmade
  have hname : "x" = "y" := congrArg Prod.snd (List.mem_singleton.mp hmade)
  exact absurd hname (by decide)

/-- Inside of a function, a name is unknown; it is defined in the package and the function returned
to. Nothing has been defined in the function, where the name has a meaning all the same. -/
theorem lookup_changed_around :
    let s := initial.performAll [.push .function]
    let later := [.pop, .define "x" (.variable TypeTable.int), .setCurrent s.current]
    initial.Admits (.push .function :: later) ∧
      (s.performAll later).current = s.current ∧ (s.current, "x") ∉ s.definitions later ∧
      s.lookup? "x" = none ∧
      (s.performAll later).lookup? "x" = some (.variable TypeTable.int) := by
  intro s later
  refine ⟨⟨nofun, nofun, nofun, ?_, trivial⟩, rfl, ?_, rfl, rfl⟩
  · rintro id ⟨⟩
    decide
  · have hdefinitions : s.definitions later = [(package, "x")] := rfl
    rw [hdefinitions]
    decide

end Scopes

end GoLowering
