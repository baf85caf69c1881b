import GoLowering.Proofs.IterationNames
import GoLowering.Proofs.ValueHistories

/-!
# Names keep their symbols

A scope is never closed for good, and no name that is bound in it is bound to something else later
(`Scopes.Keeps`). Parts of a lowering only put further symbols behind those that a scope has, in
whichever scope they do it (`binding`), so what a name stands for in some scope is what it has stood
for there since it was bound.
-/

namespace GoLowering

namespace Scopes

variable {s t u : Scopes} {id : ScopeId} {scope : Scope} {name : String} {symbol : Symbol}

/-- Every scope of the first is one of the second, where other symbols may come after its own. -/
def Keeps (s t : Scopes) : Prop :=
  ∀ id scope, s.get? id = some scope →
    ∃ more, t.get? id = some { scope with symbols := scope.symbols ++ more }

theorem Keeps.of_get?_eq (h : ∀ id, t.get? id = s.get? id) : s.Keeps t := by
  intro id scope hscope
  refine ⟨[], ?_⟩
  rw [h id, hscope, List.append_nil]

theorem Keeps.refl (s : Scopes) : s.Keeps s := .of_get?_eq (fun _ => rfl)

theorem Keeps.trans (h₁ : s.Keeps t) (h₂ : t.Keeps u) : s.Keeps u := by
  intro id scope hscope
  obtain ⟨first, hfirst⟩ := h₁ id scope hscope
  obtain ⟨rest, hrest⟩ := h₂ id _ hfirst
  exact ⟨first ++ rest, by rw [hrest, List.append_assoc]⟩

theorem keeps_push (s : Scopes) (kind : ScopeKind) : s.Keeps (s.push kind) := by
  intro id scope hscope
  have hid : id.index < s.scopes.size := (Array.getElem?_eq_some_iff.mp hscope).1
  refine ⟨[], ?_⟩
  rw [get?, push, Array.getElem?_push_lt hid, List.append_nil]
  exact (Array.getElem?_eq_getElem hid).symm.trans hscope

/-- A symbol is bound in the current scope, and no other scope changes. -/
theorem get?_define (h : s.define name symbol = .ok t) (hid : id ≠ s.current) :
    t.get? id = s.get? id := by
  unfold define at h
  split at h
  · cases h
    rfl
  · split at h <;> cases h
    have hne : s.current.index ≠ id.index := fun heq => hid (by
      cases id
      exact congrArg ScopeId.mk heq.symm)
    simp [get?, Array.getElem?_modify, hne]

theorem keeps_define (h : s.define name symbol = .ok t) : s.Keeps t := by
  unfold define at h
  split at h
  · cases h
    exact .refl s
  · split at h <;> cases h
    intro id scope hscope
    rw [get?] at hscope
    by_cases hid : s.current.index = id.index
    · exact ⟨[(name, symbol)], by simp [get?, Array.getElem?_modify, hid, hscope]⟩
    · exact ⟨[], by simp [get?, Array.getElem?_modify, hid, hscope]⟩

/-- A name that is bound in a scope stays bound to its symbol. -/
theorem Keeps.lookup (h : s.Keeps t) (hscope : s.get? id = some scope)
    (hname : scope.symbols.lookup name = some symbol) :
    ∃ later, t.get? id = some later ∧ later.parent = scope.parent ∧ later.kind = scope.kind ∧
      later.symbols.lookup name = some symbol := by
  obtain ⟨more, hmore⟩ := h id scope hscope
  refine ⟨_, hmore, rfl, rfl, ?_⟩
  rw [List.lookup_append, hname]
  rfl

theorem Keeps.isOpen (h : s.Keeps t) (hcurrent : t.current = s.current) (hs : s.IsOpen) :
    t.IsOpen := by
  obtain ⟨more, hmore⟩ := h s.current _ (Array.getElem?_eq_getElem hs)
  rw [IsOpen, hcurrent]
  exact (Array.getElem?_eq_some_iff.mp hmore).1

end Scopes

namespace Lowering

open Surface

variable {α β : Type} {care : Care} {c : Context} {s s' : State}

/-! ## Parts of the walk -/

/-- Parts leave the symbols of all scopes as they are. -/
def binding : Regime := ⟨fun _ _ m => ∀ (c : Context) (s : State), s.scopes.Keeps (m c s).2.scopes⟩

theorem binding_bind {m : Lower α} {f : α → Lower β} (hm : binding.Holds care m)
    (hf : ∀ a, binding.Holds care (f a)) : binding.Holds care (m >>= f) := by
  intro c s
  have h := hm c s
  rw [run_bind]
  rcases hrun : m c s with ⟨r, s₁⟩
  rw [hrun] at h
  cases r with
  | error failure => exact h
  | ok a => exact h.trans (hf a c s₁)

/-- A part may be run inside of further scopes. -/
theorem binding_within {enter : State → State} {leave : State → State → State} {part : Lower α}
    (henter : ∀ s : State, s.scopes.Keeps (enter s).scopes)
    (hleave : ∀ s s' id, (leave s s').scopes.get? id = s'.scopes.get? id)
    (h : binding.Holds care part) : binding.Holds care (within enter leave part) := by
  intro c s
  rw [run_within]
  exact ((henter s).trans (h c (enter s))).trans (.of_get?_eq (hleave s _))

theorem binding_attempt {part : Lower α} (h : binding.Holds care part) :
    binding.Holds care (attempt part) := by
  intro c s
  rw [run_attempt]
  exact h c s

/-- A change of the state that leaves the scopes alone. -/
theorem binding_modify {f : State → State} (h : ∀ s, (f s).scopes = s.scopes) :
    Keeps binding care (modify f : Lower Unit) :=
  ⟨fun _ s => .of_get?_eq (fun id => congrArg (fun scopes : Scopes => scopes.get? id) (h s))⟩

theorem binding_recordFailure (failure : Failure) : Keeps binding care (recordFailure failure) :=
  ⟨fun _ _ => .refl _⟩

instance : Pointwise binding where
  reading hf := fun c s => hf c c s
  getting hf := fun c s => hf s c s

instance : Footing binding where
  pure _ := fun _ _ => .refl _
  throw _ := fun _ _ => .refl _
  bind := binding_bind
  read _ hf := fun c s => hf c c s
  get _ hf := fun c s => hf s c s
  quiet hm := hm
  additive hm := hm
  steady hm := hm
  addNode _ _ := fun _ _ => .refl _
  onTypes _ := fun _ _ => .refl _
  freshName := fun _ _ => .refl _
  warn _ _ := fun _ _ => .refl _
  bindName name symbol := by
    intro c s
    unfold Lowering.bind
    change s.scopes.Keeps (match s.scopes.define name symbol with
      | .ok scopes => scopes
      | .error _ => s.scopes)
    cases hdefine : s.scopes.define name symbol with
    | ok scopes => exact Scopes.keeps_define hdefine
    | error taken => exact .refl _
  bindNew span name symbol := by
    intro c s
    unfold bindNew
    rw [run_get]
    cases hdefine : s.scopes.define name symbol with
    | ok scopes => exact Scopes.keeps_define hdefine
    | error taken => exact .refl _
  packagePath name span := by
    have h : Still binding (packagePath name span) := by
      unfold packagePath
      refine keeps_getting (fun s => ?_)
      split
      · exact ⟨fun _ _ => .refl _⟩
      · refine keeps_reading (fun c => ?_)
        split
        · exact ⟨fun _ _ => .refl _⟩
        · exact ⟨fun _ _ => .refl _⟩
    exact h.holds
  inScope {_ _} kind {_} h :=
    binding_within (fun s => s.scopes.keeps_push kind) (fun _ _ _ => rfl) h
  inFunction {_} kind _ {_} h :=
    binding_within (fun s => s.scopes.keeps_push kind) (fun _ _ _ => rfl) h
  inFrame {_} _ {_} h := binding_within (fun s => .refl _) (fun _ _ _ => rfl) h
  atPackageLevel {_ _} h := by
    unfold atPackageLevel
    exact Pointwise.reading (fun _ =>
      binding_within (fun _ => .of_get?_eq (fun _ => rfl)) (fun _ _ _ => rfl) h)
  hoisting {_ _} h :=
    binding_within (fun _ => .refl _) (fun _ _ _ => rfl)
      (binding_bind h (fun _ => binding_bind (m := takeHoisted)
        (fun _ _ => .refl _) (fun _ _ _ => .refl _)))
  takeHoisted := fun _ _ => .refl _
  noteLiteral _ _ := fun _ _ => .refl _

instance : Discipline binding where
  propagate call values text span := by
    have hoisted (id : HostId) : Additive binding (hoist id) := binding_modify (fun _ => rfl)
    have noted (names : List String) : Additive binding (notePropagation call names) :=
      binding_modify (fun _ => rfl)
    have h : Additive binding (wrapPropagate call values text span) := by
      unfold wrapPropagate hoistTemporary
      refine Keeps.before (fun found => ?_)
      split
      · infer_instance
      · infer_instance
      · refine Keeps.before (fun temporary => ?_)
        refine Keeps.before (fun _ => ?_)
        infer_instance
      · infer_instance
    exact h.holds
  localType {walk} type h name doc span := by
    have : Additive binding (walk.type type) := ⟨h⟩
    have defined (named definition : TypeId) : Additive binding
        (modify (fun s => { s with types := s.types.define named definition }) : Lower Unit) :=
      binding_modify (fun _ => rfl)
    have h : Additive binding (lowerLocalType walk name type false doc span) := by
      unfold lowerLocalType lowerLocalDefinition
      infer_instance
    exact h.holds

instance : Declaring binding where
  enter h := fun _ s => .of_get?_eq
    (fun id => congrArg (fun scopes : Scopes => scopes.get? id) (h s).scopes)
  recover hpart hok herror hrest := by
    refine binding_bind (binding_attempt hpart) (fun result => ?_)
    cases result with
    | ok a => exact hok a
    | error failure =>
      rw [herror]
      exact binding_bind (binding_recordFailure failure).holds (fun _ => hrest)

/-! ## The walk -/

variable {walk : Walk}

theorem binding_note (event : Event) : Keeps binding care (note event) :=
  binding_modify (fun _ => rfl)

theorem binding_aliasTarget (target : ∀ id, Additive binding (walk.target id)) (name : String)
    (root : NodeId) (span : Span) : Additive binding (aliasTarget walk name root span) := by
  unfold aliasTarget
  refine keeps_getting (fun s => ?_)
  dsimp only
  refine Keeps.bind (binding_note _) (fun _ => ?_)
  split
  · infer_instance
  · refine keeps_reading (fun c => ?_)
    split
    · refine Keeps.bind ⟨binding_within (fun _ => .refl _) (fun _ _ _ => rfl) (target _).holds⟩
        (fun type => ?_)
      exact Keeps.bind (binding_modify (fun _ => rfl)) (fun _ => keeps_pure type)
    · infer_instance

theorem binding_ensureValue [walk.Keeps binding] (root : NodeId) (name : String) (span : Span) :
    Additive binding (ensureValue walk root name span) := by
  have moved (progress : Progress) : Additive binding (setProgress root progress) :=
    binding_modify (fun _ => rfl)
  have lowered : Additive binding (lowerGlobalValue walk root) := by
    unfold lowerGlobalValue
    refine keeps_getting (fun s => ?_)
    refine Keeps.bind (binding_note _) (fun _ => ?_)
    refine keeps_reading (fun c => ?_)
    split <;> infer_instance
  unfold ensureValue
  refine keeps_getting (fun s => ?_)
  refine Keeps.bind (binding_note _) (fun _ => ?_)
  split
  · infer_instance
  · infer_instance
  · infer_instance
  · have level : Additive binding (atPackageLevel (lowerGlobalValue walk root)) := inferInstance
    have tried : Additive binding (attempt (atPackageLevel (lowerGlobalValue walk root))) :=
      ⟨binding_attempt level.holds⟩
    refine Keeps.bind (moved _) (fun _ => tried.bind (fun result => ?_))
    split
    · exact moved _
    · exact Keeps.bind (moved _) (fun _ => binding_recordFailure _)

theorem binding_exhaust : Additive binding (exhaust : Lower α) := ⟨fun _ _ => .refl _⟩

instance binding_walkWithin (depth : Nat) : (walkWithin depth).Keeps binding := by
  induction depth with
  | zero =>
    exact Walk.keeps_of (fun _ _ => binding_exhaust) (fun _ => binding_exhaust)
      (fun _ => binding_exhaust) (binding_aliasTarget (fun _ => binding_exhaust))
      (fun _ _ _ => binding_exhaust)
  | succ depth ih =>
    exact Walk.keeps_of additive_lowerExpr additive_lowerStmt additive_lowerType
      (binding_aliasTarget additive_lowerType) binding_ensureValue

/-- What a part that ends well leaves of the scopes. -/
theorem keeps_run {m : Lower α} {a : α} [hm : Steady binding m] (hrun : m c s = (.ok a, s')) :
    s.scopes.Keeps s'.scopes := by
  have h := hm.holds c s
  rwa [hrun] at h

end Lowering

end GoLowering
