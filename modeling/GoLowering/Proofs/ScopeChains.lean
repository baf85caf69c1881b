import GoLowering.Proofs.FrameDeclarations

/-!
# Chains of scopes

Where loop control goes is looked for in the scopes around it, from the current one out to that of
the function. The parts of a lowering leave the scopes alone that they are run in (`nesting`), and
open a scope of their own for what lies further in. So the answer depends on the kinds of the scopes
that have been opened on the way, and on nothing else (`Scopes.Inside.branchTarget`,
`Reaches.inside`).
-/

namespace GoLowering

/-- Loop control does not reach out of the scope of a function. -/
def ScopeKind.isFunction : ScopeKind → Bool
  | .function | .closure => true
  | _ => false

namespace Scopes

variable {s t : Scopes} {id : ScopeId} {kind : ScopeKind} {kinds : List ScopeKind}
  {isContinue : Bool}

/-- From a scope out to that of the function around there are scopes of these kinds, the innermost
first. -/
inductive LiesWithin (s : Scopes) : ScopeId → List ScopeKind → Prop
  | function {id : ScopeId} {scope : Scope} (hscope : s.get? id = some scope)
      (hkind : scope.kind.isFunction = true) : LiesWithin s id []
  | inner {id parent : ScopeId} {scope : Scope} {kinds : List ScopeKind}
      (hscope : s.get? id = some scope) (hparent : scope.parent = some parent)
      (holder : parent.index < id.index) (rest : LiesWithin s parent kinds) :
      LiesWithin s id (scope.kind :: kinds)

/-- The current scope stands in a function, in scopes of these kinds. -/
def Inside (s : Scopes) (kinds : List ScopeKind) : Prop := s.LiesWithin s.current kinds

theorem LiesWithin.index_lt (h : s.LiesWithin id kinds) : id.index < s.scopes.size := by
  cases h with
  | function hscope | inner hscope => exact (Array.getElem?_eq_some_iff.mp hscope).1

theorem LiesWithin.mono (h : s.LiesWithin id kinds) (ht : s.Grows t) : t.LiesWithin id kinds := by
  induction h with
  | function hscope hkind =>
    obtain ⟨symbols, hscope⟩ := ht _ _ hscope
    exact .function hscope hkind
  | @inner id parent scope kinds hscope hparent holder _ ih =>
    obtain ⟨symbols, hscope⟩ := ht _ _ hscope
    have hlies := LiesWithin.inner hscope hparent holder ih
    exact hlies

theorem get?_push (s : Scopes) (kind : ScopeKind) :
    (s.push kind).get? (s.push kind).current = some ⟨some s.current, kind, []⟩ := by
  simp [get?, push]

theorem inside_push_function (s : Scopes) (hkind : kind.isFunction = true) :
    (s.push kind).Inside [] :=
  .function (s.get?_push kind) hkind

theorem Inside.push (h : s.Inside kinds) (kind : ScopeKind) :
    (s.push kind).Inside (kind :: kinds) := by
  have hlies := LiesWithin.inner (s.get?_push kind) rfl h.index_lt (h.mono (s.grows_push kind))
  exact hlies

theorem target?_of_isFunction (hkind : kind.isFunction = true) :
    target? isContinue kind = some .none := by
  cases kind with
  | function | closure => rfl
  | package | block | loop | range | switchCase | selectCase | typeSwitchCase | callback =>
    cases hkind

/-- A search that is allowed as many steps as the scope has others before it comes to that of the
function. -/
theorem LiesWithin.target_chainWithin (h : s.LiesWithin id kinds) {steps : Nat}
    (hsteps : id.index < steps) :
    ((s.chainWithin steps id).findSome? fun scope => target? isContinue scope.kind).getD .none =
      (kinds.findSome? (target? isContinue)).getD .none := by
  induction h generalizing steps with
  | function hscope hkind =>
    obtain ⟨steps, rfl⟩ := Nat.exists_eq_succ_of_ne_zero (Nat.ne_zero_of_lt hsteps)
    rw [chainWithin, hscope, List.findSome?_cons, target?_of_isFunction hkind]
    rfl
  | @inner id parent scope kinds hscope hparent holder _ ih =>
    obtain ⟨steps, rfl⟩ := Nat.exists_eq_succ_of_ne_zero (Nat.ne_zero_of_lt hsteps)
    rw [chainWithin, hscope, List.findSome?_cons, List.findSome?_cons]
    cases htarget : target? isContinue scope.kind with
    | some target => rfl
    | none =>
      dsimp only
      rw [hparent]
      exact ih (Nat.lt_of_lt_of_le holder (Nat.le_of_lt_succ hsteps))

/-- Where loop control goes in the current scope is said by the innermost scope that decides it. -/
theorem Inside.branchTarget (h : s.Inside kinds) :
    s.branchTarget isContinue = (kinds.findSome? (target? isContinue)).getD .none :=
  LiesWithin.target_chainWithin h (Nat.lt_succ_self _)

end Scopes

namespace Lowering

/-! ## What the parts of a lowering do to scopes -/

/-- Scopes are only added. -/
def Nests (_ : Care) (_ : Context) (s s' : State) : Prop := s.scopes.Grows s'.scopes

instance : Frame Nests where
  refl _ _ s := .refl s.scopes
  trans h₁ h₂ := h₁.trans h₂
  still h := h.scopes
  quiet h := h
  additive h := h
  steady h := h
  inScope kind h := (Scopes.grows_push _ kind).trans h
  inFunction kind _ h := (Scopes.grows_push _ kind).trans h
  inFrame _ h := h
  atPackageLevel h := h
  hoisting h := h
  takeHoisted _ s := .refl s.scopes
  hoist h _ _ := h
  declareType _ h := h
  noteLiteral _ s _ _ := .refl s.scopes
  needAlias _ s _ _ _ := .refl s.scopes
  openAlias _ h := h
  setAlias _ _ h := h

instance : Notes Nests where
  note {_ s _} h := by
    rw [Nests, h.scopes]
    exact .refl s.scopes

/-- That parts only add scopes. -/
abbrev nesting : Regime := .ofFrame Nests

variable {α β γ : Type} {c : Context} {s s' u : State} {kinds more : List ScopeKind}

/-- A part is run in the scopes that the parts before it have been run in. -/
theorem inside_run {m : Lower α} {a : α} [hm : Steady nesting m] [hback : Steady extension m]
    (hrun : m c s = (.ok a, s')) (h : s.scopes.Inside kinds) : s'.scopes.Inside kinds := by
  have hgrows : s.scopes.Grows s'.scopes := by
    have hs : Nests .steady c s (m c s).2 := Keeps.run hm c s
    rwa [hrun] at hs
  have hcurrent : s'.scopes.current = s.scopes.current := by
    have hs := (hback.run c s).current
    rwa [hrun] at hs
  rw [Scopes.Inside, hcurrent]
  exact h.mono hgrows

/-! ## What a run comes to -/

theorem bind_error {m : Lower α} {f : α → Lower β} {failure : Failure}
    (h : (m c s).1 = .error failure) : ((m >>= f) c s).1 = .error failure := by
  rw [run_bind]
  rcases hm : m c s with ⟨r, s₁⟩
  rw [hm] at h
  cases h
  rfl

/-- The run of a part from a state comes to the run of `last` from the state `u`, in scopes of these
kinds that have been opened on the way, the innermost first. What is run before has succeeded and
has left the scopes as they were. -/
inductive Reaches (c : Context) {β : Type} (last : Lower β) (u : State) :
    List ScopeKind → {α : Type} → Lower α → State → Prop
  | here : Reaches c last u [] last u
  | first {kinds : List ScopeKind} {α γ : Type} {m : Lower α} {f : α → Lower γ} {s : State}
      (h : Reaches c last u kinds m s) : Reaches c last u kinds (m >>= f) s
  | next {kinds : List ScopeKind} {α γ : Type} {m : Lower α} {f : α → Lower γ} {a : α}
      {s s₁ : State} (hrun : m c s = (.ok a, s₁))
      (hscopes : ∀ around, s.scopes.Inside around → s₁.scopes.Inside around)
      (h : Reaches c last u kinds (f a) s₁) : Reaches c last u kinds (m >>= f) s
  | scope {kinds : List ScopeKind} {α : Type} {part : Lower α} {s : State} (kind : ScopeKind)
      (h : Reaches c last u kinds part { s with scopes := s.scopes.push kind }) :
      Reaches c last u (kinds ++ [kind]) (inScope kind part) s
  | apart {kinds : List ScopeKind} {α : Type} {part : Lower α} {s : State}
      (h : Reaches c last u kinds part { s with hoisted := [] }) :
      Reaches c last u kinds (hoisting part) s

namespace Reaches

variable {last : Lower β} {m : Lower α}

/-- What a run comes to stands in the scopes that have been opened on the way. -/
theorem inside (h : Reaches c last u kinds m s) (hs : s.scopes.Inside more) :
    u.scopes.Inside (kinds ++ more) := by
  induction h generalizing more with
  | here => exact hs
  | first _ ih => exact ih hs
  | next _ hscopes _ ih => exact ih (hscopes _ hs)
  | scope kind _ ih =>
    rw [List.append_assoc]
    exact ih (hs.push kind)
  | apart _ ih => exact ih hs

/-- A run fails as what it comes to does. -/
theorem error (h : Reaches c last u kinds m s) {failure : Failure}
    (hlast : (last c u).1 = .error failure) : (m c s).1 = .error failure := by
  induction h with
  | here => exact hlast
  | first _ ih => exact bind_error ih
  | next hrun _ _ ih =>
    rw [run_bind, hrun]
    exact ih
  | scope kind _ ih =>
    rw [inScope, run_within]
    exact ih
  | apart _ ih =>
    rw [hoisting, run_within]
    exact bind_error ih

end Reaches

end Lowering

end GoLowering
