import GoLowering.Proofs.AgreementStatements
import GoLowering.Proofs.ValueHistories

/-!
# How far a walk goes down

A walk leaves the syntax that it goes down only to look for the target of an alias or to lower a
declaration of values, and what can still be looked for or lowered gets less each time
(`remaining_opening`, `remaining_starting`). So the depth that a walk needs is bounded by the height
of a node and by what remains (`agrees_walkWithin`): two walks that both go deeper do the same, and
neither of them is ever at its end.
-/

namespace GoLowering.Lowering

open Surface

/-- The top-level statements that names stand for are those of the unit, and types are declared
under their names. -/
structure Known (c : Context) (σ : Standing) : Prop where
  types : ∀ name root type, σ.globals.lookup name = some (.type root type) →
    root ∈ c.unit.roots ∧
      ∃ target isAlias doc, c.unit.stmt? root = some (.typeDecl name target isAlias doc)
  values : ∀ name root, σ.globals.lookup name = some (.value root) → root ∈ c.unit.roots

/-- Whether a top-level statement declares a type whose name is not being looked for. -/
def isClosed (c : Context) (names : List String) (root : NodeId) : Bool :=
  match c.unit.stmt? root with
  | some (.typeDecl name ..) => !names.contains name
  | _ => false

/-- How many declarations of the unit can still be looked for or lowered. -/
def remaining (c : Context) (σ : Standing) : Nat :=
  c.unit.roots.countP (isClosed c σ.openAliases) +
    c.unit.roots.countP (fun root => (σ.progress.lookup root).isNone)

/-- What a part may do about the names of a unit: it finds out types, lowers declarations and tells
what happens, and no walk is at its end. -/
structure Onward (σ σ' : Standing) : Prop where
  globals : ∀ name, (σ'.globals.lookup name).map Global.untyped =
    (σ.globals.lookup name).map Global.untyped
  openAliases : σ'.openAliases = σ.openAliases
  progress : ∀ root, σ'.progress.lookup root = none → σ.progress.lookup root = none
  history : ∃ events, σ'.history = σ.history ++ events ∧ .exhausted ∉ events

variable {c : Context} {σ σ' σ'' : Standing} {s s' : State} {name : String} {root : NodeId}

/-! ## What remains -/

theorem countP_lt_countP {α : Type} {p q : α → Bool} {l : List α} (himp : ∀ a ∈ l, p a → q a)
    {a : α} (ha : a ∈ l) (hp : p a = false) (hq : q a = true) : l.countP p < l.countP q := by
  obtain ⟨before, after, rfl⟩ := List.append_of_mem ha
  have hbefore : before.countP p ≤ before.countP q :=
    List.countP_mono_left (fun b hb => himp b (List.mem_append_left _ hb))
  have hafter : after.countP p ≤ after.countP q :=
    List.countP_mono_left (fun b hb => himp b (List.mem_append_right _ (List.mem_cons_of_mem a hb)))
  rw [List.countP_append, List.countP_append, List.countP_cons_of_neg (by simp [hp]),
    List.countP_cons_of_pos hq]
  omega

theorem isClosed_of_cons {names : List String} (h : isClosed c (name :: names) root = true) :
    isClosed c names root = true := by
  unfold isClosed at h ⊢
  split at h
  · simp only [List.contains_cons, Bool.not_eq_true', Bool.or_eq_false_iff] at h
    simp only [h.2, Bool.not_false]
  · exact h

/-- Once a name is being looked for, less remains. -/
theorem remaining_opening {type : Option TypeId} (known : Known c σ)
    (found : σ.globals.lookup name = some (.type root type))
    (closed : σ.openAliases.contains name = false) (history : List Event) :
    remaining c { σ with openAliases := name :: σ.openAliases, history := history } <
      remaining c σ := by
  obtain ⟨hroot, target, isAlias, doc, hstmt⟩ := known.types name root type found
  refine Nat.add_lt_add_right (countP_lt_countP (fun _ _ => isClosed_of_cons) hroot ?_ ?_) _
  · simp [isClosed, hstmt]
  · simp only [isClosed, hstmt, closed, Bool.not_false]

/-- Once a declaration of values has been started, less remains. -/
theorem remaining_starting (hroot : root ∈ c.unit.roots) (fresh : σ.progress.lookup root = none)
    (progress : Progress) (history : List Event) :
    remaining c { σ with progress := σ.progress.set root progress, history := history } <
      remaining c σ := by
  refine Nat.add_lt_add_left (countP_lt_countP (fun other _ h => ?_) hroot ?_ ?_) _
  · by_cases he : other = root
    · subst he
      simp at h
    · rwa [Keyed.lookup_set_of_ne he] at h
  · simp
  · simp [fresh]

theorem remaining_le : remaining c σ ≤ 2 * c.unit.roots.length := by
  have haliases := List.countP_le_length (p := isClosed c σ.openAliases) (l := c.unit.roots)
  have hvalues := List.countP_le_length (p := fun root => (σ.progress.lookup root).isNone)
    (l := c.unit.roots)
  unfold remaining
  omega

/-! ## Going on -/

namespace Onward

theorem refl (σ : Standing) : Onward σ σ :=
  ⟨fun _ => rfl, rfl, fun _ h => h, [], (List.append_nil _).symm, by simp⟩

theorem trans (h₁ : Onward σ σ') (h₂ : Onward σ' σ'') : Onward σ σ'' where
  globals name := (h₂.globals name).trans (h₁.globals name)
  openAliases := h₂.openAliases.trans h₁.openAliases
  progress root h := h₁.progress root (h₂.progress root h)
  history := by
    obtain ⟨events, hevents, hnot⟩ := h₁.history
    obtain ⟨more, hmore, hnot'⟩ := h₂.history
    exact ⟨events ++ more, by rw [hmore, hevents, List.append_assoc], by simp [hnot, hnot']⟩

theorem found (h : Onward σ σ') {global : Global} (hlookup : σ'.globals.lookup name = some global) :
    ∃ before, σ.globals.lookup name = some before ∧ before.untyped = global.untyped := by
  have heq := h.globals name
  rw [hlookup] at heq
  exact Option.map_eq_some_iff.mp heq.symm

theorem known (h : Onward σ σ') (known : Known c σ) : Known c σ' where
  types name root type hlookup := by
    obtain ⟨before, hbefore, heq⟩ := h.found hlookup
    cases before with
    | type other known? =>
      obtain rfl : other = root := (Global.type.inj heq).1
      exact known.types name other known? hbefore
    | func | value => cases heq
  values name root hlookup := by
    obtain ⟨before, hbefore, heq⟩ := h.found hlookup
    cases before with
    | value other =>
      obtain rfl : other = root := Global.value.inj heq
      exact known.values name other hbefore
    | func | type => cases heq

theorem remaining_le (h : Onward σ σ') : remaining c σ' ≤ remaining c σ := by
  unfold remaining
  rw [h.openAliases]
  refine Nat.add_le_add_left (List.countP_mono_left (fun root _ hnone => ?_)) _
  rw [Option.isNone_iff_eq_none] at hnone ⊢
  exact h.progress root hnone

theorem noting (event : Event) (hevent : event ≠ .exhausted) :
    Onward s.standing (s.noting event).standing :=
  ⟨fun _ => rfl, rfl, fun _ h => h, [event], rfl, by simpa using hevent.symm⟩

theorem moving (root : NodeId) (progress : Progress) :
    Onward s.standing (s.moving root progress).standing where
  globals _ := rfl
  openAliases := rfl
  progress other h := by
    change (s.progress.set root progress).lookup other = none at h
    by_cases he : other = root
    · rw [he, Keyed.lookup_set_self] at h
      cases h
    · rwa [Keyed.lookup_set_of_ne he] at h
  history := ⟨[.moved root progress], rfl, by simp⟩

theorem starting (root : NodeId) (name : String) (span : Span) :
    Onward s.standing (s.starting root name span).standing :=
  (noting (.valueNeeded root name span none) nofun).trans (moving root .started)

/-- What a name is known to stand for is told apart by its type only. -/
theorem setGlobal {before after : Global} (hlookup : s.globals.lookup name = some before)
    (heq : after.untyped = before.untyped) :
    Onward s.standing { s with globals := s.globals.set name after }.standing where
  globals other := by
    change ((s.globals.set name after).lookup other).map _ = (s.globals.lookup other).map _
    by_cases he : other = name
    · rw [he, Keyed.lookup_set_self, hlookup, Option.map_some, Option.map_some, heq]
    · rw [Keyed.lookup_set_of_ne he]
  openAliases := rfl
  progress _ h := h
  history := ⟨[], (List.append_nil _).symm, by simp⟩

end Onward

/-- A state in which the target of an alias is being looked for. -/
def State.opening (s : State) (name : String) (span : Span) : State :=
  { s.noting (.aliasNeeded name span false) with openAliases := name :: s.openAliases }

/-- Looking for the target of an alias is over. -/
theorem Onward.closing {span : Span} (h : Onward (s.opening name span).standing s'.standing) :
    Onward s.standing { s' with openAliases := s.openAliases }.standing where
  globals := h.globals
  openAliases := rfl
  progress := h.progress
  history := by
    obtain ⟨events, hevents, hnot⟩ := h.history
    exact ⟨.aliasNeeded name span false :: events, by
      rw [show s'.history = _ from hevents]
      exact List.append_assoc s.history [_] events, by simpa using hnot⟩

/-! ## Names -/

section

variable {walk walk' : Walk} {σ₀ : Standing} {span : Span}

/-- The target of an alias is looked for between its opening and its closing. -/
def lookForTarget (walk : Walk) (name : String) (root target : NodeId) : Lower TypeId := do
  let type ← within
    (fun s => { s with openAliases := name :: s.openAliases })
    (fun before s => { s with openAliases := before.openAliases })
    (walk.target target)
  modify (fun s => { s with globals := s.globals.set name (.type root (some type)) })
  return type

theorem run_aliasTarget : aliasTarget walk name root span c s =
    (if s.openAliases.contains name then
        fail (.initializationCycle name) span
      else
        match c.unit.stmt? root with
        | some (.typeDecl _ target _ _) => lookForTarget walk name root target
        | _ => fail (.notAType name) span : Lower TypeId) c
      (s.noting (.aliasNeeded name span (s.openAliases.contains name))) := by
  change (if s.openAliases.contains name then fail (.initializationCycle name) span
    else read >>= fun c => match c.unit.stmt? root with
      | some (.typeDecl _ target _ _) => lookForTarget walk name root target
      | _ => fail (.notAType name) span : Lower TypeId) c
        (s.noting (.aliasNeeded name span (s.openAliases.contains name))) = _
  split <;> rfl

theorem run_lookForTarget {target : NodeId} :
    lookForTarget walk name root target c (s.noting (.aliasNeeded name span false)) =
      match walk.target target c (s.opening name span) with
      | (.ok type, s') => (.ok type, { s' with
          openAliases := s.openAliases, globals := s'.globals.set name (.type root (some type)) })
      | (.error failure, s') => (.error failure, { s' with openAliases := s.openAliases }) := by
  unfold lookForTarget
  rw [run_bind, run_within, show { s.noting (.aliasNeeded name span false) with
    openAliases := name :: (s.noting (.aliasNeeded name span false)).openAliases } =
      s.opening name span from rfl]
  rcases walk.target target c (s.opening name span) with ⟨r, s'⟩
  cases r <;> rfl

theorem agrees_lookForTarget {before : Option TypeId} {target : NodeId}
    (found : s.globals.lookup name = some (.type root before))
    (h : Agrees c (Onward (s.opening name span).standing) (walk.target target)
      (walk'.target target)) :
    AgreesAt c (Onward s.standing) (s.noting (.aliasNeeded name span false))
      (lookForTarget walk name root target) (lookForTarget walk' name root target) := by
  obtain ⟨heq, hs'⟩ := h.run (s.opening name span) (.refl _)
  refine ⟨by rw [run_lookForTarget, run_lookForTarget, heq], ?_⟩
  rw [run_lookForTarget]
  rcases hrun : walk.target target c (s.opening name span) with ⟨r, s'⟩
  rw [hrun] at hs'
  have hclosed := hs'.closing
  cases r with
  | error failure => exact hclosed
  | ok type =>
    obtain ⟨known, hknown, heq⟩ : ∃ known, s'.globals.lookup name = some known ∧
        known.untyped = .type root none :=
      Option.map_eq_some_iff.mp ((hclosed.globals name).trans (congrArg _ found))
    exact hclosed.trans
      (.setGlobal (s := { s' with openAliases := s.openAliases }) hknown heq.symm)

/-- Walks that agree on whatever can be looked for once less remains agree on the targets of
aliases. -/
theorem agrees_aliasTarget (known : Known c σ₀)
    (target : ∀ σ id, Known c σ → remaining c σ < remaining c σ₀ →
      Agrees c (Onward σ) (walk.target id) (walk'.target id))
    {before : Option TypeId} (hs : Onward σ₀ s.standing)
    (found : s.globals.lookup name = some (.type root before)) :
    AgreesAt c (Onward σ₀) s (aliasTarget walk name root span) (aliasTarget walk' name root span) := by
  cases hopen : s.openAliases.contains name with
  | true =>
    have hrun (walk : Walk) : aliasTarget walk name root span c s =
        (.error (.found (.initializationCycle name) span),
          s.noting (.aliasNeeded name span true)) := by
      rw [run_aliasTarget, hopen]
      rfl
    exact ⟨by rw [hrun, hrun], by rw [hrun]; exact hs.trans (.noting _ nofun)⟩
  | false =>
    have known := hs.known known
    obtain ⟨-, node, isAlias, doc, hstmt⟩ := known.types name root before found
    have hrun (walk : Walk) : aliasTarget walk name root span c s =
        lookForTarget walk name root node c (s.noting (.aliasNeeded name span false)) := by
      rw [run_aliasTarget, hopen, hstmt]
      rfl
    have less : remaining c (s.opening name span).standing < remaining c σ₀ :=
      Nat.lt_of_lt_of_le (remaining_opening known found hopen _) hs.remaining_le
    obtain ⟨heq, hs'⟩ := agrees_lookForTarget (c := c) found
      (target (s.opening name span).standing node ⟨known.types, known.values⟩ less)
    exact ⟨by rw [hrun, hrun, heq], by rw [hrun]; exact hs.trans hs'⟩

/-- Walks that agree on the targets of aliases and on the values of the package agree on names. -/
theorem walksAgree_of {A : NodeId → Prop} (known : Known c σ₀)
    (expr : ∀ id expect, A id → Agrees c (Onward σ₀) (walk.expr id expect) (walk'.expr id expect))
    (statement : ∀ id, A id → Agrees c (Onward σ₀) (walk.statement id) (walk'.statement id))
    (type : ∀ id, A id → Agrees c (Onward σ₀) (walk.type id) (walk'.type id))
    (target : ∀ σ id, Known c σ → remaining c σ < remaining c σ₀ →
      Agrees c (Onward σ) (walk.target id) (walk'.target id))
    (value : ∀ root ∈ c.unit.roots, ∀ name span,
      Agrees c (Onward σ₀) (walk.value root name span) (walk'.value root name span)) :
    walk.Agrees c (Onward σ₀) A walk' := by
  have typeOfName (name : String) (span : Span) : Agrees c (Onward σ₀)
      (typeOfName walk name span) (typeOfName walk' name span) := by
    refine ⟨fun s hs => ?_⟩
    unfold typeOfName
    refine .get ?_
    split
    · exact agrees_self.run s hs
    · exact agrees_self.run s hs
    · refine .get ?_
      split
      · exact agrees_self.run s hs
      · rename_i root found
        exact agrees_aliasTarget known target hs found
      · exact agrees_self.run s hs
      · refine .read ?_
        split <;> exact agrees_self.run s hs
  refine ⟨expr, statement, type, typeOfName, fun name span => ⟨fun s hs => ?_⟩⟩
  unfold unboundOperand?
  refine .get ?_
  split
  · rename_i global found
    refine AgreesAt.bind ?_ (fun _ s' hs' => agrees_self.run s' hs')
    unfold globalOperand
    split
    · rename_i root
      refine ((value root ((hs.known known).values name root found) name span).run s hs).bind
        (fun _ s' hs' => .get ?_)
      split <;> exact agrees_self.run s' hs'
    · exact agrees_self.run s hs
    · exact ((typeOfName name span).run s hs).bind (fun _ s' hs' => agrees_self.run s' hs')
  · refine .get ?_
    split
    · exact agrees_self.run s hs
    · refine .read ?_
      split <;> exact agrees_self.run s hs

/-! ## Values of the package -/

theorem agrees_note (event : Event) (hevent : event ≠ .exhausted) :
    Agrees c (Onward σ₀) (note event) (note event) :=
  ⟨fun _ hs => ⟨rfl, hs.trans (.noting event hevent)⟩⟩

variable {A : NodeId → Prop} [walk.Agrees c (Onward σ₀) A walk']

theorem agrees_lowerGlobalSpec (root : NodeId) (spec : ValueSpec) [Above A spec] (kind : DeclKind) :
    Agrees c (Onward σ₀) (lowerGlobalSpec walk root spec kind)
      (lowerGlobalSpec walk' root spec kind) := by
  unfold lowerGlobalSpec
  refine Agrees.before (fun span => ?_)
  refine Agrees.before (fun decl => ?_)
  refine Agrees.before (fun _ => ?_)
  split <;> infer_instance

theorem agrees_lowerGlobalValue (root : NodeId) [Opens c A root] :
    Agrees c (Onward σ₀) (lowerGlobalValue walk root) (lowerGlobalValue walk' root) := by
  unfold lowerGlobalValue
  refine .get (fun s => ?_)
  refine (agrees_note (.lowered root s.scopes.current s.function) nofun).bind
    (fun _ => .read ?_)
  split
  · rename_i spec hstmt
    have : Above A spec := ⟨(above_stmt hstmt).holds⟩
    exact agrees_lowerGlobalSpec root spec .var
  · rename_i spec hstmt
    have : Above A spec := ⟨(above_stmt hstmt).holds⟩
    exact agrees_lowerGlobalSpec root spec .const
  · infer_instance

omit [walk.Agrees c (Onward σ₀) A walk'] in
/-- Walks that agree once less remains agree on declarations of values. -/
theorem agrees_ensureValue (known : Known c σ₀) (hroot : root ∈ c.unit.roots)
    (value : ∀ σ, Known c σ → remaining c σ < remaining c σ₀ →
      Agrees c (Onward σ) (lowerGlobalValue walk root) (lowerGlobalValue walk' root))
    (name : String) (span : Span) :
    Agrees c (Onward σ₀) (ensureValue walk root name span) (ensureValue walk' root name span) := by
  refine ⟨fun s hs => ?_⟩
  cases hfound : s.progress.lookup root with
  | none =>
    have known := hs.known known
    have less : remaining c (s.starting root name span).standing < remaining c σ₀ :=
      Nat.lt_of_lt_of_le (remaining_starting (σ := s.standing) hroot hfound .started _)
        hs.remaining_le
    have := value (s.starting root name span).standing ⟨known.types, known.values⟩ less
    have hlevel : Agrees c (Onward (s.starting root name span).standing)
        (atPackageLevel (lowerGlobalValue walk root))
        (atPackageLevel (lowerGlobalValue walk' root)) := inferInstance
    obtain ⟨heq, hs'⟩ := hlevel.run _ (.refl _)
    refine ⟨by rw [run_ensureValue_new hfound, run_ensureValue_new hfound, heq], ?_⟩
    rw [run_ensureValue_new hfound]
    rcases hrun : atPackageLevel (lowerGlobalValue walk root) c (s.starting root name span)
      with ⟨r, s₁⟩
    rw [hrun] at hs'
    have hon := hs.trans ((Onward.starting root name span).trans hs')
    cases r with
    | ok _ => exact hon.trans (.moving root .done)
    | error failure => exact hon.trans (.moving root .failed)
  | some progress =>
    by_cases hended : progress = .started
    · subst hended
      refine ⟨by rw [run_ensureValue_started hfound, run_ensureValue_started hfound], ?_⟩
      rw [run_ensureValue_started hfound]
      exact hs.trans (.noting _ nofun)
    · refine ⟨by rw [run_ensureValue_ended hfound hended, run_ensureValue_ended hfound hended], ?_⟩
      rw [run_ensureValue_ended hfound hended]
      exact hs.trans (.noting _ nofun)

end

/-! ## Depth -/

/-- The depth that a walk needs below nodes of some height while so much remains. -/
def depthNeeded (unit : SourceUnit) (remaining height : Nat) : Nat :=
  (4 * unit.nodes.size + 4) * remaining + 4 * height

/-- The nodes that are lower than some height. -/
def Beneath (unit : SourceUnit) (height : Nat) (id : NodeId) : Prop := unit.height id < height

section

variable {σ₀ : Standing} {height : Nat} {id : NodeId}

theorem opens_beneath (acyclic : c.unit.Acyclic) (hid : Beneath c.unit (height + 1) id) :
    Opens c (Beneath c.unit height) id :=
  ⟨fun _ hchild =>
    Nat.lt_of_lt_of_le (SourceUnit.height_lt acyclic hchild) (Nat.le_of_lt_succ hid)⟩

theorem closed_beneath (acyclic : c.unit.Acyclic) : Closed c (Beneath c.unit height) :=
  ⟨fun _ hid _ hchild => Nat.lt_trans (SourceUnit.height_lt acyclic hchild) hid⟩

/-- Every node refers to nodes that are lower than there are nodes. -/
theorem opens_size (acyclic : c.unit.Acyclic) (id : NodeId) :
    Opens c (Beneath c.unit c.unit.nodes.size) id :=
  opens_beneath acyclic (Nat.lt_succ_of_le (SourceUnit.height_le acyclic id))

/-- Where walks agree below some height once they are deep enough, they agree at that height once
they are deeper by three steps: a node where a statement stands may be an expression, and one where
an expression stands may be a type. -/
theorem agrees_at_height (acyclic : c.unit.Acyclic) {need : Nat}
    (h : ∀ D D', need < D → need < D' →
      (walkWithin D).Agrees c (Onward σ₀) (Beneath c.unit height) (walkWithin D'))
    (hid : Beneath c.unit (height + 1) id) (D D' : Nat) (hD : need + 3 < D) (hD' : need + 3 < D') :
    (∀ expect, Agrees c (Onward σ₀) ((walkWithin D).expr id expect)
      ((walkWithin D').expr id expect)) ∧
    Agrees c (Onward σ₀) ((walkWithin D).statement id) ((walkWithin D').statement id) ∧
    Agrees c (Onward σ₀) ((walkWithin D).type id) ((walkWithin D').type id) := by
  have := opens_beneath acyclic hid
  have : Closed c (Beneath c.unit height) := closed_beneath acyclic
  have type (d d' : Nat) (hd : need < d) (hd' : need < d') : Agrees c (Onward σ₀)
      ((walkWithin (d + 1)).type id) ((walkWithin (d' + 1)).type id) := by
    have := h d d' hd hd'
    exact agrees_lowerType id
  have expr (d d' : Nat) (hd : need + 1 < d) (hd' : need + 1 < d') (expect : Expectation) :
      Agrees c (Onward σ₀) ((walkWithin (d + 1)).expr id expect)
        ((walkWithin (d' + 1)).expr id expect) := by
    obtain ⟨e, rfl⟩ := Nat.exists_eq_add_one_of_ne_zero (Nat.ne_zero_of_lt hd)
    obtain ⟨e', rfl⟩ := Nat.exists_eq_add_one_of_ne_zero (Nat.ne_zero_of_lt hd')
    have := h (e + 1) (e' + 1) (by omega) (by omega)
    exact agrees_lowerExpr id (type e e' (by omega) (by omega)) expect
  obtain ⟨d, rfl⟩ := Nat.exists_eq_add_one_of_ne_zero (Nat.ne_zero_of_lt hD)
  obtain ⟨d', rfl⟩ := Nat.exists_eq_add_one_of_ne_zero (Nat.ne_zero_of_lt hD')
  refine ⟨expr d d' (by omega) (by omega), ?_, type d d' (by omega) (by omega)⟩
  obtain ⟨e, rfl⟩ := Nat.exists_eq_add_one_of_ne_zero (n := d) (by omega)
  obtain ⟨e', rfl⟩ := Nat.exists_eq_add_one_of_ne_zero (n := d') (by omega)
  have := h (e + 1) (e' + 1) (by omega) (by omega)
  exact agrees_lowerStmt id (expr e e' (by omega) (by omega))

/-- Where walks agree once less remains, they agree below every height if they are deeper by four
steps for each node on the way. -/
theorem agrees_below_height (acyclic : c.unit.Acyclic) (known : Known c σ₀) {need : Nat}
    (deeper : ∀ σ, Known c σ → remaining c σ < remaining c σ₀ → ∀ d d', need ≤ d → need ≤ d' →
      (walkWithin d).Agrees c (Onward σ) (Beneath c.unit c.unit.nodes.size) (walkWithin d'))
    (height : Nat) {D D' : Nat} (hD : need + 4 * height < D) (hD' : need + 4 * height < D') :
    (walkWithin D).Agrees c (Onward σ₀) (Beneath c.unit height) (walkWithin D') := by
  have : Closed c (Beneath c.unit c.unit.nodes.size) := closed_beneath acyclic
  have := opens_size acyclic
  -- An alias or a value is looked for one step down, with less remaining.
  have target (d d' : Nat) (hd : need ≤ d) (hd' : need ≤ d') (σ : Standing) (id : NodeId)
      (known : Known c σ) (less : remaining c σ < remaining c σ₀) :
      Agrees c (Onward σ) ((walkWithin (d + 1)).target id) ((walkWithin (d' + 1)).target id) := by
    have := deeper σ known less d d' hd hd'
    exact agrees_lowerType id
  have value (d d' : Nat) (hd : need ≤ d) (hd' : need ≤ d') (root : NodeId)
      (hroot : root ∈ c.unit.roots) (name : String) (span : Span) : Agrees c (Onward σ₀)
        ((walkWithin (d + 1)).value root name span) ((walkWithin (d' + 1)).value root name span) := by
    refine agrees_ensureValue known hroot (fun σ known less => ?_) name span
    have := deeper σ known less d d' hd hd'
    exact agrees_lowerGlobalValue root
  induction height generalizing D D' with
  | zero =>
    obtain ⟨d, rfl⟩ := Nat.exists_eq_add_one_of_ne_zero (Nat.ne_zero_of_lt hD)
    obtain ⟨d', rfl⟩ := Nat.exists_eq_add_one_of_ne_zero (Nat.ne_zero_of_lt hD')
    exact walksAgree_of known (fun _ _ hid => absurd hid (Nat.not_lt_zero _))
      (fun _ hid => absurd hid (Nat.not_lt_zero _)) (fun _ hid => absurd hid (Nat.not_lt_zero _))
      (target d d' (by omega) (by omega)) (value d d' (by omega) (by omega))
  | succ height ih =>
    have at_height (id : NodeId) (hid : Beneath c.unit (height + 1) id) :=
      agrees_at_height acyclic (fun d d' hd hd' => ih hd hd') hid D D' (by omega) (by omega)
    obtain ⟨d, rfl⟩ := Nat.exists_eq_add_one_of_ne_zero (Nat.ne_zero_of_lt hD)
    obtain ⟨d', rfl⟩ := Nat.exists_eq_add_one_of_ne_zero (Nat.ne_zero_of_lt hD')
    exact walksAgree_of known (fun id expect hid => (at_height id hid).1 expect)
      (fun id hid => (at_height id hid).2.1) (fun id hid => (at_height id hid).2.2)
      (target d d' (by omega) (by omega)) (value d d' (by omega) (by omega))

/-- Two walks do the same below some height if both may go as deep as needed, whatever remains, and
neither is ever at its end. -/
theorem agrees_walkWithin (acyclic : c.unit.Acyclic) {bound : Nat} (known : Known c σ₀)
    (hbound : remaining c σ₀ ≤ bound) (height : Nat) {D D' : Nat}
    (hD : depthNeeded c.unit bound height < D) (hD' : depthNeeded c.unit bound height < D') :
    (walkWithin D).Agrees c (Onward σ₀) (Beneath c.unit height) (walkWithin D') := by
  induction bound generalizing σ₀ height D D' with
  | zero => exact agrees_below_height acyclic known (fun σ _ less => by omega) height hD hD'
  | succ bound ih =>
    refine agrees_below_height acyclic known (fun σ known less d d' hd hd' => ?_) height hD hD'
    rw [Nat.mul_succ] at hd hd'
    exact ih known (by omega) _ (by unfold depthNeeded; omega) (by unfold depthNeeded; omega)

end

end GoLowering.Lowering
