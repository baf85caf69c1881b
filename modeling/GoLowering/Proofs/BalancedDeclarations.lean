import GoLowering.Proofs.BalancedStatements
import GoLowering.Proofs.Collecting

/-!
# Balances of declarations

What a declaration becomes is put into its place of the output. Nothing is held between two
declarations, and a declaration that fails is reported, so that nothing is lost by it in a lowering
without reports. The walk of a lowering leaves the books balanced, to whatever depth it goes
(`balanced_walkWithin`).
-/

namespace GoLowering.Lowering

open Surface Walk.Balanced

theorem State.Before.clean {w : Watch} {s : State} (h : s.Before w.final) :
    s.diagnostics = [] :=
  List.prefix_nil.mp (w.clean ▸ h.diagnostics)

namespace Watch

variable {w : Watch}

theorem values_fill (places : Places NodeId HostId) (root : NodeId) (ids : List HostId) :
    w.values (places.fill root ids).values = w.values ids + w.values places.values := by
  induction places with
  | nil => simp [Places.fill, Places.values]
  | cons place rest ih =>
    obtain ⟨key, kept⟩ := place
    simp only [Places.values] at ih
    simp only [Places.fill, Places.values]
    split
    · simp only [List.flatMap_cons, values_append]
      abel
    · simp only [List.flatMap_cons, values_append, ih]
      abel

/-- What is put into a place weighs on the output. -/
theorem values_fillAll (w : Watch) (s : State) (kind : DeclKind) (root : NodeId) (ids : List HostId) :
    w.values ({ s with outline := s.outline.fillAll kind root ids } : State).output =
      w.values ids + w.values s.output := by
  cases kind <;>
    simp only [State.output, Outline.fillAll, Outline.typeOutput, Outline.constantOutput,
      Outline.functionOutput, values_append, values_fill] <;> ac_rfl

namespace Balances

variable {α β : Type} {D : ℕ∞} {m : Lower α} {W : α → ℕ∞} {V : β → ℕ∞}

/-- A part that hoists nothing, makes nothing and puts nothing out, unless it reports something. -/
theorem idle {m : Lower α} (h : ∀ ⦃c s a s'⦄, m c s = (.ok a, s') → s'.diagnostics = [] →
    s.Alike s' ∧ s'.hoisted = s.hoisted) : w.Balances 0 m (fun _ => 0) where
  before _ _ _ _ hrun ho := (h hrun ho.clean).1.symm.before ho
  settled _ _ _ _ hrun ho _ _ hb := by
    obtain ⟨halike, hoisted⟩ := h hrun ho.clean
    exact hb.alike halike (by rw [hoisted])

/-- A lowering that has reported something is not clean. -/
theorem recordFailure {failure : Failure} {W : Unit → ℕ∞} :
    w.Balances D (Lowering.recordFailure failure) W where
  before _ _ _ _ hrun ho := by
    obtain ⟨-, rfl⟩ := Prod.mk.inj hrun
    exact absurd ho.clean (by simp)
  settled _ _ _ _ hrun ho := by
    obtain ⟨-, rfl⟩ := Prod.mk.inj hrun
    exact absurd ho.clean (by simp)

/-- What follows a part that has been tried. -/
theorem attempting {f : Except Failure α → Lower β} (hm : w.Balances D m W)
    (hok : ∀ a, w.Balances (W a) (f (.ok a)) V)
    (hreports : ∀ e ⦃c s b s'⦄, f (.error e) c s = (.ok b, s') → s'.diagnostics ≠ []) :
    w.Balances D (attempt m >>= f) V := by
  have split ⦃c s b s'⦄ (hrun : (attempt m >>= f) c s = (.ok b, s')) (ho : s'.Before w.final) :
      ∃ a s₁, m c s = (.ok a, s₁) ∧ f (.ok a) c s₁ = (.ok b, s') := by
    rw [run_bind, run_attempt] at hrun
    rcases hr : m c s with ⟨r, s₁⟩
    rw [hr] at hrun
    cases r with
    | ok a => exact ⟨a, s₁, rfl, hrun⟩
    | error e => exact absurd ho.clean (hreports e hrun)
  refine ⟨fun c s b s' hrun ho => ?_, fun c s b s' hrun ho since held hb => ?_⟩
  · obtain ⟨a, s₁, ha, hrest⟩ := split hrun ho
    exact hm.before ha ((hok a).before hrest ho)
  · obtain ⟨a, s₁, ha, hrest⟩ := split hrun ho
    have hb₁ := hm.settled ha ((hok a).before hrest ho) since held hb
    exact (hok a).settled hrest ho since held hb₁

theorem reporting {m : Lower Unit} (h : w.Balances 0 m (fun _ => 0)) :
    w.Balances 0 (Lowering.reporting m) (fun _ => 0) := by
  unfold Lowering.reporting
  refine h.attempting (fun _ => .pure (fun _ => rfl)) ?_
  rintro e c s _ s' hrun hclean
  obtain ⟨-, rfl⟩ := Prod.mk.inj hrun
  simp at hclean

/-- Nothing is hoisted outside of functions, and what is put out has not been hoisted at the level
around. -/
theorem atPackageLevel [hm : Steady recording m] (h : w.atLarge.Balances 0 m (fun _ => 0)) :
    w.Balances 0 (Lowering.atPackageLevel m) (fun _ => 0) := by
  unfold Lowering.atPackageLevel
  refine .read (fun here => ⟨fun c s a s' hrun ho => ?_, fun c s a s' hrun ho since held hb => ?_⟩)
  · obtain ⟨s₁, hm, rfl⟩ := within_ok.mp hrun
    exact (h.before hm (ho.congr rfl rfl rfl)).congr rfl rfl rfl
  · obtain ⟨s₁, hm, rfl⟩ := within_ok.mp hrun
    have hlarge : w.atLarge.Books since (held + 0) s := hb.atLarge
    have hentered : w.atLarge.Books since (held + w.entries s.hoisted + 0) { s with
        scopes := s.scopes.setCurrent Scopes.package, function := none, hoisted := []
        levelLog := [], frameName := packageFrame here.unit } := by
      refine ⟨hlarge.logged, hlarge.count.trans ?_, fun hlevel => Bool.noConfusion hlevel,
        hlarge.literals⟩
      change held + 0 + (w.entries s.hoisted + w.values s.output) =
        held + w.entries s.hoisted + 0 + (w.entries [] + w.values s.output)
      rw [entries_nil]
      abel
    have hleft := h.settled hm (ho.congr rfl rfl rfl) since _ hentered
    have hused : s₁.hoisted = [] := by
      refine List.sublist_nil.mp ((Steady.records hm).outside ?_)
      rintro ⟨results, hfunction, -⟩
      cases hfunction
    refine ⟨hleft.logged, hleft.count.trans ?_, hb.level, hleft.literals⟩
    change held + w.entries s.hoisted + 0 + (w.entries s₁.hoisted + w.values s₁.output) =
      held + 0 + (w.entries s.hoisted + w.values s₁.output)
    rw [hused, entries_nil]
    abel

/-- What is put into a place is held no longer. Nothing is put out at a level that is watched. -/
theorem fillAll (kind : DeclKind) (root : NodeId) (ids : List HostId)
    (hids : w.level → w.values ids = 0) :
    w.Balances (w.values ids) (onOutline (·.fillAll kind root ids)) (fun _ => 0) where
  before _ _ _ _ hrun ho := by
    obtain ⟨-, rfl⟩ := Prod.mk.inj hrun
    exact ho.congr rfl rfl rfl
  settled _ s _ _ hrun _ _ held hb := by
    obtain ⟨-, rfl⟩ := Prod.mk.inj hrun
    have houtput := w.values_fillAll s kind root ids
    refine ⟨hb.logged, hb.count.trans ?_, fun hw => ?_, hb.literals⟩
    · change _ = held + 0 + (w.entries s.hoisted + w.values (State.output _))
      rw [houtput]
      abel
    · rw [← hids hw]
      exact hb.level hw

theorem fill (kind : DeclKind) (root : NodeId) (node : HostId) :
    w.atLarge.Balances (w.atLarge.value node) (onOutline (·.fill kind root node)) (fun _ => 0) :=
  (fillAll kind root [node] (fun hlevel => Bool.noConfusion hlevel)).given
    (fun _ => by rw [values_cons, values_nil, add_zero])

theorem reserve (kind : DeclKind) (root : NodeId) :
    w.Balances 0 (onOutline (·.reserve kind root)) (fun _ => 0) :=
  fillAll kind root [] (fun _ => rfl)

end Balances

end Watch

variable (w : Watch) {walk : Walk}

/-! ## Names of the package -/

theorem balances_note {w : Watch} (event : Event) : w.Balances 0 (note event) (fun _ => 0) :=
  .modifying (fun _ => ⟨⟨rfl, rfl, rfl, rfl, rfl, rfl⟩, rfl⟩)

theorem balances_aliasTarget (target : ∀ id, w.Balances 0 (walk.target id) (fun _ => 0))
    (name : String) (root : NodeId) (span : Span) :
    w.Balances 0 (aliasTarget walk name root span) (fun _ => 0) := by
  unfold aliasTarget
  refine .get (fun s => .pass (balances_note _) (fun _ => ?_))
  split
  · exact .failing
  · refine .read (fun c => ?_)
    split
    · have opened (id : NodeId) : w.Balances 0 (within
          (fun s => { s with openAliases := name :: s.openAliases })
          (fun before s => { s with openAliases := before.openAliases }) (walk.target id))
          (fun _ => 0) :=
        (target id).around (fun _ => ⟨⟨rfl, rfl, rfl, rfl, rfl, rfl⟩, rfl⟩)
          (fun _ _ => ⟨⟨rfl, rfl, rfl, rfl, rfl, rfl⟩, rfl⟩)
      refine .pass (opened _) (fun type => .pass (.modifying (fun _ => ?_)) (fun _ => ?_))
      · exact ⟨⟨rfl, rfl, rfl, rfl, rfl, rfl⟩, rfl⟩
      · exact .pure (fun _ => rfl)
    · exact .failing

theorem balances_typeOfName_of (target : ∀ id, w.Balances 0 (walk.target id) (fun _ => 0))
    (name : String) (span : Span) : w.Balances 0 (typeOfName walk name span) (fun _ => 0) := by
  unfold typeOfName
  refine .get (fun s => ?_)
  split
  · exact .pure (fun _ => rfl)
  · exact .failing
  · refine .get (fun s => ?_)
    split
    · exact .pure (fun _ => rfl)
    · exact balances_aliasTarget w target _ _ _
    · exact .failing
    · refine .read (fun c => ?_)
      split
      · exact .pure (fun _ => rfl)
      · exact .failing
      · exact .failing

theorem balances_globalOperand (target : ∀ id, w.Balances 0 (walk.target id) (fun _ => 0))
    (value : ∀ root name span, w.Balances 0 (walk.value root name span) (fun _ => 0))
    (global : Global) (name : String) (span : Span) :
    w.Balances 0 (globalOperand walk global name span) w.operand := by
  unfold globalOperand
  split
  · refine .pass (value _ _ _) (fun _ => .get (fun s => ?_))
    split
    · exact balances_symbolOperand _ _ _
    · exact (balances_namedOperand _ _ _).giving (fun _ => Watch.operand_eq_top_mul)
  · exact (balances_namedOperand _ _ _).giving (fun _ => Watch.operand_eq_top_mul)
  · exact .pass (balances_typeOfName_of w target _ _) (fun type => balances_typeOperand _ _)

theorem balances_unboundOperand? (target : ∀ id, w.Balances 0 (walk.target id) (fun _ => 0))
    (value : ∀ root name span, w.Balances 0 (walk.value root name span) (fun _ => 0))
    (name : String) (span : Span) :
    w.Balances 0 (unboundOperand? walk name span) (fun r => r.elim 0 w.operand) := by
  unfold unboundOperand?
  refine .get (fun s => ?_)
  split
  · exact .finish (balances_globalOperand w target value _ _ _) (fun _ _ => rfl)
  · refine .get (fun s => ?_)
    split
    · exact .finish (balances_namedOperand _ _ _) (fun _ h => Watch.operand_eq_top_mul h)
    · refine .read (fun c => ?_)
      split
      · exact .finish (balances_resolvedOperand _ _ _ _) (fun _ _ => rfl)
      · exact .pure (fun _ => rfl)

section

variable [walk.Balanced w]

/-! ## Values of the package -/

theorem balances_lowerGlobalSpec (root : NodeId) (spec : ValueSpec) (kind : DeclKind) :
    w.atLarge.Balances 0 (lowerGlobalSpec walk root spec kind) (fun _ => 0) := by
  unfold lowerGlobalSpec
  refine .skip (fun span => .wholly (balances_lowerValueSpec w _ _ _).atLarge (fun decl => ?_))
  refine .skip (fun _ => ?_)
  split
  · rename_i node hnode
    rw [hnode]
    exact (Watch.Balances.fill _ _ _).given (fun _ => by simp)
  · rename_i hnode
    rw [hnode]
    exact .pure (fun _ => rfl)

theorem balances_lowerGlobalValue (root : NodeId) :
    w.atLarge.Balances 0 (lowerGlobalValue walk root) (fun _ => 0) := by
  unfold lowerGlobalValue
  refine .get (fun s => .pass (balances_note _) (fun _ => .read (fun c => ?_)))
  split
  · exact balances_lowerGlobalSpec w _ _ _
  · exact balances_lowerGlobalSpec w _ _ _
  · exact .pure (fun _ => rfl)

theorem balances_setProgress {w : Watch} (root : NodeId) (progress : Progress) :
    w.Balances 0 (setProgress root progress) (fun _ => 0) :=
  .modifying (fun _ => ⟨⟨rfl, rfl, rfl, rfl, rfl, rfl⟩, rfl⟩)

theorem balances_ensureValue (root : NodeId) (name : String) (span : Span) :
    w.Balances 0 (ensureValue walk root name span) (fun _ => 0) := by
  unfold ensureValue
  refine .get (fun s => .pass (balances_note _) (fun _ => ?_))
  split
  · exact .pure (fun _ => rfl)
  · exact .pure (fun _ => rfl)
  · exact .failing
  · refine .pass (balances_setProgress _ _) (fun _ => ?_)
    refine (balances_lowerGlobalValue w root).atPackageLevel.attempting
      (fun _ => balances_setProgress _ _) ?_
    rintro e c s _ s' hrun hclean
    obtain ⟨_, s₁, hset, hrun⟩ := bind_ok.mp hrun
    obtain ⟨-, rfl⟩ := Prod.mk.inj hrun
    simp at hclean

/-! ## The walk -/

/-- An `if` becomes a statement. -/
theorem lowerStmt_branch_isSome {id : NodeId} {c : Context} {s s' : State} {r : Option HostId}
    (hrun : lowerStmt walk id c s = (.ok r, s')) (hbranch : ∃ init condition thenBlock elseBranch,
      c.unit.stmt? id = some (.ifElse init condition thenBlock elseBranch)) : r.isSome := by
  obtain ⟨init, condition, thenBlock, elseBranch, hbranch⟩ := hbranch
  unfold lowerStmt at hrun
  rw [run_read, hbranch] at hrun
  obtain ⟨span, s₁, -, hrun⟩ := bind_ok.mp hrun
  obtain ⟨node, s₂, -, hrun⟩ := bind_ok.mp hrun
  obtain ⟨rfl, -⟩ := pure_ok.mp hrun
  rfl

end

instance fails_exhaust {α : Type} : Fails (exhaust : Lower α) := by
  unfold exhaust
  infer_instance

/-- The walk of a lowering leaves the books balanced, and so do the declarations that it needs. -/
theorem balanced_walkWithin (hw : w.level) (depth : Nat) : (walkWithin depth).Balanced w ∧
    ∀ root name span, w.Balances 0 ((walkWithin depth).value root name span) (fun _ => 0) := by
  have of {walk : Walk} [walk.Keeps recording]
      (expr : ∀ id expect, w.Balances 0 (walk.expr id expect) w.operand)
      (statement : ∀ id, w.Balances 0 (walk.statement id) (fun r => w.values r.toList))
      (branch : ∀ ⦃id : NodeId⦄ ⦃c : Context⦄ ⦃s : State⦄ ⦃r : Option HostId⦄ ⦃s' : State⦄,
        walk.statement id c s = (.ok r, s') → (∃ init condition thenBlock elseBranch,
          c.unit.stmt? id = some (.ifElse init condition thenBlock elseBranch)) → r.isSome)
      (type : ∀ id, w.Balances 0 (walk.type id) (fun _ => 0))
      (target : ∀ id, w.Balances 0 (walk.target id) (fun _ => 0))
      (value : ∀ root name span, w.Balances 0 (walk.value root name span) (fun _ => 0)) :
      walk.Balanced w ∧
        ∀ root name span, w.Balances 0 (walk.value root name span) (fun _ => 0) :=
    ⟨⟨hw, expr, statement, branch, type, balances_typeOfName_of w target,
      balances_unboundOperand? w target value⟩, value⟩
  induction depth with
  | zero =>
    have h {α : Type} {W : α → ℕ∞} : w.Balances 0 (exhaust : Lower α) W := .failing
    exact of (fun _ _ => h) (fun _ => h) (fun _ _ _ _ _ hrun => absurd hrun fails_exhaust.fails)
      (fun _ => h) (fun _ => h) (fun _ _ _ => h)
  | succ depth ih =>
    obtain ⟨hwalk, -⟩ := ih
    exact of (balances_lowerExpr w) (balances_lowerStmt w)
      (fun _ _ _ _ _ => lowerStmt_branch_isSome)
      (balances_lowerType w) (balances_lowerType w) (balances_ensureValue w)

/-! ## Collecting -/

section

variable {w : Watch}

theorem balances_declare (declaration : Declaration) :
    w.Balances 0 (declare declaration) (fun _ => 0) :=
  .idle (fun _ _ _ _ hrun hclean => by
    obtain ⟨-, rfl, -⟩ := declare_run hrun hclean
    exact ⟨⟨rfl, rfl, rfl, rfl, rfl, rfl⟩, rfl⟩)

theorem balances_declareAt (root : NodeId) (declaration : Declaration) :
    w.Balances 0 (declareAt root declaration) (fun _ => 0) := by
  unfold declareAt
  refine .pass (balances_declare _) (fun declared => ?_)
  dsimp only
  split
  · exact .pass (.reserve _ _) (fun _ => .pure (fun _ => rfl))
  · exact .pure (fun _ => rfl)

theorem balances_setGlobal (name : String) (global : Global) :
    w.Balances 0 (setGlobal name global) (fun _ => 0) :=
  .modifying (fun _ => ⟨⟨rfl, rfl, rfl, rfl, rfl, rfl⟩, rfl⟩)

theorem balances_collectImport (path : String) (localName : Option String) :
    w.Balances 0 (collectImport path localName) (fun _ => 0) := by
  unfold collectImport
  dsimp only
  split
  · exact .modifying (fun _ => ⟨⟨rfl, rfl, rfl, rfl, rfl, rfl⟩, rfl⟩)
  · exact .pure (fun _ => rfl)

theorem balances_collectType (root : NodeId) (name : String) (isAlias : Bool) (span : Span) :
    w.Balances 0 (collectType root name isAlias span) (fun _ => 0) := by
  unfold collectType
  refine .pass (balances_declareAt _ _) (fun declared => ?_)
  dsimp only
  split
  · split
    · exact .returned (balances_setGlobal _ _)
    · exact .skip (fun type => balances_setGlobal _ _)
  · exact .pure (fun _ => rfl)

theorem balances_collectValue (root : NodeId) (kind : DeclKind) (span : Span) (name : String) :
    w.Balances 0 (collectValue root kind span name) (fun _ => 0) := by
  unfold collectValue
  refine .pass (balances_declare _) (fun declared => ?_)
  split
  · exact balances_setGlobal _ _
  · exact .pure (fun _ => rfl)

theorem Watch.Balances.forEachUnit {α : Type} {f : α → Lower Unit}
    (h : ∀ x, w.Balances 0 (f x) (fun _ => 0)) (xs : List α) :
    w.Balances 0 (xs.forM f) (fun _ => 0) := by
  induction xs with
  | nil => exact .pure (fun _ => rfl)
  | cons x xs ih => exact .pass (h x) (fun _ => ih)

theorem balances_collectValues (root : NodeId) (kind : DeclKind) (names : List String)
    (span : Span) : w.Balances 0 (collectValues root kind names span) (fun _ => 0) := by
  unfold collectValues
  exact .pass (.reserve _ _) (fun _ => .forEachUnit (balances_collectValue _ _ _) _)

theorem balances_collectFunction (root : NodeId) (decl : FunctionDecl) (span : Span) :
    w.Balances 0 (collectFunction root decl span) (fun _ => 0) := by
  unfold collectFunction
  split
  · exact .skip (fun text => .pass (balances_declareAt _ _) (fun _ => .pure (fun _ => rfl)))
  · refine .pass (balances_declareAt _ _) (fun declared => ?_)
    split
    · split
      · exact balances_setGlobal _ _
      · exact .pure (fun _ => rfl)
    · exact .pure (fun _ => rfl)

theorem balances_collectFunctionRoot (root : NodeId) (decl : FunctionDecl) (span : Span)
    (sites : EntrySites) :
    w.Balances 0 (collectFunctionRoot root decl span sites) (fun _ => 0) := by
  unfold collectFunctionRoot
  refine .read (fun c => ?_)
  dsimp only
  split
  · exact .pass (balances_collectFunction _ _ _) (fun _ => .pure (fun _ => rfl))
  · split
    · exact .pass .recordFailure (fun _ => .pure (fun _ => rfl))
    · exact .pass (balances_collectFunction _ _ _) (fun _ => .pure (fun _ => rfl))

theorem balances_collectRoot (root : NodeId) (sites : EntrySites) :
    w.Balances 0 (collectRoot root sites) (fun _ => 0) := by
  unfold collectRoot
  refine .skip (fun span => .read (fun c => ?_))
  split
  · exact .pass (balances_collectImport _ _) (fun _ => .pure (fun _ => rfl))
  · exact .pass (balances_collectType _ _ _ _) (fun _ => .pure (fun _ => rfl))
  · exact .pass (balances_collectValues _ _ _ _) (fun _ => .pure (fun _ => rfl))
  · exact .pass (balances_collectValues _ _ _ _) (fun _ => .pure (fun _ => rfl))
  · exact balances_collectFunctionRoot _ _ _ _
  · exact .pass (.modifying (fun _ => ⟨⟨rfl, rfl, rfl, rfl, rfl, rfl⟩, rfl⟩)) (fun _ => .pure (fun _ => rfl))

theorem balances_collectRoots (roots : List NodeId) (sites : EntrySites) :
    w.Balances 0 (collectRoots roots sites) (fun _ => 0) := by
  induction roots generalizing sites with
  | nil => exact .pure (fun _ => rfl)
  | cons root rest ih =>
    unfold collectRoots
    refine .get (fun s => ?_)
    split
    · exact .pure (fun _ => rfl)
    · exact .pass (balances_collectRoot _ _) ih

theorem balances_collect (roots : List NodeId) : w.Balances 0 (collect roots) (fun _ => 0) := by
  unfold collect
  refine .pass (balances_collectRoots _ _) (fun found => ?_)
  split
  · exact .pure (fun _ => rfl)
  · refine .pass (.modifying (fun _ => ⟨⟨rfl, rfl, rfl, rfl, rfl, rfl⟩, rfl⟩)) (fun _ => ?_)
    split
    · exact .read (fun c => .recordFailure)
    · exact .pure (fun _ => rfl)

end

/-! ## Phases -/

theorem balances_forEachRoot {w : Watch} {step : NodeId → Lower Unit}
    (h : ∀ root, w.Balances 0 (step root) (fun _ => 0)) (roots : List NodeId) :
    w.Balances 0 (forEachRoot step roots) (fun _ => 0) := by
  induction roots with
  | nil => exact .pure (fun _ => rfl)
  | cons root rest ih =>
    unfold forEachRoot
    refine .get (fun s => ?_)
    split
    · exact .pure (fun _ => rfl)
    · exact .pass (h root) (fun _ => ih)

section

variable [walk.Balanced w]

theorem balances_lowerDefinition (name : String) (type : NodeId) (isAlias : Bool) (span : Span) :
    w.Balances 0 (lowerDefinition walk name type isAlias span) (fun _ => 0) := by
  unfold lowerDefinition
  split
  · exact balances_typeOfName _ _
  · refine .pass (balances_type _) (fun definition => .get (fun s => ?_))
    split
    · refine .pass (.modifying (fun _ => ?_)) (fun _ => .pure (fun _ => rfl))
      exact ⟨⟨rfl, rfl, rfl, rfl, rfl, rfl⟩, rfl⟩
    · exact .pure (fun _ => rfl)

theorem balances_lowerTypeRoot (root : NodeId) :
    w.atLarge.Balances 0 (lowerTypeRoot walk root) (fun _ => 0) := by
  unfold lowerTypeRoot
  refine .read (fun c => ?_)
  split
  · refine .get (fun s => ?_)
    split
    · refine .reporting (.skip (fun span => .pass (balances_lowerDefinition w _ _ _ _).atLarge ?_))
      exact fun definition => .wholly (.placing (by simp)) (fun decl => .fill _ _ _)
    · exact .pure (fun _ => rfl)
  · exact .pure (fun _ => rfl)

theorem balances_lowerMethodHead (decl : FunctionDecl) (receiver : Receiver)
    (signature : HostSignature) (type : TypeId) :
    w.Balances 0 (lowerMethodHead walk decl receiver signature type) (fun _ => 0) := by
  unfold lowerMethodHead
  refine .read (fun c => ?_)
  refine .pass (balances_type _) (fun base => .skip (fun owner => ?_))
  refine .pass (.modifying (fun _ => ⟨⟨rfl, rfl, rfl, rfl, rfl, rfl⟩, rfl⟩)) (fun _ => ?_)
  split
  · exact .skip (fun pointer => .pure (fun _ => rfl))
  · exact .pure (fun _ => rfl)

theorem balances_setFunctionType {w : Watch} (root : NodeId) (name : String) (type : TypeId) :
    w.Balances 0 (setFunctionType root name type) (fun _ => 0) := by
  unfold setFunctionType
  refine .get (fun s => ?_)
  split
  · split
    · exact balances_setGlobal _ _
    · exact .pure (fun _ => rfl)
  · exact .pure (fun _ => rfl)

theorem balances_lowerHead (root : NodeId) (decl : FunctionDecl) :
    w.Balances 0 (lowerHead walk root decl) (fun _ => 0) := by
  unfold lowerHead
  refine .pass (balances_lowerSignature w _) (fun r => ?_)
  obtain ⟨signature, type⟩ := r
  dsimp only
  split
  · exact balances_lowerMethodHead w _ _ _ _
  · refine .pass (balances_setFunctionType _ _ _) (fun _ => .read (fun c => ?_))
    exact .pure (fun _ => rfl)

theorem balances_lowerHeads (roots : List NodeId) (heads : FunctionHeads) :
    w.Balances 0 (lowerHeads walk roots heads) (fun _ => 0) := by
  induction roots generalizing heads with
  | nil => exact .pure (fun _ => rfl)
  | cons root rest ih =>
    unfold lowerHeads
    refine .get (fun s => ?_)
    split
    · exact .pure (fun _ => rfl)
    · refine .read (fun c => ?_)
      split
      · refine (balances_lowerHead w root _).attempting (fun head => ih _) ?_
        rintro failure c s found s' hrun hclean
        obtain ⟨_, s₁, hrecord, hrun⟩ := bind_ok.mp hrun
        obtain ⟨-, rfl⟩ := Prod.mk.inj hrecord
        have hgrown := (Steady.records hrun).diagnostics
        rw [hclean, List.prefix_nil] at hgrown
        simp at hgrown
      · exact ih _

theorem balances_lowerFunctionBody (decl : FunctionDecl) (head : FunctionHead) (span : Span) :
    w.Balances 0 (lowerFunctionBody walk decl head span) w.value := by
  unfold lowerFunctionBody
  split
  · exact .failing
  · rename_i body _
    have inside : w.Balances 0
        (do bindParams head.receiver.toList
            bindParams head.signature.params
            bindParams head.signature.results
            lowerBody walk body) w.value :=
      .skip (fun _ => .skip (fun _ => .skip (fun _ => balances_lowerBody w _)))
    exact inside.inQuietFunction.inFrame

theorem balances_lowerFunctionRoot (heads : FunctionHeads) (root : NodeId) :
    w.atLarge.Balances 0 (lowerFunctionRoot walk heads root) (fun _ => 0) := by
  unfold lowerFunctionRoot
  refine .read (fun c => ?_)
  split
  · refine .reporting (.skip (fun span => .wholly (balances_lowerFunctionBody w _ _ _).atLarge ?_))
    exact fun body => .wholly (.placing (by simp)) (fun node => .fill _ _ _)
  · exact .pure (fun _ => rfl)

omit [walk.Balanced w] in
theorem balances_lowerValueRoot
    (value : ∀ root name span, w.Balances 0 (walk.value root name span) (fun _ => 0))
    (root : NodeId) : w.Balances 0 (lowerValueRoot walk root) (fun _ => 0) := by
  unfold lowerValueRoot
  refine .read (fun c => ?_)
  cases c.unit.stmt? root with
  | none => exact .pure (fun _ => rfl)
  | some statement =>
    cases statement with
    | varDecl spec | constDecl spec =>
      dsimp only
      cases spec.names with
      | nil => exact .pure (fun _ => rfl)
      | cons name names => exact .reporting (.skip (fun span => value _ _ _))
    | _ => exact .pure (fun _ => rfl)

end

end GoLowering.Lowering
