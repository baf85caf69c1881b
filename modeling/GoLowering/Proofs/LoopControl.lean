import GoLowering.Proofs.LoweredBodies

/-!
# Loop control

A `break` or `continue` without a label stays what it is in what the innermost construct around it
has become, or leaves the callback that this construct has become, with a warning; where there is no
such construct the function around is refused. `controls_handled` says so of all controls of a unit
that is lowered, of those of every body that is lowered, and of each control that the lowering comes
to in a body that may be refused. A refused function is only gone through up to its first failure
(`not_reported_refusedSample`).
-/

namespace GoLowering.Lowering

open Surface

variable {c : Context} {s s' u final : State} {depth : Nat} {kind : BranchKind} {control : NodeId}

/-! ## One control -/

theorem run_control (hstmt : c.unit.stmt? control = some (.branch kind none)) :
    (walkWithin (depth + 1)).statement control c s =
      (do return some (← lowerBranch kind none (c.unit.span control)) :
        Lower (Option HostId)) c s := by
  change lowerStmt (walkWithin depth) control c s = _
  unfold lowerStmt
  rw [run_read, hstmt]
  rfl

theorem isControl_of_loopControl (hkind : kind = .break ∨ kind = .continue) :
    ((kind == .break || kind == .continue) && (none : Option String).isNone) = true := by
  rcases hkind with rfl | rfl <;> rfl

theorem lowerBranch_statement (hkind : kind = .break ∨ kind = .continue) {span : Span}
    (htarget : s.scopes.branchTarget (kind == .continue) = .statement) :
    lowerBranch kind none span c s = place (.branch kind none) span c s := by
  unfold lowerBranch
  rw [run_get, if_pos (isControl_of_loopControl hkind), htarget]

theorem lowerBranch_callback (hkind : kind = .break ∨ kind = .continue) {span : Span}
    (htarget : s.scopes.branchTarget (kind == .continue) = .callback) :
    lowerBranch kind none span c s = (do
      warn (.loopControlInCallback kind.keyword) span
      place (.ret []) span) c s := by
  unfold lowerBranch
  rw [run_get, if_pos (isControl_of_loopControl hkind), htarget]

theorem lowerBranch_none (hkind : kind = .break ∨ kind = .continue) {span : Span}
    (htarget : s.scopes.branchTarget (kind == .continue) = .none) :
    lowerBranch kind none span c s =
      fail (.unsupportedConstruct (kind.keyword ++ " outside a loop")) span c s := by
  unfold lowerBranch
  rw [run_get, if_pos (isControl_of_loopControl hkind), htarget]

/-- The control is lowered to a node of this kind, with these warnings. -/
structure Becomes (c : Context) (control : NodeId) (u u' : State) (node : HostId) (as : HostKind)
    (warnings : List Diagnostic) : Prop where
  lowered : ∃ depth, (walkWithin depth).statement control c u = (.ok (some node), u')
  kind : ∀ final, u'.Precedes final → final.tree.kind node = as
  warnings : u'.warnings = u.warnings ++ warnings

/-- The warning about a control that can only leave a callback. -/
def callbackWarning (c : Context) (kind : BranchKind) (control : NodeId) : Diagnostic :=
  (Problem.loopControlInCallback kind.keyword).report (c.unit.span control)

/-- The failure at a control that there is nothing around for. -/
def outsideFailure (c : Context) (kind : BranchKind) (control : NodeId) : Failure :=
  .found (.unsupportedConstruct (kind.keyword ++ " outside a loop")) (c.unit.span control)

theorem becomes_branch (depth : Nat)
    (hstmt : c.unit.stmt? control = some (.branch kind none))
    (hkind : kind = .break ∨ kind = .continue)
    (htarget : u.scopes.branchTarget (kind == .continue) = .statement) :
    ∃ node u', (walkWithin (depth + 1)).statement control c u = (.ok (some node), u') ∧
      Becomes c control u u' node (.branch kind none) [] := by
  obtain ⟨node, u', hplace⟩ : ∃ node u',
      place (.branch kind none) (c.unit.span control) c u = (.ok node, u') := ⟨_, _, rfl⟩
  have hrun : (walkWithin (depth + 1)).statement control c u = (.ok (some node), u') := by
    rw [run_control hstmt]
    exact bind_ok.mpr ⟨node, u', (lowerBranch_statement hkind htarget).trans hplace, rfl⟩
  refine ⟨node, u', hrun, ⟨_, hrun⟩, fun final => kind_addNode hplace, ?_⟩
  obtain ⟨-, rfl⟩ := Prod.mk.inj hplace
  exact (List.append_nil _).symm

theorem becomes_ret (depth : Nat)
    (hstmt : c.unit.stmt? control = some (.branch kind none))
    (hkind : kind = .break ∨ kind = .continue)
    (htarget : u.scopes.branchTarget (kind == .continue) = .callback) :
    ∃ node u', (walkWithin (depth + 1)).statement control c u = (.ok (some node), u') ∧
      Becomes c control u u' node (.ret []) [callbackWarning c kind control] := by
  obtain ⟨node, u', hplace⟩ : ∃ node u', place (.ret []) (c.unit.span control) c
      { u with warnings := u.warnings ++ [callbackWarning c kind control] } = (.ok node, u') :=
    ⟨_, _, rfl⟩
  have hrun : (walkWithin (depth + 1)).statement control c u = (.ok (some node), u') := by
    rw [run_control hstmt]
    refine bind_ok.mpr ⟨node, u', (lowerBranch_callback hkind htarget).trans ?_, rfl⟩
    exact bind_ok.mpr ⟨(), _, rfl, hplace⟩
  refine ⟨node, u', hrun, ⟨_, hrun⟩, fun final => kind_addNode hplace, ?_⟩
  obtain ⟨-, rfl⟩ := Prod.mk.inj hplace
  rfl

theorem error_of_none (hstmt : c.unit.stmt? control = some (.branch kind none))
    (hkind : kind = .break ∨ kind = .continue)
    (htarget : u.scopes.branchTarget (kind == .continue) = .none) :
    ((walkWithin (depth + 1)).statement control c u).1 =
      .error (outsideFailure c kind control) := by
  rw [run_control hstmt]
  exact bind_error (congrArg Prod.fst (lowerBranch_none hkind htarget))

/-! ## Controls of statements that are lowered -/

/-- What a loop, a switch or a select of the source has become: a loop, a callback, a switch or a
select of the host that catches the same. -/
structure StandsFor (c : Context) (final : State) (x : NodeId) (h : HostId) : Prop where
  lowered : ∃ depth s s', (walkWithin depth).statement x c s = (.ok (some h), s') ∧
    s'.LeadsTo final
  catches : ∀ isContinue,
    (final.tree.target? isContinue h).isSome = c.unit.catches isContinue x

/-- A statement of the source has been lowered in further scopes of these kinds, and what it has
become stands in `top`. The constructs around it, with what they have become, are the innermost
first. -/
structure StandsIn (c : Context) (final : State) (id : NodeId) (s : State) (top : Option HostId)
    (constructs : List (NodeId × HostId)) (opened : List ScopeKind) (node : Option HostId)
    (left : List HostId) : Prop where
  lowered : LoweredIn c final id s opened node left
  encloses : ∀ inner ∈ node,
    ∃ host ∈ top, final.tree.Encloses host (constructs.map (·.2)) inner
  standsFor : ∀ p ∈ constructs, StandsFor c final p.1 p.2
  target : ∀ isContinue, opened.findSome? (Scopes.target? isContinue) =
    (constructs.map (·.2)).findSome? (final.tree.target? isContinue)

/-- What the statement has hoisted stands where it stands. -/
structure ListedIn (c : Context) (final : State) (id : NodeId) (s : State) (top : Option HostId)
    (constructs : List (NodeId × HostId)) (opened : List ScopeKind) (node : Option HostId)
    (left : List HostId) : Prop
    extends StandsIn c final id s top constructs opened node left where
  hoisted : ∀ inner ∈ left, ∃ host ∈ top, final.tree.Encloses host (constructs.map (·.2)) inner

variable {t : State} {id : NodeId} {top part node : Option HostId}
  {constructs : List (NodeId × HostId)} {opened others : List ScopeKind} {left : List HostId}

section

variable (hopens : s.Opens t others) (more : List (NodeId × HostId))
  (hencloses : ∀ inner ∈ part, ∃ host ∈ top, final.tree.Encloses host (more.map (·.2)) inner)
  (hmore : ∀ p ∈ more, StandsFor c final p.1 p.2)
  (htarget : ∀ isContinue, others.findSome? (Scopes.target? isContinue) =
    (more.map (·.2)).findSome? (final.tree.target? isContinue))

include hencloses in
theorem encloses_through {inner : HostId}
    (h : ∃ host ∈ part, final.tree.Encloses host (constructs.map (·.2)) inner) :
    ∃ host ∈ top, final.tree.Encloses host ((constructs ++ more).map (·.2)) inner := by
  obtain ⟨middle, hmiddle, hrest⟩ := h
  obtain ⟨host, hhost, hfirst⟩ := hencloses middle hmiddle
  refine ⟨host, hhost, ?_⟩
  rw [List.map_append]
  exact hfirst.trans hrest

include hopens hencloses hmore htarget

/-- What stands in a part of a statement stands in the statement. -/
theorem StandsIn.through (h : StandsIn c final id t part constructs opened node left) :
    StandsIn c final id s top (constructs ++ more) (opened ++ others) node left := by
  refine ⟨h.lowered.outer hopens, fun inner hinner => ?_, fun p hp => ?_, fun isContinue => ?_⟩
  · exact encloses_through more hencloses (h.encloses inner hinner)
  · rcases List.mem_append.mp hp with hp | hp
    · exact h.standsFor p hp
    · exact hmore p hp
  · rw [List.findSome?_append, h.target, htarget, List.map_append, List.findSome?_append]

theorem ListedIn.through (h : ListedIn c final id t part constructs opened node left) :
    ListedIn c final id s top (constructs ++ more) (opened ++ others) node left :=
  ⟨h.toStandsIn.through hopens more hencloses hmore htarget,
    fun inner hinner => encloses_through more hencloses (h.hoisted inner hinner)⟩

end

/-- Every statement in a statement that is lowered stands in what the statement has become. -/
theorem exists_standsIn {other : NodeId} {around : List NodeId} {answer : Option HostId}
    (hholds : c.unit.Holds id around other)
    (hrun : (walkWithin depth).statement id c s = (.ok answer, s')) (hfinal : s'.LeadsTo final) :
    ∃ constructs opened node left, constructs.map (·.1) = around ∧
      StandsIn c final other s answer constructs opened node left := by
  induction hholds generalizing depth s s' answer with
  | here =>
    exact ⟨[], [], answer, s'.hoisted, rfl, .of_run hrun hfinal,
      fun inner h => ⟨inner, h, .here inner⟩, by simp, fun _ => rfl⟩
  | plain hpart _ ih =>
    obtain ⟨host, rfl, partAnswer, partLeft, others, ⟨_, t, t', hinner, ht', -, hopens⟩, htarget,
      hinside, -⟩ := plain_places hpart hrun hfinal
    obtain ⟨constructs, opened, node, left, hconstructs, hstands⟩ := ih hinner ht'
    have hwhole : StandsIn c final _ s (some host) (constructs ++ []) _ node left :=
      hstands.through hopens [] (fun inner h => ⟨host, rfl, hinside inner h⟩) (by simp) htarget
    rw [List.append_nil] at hwhole
    exact ⟨constructs, _, node, left, hconstructs, hwhole⟩
  | @inner id partId other around hpart rest ih =>
    obtain ⟨host, rfl, ⟨partAnswer, partLeft, others, ⟨_, t, t', hinner, ht', -, hopens⟩,
      htarget, hinside, -⟩, hcatches⟩ := breakable_places hpart hrun hfinal
    obtain ⟨constructs, opened, node, left, hconstructs, hstands⟩ := ih hinner ht'
    have hwhole : StandsIn c final other s (some host) (constructs ++ [(id, host)]) _ node left :=
      hstands.through hopens [(id, host)] (fun inner h => ⟨host, rfl, hinside inner h⟩)
        (fun p hp => by
          obtain rfl := List.mem_singleton.mp hp
          exact ⟨⟨depth, s, s', hrun, hfinal⟩, hcatches⟩) htarget
    refine ⟨_, _, node, left, ?_, hwhole⟩
    rw [List.map_append, hconstructs]
    rfl

/-- The statement is an entry of one of the lists of statements in a statement, inside of these
loops, switches and selects. -/
inductive Lists (unit : SourceUnit) (id : NodeId) (around : List NodeId) (entry : NodeId) : Prop
  | plain {parent : NodeId} (hparent : unit.Holds id around parent)
    (hpart : entry ∈ unit.plainParts parent) (hfirst : entry ∉ unit.firstParts parent)
  | inner {parent : NodeId} {outer : List NodeId} (hparent : unit.Holds id outer parent)
    (hpart : entry ∈ unit.breakableParts parent) (hfirst : entry ∉ unit.firstParts parent)
    (haround : around = parent :: outer)

/-- What an entry of a list hoists stands in that list. -/
theorem exists_listedIn {entry : NodeId} {around : List NodeId} {answer : Option HostId}
    (hlists : Lists c.unit id around entry)
    (hrun : (walkWithin depth).statement id c s = (.ok answer, s')) (hfinal : s'.LeadsTo final) :
    ∃ constructs opened node left, constructs.map (·.1) = around ∧
      ListedIn c final entry s answer constructs opened node left := by
  cases hlists with
  | @plain parent hparent hpart hfirst =>
    obtain ⟨constructs, others, node, _, hconstructs, hstands⟩ :=
      exists_standsIn hparent hrun hfinal
    obtain ⟨_, t, t', hlowered, ht', -, hopens⟩ := hstands.lowered
    obtain ⟨host, rfl, entryNode, left, opened, hentry, htarget, hinside, hleft⟩ :=
      plain_places hpart hlowered ht'
    rw [SourceUnit.passedOn, if_neg hfirst] at hleft
    have hlisted : ListedIn c final entry t (some host) [] opened entryNode left :=
      ⟨⟨hentry, fun inner h => ⟨host, rfl, hinside inner h⟩, by simp, htarget⟩,
        fun inner h => ⟨host, rfl, (hleft inner h).resolve_left List.not_mem_nil⟩⟩
    exact ⟨constructs, _, entryNode, left, hconstructs,
      hlisted.through hopens constructs hstands.encloses hstands.standsFor hstands.target⟩
  | @inner parent outer hparent hpart hfirst haround =>
    obtain ⟨constructs, others, node, _, hconstructs, hstands⟩ :=
      exists_standsIn hparent hrun hfinal
    obtain ⟨_, t, t', hlowered, ht', -, hopens⟩ := hstands.lowered
    obtain ⟨host, rfl, ⟨entryNode, left, opened, hentry, htarget, hinside, hleft⟩, hcatches⟩ :=
      breakable_places hpart hlowered ht'
    rw [SourceUnit.passedOn, if_neg hfirst] at hleft
    have hlisted : ListedIn c final entry t (some host) [(parent, host)] opened entryNode left :=
      ⟨⟨hentry, fun inner h => ⟨host, rfl, hinside inner h⟩, fun p hp => by
          obtain rfl := List.mem_singleton.mp hp
          exact ⟨⟨_, t, t', hlowered, ht'⟩, hcatches⟩, htarget⟩,
        fun inner h => ⟨host, rfl, (hleft inner h).resolve_left List.not_mem_nil⟩⟩
    refine ⟨_, _, entryNode, left, ?_,
      hlisted.through hopens constructs hstands.encloses hstands.standsFor hstands.target⟩
    rw [haround, List.map_append, hconstructs]
    rfl

/-- How a control in a body that is lowered is handled. The first of the constructs around it that
catches it in the source, `x`, has become `h`. Where `h` is a loop (or for a `break` a switch or a
select), the control is one of the host; where it is a callback, the control returns from it, with
the one warning about that. The constructs before `x` catch nothing, so none of them has become a
callback. -/
inductive Handled (c : Context) (final : State) (kind : BranchKind) (control : NodeId)
    (constructs : List (NodeId × HostId)) (node : HostId) : Prop where
  | branch {x : NodeId} {h : HostId} {u u' : State}
    (innermost : constructs.find? (fun p => c.unit.catches (kind == .continue) p.1) = some (x, h))
    (target : final.tree.target? (kind == .continue) h = some .statement)
    (becomes : Becomes c control u u' node (.branch kind none) []) (rest : u'.LeadsTo final)
  | callback {x : NodeId} {h : HostId} {u u' : State}
    (innermost : constructs.find? (fun p => c.unit.catches (kind == .continue) p.1) = some (x, h))
    (target : final.tree.target? (kind == .continue) h = some .callback)
    (becomes : Becomes c control u u' node (.ret []) [callbackWarning c kind control])
    (rest : u'.LeadsTo final)

theorem find?_of_findSome? {α β : Type} {as : List α} {f : α → Option β} {p : α → Bool} {b : β}
    (hp : ∀ a ∈ as, (f a).isSome = p a) (h : as.findSome? f = some b) :
    ∃ a, as.find? p = some a ∧ f a = some b := by
  induction as with
  | nil => cases h
  | cons a as ih =>
    obtain ⟨ha, has⟩ := List.forall_mem_cons.mp hp
    rw [List.findSome?_cons] at h
    rw [List.find?_cons, ← ha]
    cases hfirst : f a with
    | none =>
      rw [hfirst] at h
      exact ih has h
    | some found =>
      rw [hfirst] at h
      exact ⟨a, rfl, hfirst.trans h⟩

/-- In a function a control that has been lowered is handled by the innermost construct that catches
it. -/
theorem StandsIn.handled {node : HostId}
    (h : StandsIn c final control s top constructs opened (some node) left)
    (hscopes : s.scopes.Inside []) (hstmt : c.unit.stmt? control = some (.branch kind none))
    (hkind : kind = .break ∨ kind = .continue) : Handled c final kind control constructs node := by
  obtain ⟨depth, u, u', hrun, hu', -, hopens⟩ := h.lowered
  have htarget : u.scopes.branchTarget (kind == .continue) =
      ((constructs.map (·.2)).findSome? (final.tree.target? (kind == .continue))).getD .none := by
    rw [(hopens.scopes [] hscopes).branchTarget, List.append_nil, h.target]
  rw [List.findSome?_map] at htarget
  cases depth with
  | zero => cases hrun
  | succ depth =>
    cases hfound : constructs.findSome? (final.tree.target? (kind == .continue) ∘ (·.2)) with
    | none =>
      rw [hfound] at htarget
      cases (congrArg Prod.fst hrun).symm.trans (error_of_none hstmt hkind htarget)
    | some target =>
      rw [hfound] at htarget
      obtain ⟨⟨x, host⟩, innermost, hhost⟩ :=
        find?_of_findSome? (fun p hp => (h.standsFor p hp).catches (kind == .continue)) hfound
      cases target with
      | statement =>
        obtain ⟨_, _, hsame, becomes⟩ := becomes_branch depth hstmt hkind htarget
        cases hrun.symm.trans hsame
        exact .branch innermost hhost becomes hu'
      | callback =>
        obtain ⟨_, _, hsame, becomes⟩ := becomes_ret depth hstmt hkind htarget
        cases hrun.symm.trans hsame
        exact .callback innermost hhost becomes hu'
      | none => cases (congrArg Prod.fst hrun).symm.trans (error_of_none hstmt hkind htarget)

/-- A control of a body stands in the block that the body has become, inside of what the constructs
around it have become, and is handled. -/
def HandledIn (c : Context) (final : State) (kind : BranchKind) (control : NodeId) (block : HostId)
    (around : List NodeId) : Prop :=
  ∃ constructs node, constructs.map (·.1) = around ∧
    final.tree.Encloses block (constructs.map (·.2)) node ∧
    (∀ p ∈ constructs, StandsFor c final p.1 p.2) ∧ Handled c final kind control constructs node

/-! ## Controls of functions -/

variable {walk : Walk}

namespace FunctionForm

/-- The lowering of the body comes to that of a control, in further scopes of these kinds. -/
def ComesTo (walk : Walk) (c : Context) (s : State) (control : Lower (Option HostId)) (u : State)
    (kinds : List ScopeKind) : FunctionForm → Prop
  | declared results params body => Reaches c control u kinds (lowerNamedBody walk params body)
    { s with scopes := s.scopes.push .function, function := some results, hoisted := [] }
  | literal results params body => Reaches c control u kinds (lowerNamedBody walk params body)
    { s with scopes := s.scopes.push .closure, function := some results, hoisted := [] }
  | entry statements => Reaches c control u kinds (lowerStatements walk statements)
    { s with scopes := s.scopes.push .function, function := some [], hoisted := [] }

end FunctionForm


theorem inFunction_run {α : Type} {m : Lower α} {a : α} {results : List TypeId}
    {scopeKind : ScopeKind} (hrun : inFunction scopeKind results m c s = (.ok a, s'))
    (hfinal : s'.LeadsTo final) :
    ∃ s₁, m c { s with
        scopes := s.scopes.push scopeKind, function := some results, hoisted := [] } =
      (.ok a, s₁) ∧ s₁.LeadsTo final := by
  obtain ⟨s₁, hm, rfl⟩ := within_ok.mp hrun
  exact ⟨s₁, hm, ⟨hfinal.tree, hfinal.types⟩, hfinal.warnings⟩

/-- What the statements of a function have become stands in its block, with all that they hoist. -/
theorem FunctionForm.loweredIn {form : FunctionForm} {block : HostId} {first : NodeId}
    (hrun : form.lower (walkWithin depth) c s = (.ok block, s')) (hfinal : s'.LeadsTo final)
    (hfirst : first ∈ form.statements c.unit) :
    ∃ t opened answer left, t.scopes.Inside [] ∧ t.function = some form.results ∧
      LoweredIn c final first t opened answer left ∧
      (∀ isContinue, opened.findSome? (Scopes.target? isContinue) = none) ∧
      ∀ host ∈ left ++ answer.toList, final.tree.Encloses block [] host := by
  have hnamed {scopeKind : ScopeKind} {results : List TypeId} {params : List HostParam}
      {body : NodeId} (hkind : scopeKind.isFunction = true)
      (hlower : inFunction scopeKind results (lowerNamedBody (walkWithin depth) params body) c s =
        (.ok block, s')) (hmem : first ∈ c.unit.bodyOf body) :
      ∃ t opened answer left, t.scopes.Inside [] ∧ t.function = some results ∧
        LoweredIn c final first t opened answer left ∧
        (∀ isContinue, opened.findSome? (Scopes.target? isContinue) = none) ∧
        ∀ host ∈ left ++ answer.toList, final.tree.Encloses block [] host := by
    obtain ⟨s₁, hinside, hs₁⟩ := inFunction_run hlower hfinal
    obtain ⟨⟨⟩, s₂, hparams, hbody⟩ := bind_ok.mp hinside
    obtain ⟨answer, left, hanswer, hblock⟩ := lowerBlock_loweredIn hbody hs₁ hmem
    exact ⟨_, _, answer, left, Scopes.inside_push_function _ hkind, rfl, hanswer.after hparams,
      fun _ => rfl, hblock⟩
  cases form with
  | declared => exact hnamed rfl hrun hfirst
  | literal => exact hnamed rfl hrun hfirst
  | entry statements =>
    obtain ⟨ids, s₁, hfunction, hblock⟩ := bind_ok.mp hrun
    obtain ⟨s₂, hinside, hs₂⟩ := inFunction_run hfunction ((leadsTo_run hblock).trans hfinal)
    obtain ⟨answer, left, hanswer, hsubset⟩ := lowerStatements_loweredIn hinside hs₂ hfirst
    exact ⟨_, _, answer, left, Scopes.inside_push_function _ rfl, rfl, hanswer, fun _ => rfl,
      fun host hhost => .of_block (kind_addNode hblock hfinal.toPrecedes) (hsubset hhost)⟩

/-- Every statement of a body stands in the block that the body has become. -/
theorem FunctionForm.exists_standsIn {form : FunctionForm} {block : HostId} {first id : NodeId}
    {around : List NodeId} (hrun : form.lower (walkWithin depth) c s = (.ok block, s'))
    (hfinal : s'.LeadsTo final) (hfirst : first ∈ form.statements c.unit)
    (hholds : c.unit.Holds first around id) :
    ∃ t constructs opened node left, t.scopes.Inside [] ∧ t.function = some form.results ∧
      constructs.map (·.1) = around ∧
      StandsIn c final id t (some block) constructs opened node left := by
  obtain ⟨t, others, answer, _, hscopes, hfunction, ⟨_, u, u', hlowered, hu', rfl, hopens⟩,
    htarget, hblock⟩ := form.loweredIn hrun hfinal hfirst
  obtain ⟨constructs, opened, node, left, hconstructs, hstands⟩ :=
    Lowering.exists_standsIn hholds hlowered hu'
  have hwhole : StandsIn c final id t (some block) (constructs ++ []) _ node left :=
    hstands.through hopens []
      (fun inner h =>
        ⟨block, rfl, hblock inner (List.mem_append_right _ (Option.mem_toList.mpr h))⟩)
      (by simp) htarget
  rw [List.append_nil] at hwhole
  exact ⟨t, constructs, _, node, left, hscopes, hfunction, hconstructs, hwhole⟩

/-- What becomes of a control that a body comes to, by what the scopes around it say: it is one of
the host, it leaves a callback, or the whole body fails with a report of it. -/
def ControlOutcome (c : Context) (kind : BranchKind) (control : NodeId) (u : State)
    (whole : Except Failure HostId) : BranchTarget → Prop
  | .statement => ∃ node u', Becomes c control u u' node (.branch kind none) []
  | .callback => ∃ node u', Becomes c control u u' node (.ret []) [callbackWarning c kind control]
  | .none => whole = .error (outsideFailure c kind control)

theorem FunctionForm.ComesTo.inside {form : FunctionForm} {last : Lower (Option HostId)}
    {kinds : List ScopeKind} (h : form.ComesTo walk c s last u kinds) : u.scopes.Inside kinds := by
  rw [← List.append_nil kinds]
  cases form with
  | declared => exact Reaches.inside h (Scopes.inside_push_function _ rfl)
  | literal => exact Reaches.inside h (Scopes.inside_push_function _ rfl)
  | entry => exact Reaches.inside h (Scopes.inside_push_function _ rfl)

theorem FunctionForm.ComesTo.error {form : FunctionForm} {last : Lower (Option HostId)}
    {kinds : List ScopeKind} {failure : Failure} (h : form.ComesTo walk c s last u kinds)
    (hlast : (last c u).1 = .error failure) : (form.lower walk c s).1 = .error failure := by
  cases form with
  | declared =>
    rw [FunctionForm.lower, inFunction, run_within]
    exact Reaches.error h hlast
  | literal =>
    rw [FunctionForm.lower, inFunction, run_within]
    exact Reaches.error h hlast
  | entry =>
    refine bind_error ?_
    rw [inFunction, run_within]
    exact Reaches.error h hlast

theorem FunctionForm.ComesTo.outcome {form : FunctionForm} {kinds : List ScopeKind}
    (h : form.ComesTo walk c s ((walkWithin (depth + 1)).statement control) u kinds)
    (hstmt : c.unit.stmt? control = some (.branch kind none))
    (hkind : kind = .break ∨ kind = .continue) :
    ControlOutcome c kind control u (form.lower walk c s).1
      ((kinds.findSome? (Scopes.target? (kind == .continue))).getD .none) := by
  rw [← h.inside.branchTarget]
  cases htarget : u.scopes.branchTarget (kind == .continue) with
  | statement =>
    obtain ⟨node, u', -, becomes⟩ := becomes_branch depth hstmt hkind htarget
    exact ⟨node, u', becomes⟩
  | callback =>
    obtain ⟨node, u', -, becomes⟩ := becomes_ret depth hstmt hkind htarget
    exact ⟨node, u', becomes⟩
  | none => exact h.error (error_of_none hstmt hkind htarget)

/-- All controls of a body that is lowered are handled. -/
theorem FunctionForm.handledIn {form : FunctionForm} {block : HostId} {first : NodeId}
    {around : List NodeId} (hheaders : c.unit.SimpleHeaders)
    (hstmt : c.unit.stmt? control = some (.branch kind none))
    (hkind : kind = .break ∨ kind = .continue)
    (hrun : form.lower (walkWithin depth) c s = (.ok block, s')) (hfinal : s'.LeadsTo final)
    (hfirst : first ∈ form.statements c.unit) (hencloses : c.unit.Encloses first around control) :
    HandledIn c final kind control block around := by
  have hsimple : c.unit.isSimple control = false := by rw [SourceUnit.isSimple, hstmt]
  obtain ⟨t, constructs, opened, answer, left, hscopes, -, hconstructs, hstands⟩ :=
    form.exists_standsIn hrun hfinal hfirst
      (SourceUnit.holds_of_encloses hheaders hsimple hencloses)
  obtain ⟨_, _, _, hlowered, -⟩ := hstands.lowered
  obtain ⟨_, hbranch⟩ := statement_ok hstmt hlowered
  obtain ⟨node, rfl, -⟩ := some_ok hbranch
  obtain ⟨_, ⟨⟩, hblock⟩ := hstands.encloses node rfl
  exact ⟨constructs, node, hconstructs, hblock, hstands.standsFor,
    hstands.handled hscopes hstmt hkind⟩

/-- What handles a control catches it in the source. -/
theorem HandledIn.exists_catches {block : HostId} {around : List NodeId}
    (h : HandledIn c final kind control block around) :
    ∃ x ∈ around, c.unit.catches (kind == .continue) x = true := by
  obtain ⟨constructs, node, rfl, -, -, hhandled⟩ := h
  cases hhandled with
  | branch innermost | callback innermost =>
    exact ⟨_, List.mem_map_of_mem (List.mem_of_find?_eq_some innermost),
      (List.find?_eq_some_iff_append.mp innermost).1⟩

/-- The controls of a unit where the headers of loops are simple. If the unit is lowered, each
control in the body of a function, of a method or of the entry stands in what the innermost
construct around it has become, or leaves the callback that this is. This holds of every body that
is lowered, also that of a function literal; one with a control that nothing catches is not. Whether
or not a body is lowered, a control that it comes to is a control of the host, or leaves a callback,
or ends the body with a report of it if no scope around it decides. -/
theorem controls_handled (c : Context) (control : NodeId) (kind : BranchKind)
    (hstmt : c.unit.stmt? control = some (.branch kind none))
    (hkind : kind = .break ∨ kind = .continue) (hheaders : c.unit.SimpleHeaders) :
    (∀ types out,
      lowerUnitWith c.unit c.sources ⟨types, c.env⟩ c.settings c.registry = .ok out →
      ∀ statements, OuterBody c statements → ∀ top ∈ statements, ∀ around,
        c.unit.Encloses top around control →
        ∃ id ∈ out.file.functionDecls, ∃ function, out.file.tree.kind id = .function function ∧
          HandledIn c (.final c types) kind control function.body around) ∧
      ∀ (form : FunctionForm) (depth : Nat) (s : State),
        (∀ top ∈ form.statements c.unit, ∀ around, c.unit.Encloses top around control →
          (∀ block s' final, form.lower (walkWithin depth) c s = (.ok block, s') →
            s'.LeadsTo final → HandledIn c final kind control block around) ∧
          ((∀ x ∈ around, c.unit.catches (kind == .continue) x = false) →
            ∃ failure, (form.lower (walkWithin depth) c s).1 = .error failure)) ∧
        ∀ kinds u further,
          form.ComesTo (walkWithin depth) c s ((walkWithin (further + 1)).statement control) u
            kinds →
          ControlOutcome c kind control u (form.lower (walkWithin depth) c s).1
            ((kinds.findSome? (Scopes.target? (kind == .continue))).getD .none) := by
  refine ⟨fun types out hout statements hbody top htop around hencloses => ?_,
    fun form depth s => ⟨fun top htop around hencloses => ?_,
      fun kinds u further h => h.outcome hstmt hkind⟩⟩
  · obtain ⟨id, function, hemitted⟩ := emittedBody_final hout hbody (List.ne_nil_of_mem htop)
    obtain ⟨form, depth, s, s', rfl, -, hrun, hs'⟩ := hemitted.lowered
    obtain ⟨-, rfl⟩ := lowerUnitWith_ok.mp hout
    obtain ⟨-, hfunctions, htree⟩ := outputs_ofState c (.final c types)
    rw [hfunctions, htree]
    exact ⟨id, hemitted.output, function, hemitted.kind _ (.refl _),
      form.handledIn hheaders hstmt hkind hrun hs' htop hencloses⟩
  · have hhandled {block : HostId} {s' final : State}
        (hrun : form.lower (walkWithin depth) c s = (.ok block, s')) (hs' : s'.LeadsTo final) :
        HandledIn c final kind control block around :=
      form.handledIn hheaders hstmt hkind hrun hs' htop hencloses
    refine ⟨fun block s' final => hhandled, fun hnone => ?_⟩
    rcases hrun : form.lower (walkWithin depth) c s with ⟨failure | block, s'⟩
    · exact ⟨failure, rfl⟩
    · obtain ⟨x, hx, hcatches⟩ := (hhandled hrun (.refl s')).exists_catches
      rw [hnone x hx] at hcatches
      cases hcatches

/-- `type Ints struct{}`, a method `Gop_Enum` of it that calls a `func(int)` for each value, and a
function with `for x <- xs { switch { default: continue } }` for a parameter `xs` of the type. -/
def callbackSample : Context :=
  .sample
    [.type (.named none "int"), .type (.struct []), .stmt (.typeDecl "Ints" ⟨1⟩ false none),
      .type (.named none "Ints"), .type (.func [⟨none, ⟨0⟩⟩] [] false),
      .type (.func [⟨some "visit", ⟨4⟩⟩] [] false), .stmt (.block []),
      .stmt (.function ⟨some ⟨some "xs", ⟨3⟩, false⟩, "Gop_Enum", ⟨5⟩, some ⟨6⟩, none⟩),
      .expr (.identifier "xs"), .stmt (.branch .continue none),
      .stmt (.switch none none [⟨[], true, [⟨9⟩]⟩]), .stmt (.block [⟨10⟩]),
      .stmt (.forPhrase ⟨none, some "x", ⟨8⟩, none, none⟩ ⟨11⟩), .stmt (.block [⟨12⟩]),
      .type (.func [⟨some "xs", ⟨3⟩⟩] [] false),
      .stmt (.function ⟨none, "f", ⟨14⟩, some ⟨13⟩, none⟩)]
    [⟨2⟩, ⟨7⟩, ⟨15⟩]

/-- `break` and nothing else. -/
def strayBreak : Context := .bare [.stmt (.branch .break none)]

/-- The `continue` in the switch is for the iteration around it, and leaves its callback; what a
`break` without anything around it ends with is a report. -/
theorem controls_handled_samples :
    (∃ out,
      lowerUnitWith callbackSample.unit callbackSample.sources ⟨.initial, callbackSample.env⟩
        callbackSample.settings callbackSample.registry = .ok out ∧
      OuterBody callbackSample [⟨12⟩] ∧ callbackSample.unit.Encloses ⟨12⟩ [⟨10⟩, ⟨12⟩] ⟨9⟩ ∧
      out.warnings.map (·.message) =
        ["continue inside a callback-style iteration body does not affect the loop"] ∧
      ∃ id ∈ out.file.functionDecls, ∃ function, out.file.tree.kind id = .function function ∧
        HandledIn callbackSample (.final callbackSample .initial) .continue ⟨9⟩ function.body
          [⟨10⟩, ⟨12⟩]) ∧
      ((FunctionForm.entry [⟨0⟩]).lower (walkWithin 1) strayBreak
        (.initial strayBreak.unit .initial)).1 =
          .error (.found (.unsupportedConstruct "break outside a loop") .synthetic) := by
  have h : lowerUnitWith callbackSample.unit callbackSample.sources ⟨.initial, callbackSample.env⟩
      callbackSample.settings callbackSample.registry =
        .ok (.ofState callbackSample (.final callbackSample .initial)) :=
    lowerUnitWith_ok.mpr ⟨by decide +kernel, rfl⟩
  have hroot : (⟨15⟩ : NodeId) ∈ callbackSample.unit.roots := by decide
  have hbody : OuterBody callbackSample [⟨12⟩] := .function hroot rfl rfl
  have hbranch : callbackSample.unit.Encloses ⟨9⟩ [] ⟨9⟩ := .here _
  have hswitch : callbackSample.unit.Encloses ⟨10⟩ ([] ++ [⟨10⟩]) ⟨9⟩ := .inner (by decide) hbranch
  have hencloses : callbackSample.unit.Encloses ⟨12⟩ ([⟨10⟩] ++ [⟨12⟩]) ⟨9⟩ :=
    .inner (by decide) hswitch
  refine ⟨⟨_, h, hbody, hencloses, by decide +kernel, ?_⟩, ?_⟩
  · exact (controls_handled callbackSample ⟨9⟩ .continue rfl (.inr rfl)
      (SourceUnit.simpleHeaders_of_all (by decide))).1 _ _ h _ hbody _ (by decide) _ hencloses
  · exact ((controls_handled strayBreak ⟨0⟩ .break rfl (.inl rfl)
      (SourceUnit.simpleHeaders_of_all (by decide))).2 (.entry [⟨0⟩]) 1 _).2 [] _ 0
        (.first (.first (.first (.apart .here))))

/-- A function with an unknown name and a `break`, `missing; break`. -/
def refusedSample : Context :=
  .sample
    [.expr (.identifier "missing"), .stmt (.expression ⟨0⟩), .stmt (.branch .break none),
      .stmt (.block [⟨1⟩, ⟨2⟩]), .type (.func [] [] false),
      .stmt (.function ⟨none, "f", ⟨4⟩, some ⟨3⟩, none⟩)]
    [⟨5⟩]

/-- The name is the only report of the function. The `break`, which nothing in it catches, is
neither emitted nor reported. -/
theorem not_reported_refusedSample :
    refusedSample.unit.stmt? ⟨2⟩ = some (.branch .break none) ∧
      refusedSample.unit.SimpleHeaders ∧ OuterBody refusedSample [⟨1⟩, ⟨2⟩] ∧
      lowerUnitWith refusedSample.unit refusedSample.sources ⟨.initial, refusedSample.env⟩
        refusedSample.settings refusedSample.registry =
          .error [(Problem.undeclaredName "missing").report .synthetic] ∧
      ∀ node ∈ (State.final refusedSample .initial).tree.nodes,
        node.kind ≠ .branch .break none ∧ node.kind ≠ .ret [] := by
  have hroot : (⟨5⟩ : NodeId) ∈ refusedSample.unit.roots := by decide
  exact ⟨rfl, SourceUnit.simpleHeaders_of_all (by decide), .function hroot rfl rfl,
    lowerUnitWith_error.mpr ⟨by decide +kernel, by decide +kernel⟩, by decide +kernel⟩

end GoLowering.Lowering
