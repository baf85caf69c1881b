import GoLowering.Proofs.LoopControl
import GoLowering.Proofs.PropagatedErrors

/-!
# Returns and jumps to labels

A return, a jump to a label and the return of a `?` leave the function of the source that they stand
in, or go to a place in it. They are lowered by what that function is, without a look at the scopes
around them. So each of them ends up in the innermost function of the output around its place, and
that is the callback of an iteration if one of the loops around it has become one. A callback has no
results: a return with values fills the results of the function that it ends up in just in case
nothing around it has become a callback (`transfers_fill_iff`).
-/

namespace GoLowering

/-- Some values can be returned where there are these results: one for each, or one call that gives
all of several. -/
def FillsResults (count : Nat) (results : List TypeId) : Prop :=
  count = results.length ∨ count = 1 ∧ 1 < results.length

instance (count : Nat) (results : List TypeId) : Decidable (FillsResults count results) :=
  inferInstanceAs (Decidable (_ ∨ _))

namespace HostTree

variable (tree : HostTree)

/-- The types of the results of the function literal that a statement calls something with and
nothing else. -/
def callbackResults? (id : HostId) : Option (List TypeId) :=
  match tree.kind id with
  | .expression call =>
    match tree.kind call with
    | .call _ [callback] false =>
      match tree.kind callback with
      | .functionLiteral signature _ => some (signature.results.map (·.type))
      | _ => none
    | _ => none
  | _ => none

/-- The constructs from the innermost callback around something outwards, where these constructs are
around it, the innermost first: which function it lies in. -/
def functionAround (constructs : List HostId) : List HostId :=
  constructs.dropWhile fun id => (tree.callbackResults? id).isNone

/-- The results of the innermost function around what lies inside of these constructs in a function
with some results. -/
def resultsAround (results : List TypeId) (constructs : List HostId) : List TypeId :=
  ((tree.functionAround constructs).head?.bind tree.callbackResults?).getD results

variable {tree} {id : HostId} {results : List TypeId} {constructs inner outer : List HostId}
  {count : Nat}

theorem target?_of_callbackResults? (h : tree.callbackResults? id = some results)
    (isContinue : Bool) : tree.target? isContinue id = some .callback := by
  unfold callbackResults? at h
  split at h
  · rename_i call hid
    split at h
    · rename_i callee callback hcall
      split at h
      · rename_i signature body hcallback
        rw [target?, hid]
        simp [callback?, hcall, hcallback]
      · cases h
    · cases h
  · cases h

/-- The callback of an iteration has no results. -/
theorem Iterates.callbackResults? {source : HostId} {body : List HostId}
    {plan : Lowering.RangePlan} {names : List String}
    (h : tree.Iterates source body plan id names) :
    tree.callbackResults? id = if plan.isPush then some [] else none := by
  cases h with
  | native hloop => rw [HostTree.callbackResults?, hloop]; rfl
  | push hloop hcall _ hcallback =>
    simp [HostTree.callbackResults?, hloop, hcall, hcallback, Lowering.RangePlan.isPush]
  | pull hloop => rw [HostTree.callbackResults?, hloop]; rfl

theorem functionAround_eq_nil_iff :
    tree.functionAround constructs = [] ↔ ∀ x ∈ constructs, tree.callbackResults? x = none := by
  simp only [functionAround, List.dropWhile_eq_nil_iff, Option.isNone_iff_eq_none]

/-- Something lies in the same function as what is around it just in case no callback is in
between. -/
theorem functionAround_append_eq_iff :
    tree.functionAround (inner ++ outer) = tree.functionAround outer ↔
      ∀ x ∈ inner, tree.callbackResults? x = none := by
  rw [← functionAround_eq_nil_iff]
  constructor
  · intro h
    by_contra hne
    have hlength := congrArg List.length h
    rw [functionAround, List.dropWhile_append, if_neg (by simpa [functionAround] using hne),
      List.length_append] at hlength
    have houter : (outer.dropWhile fun id => (tree.callbackResults? id).isNone).length ≤
        outer.length := (List.dropWhile_sublist _).length_le
    have hinner := List.length_pos_iff.mpr hne
    rw [functionAround] at hlength hinner
    omega
  · intro h
    rw [functionAround, List.dropWhile_append, if_pos (by simpa [functionAround] using h)]
    rfl

/-- Where callbacks have no results, values only fill those of the function without a callback in
between. -/
theorem fillsResults_resultsAround_iff (hcount : count ≠ 0) (hfills : FillsResults count results)
    (hcallbacks : ∀ x ∈ constructs, ∀ found, tree.callbackResults? x = some found → found = []) :
    FillsResults count (tree.resultsAround results constructs) ↔
      tree.functionAround constructs = [] := by
  constructor
  · intro h
    rw [resultsAround] at h
    cases hfunction : tree.functionAround constructs with
    | nil => rfl
    | cons x others =>
      have hhead : x ∈ tree.functionAround constructs := hfunction ▸ List.mem_cons_self
      have hx : x ∈ constructs := (List.dropWhile_sublist _).subset hhead
      have hfound : (tree.callbackResults? x).isNone = false := by
        have hhead := List.head?_dropWhile_not (fun id => (tree.callbackResults? id).isNone)
          constructs
        rw [← functionAround, hfunction] at hhead
        simpa using hhead
      obtain ⟨found, hfound⟩ := Option.isSome_iff_exists.mp (by simpa using hfound)
      rw [hfunction, List.head?_cons, Option.bind_some, hfound, hcallbacks x hx found hfound] at h
      rcases h with h | ⟨-, h⟩
      · exact absurd h hcount
      · cases h
  · intro h
    rw [resultsAround, h]
    exact hfills

/-- What something lies inside of has a body. -/
theorem Encloses.breakableParts_ne_nil {top node x : HostId}
    (h : tree.Encloses top constructs node) (hx : x ∈ constructs) :
    tree.breakableParts x ≠ [] := by
  induction h with
  | here => cases hx
  | plain _ _ ih => exact ih hx
  | inner hpart _ ih =>
    rcases List.mem_append.mp hx with hx | hx
    · exact ih hx
    · obtain rfl := List.mem_singleton.mp hx
      exact List.ne_nil_of_mem hpart

end HostTree

namespace Lowering

open Surface

variable {α β γ : Type} {c : Context} {s t t' u u' s' final : State} {depth : Nat}
  {id : NodeId} {answer : Option HostId}

/-! ## Callbacks of the source -/

/-- An iteration that has become a callback has no results. -/
theorem StandsFor.callbackResults?_eq {x : NodeId} {host : HostId} {results : List TypeId}
    (h : StandsFor c final x host) (hresults : final.tree.callbackResults? host = some results) :
    results = [] := by
  obtain ⟨⟨depth, s, s', hrun, hfinal⟩, hcatches⟩ := h
  have htarget := HostTree.target?_of_callbackResults? hresults
  have hcaught := hcatches true
  rw [htarget true] at hcaught
  have hiterates {source : HostId} {body : List HostId} {plan : RangePlan} {names : List String}
      (h : final.tree.Iterates source body plan host names) : results = [] := by
    rw [h.callbackResults?] at hresults
    split at hresults
    · exact (Option.some.inj hresults).symm
    · cases hresults
  rcases hstmt : c.unit.stmt? x with _ | statement
  · rw [SourceUnit.catches, hstmt] at hcaught
    cases hcaught
  obtain ⟨depth, hrun⟩ := statement_ok hstmt hrun
  rw [SourceUnit.catches, hstmt] at hcaught
  cases statement with
  | loop =>
    obtain ⟨_, ⟨⟩, hfor⟩ := some_ok hrun
    have hstatement := (lowerFor_places hfor hfinal).1 true
    rw [htarget true] at hstatement
    cases hstatement
  | range key value define source body =>
    obtain ⟨_, ⟨⟩, hrange⟩ := some_ok hrun
    obtain ⟨⟨sourceId, plan⟩, s₁, -, hrange⟩ := bind_ok.mp hrange
    dsimp only at hrange
    split at hrange
    · have hstatement := (lowerRangeAssign_places hrange hfinal).1 true
      rw [htarget true] at hstatement
      cases hstatement
    · obtain ⟨_, s₂, -, hrange⟩ := bind_ok.mp hrange
      obtain ⟨_, s₃, -, hrange⟩ := bind_ok.mp hrange
      obtain ⟨_, s₄, -, hloop⟩ := bind_ok.mp hrange
      exact hiterates (emitRange_iterates hloop hfinal.toPrecedes)
  | forPhrase clause body =>
    obtain ⟨_, ⟨⟩, hphrase⟩ := some_ok hrun
    obtain ⟨_, s₁, -, hphrase⟩ := bind_ok.mp hphrase
    obtain ⟨_, s₂, -, hloop⟩ := bind_ok.mp hphrase
    exact hiterates (emitRange_iterates hloop hfinal.toPrecedes)
  | switch | typeSwitch | select => cases hcaught
  | _ => cases hcaught

/-! ## Returns -/

theorem length_mapM {f : α → Lower β} {as : List α} {bs : List β}
    (hrun : as.mapM f c s = (.ok bs, s')) : bs.length = as.length := by
  induction as generalizing s bs with
  | nil =>
    obtain ⟨rfl, -⟩ := pure_ok.mp hrun
    rfl
  | cons a as ih =>
    rw [List.mapM_cons] at hrun
    obtain ⟨b, s₁, -, hrun⟩ := bind_ok.mp hrun
    obtain ⟨rest, s₂, hrest, hrun⟩ := bind_ok.mp hrun
    obtain ⟨rfl, rfl⟩ := pure_ok.mp hrun
    rw [List.length_cons, List.length_cons, ih hrest]

/-- The values of a return fill the results of the function around. -/
theorem lowerReturned_ok {walk : Walk} {values : List NodeId} {results : List TypeId} {span : Span}
    {ids : List HostId} (hrun : lowerReturned walk values results span c s = (.ok ids, s')) :
    ids.length = values.length ∧ (values = [] → s' = s) ∧
      (values ≠ [] → FillsResults ids.length results) := by
  unfold lowerReturned at hrun
  split at hrun
  · rename_i hempty
    obtain ⟨rfl, rfl⟩ := pure_ok.mp hrun
    obtain rfl := List.isEmpty_iff.mp hempty
    exact ⟨rfl, fun _ => rfl, fun hne => absurd rfl hne⟩
  rename_i hne
  have hvalues : values ≠ [] := fun he => hne (List.isEmpty_iff.mpr he)
  split at hrun
  · rename_i hlength
    have hlength : values.length = results.length := beq_iff_eq.mp hlength
    have hids := length_mapM hrun
    rw [List.length_zip, hlength, Nat.min_self] at hids
    exact ⟨hids.trans hlength.symm, fun he => absurd he hvalues, fun _ => .inl hids⟩
  · obtain ⟨id, rfl, hone, hmany⟩ : ∃ id, ids = [id] ∧ values.length = 1 ∧ 1 < results.length := by
      rcases values with _ | ⟨value, _ | ⟨more, rest⟩⟩
      · exact absurd rfl hvalues
      · cases hmany : decide (1 < results.length) with
        | false =>
          rw [hmany] at hrun
          exact absurd hrun Fails.fails
        | true =>
          rw [hmany] at hrun
          obtain ⟨id, s₁, -, hrun⟩ := bind_ok.mp hrun
          exact ⟨id, (pure_ok.mp hrun).1.symm, rfl, of_decide_eq_true hmany⟩
      · exact absurd hrun Fails.fails
    exact ⟨hone.symm, fun he => absurd he hvalues, fun _ => .inr ⟨rfl, hmany⟩⟩

/-- What a return in a function with some results becomes. If it is a bare one, that is not
reported. -/
structure BecomesReturn (c : Context) (final : State) (id : NodeId) (values : List NodeId)
    (results : List TypeId) (node : HostId) (ids : List HostId) : Prop where
  kind : final.tree.kind node = .ret ids
  length : ids.length = values.length
  fills : values ≠ [] → FillsResults ids.length results
  silent : values = [] → ∃ depth u u', (walkWithin depth).statement id c u = (.ok (some node), u') ∧
    u'.LeadsTo final ∧ u'.warnings = u.warnings

theorem becomesReturn_of_run {values : List NodeId} {results : List TypeId}
    (hstmt : c.unit.stmt? id = some (.ret values)) (hfunction : s.function = some results)
    (hrun : (walkWithin depth).statement id c s = (.ok answer, s')) (hfinal : s'.LeadsTo final) :
    ∃ node ids, answer = some node ∧ BecomesReturn c final id values results node ids := by
  obtain ⟨_, hwhole⟩ := statement_ok hstmt hrun
  obtain ⟨node, rfl, hreturn⟩ := some_ok hwhole
  change lowerReturn _ values _ c s = _ at hreturn
  unfold lowerReturn at hreturn
  rw [run_get, hfunction] at hreturn
  obtain ⟨ids, s₁, hids, hplace⟩ := bind_ok.mp hreturn
  obtain ⟨hlength, hsame, hfills⟩ := lowerReturned_ok hids
  refine ⟨node, ids, rfl, kind_addNode hplace hfinal.toPrecedes, hlength, hfills, fun hbare =>
    ⟨depth, s, s', hrun, hfinal, ?_⟩⟩
  obtain ⟨-, rfl⟩ := Prod.mk.inj hplace
  rw [hsame hbare]

/-! ## Jumps to labels -/

/-- A jump to a label stays what it is, and is not reported. -/
theorem becomes_jump {kind : BranchKind} {label : String}
    (hstmt : c.unit.stmt? id = some (.branch kind (some label)))
    (hrun : (walkWithin depth).statement id c s = (.ok answer, s')) :
    ∃ node, answer = some node ∧ Becomes c id s s' node (.branch kind (some label)) [] := by
  obtain ⟨_, hwhole⟩ := statement_ok hstmt hrun
  obtain ⟨node, rfl, hbranch⟩ := some_ok hwhole
  change lowerBranch kind (some label) _ c s = _ at hbranch
  unfold lowerBranch at hbranch
  rw [run_get] at hbranch
  have hplace : place (.branch kind (some label)) (c.unit.span id) c s = (.ok node, s') := by
    cases kind <;> exact hbranch
  refine ⟨node, rfl, ⟨depth, hrun⟩, fun _ => kind_addNode hplace, ?_⟩
  obtain ⟨-, rfl⟩ := Prod.mk.inj hplace
  exact (List.append_nil _).symm

/-- A statement with a label keeps it. -/
theorem kind_of_labeled {label : String} {body : NodeId}
    (hstmt : c.unit.stmt? id = some (.labeled label body))
    (hrun : (walkWithin depth).statement id c s = (.ok answer, s')) (hfinal : s'.LeadsTo final) :
    ∃ node inner, answer = some node ∧ final.tree.kind node = .labeled label inner := by
  obtain ⟨_, hlabeled⟩ := statement_ok hstmt hrun
  obtain ⟨inner, s₁, -, hlabeled⟩ := bind_ok.mp hlabeled
  obtain ⟨node, rfl, hplace⟩ := some_ok hlabeled
  exact ⟨node, inner, rfl, kind_addNode hplace hfinal.toPrecedes⟩

/-! ## Returns of errors -/

/-- The run of a part comes to the run of `last` from the state `u`, and what that hoists is hoisted
where the part ends. -/
inductive Meets (c : Context) {β : Type} (last : Lower β) (u : State) :
    {α : Type} → Lower α → State → Prop
  | here : Meets c last u last u
  | first {α γ : Type} {m : Lower α} {f : α → Lower γ} {s : State}
      [hf : ∀ a, Additive extension (f a)] (h : Meets c last u m s) : Meets c last u (m >>= f) s
  | next {α γ : Type} {m : Lower α} {f : α → Lower γ} {a : α} {s s₁ : State}
      [hm : Steady extension m] (hrun : m c s = (.ok a, s₁)) (h : Meets c last u (f a) s₁) :
      Meets c last u (m >>= f) s
  | scope {α : Type} {part : Lower α} {s : State} (kind : ScopeKind)
      (h : Meets c last u part { s with scopes := s.scopes.push kind }) :
      Meets c last u (inScope kind part) s

/-- What a run meets has been run in the same function. -/
theorem Meets.run {last : Lower β} {m : Lower α} {a : α} (h : Meets c last u m s)
    (hrun : m c s = (.ok a, s')) :
    ∃ b u', last c u = (.ok b, u') ∧ u'.LeadsTo s' ∧ u'.hoisted ⊆ s'.hoisted ∧
      u.function = s.function := by
  induction h generalizing s' with
  | here => exact ⟨a, s', hrun, .refl s', List.Subset.refl _, rfl⟩
  | first _ ih =>
    obtain ⟨b, s₁, hm, hrest⟩ := bind_ok.mp hrun
    obtain ⟨found, u', hlast, hleads, hhoisted, hfunction⟩ := ih hm
    exact ⟨found, u', hlast, hleads.trans (leadsTo_run hrest),
      List.Subset.trans hhoisted (hoisted_subset_run hrest), hfunction⟩
  | next hfirst _ ih =>
    obtain ⟨b, s₁, hm, hrest⟩ := bind_ok.mp hrun
    cases hfirst.symm.trans hm
    obtain ⟨found, u', hlast, hleads, hhoisted, hfunction⟩ := ih hrest
    exact ⟨found, u', hlast, hleads, hhoisted, hfunction.trans (extends_run hm).function⟩
  | scope kind _ ih =>
    obtain ⟨s₁, hpart, rfl⟩ := inScope_ok.mp hrun
    obtain ⟨found, u', hlast, hleads, hhoisted, hfunction⟩ := ih hpart
    exact ⟨found, u', hlast, ⟨⟨hleads.tree, hleads.types⟩, hleads.warnings⟩, hhoisted, hfunction⟩

/-- The block that a `?` makes returns an error from the function around. -/
theorem returnsError_ok {call : HostId} {values results : List TypeId} {text : String} {span : Span}
    {r : Operand} (hfunction : s.function = some results)
    (hrun : wrapPropagate call values text span c s = (.ok r, s')) (hfinal : s'.Precedes final) :
    ∃ code node ids, (if values = [] then code = r.id else code ∈ s'.hoisted) ∧
      final.tree.Encloses code [] node ∧ final.tree.kind node = .ret ids ∧
      ids.length ≠ 0 ∧ FillsResults ids.length results := by
  obtain ⟨others, temporaries, label, zeros, code, hothers, hvalues, -, hstands, hzeros,
    hpropagating, -⟩ := wrapPropagate_ok hrun hfinal
  obtain rfl : results = others ++ [TypeTable.error] :=
    Option.some.inj (hfunction.symm.trans hothers)
  have hencloses {block : HostId} {targets : List String} {path function : String} {line : ℕ}
      (h : final.tree.IsPropagation block call targets label zeros text path line function) :
      ∃ node ids, final.tree.Encloses block [] node ∧ final.tree.kind node = .ret ids ∧
        ids.length ≠ 0 ∧ FillsResults ids.length (others ++ [TypeTable.error]) := by
    obtain ⟨declare, assign, check, jump, landing, frame, propagate, error, hblock, hcheck, -,
      hreturn, -⟩ := h
    obtain ⟨condition, operand, nil, branch, hif, -, -, -, hbranch⟩ := hcheck.check
    refine ⟨propagate, _, ?_, hreturn, by simp, .inl (by simp [hzeros.length_eq])⟩
    have hpart : branch ∈ final.tree.plainParts check := by simp [HostTree.plainParts, hif]
    have hthen : final.tree.Encloses check [] propagate :=
      .plain hpart (HostTree.Encloses.of_block hbranch (by simp))
    exact .plain (by simp [HostTree.plainParts, hblock]) hthen
  cases hpropagating with
  | nothing h =>
    obtain ⟨node, ids, hnode⟩ := hencloses h
    cases hstands
    subst hvalues
    exact ⟨r.id, node, ids, (if_pos rfl).mpr rfl, hnode⟩
  | @value name type declare block hdeclare h =>
    obtain ⟨node, ids, hnode⟩ := hencloses h
    cases hstands with
    | before hhoisted =>
      subst hvalues
      refine ⟨block, node, ids, ?_, hnode⟩
      rw [if_neg (by simp), hhoisted]
      simp

/-- A call without values that is made with `?` is a block. -/
theorem noValue_of_wrapPropagate {call : HostId} {text : String} {span : Span} {r : Operand}
    (hrun : wrapPropagate call [] text span c s = (.ok r, s')) :
    r.mode = .noValue ∧ ∃ statements, s'.tree.kind r.id = .block statements := by
  have hkind : ∃ statements, s'.tree.kind r.id = .block statements := by
    obtain ⟨_, temporaries, label, zeros, code, -, hvalues, -, hstands, -, hpropagating, -⟩ :=
      wrapPropagate_ok hrun (.refl s')
    obtain rfl := List.map_eq_nil_iff.mp hvalues
    cases hstands
    cases hpropagating with
    | nothing h =>
      obtain ⟨_, _, _, _, _, _, _, _, hblock, -⟩ := h
      exact ⟨_, hblock⟩
  refine ⟨?_, hkind⟩
  obtain ⟨found, s₁, -, hrun⟩ := bind_ok.mp hrun
  cases found with
  | none => exact absurd hrun Fails.fails
  | some results =>
    obtain ⟨label, s₂, -, hrun⟩ := bind_ok.mp hrun
    obtain ⟨block, s₃, -, hrun⟩ := bind_ok.mp hrun
    obtain ⟨_, s₄, -, hrun⟩ := bind_ok.mp hrun
    obtain ⟨type, s₅, -, hrun⟩ := bind_ok.mp hrun
    obtain ⟨rfl, -⟩ := pure_ok.mp hrun
    rfl

/-- A `?` that is a statement returns an error from the function around, in what the statement
becomes or hoists. -/
theorem returnsError_statement {value inner : NodeId} {results : List TypeId}
    (hstmt : c.unit.stmt? id = some (.expression value))
    (hexpr : c.unit.expr? value = some (.errorWrap inner .propagate))
    (hfunction : s.function = some results)
    (hrun : (walkWithin depth).statement id c s = (.ok answer, s')) (hfinal : s'.LeadsTo final) :
    ∃ code node ids, code ∈ s'.hoisted ++ answer.toList ∧ final.tree.Encloses code [] node ∧
      final.tree.kind node = .ret ids ∧ ids.length ≠ 0 ∧ FillsResults ids.length results := by
  obtain ⟨depth, hwhole⟩ := statement_ok hstmt hrun
  obtain ⟨r, s₁, hwrap, hrest⟩ := bind_ok.mp hwhole
  obtain ⟨host, rfl, hhost⟩ := some_ok hrest
  cases depth with
  | zero => cases hwrap
  | succ depth =>
    change lowerExpr (walkWithin depth) value .none c s = _ at hwrap
    unfold lowerExpr at hwrap
    obtain ⟨_, _, ⟨⟩, hwrap⟩ := bind_ok.mp hwrap
    rw [run_read, hexpr] at hwrap
    obtain ⟨call, s₂, values, hcall, -, hpropagate⟩ := lowerErrorWrap_ok hwrap
    have hhosted := (leadsTo_run hhost).trans hfinal
    obtain ⟨code, node, ids, hcode, hnode⟩ := returnsError_ok
      ((extends_run hcall).function.trans hfunction) hpropagate hhosted.toPrecedes
    refine ⟨code, node, ids, ?_, hnode⟩
    split at hcode
    · subst hcode
      rename_i hvalues
      subst hvalues
      obtain ⟨hmode, statements, hblock⟩ := noValue_of_wrapPropagate hpropagate
      unfold expressionStatement at hhost
      obtain ⟨_, _, ⟨⟩, hhost⟩ := bind_ok.mp hhost
      dsimp only at hhost
      rw [hmode, hblock] at hhost
      obtain ⟨rfl, -⟩ := pure_ok.mp hhost
      exact List.mem_append_right _ (List.mem_singleton.mpr rfl)
    · exact List.mem_append_left _ (hoisted_subset_run hhost hcode)

/-- What the init statement and the guard of a for-phrase hoist leads the statements of its loop. -/
theorem lowerPhraseBody_hoists {clause : ForClause} {body : NodeId} {statements : List HostId}
    (hrun : lowerPhraseBody (walkWithin depth) clause body c s = (.ok statements, s')) :
    ∃ header t, lowerPhraseHeader (walkWithin depth) clause c { s with hoisted := [] } =
        (.ok header, t) ∧ t.LeadsTo s' ∧ t.hoisted ⊆ statements := by
  obtain ⟨⟨hoisted, init, guard⟩, s₁, hheader, hbody⟩ := bind_ok.mp hrun
  obtain ⟨t, hlowered, rfl, rfl⟩ := hoisting_ok hheader
  have hleads : State.LeadsTo t { t with hoisted := s.hoisted } :=
    ⟨⟨.refl _, .refl _⟩, List.prefix_rfl⟩
  refine ⟨_, t, hlowered, ?_⟩
  cases guard with
  | none =>
    dsimp only at hbody
    have hs := leadsTo_run hbody
    obtain ⟨inside, s₂, -, hrest⟩ := bind_ok.mp hbody
    obtain ⟨rfl, -⟩ := pure_ok.mp hrest
    refine ⟨hleads.trans hs, ?_⟩
    rw [List.append_assoc]
    exact List.subset_append_left _ _
  | some condition =>
    dsimp only at hbody
    have hs := leadsTo_run hbody
    obtain ⟨thenBranch, s₂, -, hrest⟩ := bind_ok.mp hbody
    obtain ⟨span, s₃, -, hrest⟩ := bind_ok.mp hrest
    obtain ⟨guarded, s₄, -, hrest⟩ := bind_ok.mp hrest
    obtain ⟨rfl, -⟩ := pure_ok.mp hrest
    exact ⟨hleads.trans hs, List.subset_append_left _ _⟩

/-- What the init statement and the guard of a for-phrase hoist stands in its loop. -/
theorem phraseHeader_places {clause : ForClause} {body : NodeId}
    (hstmt : c.unit.stmt? id = some (.forPhrase clause body))
    (hrun : (walkWithin depth).statement id c s = (.ok answer, s')) (hfinal : s'.LeadsTo final) :
    ∃ host depth t header t', answer = some host ∧ StandsFor c final id host ∧
      t.function = s.function ∧
      lowerPhraseHeader (walkWithin depth) clause c t = (.ok header, t') ∧ t'.LeadsTo final ∧
      ∀ inner ∈ t'.hoisted, final.tree.Encloses host [host] inner := by
  obtain ⟨depth, hwhole⟩ := statement_ok hstmt hrun
  obtain ⟨host, rfl, hphrase⟩ := some_ok hwhole
  have hstands : StandsFor c final id host := by
    refine ⟨⟨_, s, s', hrun, hfinal⟩, fun isContinue => ?_⟩
    rw [(lowerForPhrase_places hphrase hfinal).1, SourceUnit.catches, hstmt]
  obtain ⟨⟨sourceId, plan⟩, s₁, hsource, hphrase⟩ := bind_ok.mp hphrase
  dsimp only at hphrase
  obtain ⟨statements, s₂, hscope, hloop⟩ := bind_ok.mp hphrase
  obtain ⟨s₃, hinside, hend, -⟩ := inScope_run hscope ((leadsTo_run hloop).trans hfinal)
  obtain ⟨⟨⟩, s₄, hbind, hbody⟩ := bind_ok.mp hinside
  obtain ⟨header, t', hheader, ht', hhoisted⟩ := lowerPhraseBody_hoists hbody
  refine ⟨host, depth, _, header, t', rfl, hstands, ?_, hheader, ht'.trans hend,
    fun inner hinner => ?_⟩
  · exact (extends_run hbind).function.trans (extends_run hsource).function
  · exact (emitRange_iterates hloop hfinal.toPrecedes).encloses (hhoisted hinner)

/-! ## Bodies -/

/-- A statement has become a node that stands in `block`, inside of what the constructs around it
have become, the innermost first. -/
structure PlacedAt (c : Context) (final : State) (block : HostId) (around : List NodeId)
    (constructs : List (NodeId × HostId)) (node : HostId) : Prop where
  around : constructs.map (·.1) = around
  standsFor : ∀ p ∈ constructs, StandsFor c final p.1 p.2
  encloses : final.tree.Encloses block (constructs.map (·.2)) node

/-- None of these constructs has become a callback. -/
def WithoutCallback (final : State) (constructs : List (NodeId × HostId)) : Prop :=
  ∀ p ∈ constructs, final.tree.callbackResults? p.2 = none

/-- The values of a return fill the results of the innermost function around it, in a function with
some results, just in case nothing around it has become a callback. -/
def FillsWithoutCallback (final : State) (results : List TypeId)
    (constructs : List (NodeId × HostId)) (count : Nat) : Prop :=
  FillsResults count (final.tree.resultsAround results (constructs.map (·.2))) ↔
    WithoutCallback final constructs

variable {constructs outer : List (NodeId × HostId)} {results : List TypeId}

theorem withoutCallback_iff :
    WithoutCallback final constructs ↔
      ∀ x ∈ constructs.map (·.2), final.tree.callbackResults? x = none := by
  rw [List.forall_mem_map]
  rfl

theorem fillsWithoutCallback {count : Nat} (hstands : ∀ p ∈ constructs, StandsFor c final p.1 p.2)
    (hcount : count ≠ 0) (hfills : FillsResults count results) :
    FillsWithoutCallback final results constructs count := by
  rw [FillsWithoutCallback, HostTree.fillsResults_resultsAround_iff hcount hfills,
    HostTree.functionAround_eq_nil_iff, withoutCallback_iff]
  rw [List.forall_mem_map]
  exact fun p hp found hfound => (hstands p hp).callbackResults?_eq hfound

/-- The statement is one of these statements, or an entry of a list of statements in one of them,
inside of these loops, switches and selects. -/
def ListsBelow (unit : SourceUnit) (statements : List NodeId) (around : List NodeId)
    (entry : NodeId) : Prop :=
  entry ∈ statements ∧ around = [] ∨ ∃ first ∈ statements, Lists unit first around entry

theorem FunctionForm.exists_listedIn {form : FunctionForm} {block : HostId} {entry : NodeId}
    {around : List NodeId} (hrun : form.lower (walkWithin depth) c s = (.ok block, s'))
    (hfinal : s'.LeadsTo final) (hlists : ListsBelow c.unit (form.statements c.unit) around entry) :
    ∃ t constructs opened node left, t.function = some form.results ∧
      constructs.map (·.1) = around ∧
      ListedIn c final entry t (some block) constructs opened node left := by
  rcases hlists with ⟨hfirst, rfl⟩ | ⟨first, hfirst, hlists⟩
  · obtain ⟨t, opened, answer, left, -, hfunction, hlowered, htarget, hblock⟩ :=
      form.loweredIn hrun hfinal hfirst
    refine ⟨t, [], opened, answer, left, hfunction, rfl, ⟨hlowered, fun inner h => ?_, by simp,
      htarget⟩, fun inner h => ⟨block, rfl, hblock inner (List.mem_append_left _ h)⟩⟩
    exact ⟨block, rfl, hblock inner (List.mem_append_right _ (Option.mem_toList.mpr h))⟩
  · obtain ⟨t, others, answer, _, -, hfunction, ⟨_, u, u', hlowered, hu', rfl, hopens⟩, htarget,
      hblock⟩ := form.loweredIn hrun hfinal hfirst
    obtain ⟨constructs, opened, node, left, hconstructs, hlisted⟩ :=
      Lowering.exists_listedIn hlists hlowered hu'
    have hwhole : ListedIn c final entry t (some block) (constructs ++ []) _ node left :=
      hlisted.through hopens []
        (fun inner h =>
          ⟨block, rfl, hblock inner (List.mem_append_right _ (Option.mem_toList.mpr h))⟩)
        (by simp) htarget
    rw [List.append_nil] at hwhole
    exact ⟨t, constructs, _, node, left, hfunction, hconstructs, hwhole⟩

/-- Where the transfers of control end up that are for a function with some results, or for a place
in it. The statements of its body have become `block`.

* A return is one of the innermost function around it, whose results its values fill just in case no
  construct around it has become a callback. Nothing is reported of a bare one.
* A jump to a label stays one, wherever it is. It stands in the same function as the label of a
  statement around it just in case no construct in between has become a callback.
* The return of a `?` with a value stands in the list that the statement is an entry of whose
  lowering comes to the `?`, or in the loop of a for-phrase whose init statement or guard comes to
  it. That of a `?` which is a statement stands where the statement does. These fill the results of
  the innermost function just as the others do. -/
structure TransfersIn (c : Context) (final : State) (statements : List NodeId)
    (results : List TypeId) (block : HostId) : Prop where
  returns : ∀ first ∈ statements, ∀ around id, c.unit.Holds first around id → ∀ values,
    c.unit.stmt? id = some (.ret values) →
    ∃ constructs node ids, PlacedAt c final block around constructs node ∧
      BecomesReturn c final id values results node ids ∧
      (values ≠ [] → FillsWithoutCallback final results constructs ids.length)
  jumps : ∀ first ∈ statements, ∀ around id, c.unit.Holds first around id → ∀ kind label,
    c.unit.stmt? id = some (.branch kind (some label)) →
    ∃ constructs node u u', PlacedAt c final block around constructs node ∧
      Becomes c id u u' node (.branch kind (some label)) [] ∧ u'.LeadsTo final
  labels : ∀ first ∈ statements, ∀ around id, c.unit.Holds first around id → ∀ label body,
    c.unit.stmt? id = some (.labeled label body) → ∀ inner jump kind,
    c.unit.Holds id inner jump → c.unit.stmt? jump = some (.branch kind (some label)) →
    ∃ outer landing target constructs node u u', PlacedAt c final block around outer landing ∧
      final.tree.kind landing = .labeled label target ∧
      PlacedAt c final landing inner constructs node ∧
      Becomes c jump u u' node (.branch kind (some label)) [] ∧ u'.LeadsTo final ∧
      (final.tree.functionAround ((constructs ++ outer).map (·.2)) =
        final.tree.functionAround (outer.map (·.2)) ↔ WithoutCallback final constructs)
  errors : ∀ around entry, ListsBelow c.unit statements around entry →
    ∃ constructs depth t answer t', (walkWithin depth).statement entry c t = (.ok answer, t') ∧
      t'.LeadsTo final ∧
      ((∃ call values text span u, values ≠ [] ∧
          Meets c (wrapPropagate call values text span) u ((walkWithin depth).statement entry) t) ∨
        (∃ value inner, c.unit.stmt? entry = some (.expression value) ∧
          c.unit.expr? value = some (.errorWrap inner .propagate)) →
        ∃ node ids, PlacedAt c final block around constructs node ∧
          final.tree.kind node = .ret ids ∧ ids ≠ [] ∧
          FillsWithoutCallback final results constructs ids.length)
  headers : ∀ first ∈ statements, ∀ around id, c.unit.Holds first around id → ∀ clause body,
    c.unit.stmt? id = some (.forPhrase clause body) →
    ∃ constructs depth t header t',
      lowerPhraseHeader (walkWithin depth) clause c t = (.ok header, t') ∧ t'.LeadsTo final ∧
      ∀ call values text span u, values ≠ [] →
        Meets c (wrapPropagate call values text span) u
          (lowerPhraseHeader (walkWithin depth) clause) t →
        ∃ node ids, PlacedAt c final block (id :: around) constructs node ∧
          final.tree.kind node = .ret ids ∧ ids ≠ [] ∧
          FillsWithoutCallback final results constructs ids.length

section

variable {form : FunctionForm} {block : HostId}
  (hrun : form.lower (walkWithin depth) c s = (.ok block, s')) (hfinal : s'.LeadsTo final)

include hrun hfinal

theorem returns_placed {first : NodeId} {around : List NodeId} {values : List NodeId}
    (hfirst : first ∈ form.statements c.unit) (hholds : c.unit.Holds first around id)
    (hstmt : c.unit.stmt? id = some (.ret values)) :
    ∃ constructs node ids, PlacedAt c final block around constructs node ∧
      BecomesReturn c final id values form.results node ids ∧
      (values ≠ [] → FillsWithoutCallback final form.results constructs ids.length) := by
  obtain ⟨t, constructs, opened, answer, left, -, hfunction, hconstructs, hstands⟩ :=
    form.exists_standsIn hrun hfinal hfirst hholds
  obtain ⟨_, u, u', hlowered, hu', -, hopens⟩ := hstands.lowered
  obtain ⟨node, ids, rfl, hreturn⟩ :=
    becomesReturn_of_run hstmt (hopens.function.trans hfunction) hlowered hu'
  obtain ⟨_, ⟨⟩, hencloses⟩ := hstands.encloses node rfl
  refine ⟨constructs, node, ids, ⟨hconstructs, hstands.standsFor, hencloses⟩, hreturn,
    fun hvalues => fillsWithoutCallback hstands.standsFor ?_ (hreturn.fills hvalues)⟩
  rw [hreturn.length]
  exact fun hzero => hvalues (List.length_eq_zero_iff.mp hzero)

theorem jumps_placed {first : NodeId} {around : List NodeId} {kind : BranchKind} {label : String}
    (hfirst : first ∈ form.statements c.unit) (hholds : c.unit.Holds first around id)
    (hstmt : c.unit.stmt? id = some (.branch kind (some label))) :
    ∃ constructs node u u', PlacedAt c final block around constructs node ∧
      Becomes c id u u' node (.branch kind (some label)) [] ∧ u'.LeadsTo final := by
  obtain ⟨t, constructs, opened, answer, left, -, -, hconstructs, hstands⟩ :=
    form.exists_standsIn hrun hfinal hfirst hholds
  obtain ⟨_, u, u', hlowered, hu', -⟩ := hstands.lowered
  obtain ⟨node, rfl, hjump⟩ := becomes_jump hstmt hlowered
  obtain ⟨_, ⟨⟩, hencloses⟩ := hstands.encloses node rfl
  exact ⟨constructs, node, u, u', ⟨hconstructs, hstands.standsFor, hencloses⟩, hjump, hu'⟩

theorem labels_placed {first : NodeId} {around inner : List NodeId} {label : String}
    {body jump : NodeId} {kind : BranchKind} (hfirst : first ∈ form.statements c.unit)
    (hholds : c.unit.Holds first around id) (hstmt : c.unit.stmt? id = some (.labeled label body))
    (hinner : c.unit.Holds id inner jump)
    (hjump : c.unit.stmt? jump = some (.branch kind (some label))) :
    ∃ outer landing target constructs node u u', PlacedAt c final block around outer landing ∧
      final.tree.kind landing = .labeled label target ∧
      PlacedAt c final landing inner constructs node ∧
      Becomes c jump u u' node (.branch kind (some label)) [] ∧ u'.LeadsTo final ∧
      (final.tree.functionAround ((constructs ++ outer).map (·.2)) =
        final.tree.functionAround (outer.map (·.2)) ↔ WithoutCallback final constructs) := by
  obtain ⟨t, outer, opened, answer, left, -, -, houter, hstands⟩ :=
    form.exists_standsIn hrun hfinal hfirst hholds
  obtain ⟨_, u, u', hlowered, hu', -⟩ := hstands.lowered
  obtain ⟨landing, target, rfl, hlanding⟩ := kind_of_labeled hstmt hlowered hu'
  obtain ⟨_, ⟨⟩, hencloses⟩ := hstands.encloses landing rfl
  obtain ⟨constructs, _, answer, _, hconstructs, hinside⟩ := exists_standsIn hinner hlowered hu'
  obtain ⟨_, v, v', hbranch, hv', -⟩ := hinside.lowered
  obtain ⟨node, rfl, hbecomes⟩ := becomes_jump hjump hbranch
  obtain ⟨_, ⟨⟩, hnode⟩ := hinside.encloses node rfl
  refine ⟨outer, landing, target, constructs, node, v, v',
    ⟨houter, hstands.standsFor, hencloses⟩, hlanding, ⟨hconstructs, hinside.standsFor, hnode⟩,
    hbecomes, hv', ?_⟩
  rw [List.map_append, HostTree.functionAround_append_eq_iff, withoutCallback_iff]

theorem errors_placed {around : List NodeId} {entry : NodeId}
    (hlists : ListsBelow c.unit (form.statements c.unit) around entry) :
    ∃ constructs depth t answer t', (walkWithin depth).statement entry c t = (.ok answer, t') ∧
      t'.LeadsTo final ∧
      ((∃ call values text span u, values ≠ [] ∧
          Meets c (wrapPropagate call values text span) u ((walkWithin depth).statement entry) t) ∨
        (∃ value inner, c.unit.stmt? entry = some (.expression value) ∧
          c.unit.expr? value = some (.errorWrap inner .propagate)) →
        ∃ node ids, PlacedAt c final block around constructs node ∧
          final.tree.kind node = .ret ids ∧ ids ≠ [] ∧
          FillsWithoutCallback final form.results constructs ids.length) := by
  obtain ⟨t, constructs, opened, answer, left, hfunction, hconstructs, hlisted⟩ :=
    form.exists_listedIn hrun hfinal hlists
  obtain ⟨depth, u, u', hlowered, hu', rfl, hopens⟩ := hlisted.lowered
  have hplaced {code node : HostId} {ids : List HostId} (hcode : code ∈ u'.hoisted ++ answer.toList)
      (hnode : final.tree.Encloses code [] node) (hkind : final.tree.kind node = .ret ids)
      (hids : ids.length ≠ 0) (hfills : FillsResults ids.length form.results) :
      ∃ node ids, PlacedAt c final block around constructs node ∧
        final.tree.kind node = .ret ids ∧ ids ≠ [] ∧
        FillsWithoutCallback final form.results constructs ids.length := by
    obtain ⟨_, ⟨⟩, hencloses⟩ :
        ∃ host ∈ some block, final.tree.Encloses host (constructs.map (·.2)) code := by
      rcases List.mem_append.mp hcode with hcode | hcode
      · exact hlisted.hoisted code hcode
      · exact hlisted.encloses code (Option.mem_toList.mp hcode)
    exact ⟨node, ids, ⟨hconstructs, hlisted.standsFor, hencloses.trans hnode⟩, hkind,
      fun hnil => hids (congrArg List.length hnil),
      fillsWithoutCallback hlisted.standsFor hids hfills⟩
  refine ⟨constructs, depth, u, answer, u', hlowered, hu', ?_⟩
  rintro (⟨call, values, text, span, v, hvalues, hmeets⟩ | ⟨value, inner, hstmt, hexpr⟩)
  · obtain ⟨r, v', hwrap, hv', hhoisted, hsame⟩ := hmeets.run hlowered
    obtain ⟨code, node, ids, hcode, hnode, hkind, hids, hfills⟩ := returnsError_ok
      (hsame.trans (hopens.function.trans hfunction)) hwrap (hv'.trans hu').toPrecedes
    rw [if_neg hvalues] at hcode
    exact hplaced (List.mem_append_left _ (hhoisted hcode)) hnode hkind hids hfills
  · obtain ⟨code, node, ids, hcode, hnode, hkind, hids, hfills⟩ :=
      returnsError_statement hstmt hexpr (hopens.function.trans hfunction) hlowered hu'
    exact hplaced hcode hnode hkind hids hfills

theorem headers_placed {first : NodeId} {around : List NodeId} {clause : ForClause} {body : NodeId}
    (hfirst : first ∈ form.statements c.unit) (hholds : c.unit.Holds first around id)
    (hstmt : c.unit.stmt? id = some (.forPhrase clause body)) :
    ∃ constructs depth t header t',
      lowerPhraseHeader (walkWithin depth) clause c t = (.ok header, t') ∧ t'.LeadsTo final ∧
      ∀ call values text span u, values ≠ [] →
        Meets c (wrapPropagate call values text span) u
          (lowerPhraseHeader (walkWithin depth) clause) t →
        ∃ node ids, PlacedAt c final block (id :: around) constructs node ∧
          final.tree.kind node = .ret ids ∧ ids ≠ [] ∧
          FillsWithoutCallback final form.results constructs ids.length := by
  obtain ⟨t, constructs, opened, answer, left, -, hfunction, hconstructs, hstands⟩ :=
    form.exists_standsIn hrun hfinal hfirst hholds
  obtain ⟨_, u, u', hlowered, hu', -, hopens⟩ := hstands.lowered
  obtain ⟨host, depth, v, header, v', rfl, hhost, hsame, hheader, hv', hinside⟩ :=
    phraseHeader_places hstmt hlowered hu'
  obtain ⟨_, ⟨⟩, hencloses⟩ := hstands.encloses host rfl
  have hall : ∀ p ∈ (id, host) :: constructs, StandsFor c final p.1 p.2 :=
    List.forall_mem_cons.mpr ⟨hhost, hstands.standsFor⟩
  refine ⟨(id, host) :: constructs, depth, v, header, v', hheader, hv', ?_⟩
  intro call values text span w hvalues hmeets
  obtain ⟨r, w', hwrap, hw', hhoisted, hmet⟩ := hmeets.run hheader
  obtain ⟨code, node, ids, hcode, hnode, hkind, hids, hfills⟩ := returnsError_ok
    (hmet.trans (hsame.trans (hopens.function.trans hfunction))) hwrap (hw'.trans hv').toPrecedes
  rw [if_neg hvalues] at hcode
  have hloop := hencloses.trans ((hinside code (hhoisted hcode)).trans hnode)
  refine ⟨node, ids, ⟨?_, hall, hloop⟩, hkind, fun hnil => hids (congrArg List.length hnil),
    fillsWithoutCallback hall hids hfills⟩
  rw [List.map_cons, hconstructs]

theorem transfersIn_of_lower :
    TransfersIn c final (form.statements c.unit) form.results block where
  returns _ hfirst _ _ hholds _ hstmt := returns_placed hrun hfinal hfirst hholds hstmt
  jumps _ hfirst _ _ hholds _ _ hstmt := jumps_placed hrun hfinal hfirst hholds hstmt
  labels _ hfirst _ _ hholds _ _ hstmt _ _ _ hinner hjump :=
    labels_placed hrun hfinal hfirst hholds hstmt hinner hjump
  errors _ _ hlists := errors_placed hrun hfinal hlists
  headers _ hfirst _ _ hholds _ _ hstmt := headers_placed hrun hfinal hfirst hholds hstmt

end

/-- In a unit that is lowered the transfers of control in the body of each function or method and of
the entry end up as `TransfersIn` says, in a function of the output that has the results of the
function that they are for. The same holds of every body that is lowered, also that of a function
literal. -/
theorem transfers_fill_iff (c : Context) :
    (∀ types out,
      lowerUnitWith c.unit c.sources ⟨types, c.env⟩ c.settings c.registry = .ok out →
      ∀ statements, OuterBody c statements → statements ≠ [] →
        ∃ id ∈ out.file.functionDecls, ∃ function, out.file.tree.kind id = .function function ∧
          TransfersIn c (.final c types) statements (function.signature.results.map (·.type))
            function.body) ∧
      ∀ (form : FunctionForm) depth s block s' final,
        form.lower (walkWithin depth) c s = (.ok block, s') → s'.LeadsTo final →
        TransfersIn c final (form.statements c.unit) form.results block := by
  refine ⟨fun types out hout statements hbody hne => ?_, fun form depth s block s' final hrun hs' =>
    transfersIn_of_lower hrun hs'⟩
  obtain ⟨id, function, hemitted⟩ := emittedBody_final hout hbody hne
  obtain ⟨form, depth, s, s', rfl, hresults, hrun, hs'⟩ := hemitted.lowered
  obtain ⟨-, rfl⟩ := lowerUnitWith_ok.mp hout
  obtain ⟨-, hfunctions, htree⟩ := outputs_ofState c (.final c types)
  rw [hfunctions, htree]
  exact ⟨id, hemitted.output, function, hemitted.kind _ (.refl _),
    hresults ▸ transfersIn_of_lower hrun hs'⟩

/-- `type Ints struct{}`, a method `Gop_Enum` of it that calls a `func(int)` for each value, and a
function `f` of an `int` with `for x <- xs { return x }; return 0` for a parameter `xs` of the
type. -/
def returningSample : Context :=
  .sample
    [.type (.named none "int"), .type (.struct []), .stmt (.typeDecl "Ints" ⟨1⟩ false none),
      .type (.named none "Ints"), .type (.func [⟨none, ⟨0⟩⟩] [] false),
      .type (.func [⟨some "visit", ⟨4⟩⟩] [] false), .stmt (.block []),
      .stmt (.function ⟨some ⟨some "xs", ⟨3⟩, false⟩, "Gop_Enum", ⟨5⟩, some ⟨6⟩, none⟩),
      .expr (.identifier "xs"), .expr (.identifier "x"), .stmt (.ret [⟨9⟩]), .stmt (.block [⟨10⟩]),
      .stmt (.forPhrase ⟨none, some "x", ⟨8⟩, none, none⟩ ⟨11⟩), .expr (.literal .int "0"),
      .stmt (.ret [⟨13⟩]), .stmt (.block [⟨12⟩, ⟨14⟩]),
      .type (.func [⟨some "xs", ⟨3⟩⟩] [⟨none, ⟨0⟩⟩] false),
      .stmt (.function ⟨none, "f", ⟨16⟩, some ⟨15⟩, none⟩)]
    [⟨2⟩, ⟨7⟩, ⟨17⟩]

theorem lowers_returningSample :
    lowerUnitWith returningSample.unit returningSample.sources ⟨.initial, returningSample.env⟩
      returningSample.settings returningSample.registry =
        .ok (.ofState returningSample (.final returningSample .initial)) :=
  lowerUnitWith_ok.mpr ⟨by decide +kernel, rfl⟩

/-- Only the callback has a body in the output of the sample. -/
theorem callbackResults?_returningSample {x : HostId}
    (h : (State.final returningSample .initial).tree.breakableParts x ≠ []) :
    (State.final returningSample .initial).tree.callbackResults? x ≠ none := by
  have hall : (List.range (State.final returningSample .initial).tree.nodes.size).all (fun n =>
      (State.final returningSample .initial).tree.breakableParts ⟨n⟩ = [] ∨
        (State.final returningSample .initial).tree.callbackResults? ⟨n⟩ ≠ none) := by
    decide +kernel
  have hin : x.index < (State.final returningSample .initial).tree.nodes.size := by
    by_contra hout
    refine h ?_
    rw [HostTree.breakableParts, HostTree.kind, HostTree.get?,
      Array.getElem?_eq_none (Nat.not_lt.mp hout)]
  have hx := List.all_eq_true.mp hall x.index (List.mem_range.mpr hin)
  exact (of_decide_eq_true hx).resolve_left h

/-- The return in the loop ends up in the callback, whose results its value does not fill. -/
theorem transfers_fill_iff_sample :
    ∃ out,
      lowerUnitWith returningSample.unit returningSample.sources ⟨.initial, returningSample.env⟩
        returningSample.settings returningSample.registry = .ok out ∧
      OuterBody returningSample [⟨12⟩, ⟨14⟩] ∧ returningSample.unit.Holds ⟨12⟩ [⟨12⟩] ⟨10⟩ ∧
      ∃ id ∈ out.file.functionDecls, ∃ function, out.file.tree.kind id = .function function ∧
        ∃ constructs node ids,
          PlacedAt returningSample (.final returningSample .initial) function.body [⟨12⟩] constructs
            node ∧
          (State.final returningSample .initial).tree.kind node = .ret ids ∧ ids.length = 1 ∧
          ¬FillsResults 1 ((State.final returningSample .initial).tree.resultsAround
            (function.signature.results.map (·.type)) (constructs.map (·.2))) := by
  have hroot : (⟨17⟩ : NodeId) ∈ returningSample.unit.roots := by decide
  have hbody : OuterBody returningSample [⟨12⟩, ⟨14⟩] := .function hroot rfl rfl
  have hholds : returningSample.unit.Holds ⟨12⟩ ([] ++ [⟨12⟩]) ⟨10⟩ := .inner (by decide) (.here _)
  obtain ⟨id, hid, function, hfunction, htransfers⟩ := (transfers_fill_iff returningSample).1 _ _
    lowers_returningSample _ hbody (by decide)
  obtain ⟨constructs, node, ids, hplaced, hreturn, hfills⟩ :=
    htransfers.returns ⟨12⟩ (by decide) _ ⟨10⟩ hholds [⟨9⟩] rfl
  have hlength : ids.length = 1 := hreturn.length
  refine ⟨_, lowers_returningSample, hbody, hholds, id, hid, function, hfunction, constructs, node,
    ids, hplaced, hreturn.kind, hlength, fun hfilled => ?_⟩
  rw [← hlength] at hfilled
  have hwithout := (hfills (List.cons_ne_nil _ _)).mp hfilled
  obtain ⟨⟨x, host⟩, rfl, rfl⟩ := List.map_eq_singleton_iff.mp hplaced.around
  have hbodied := hplaced.encloses.breakableParts_ne_nil (List.mem_singleton.mpr rfl)
  exact callbackResults?_returningSample hbodied (hwithout (_, host) (List.mem_singleton.mpr rfl))

/-- `f` is lowered without a warning to `xs.Gop_Enum(func(x int) { return x }); return 0`: its first
return with a value stands in a function that has no results. -/
theorem return_in_callback :
    ∃ out,
      lowerUnitWith returningSample.unit returningSample.sources ⟨.initial, returningSample.env⟩
        returningSample.settings returningSample.registry = .ok out ∧
      out.warnings = [] ∧ ∃ id ∈ out.file.functionDecls, ∃ function loop node value,
        out.file.tree.kind id = .function function ∧ function.name = "f" ∧
        out.file.tree.Encloses function.body [loop] node ∧
        out.file.tree.kind node = .ret [value] ∧ out.file.tree.callbackResults? loop = some [] ∧
        ¬FillsResults 1 (out.file.tree.resultsAround (function.signature.results.map (·.type))
          [loop]) := by
  obtain ⟨-, hfunctions, htree⟩ := outputs_ofState returningSample (.final returningSample .initial)
  refine ⟨_, lowers_returningSample, by decide +kernel, ⟨14⟩, ?_,
    ⟨none, "f", ⟨[⟨some "xs", ⟨32⟩⟩], [⟨none, ⟨2⟩⟩], false⟩, ⟨13⟩, none⟩, ⟨10⟩, ⟨5⟩, ⟨4⟩, ?_, rfl,
    ?_⟩
  · rw [hfunctions]
    decide +kernel
  · rw [htree]
    decide +kernel
  · rw [htree]
    have hparts : ⟨10⟩ ∈ (State.final returningSample .initial).tree.plainParts ⟨13⟩ ∧
        ⟨6⟩ ∈ (State.final returningSample .initial).tree.breakableParts ⟨10⟩ ∧
        ⟨5⟩ ∈ (State.final returningSample .initial).tree.plainParts ⟨6⟩ := by decide +kernel
    have hinner : (State.final returningSample .initial).tree.Encloses ⟨10⟩ ([] ++ [⟨10⟩]) ⟨5⟩ :=
      .inner hparts.2.1 (.plain hparts.2.2 (.here _))
    exact ⟨.plain hparts.1 hinner, by decide +kernel, by decide +kernel, by decide +kernel⟩

end Lowering

end GoLowering
