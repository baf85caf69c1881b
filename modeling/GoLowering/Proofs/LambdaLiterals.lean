import GoLowering.Proofs.CallArguments
import GoLowering.Proofs.Comprehensions

/-!
# Literals of lambdas

A lambda is written without types. It becomes a function literal with the types of the function type
that it is expected to have (`lowerLambda_literal`), and its expressions become the body of that
literal: statements if there are no results (`EmitsEach`), and otherwise the values of one return
(`Returns`), of which each is taken as a value of its result, or which one call gives all together.
-/

namespace GoLowering.Lowering

open Surface

variable {walk : Walk} {c : Context} {s s₁ s₂ s' final : State} {operand call : Operand}
  {id : HostId} {ids : List HostId} {values : List NodeId} {results : List TypeId} {span : Span}
  {expect : Expectation}

/-! ## Expressions as statements -/

/-- Where it stands as a statement, a built-in function is called, and so is a function that needs
no arguments, unless it is the result of a call. -/
def Operand.IsCalled (types : TypeTable) (tree : HostTree) (operand : Operand) : Prop :=
  (∃ function, operand.mode = .builtin function) ∨
    operand.mode = .value ∧ isBareCallable types operand.type = true ∧
      ∀ callee args spread, tree.kind operand.id ≠ .call callee args spread

/-- The statement of the final tree that an operand becomes which stands as a statement. -/
inductive StandsAs (s final : State) (operand : Operand) : HostId → Prop
  /-- A wrapped call without values has become a block already. -/
  | block {statements : List HostId} (hmode : operand.mode = .noValue)
      (hkind : s.tree.kind operand.id = .block statements) : StandsAs s final operand operand.id
  | plain {id : HostId} (hvalue : operand.isValue = true ∨ operand.mode = .noValue)
      (hplain : ¬operand.IsCalled s.types s.tree)
      (hkind : final.tree.kind id = .expression operand.id) : StandsAs s final operand id
  | called {id call : HostId} (hcalled : operand.IsCalled s.types s.tree)
      (hcall : final.tree.kind call = .call operand.id [] false)
      (hkind : final.tree.kind id = .expression call) : StandsAs s final operand id

/-- Without arguments there is nothing to lower for a call. -/
theorem lowerArguments_nil_ok {sig : Signature} {spread : Bool}
    (hrun : lowerArguments walk sig [] spread span c s = (.ok ids, s')) : ids = [] ∧ s = s' := by
  change lowerArgumentList walk sig [] spread span c s = _ at hrun
  unfold lowerArgumentList at hrun
  generalize hfits : (_ && _ : Bool) = fits at hrun
  cases fits with
  | true =>
    obtain ⟨rfl, rfl⟩ := pure_ok.mp hrun
    exact ⟨rfl, rfl⟩
  | false => exact absurd hrun (Fails.fails (m := failArgumentCount _ _ span))

theorem lowerBuiltinParts_nil_ok {function : Builtin} {spread : Bool}
    {parts : List HostId × List TypeId}
    (hrun : lowerBuiltinParts walk function [] spread span expect c s = (.ok parts, s')) :
    parts.1 = [] ∧ s = s' := by
  cases function with
  | recover =>
    obtain ⟨rfl, rfl⟩ := pure_ok.mp hrun
    exact ⟨rfl, rfl⟩
  | _ => exact absurd hrun (Fails.fails (m := failArgumentCount _ _ span))

/-- An operand that is called without arguments. -/
theorem callOperand_nil_ok (hvalue : operand.mode ≠ .type)
    (hrun : callOperand walk operand [] false span expect c s = (.ok call, s'))
    (hfinal : s'.Precedes final) :
    Settles s s' ∧ final.tree.kind call.id = .call operand.id [] false := by
  have hresult {results : List TypeId}
      (hrun : (do
        let id ← place (.call operand.id [] false) span
        resultOperand id results span) c s = (.ok call, s')) :
      Settles s s' ∧ final.tree.kind call.id = .call operand.id [] false := by
    obtain ⟨id, s₁, hid, hresult⟩ := bind_ok.mp hrun
    refine ⟨trans_of Settles (Still.settles hid) (Still.settles hresult), ?_⟩
    rw [resultOperand_id hresult]
    exact kind_addNode hid ((precedes_run hresult).trans hfinal)
  unfold callOperand at hrun
  cases hmode : operand.mode with
  | type => exact absurd hmode hvalue
  | builtin function =>
    rw [hmode] at hrun
    obtain ⟨⟨ids, results⟩, s₁, hparts, hrun⟩ := bind_ok.mp hrun
    obtain ⟨rfl : ids = [], rfl⟩ := lowerBuiltinParts_nil_ok hparts
    exact hresult hrun
  | value =>
    rw [hmode] at hrun
    obtain ⟨invalid, s₁, hinvalid, hrun⟩ := bind_ok.mp hrun
    obtain ⟨-, rfl⟩ := Prod.mk.inj hinvalid
    split at hrun
    · obtain ⟨operands, s₂, hoperands, hrun⟩ := bind_ok.mp hrun
      obtain ⟨rfl, rfl⟩ := pure_ok.mp hoperands
      obtain ⟨id, s₃, hid, hrun⟩ := bind_ok.mp hrun
      obtain ⟨rfl, rfl⟩ := pure_ok.mp hrun
      exact ⟨Still.settles hid, kind_addNode hid hfinal⟩
    · obtain ⟨_, _, ⟨⟩, hrun⟩ := bind_ok.mp hrun
      cases hsig : s.types.signature? operand.type with
      | none =>
        rw [hsig] at hrun
        exact absurd hrun Fails.fails
      | some sig =>
        rw [hsig] at hrun
        obtain ⟨ids, s₂, hargs, hrun⟩ := bind_ok.mp hrun
        obtain ⟨rfl, rfl⟩ := lowerArguments_nil_ok hargs
        exact hresult hrun
  | package | noValue | nil =>
    rw [hmode] at hrun
    exact absurd hrun Fails.fails

theorem expressionStatement_ok (hrun : expressionStatement walk operand c s = (.ok id, s'))
    (hfinal : s'.Precedes final) : Settles s s' ∧ StandsAs s final operand id := by
  have hplain (hvalue : operand.isValue = true ∨ operand.mode = .noValue)
      (hnot : ¬operand.IsCalled s.types s.tree)
      (hrun : place (.expression operand.id) operand.span c s = (.ok id, s')) :
      Settles s s' ∧ StandsAs s final operand id :=
    ⟨Still.settles hrun, .plain hvalue hnot (kind_addNode hrun hfinal)⟩
  have hcalled (hcall : operand.IsCalled s.types s.tree) (hvalue : operand.mode ≠ .type)
      (hrun : (do
        let call ← callOperand walk operand [] false operand.span .none
        place (.expression call.id) operand.span) c s = (.ok id, s')) :
      Settles s s' ∧ StandsAs s final operand id := by
    obtain ⟨call, s₁, hrun, hplace⟩ := bind_ok.mp hrun
    obtain ⟨hsettles, hkind⟩ := callOperand_nil_ok hvalue hrun ((precedes_run hplace).trans hfinal)
    exact ⟨trans_of Settles hsettles (Still.settles hplace),
      .called hcall hkind (kind_addNode hplace hfinal)⟩
  unfold expressionStatement at hrun
  obtain ⟨_, _, ⟨⟩, hrun⟩ := bind_ok.mp hrun
  cases hmode : operand.mode with
  | noValue =>
    have hnot : ¬operand.IsCalled s.types s.tree := by simp [Operand.IsCalled, hmode]
    rw [hmode] at hrun
    cases hkind : s.tree.kind operand.id with
    | block statements =>
      rw [hkind] at hrun
      obtain ⟨rfl, rfl⟩ := pure_ok.mp hrun
      exact ⟨refl_of Settles s, .block hmode hkind⟩
    | _ =>
      rw [hkind] at hrun
      exact hplain (.inr hmode) hnot hrun
  | nil =>
    rw [hmode] at hrun
    exact hplain (.inl (by simp [Operand.isValue, hmode])) (by simp [Operand.IsCalled, hmode]) hrun
  | builtin function =>
    rw [hmode] at hrun
    exact hcalled (.inl ⟨function, hmode⟩) (by simp [hmode]) hrun
  | value =>
    have hvalue : operand.isValue = true := by simp [Operand.isValue, hmode]
    rw [hmode] at hrun
    cases hkind : s.tree.kind operand.id with
    | call callee args spread =>
      rw [hkind] at hrun
      exact hplain (.inl hvalue) (by simp [Operand.IsCalled, hmode, hkind]) hrun
    | _ =>
      rw [hkind] at hrun
      obtain ⟨_, _, ⟨⟩, hrun⟩ := bind_ok.mp hrun
      cases hbare : isBareCallable s.types operand.type with
      | true =>
        rw [hbare] at hrun
        exact hcalled (.inr ⟨hmode, hbare, by simp [hkind]⟩) (by simp [hmode]) hrun
      | false =>
        rw [hbare] at hrun
        exact hplain (.inl hvalue) (by simp [Operand.IsCalled, hmode, hbare]) hrun
  | type | package =>
    rw [hmode] at hrun
    exact absurd hrun Fails.fails

/-- Expressions become statements one after the other, each of them behind what its own value has
hoisted. -/
inductive EmitsEach (walk : Walk) (c : Context) (final : State) :
    List NodeId → State → List HostId → State → Prop
  | nil {s : State} : EmitsEach walk c final [] s [] s
  | cons {value : NodeId} {values : List NodeId} {s s₁ s₂ s' : State} {operand : Operand}
      {id : HostId} {ids : List HostId} (hbefore : s.hoisted = [])
      (hvalue : walk.expr value .none c s = (.ok operand, s₁))
      (hstatement : expressionStatement walk operand c { s₁ with hoisted := [] } = (.ok id, s₂))
      (hstands : StandsAs { s₁ with hoisted := [] } final operand id)
      (hrest : EmitsEach walk c final values s₂ ids s') :
      EmitsEach walk c final (value :: values) s (s₁.hoisted ++ id :: ids) s'

theorem emitsEach_mapM [walk.Keeps extension] {lists : List (List HostId)}
    (hbefore : s.hoisted = [])
    (hrun : values.mapM (lowerLambdaStatement walk) c s = (.ok lists, s'))
    (hfinal : s'.Precedes final) : EmitsEach walk c final values s lists.flatten s' := by
  induction values generalizing s lists with
  | nil =>
    obtain ⟨rfl, rfl⟩ := pure_ok.mp hrun
    exact .nil
  | cons value values ih =>
    rw [List.mapM_cons] at hrun
    obtain ⟨list, s₁, hlist, hrun⟩ := bind_ok.mp hrun
    obtain ⟨rest, s₂, hrest, hrun⟩ := bind_ok.mp hrun
    obtain ⟨rfl, rfl⟩ := pure_ok.mp hrun
    obtain ⟨operand, t, hvalue, hlist⟩ := bind_ok.mp hlist
    obtain ⟨_, _, ⟨⟩, hlist⟩ := bind_ok.mp hlist
    obtain ⟨id, t', hstatement, hlist⟩ := bind_ok.mp hlist
    obtain ⟨rfl, rfl⟩ := pure_ok.mp hlist
    obtain ⟨hsettles, hstands⟩ :=
      expressionStatement_ok hstatement ((precedes_run hrest).trans hfinal)
    rw [List.flatten_cons, List.append_assoc]
    exact .cons hbefore hvalue hstatement hstands (ih hsettles.hoisted hrest)

/-! ## Values of a return -/

/-- Expressions are taken as values of the results, one for each. -/
inductive ReturnsEach (walk : Walk) (c : Context) :
    List NodeId → List TypeId → State → List HostId → State → Prop
  | nil {s : State} : ReturnsEach walk c [] [] s [] s
  | cons {value : NodeId} {values : List NodeId} {result : TypeId} {results : List TypeId}
      {s s₁ s₂ s' : State} {operand : Operand} {id : HostId} {ids : List HostId}
      (hvalue : walk.expr value (.expecting result) c s = (.ok operand, s₁))
      (hsingle : operand.IsSingle s₁.types) (hcoerce : coerce operand result c s₁ = (.ok id, s₂))
      (hrest : ReturnsEach walk c values results s₂ ids s') :
      ReturnsEach walk c (value :: values) (result :: results) s (id :: ids) s'

theorem ReturnsEach.length_eq {ids : List HostId} (h : ReturnsEach walk c values results s ids s') :
    values.length = results.length ∧ ids.length = results.length := by
  induction h with
  | nil => exact ⟨rfl, rfl⟩
  | cons _ _ _ _ ih => exact ⟨congrArg (· + 1) ih.1, congrArg (· + 1) ih.2⟩

/-- What a return gives that stands for expressions. -/
inductive Returns (walk : Walk) (c : Context) (values : List NodeId) (results : List TypeId)
    (s : State) (ids : List HostId) (s' : State) : Prop
  | each (heach : ReturnsEach walk c values results s ids s') :
      Returns walk c values results s ids s'
  /-- One call gives several results. -/
  | all {value : NodeId} {operand : Operand} {types : List TypeId} (hvalues : values = [value])
      (hseveral : 1 < results.length) (hvalue : walk.expr value .none c s = (.ok operand, s'))
      (hids : ids = [operand.id]) (htuple : s'.types.get operand.type = .tuple types)
      (hassignable : List.Forall₂ (s'.assignable c) types results) :
      Returns walk c values results s ids s'

theorem returnsEach_lowerEachResult (hlength : values.length = results.length)
    (hrun : lowerEachResult walk values results c s = (.ok ids, s')) :
    ReturnsEach walk c values results s ids s' := by
  induction values generalizing results s ids with
  | nil =>
    obtain rfl := List.length_eq_zero_iff.mp hlength.symm
    obtain ⟨rfl, rfl⟩ := pure_ok.mp hrun
    exact .nil
  | cons value values ih =>
    cases results with
    | nil => cases hlength
    | cons result results =>
      unfold lowerEachResult at hrun
      rw [List.zip_cons_cons, List.mapM_cons] at hrun
      obtain ⟨id, s₂, hid, hrun⟩ := bind_ok.mp hrun
      obtain ⟨rest, s₃, hrest, hrun⟩ := bind_ok.mp hrun
      obtain ⟨rfl, rfl⟩ := pure_ok.mp hrun
      obtain ⟨operand, s₁, hvalue, hcoerce⟩ := bind_ok.mp hid
      exact .cons hvalue (isSingle_of_coerce hcoerce) hcoerce (ih (Nat.succ.inj hlength) hrest)

theorem allM_assignable_ok {got : List TypeId} (hlength : got.length = results.length)
    (hrun : ((got.zip results).allM (fun (g, r) => assignable g r) : Lower Bool) c s =
      (.ok true, s')) :
    s = s' ∧ List.Forall₂ (s.assignable c) got results := by
  induction got generalizing results with
  | nil =>
    obtain rfl := List.length_eq_zero_iff.mp hlength.symm
    exact ⟨(pure_ok.mp hrun).2, .nil⟩
  | cons first got ih =>
    cases results with
    | nil => cases hlength
    | cons result results =>
      rw [List.zip_cons_cons, List.allM] at hrun
      dsimp only at hrun
      rw [run_assignable_bind] at hrun
      cases hfirst : s.types.assignable (fun id name => (s.method? c.env id name).isSome) first
          result with
      | false =>
        rw [hfirst] at hrun
        cases (pure_ok.mp hrun).1
      | true =>
        rw [hfirst] at hrun
        obtain ⟨rfl, hrest⟩ := ih (Nat.succ.inj hlength) hrun
        exact ⟨rfl, .cons hfirst hrest⟩

theorem resultsFit_ok {got : List TypeId} (hrun : resultsFit got results c s = (.ok true, s')) :
    s = s' ∧ List.Forall₂ (s.assignable c) got results := by
  unfold resultsFit at hrun
  split at hrun
  · rename_i hlength
    exact allM_assignable_ok (beq_iff_eq.mp hlength) hrun
  · cases (pure_ok.mp hrun).1

theorem get_of_resultsOf {types : TypeTable} {type : TypeId}
    (h : 1 < (types.resultsOf type).length) :
    types.get type = .tuple (types.resultsOf type) := by
  unfold TypeTable.resultsOf at h ⊢
  cases hget : types.get type with
  | tuple elements => rfl
  | _ =>
    rw [hget] at h
    exact absurd h (Nat.lt_irrefl 1)

theorem returns_lowerAllResults {value : NodeId} (hseveral : 1 < results.length)
    (hrun : lowerAllResults walk value results .none c s = (.ok id, s')) :
    Returns walk c [value] results s [id] s' := by
  obtain ⟨operand, s₁, hvalue, hrun⟩ := bind_ok.mp hrun
  obtain ⟨_, _, ⟨⟩, hrun⟩ := bind_ok.mp hrun
  obtain ⟨fits, s₂, hfits, hrun⟩ := bind_ok.mp hrun
  cases fits with
  | false =>
    exact absurd hrun (Fails.fails (m := failResultCount results.length _ operand.span))
  | true =>
    obtain ⟨rfl, rfl⟩ := pure_ok.mp hrun
    obtain ⟨rfl, hassignable⟩ := resultsFit_ok hfits
    exact .all rfl hseveral hvalue rfl
      (get_of_resultsOf (hassignable.length_eq.symm ▸ hseveral)) hassignable

theorem returns_lowerLambdaValues
    (hrun : lowerLambdaValues walk values results span c s = (.ok ids, s')) :
    Returns walk c values results s ids s' := by
  have heach (hrun : (if values.length == results.length then lowerEachResult walk values results
        else failResultCount results.length values.length span) c s = (.ok ids, s')) :
      Returns walk c values results s ids s' := by
    split at hrun
    · rename_i hlength
      exact .each (returnsEach_lowerEachResult (beq_iff_eq.mp hlength) hrun)
    · exact absurd hrun Fails.fails
  unfold lowerLambdaValues at hrun
  rcases values with _ | ⟨value, _ | ⟨second, rest⟩⟩
  · exact heach hrun
  · by_cases hseveral : 1 < results.length
    · rw [decide_eq_true hseveral] at hrun
      obtain ⟨id, s₂, hall, hrun⟩ := bind_ok.mp hrun
      obtain ⟨rfl, rfl⟩ := pure_ok.mp hrun
      exact returns_lowerAllResults hseveral hall
    · rw [decide_eq_false hseveral] at hrun
      exact heach hrun
  · exact heach hrun

/-! ## Literals -/

/-- The block of a function literal that stands for the expressions of a lambda. -/
inductive StandsForExpressions (walk : Walk) (c : Context) (values : List NodeId)
    (results : List TypeId) (inside final : State) (block : HostId) : Prop
  | statements {ids : List HostId} {s' : State} (hnone : results = [])
      (hemits : EmitsEach walk c final values inside ids s')
      (hblock : final.tree.kind block = .block ids) :
      StandsForExpressions walk c values results inside final block
  /-- What the values have hoisted comes before the return. -/
  | returns {ids : List HostId} {ret : HostId} {s' : State} (hsome : results ≠ [])
      (hreturns : Returns walk c values results inside ids s')
      (hret : final.tree.kind ret = .ret ids)
      (hblock : final.tree.kind block = .block (s'.hoisted ++ [ret])) :
      StandsForExpressions walk c values results inside final block

theorem standsForExpressions_lowerLambdaExpressions [walk.Keeps extension] {block : HostId}
    (hbefore : s.hoisted = [])
    (hrun : lowerLambdaExpressions walk values results span c s = (.ok block, s'))
    (hfinal : s'.Precedes final) :
    StandsForExpressions walk c values results s final block := by
  unfold lowerLambdaExpressions at hrun
  by_cases hnone : results = []
  · rw [if_pos (by simp [hnone])] at hrun
    obtain ⟨lists, s₁, hlists, hrun⟩ := bind_ok.mp hrun
    exact .statements hnone (emitsEach_mapM hbefore hlists ((precedes_run hrun).trans hfinal))
      (kind_addNode hrun hfinal)
  · rw [if_neg (by simpa using hnone)] at hrun
    obtain ⟨ids, s₁, hids, hrun⟩ := bind_ok.mp hrun
    obtain ⟨_, _, ⟨⟩, hrun⟩ := bind_ok.mp hrun
    have hreturn {returnSpan : Span} (hrun : (do
          let ret ← place (.ret ids) returnSpan
          blockNode (s₁.hoisted ++ [ret])) c { s₁ with hoisted := [] } = (.ok block, s')) :
        StandsForExpressions walk c values results s final block := by
      obtain ⟨ret, s₂, hret, hblock⟩ := bind_ok.mp hrun
      exact .returns hnone (returns_lowerLambdaValues hids)
        (kind_addNode hret ((precedes_run hblock).trans hfinal)) (kind_addNode hblock hfinal)
    revert hrun
    cases values.head? with
    | none => exact hreturn
    | some first =>
      cases values.getLast? with
      | none => exact hreturn
      | some last => exact hreturn

/-- The literal that names are written for has the types of a function type. -/
structure IsTypedBy (literal : HostSignature) (names : List String) (sig : Signature) : Prop where
  names : literal.params.map (·.name) = names.map some
  params : literal.params.map (·.type) = sig.params
  results : literal.results = sig.results.map (⟨none, ·⟩)
  variadic : literal.variadic = sig.variadic

theorem isTypedBy_zip {names : List String} {sig : Signature}
    (hlength : names.length = sig.params.length) :
    IsTypedBy ⟨(names.zip sig.params).map (fun (name, type) => ⟨some name, type⟩),
      sig.results.map (⟨none, ·⟩), sig.variadic⟩ names sig where
  names := by
    rw [List.map_map]
    change (names.zip sig.params).map (some ∘ Prod.fst) = _
    rw [← List.map_map, List.map_fst_zip (Nat.le_of_eq hlength)]
  params := by
    rw [List.map_map]
    exact List.map_snd_zip (Nat.le_of_eq hlength.symm)
  results := rfl
  variadic := rfl

theorem putLiteral_ok {signature : HostSignature} {part : Lower HostId} [Steady extension part]
    (hrun : putLiteral signature part span c s = (.ok id, s')) :
    ∃ block inside, part c { s with
        scopes := s.scopes.push .closure
        function := some (signature.results.map (·.type))
        hoisted := [] } = (.ok block, inside) ∧
      inside.Precedes s' ∧ s'.tree.kind id = .functionLiteral signature block := by
  obtain ⟨_, _, ⟨⟩, hrun⟩ := bind_ok.mp hrun
  obtain ⟨block, s₁, hblock, hrun⟩ := bind_ok.mp hrun
  obtain ⟨id', s₂, hid, hrun⟩ := bind_ok.mp hrun
  obtain ⟨_, _, ⟨⟩, hrun⟩ := bind_ok.mp hrun
  obtain ⟨_, s₃, hnote, hrun⟩ := bind_ok.mp hrun
  obtain ⟨rfl, rfl⟩ := pure_ok.mp hrun
  obtain ⟨inside, hinside, rfl⟩ := within_ok.mp hblock
  have hprecedes := (precedes_run hid).trans (precedes_run hnote)
  exact ⟨block, inside, hinside, ⟨hprecedes.tree, hprecedes.types⟩,
    kind_addNode hid (precedes_run hnote)⟩

/-- A lambda becomes a literal of the function type that is expected, whose body stands for the
expressions of the lambda. -/
theorem lowerLambda_literal {depth : Nat} {names : List String} {body : LambdaBody}
    (hrun : lowerLambda (walkWithin depth) names body span expect c s = (.ok operand, s')) :
    ∃ type sig literal block,
      expect.type = some type ∧ s.types.signature? type = some sig ∧
      operand = .value operand.id type span ∧
      s'.tree.kind operand.id = .functionLiteral literal block ∧ IsTypedBy literal names sig ∧
      ∀ values, body = .expressions values → ∃ inside,
        bindParams literal.params c { s with
          scopes := s.scopes.push .closure, function := some sig.results, hoisted := [] } =
            (.ok (), inside) ∧
          inside.hoisted = [] ∧
          StandsForExpressions (walkWithin depth) c values sig.results inside s' block := by
  unfold lowerLambda at hrun
  cases htype : expect.type with
  | none =>
    rw [htype] at hrun
    exact absurd hrun Fails.fails
  | some type =>
    rw [htype] at hrun
    obtain ⟨_, _, ⟨⟩, hrun⟩ := bind_ok.mp hrun
    cases hsig : s.types.signature? type with
    | none =>
      rw [hsig] at hrun
      exact absurd hrun Fails.fails
    | some sig =>
      rw [hsig] at hrun
      dsimp only at hrun
      by_cases hlength : names.length = sig.params.length
      · rw [if_neg (by simpa using hlength)] at hrun
        obtain ⟨id, s₁, hid, hrun⟩ := bind_ok.mp hrun
        obtain ⟨rfl, rfl⟩ := pure_ok.mp hrun
        obtain ⟨block, inside, hinside, hprecedes, hkind⟩ := putLiteral_ok hid
        refine ⟨type, sig, _, block, rfl, hsig, rfl, hkind, isTypedBy_zip hlength, ?_⟩
        rintro values rfl
        obtain ⟨_, inside', hparams, hbody⟩ := bind_ok.mp hinside
        have hresults : (sig.results.map (⟨none, ·⟩ : TypeId → HostParam)).map (·.type) =
            sig.results := by
          rw [List.map_map]
          exact List.map_id _
        rw [hresults] at hparams
        have hbefore := (Still.settles hparams).hoisted
        exact ⟨inside', hparams, hbefore,
          standsForExpressions_lowerLambdaExpressions hbefore hbody hprecedes⟩
      · rw [if_pos (by simpa using hlength)] at hrun
        exact absurd hrun Fails.fails

/-- The nodes of `b` and `a`. -/
def lambdaSample : Context := .sample [.expr (.identifier "b"), .expr (.identifier "a")] []

/-- A function, with `func(int, string) (string, int)` as the type after the first ones. -/
def lambdaState : State :=
  .inside ⟨TypeTable.initial.entries ++ #[.func ⟨[TypeTable.basic .int, TypeTable.basic .string],
    [TypeTable.basic .string, TypeTable.basic .int], false⟩]⟩ [] []

/-- `(a, b) => b, a` for `func(int, string) (string, int)`. -/
theorem lowerLambda_literal_swap : ∃ operand s', lowerLambda (walkWithin 2) ["a", "b"]
      (.expressions [⟨0⟩, ⟨1⟩]) .synthetic (.expecting ⟨32⟩) lambdaSample lambdaState =
        (.ok operand, s') ∧
    ∃ literal block inside, s'.tree.kind operand.id = .functionLiteral literal block ∧
      literal.params.map (·.name) = [some "a", some "b"] ∧
      literal.params.map (·.type) = [TypeTable.basic .int, TypeTable.basic .string] ∧
      StandsForExpressions (walkWithin 2) lambdaSample [⟨0⟩, ⟨1⟩]
        [TypeTable.basic .string, TypeTable.basic .int] inside s' block := by
  obtain ⟨operand, s', hrun⟩ := exists_ok (m := lowerLambda (walkWithin 2) ["a", "b"]
    (.expressions [⟨0⟩, ⟨1⟩]) .synthetic (.expecting ⟨32⟩)) (c := lambdaSample) (s := lambdaState)
    (by decide +kernel)
  obtain ⟨type, sig, literal, block, htype, hsig, -, hkind, htyped, hbody⟩ :=
    lowerLambda_literal hrun
  obtain rfl : (⟨32⟩ : TypeId) = type := Option.some.inj htype
  have hknown : lambdaState.types.signature? ⟨32⟩ = some ⟨[TypeTable.basic .int,
      TypeTable.basic .string], [TypeTable.basic .string, TypeTable.basic .int], false⟩ := by
    decide +kernel
  obtain rfl := Option.some.inj (hknown.symm.trans hsig)
  obtain ⟨inside, -, -, hstands⟩ := hbody _ rfl
  exact ⟨operand, s', hrun, literal, block, inside, hkind, htyped.names, htyped.params, hstands⟩

end GoLowering.Lowering
