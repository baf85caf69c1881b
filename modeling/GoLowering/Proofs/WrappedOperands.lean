import GoLowering.Proofs.KnownValues
import GoLowering.Proofs.LiteralElements
import GoLowering.Proofs.Reports
import GoLowering.Proofs.Situations

/-!
# What can be wrapped

Operands of every mode have a type. That of a package, of a built-in function, of `nil` and of a
call without results is fixed by the mode (`Operand.FitsMode`), and it has no error for its last
result, so a wrap of such an operand is rejected. The type of an operand that is itself a type can
be `error`, and a wrap does not look at the mode: it takes the type for the results of a call
(`lowerErrorWrap_isValue_iff`).
-/

namespace GoLowering.Lowering

open Surface

variable {c : Context} {final s s₁ s' : State} {walk : Walk} {r operand call : Operand}
  {span : Span} {types : TypeTable} {α : Type}

/-! ## Modes and types -/

/-- What the type of an operand is by its mode, if that is neither a value nor a type. -/
def Operand.FitsMode (types : TypeTable) (r : Operand) : Prop :=
  match r.mode with
  | .value | .type => True
  | .noValue => types.get r.type = .tuple []
  | .nil => r.type = TypeTable.untypedNil
  | .package _ | .builtin _ => r.type = TypeTable.invalid

abbrev ByMode (s : State) (r : Operand) : Prop := r.FitsMode s.types

theorem Operand.fitsMode_of_value (h : r.mode = .value) : r.FitsMode types := by
  rw [FitsMode, h]
  trivial

theorem Operand.fitsMode_of_type (h : r.mode = .type) : r.FitsMode types := by
  rw [FitsMode, h]
  trivial

theorem Operand.IsResult.fitsMode (h : r.IsResult types) : r.FitsMode types := by
  rcases h with hmode | ⟨hmode, htuple⟩
  · exact Operand.fitsMode_of_value hmode
  · rw [FitsMode, hmode]
    exact htuple

theorem Plain.fits {m : Lower Operand} (hm : Plain m) : Gives c final m ByMode :=
  fun _ _ _ hrun _ => (hm.plain hrun).2.fitsMode

theorem fits_made {m : Lower α} {f : α → Operand} (h : ∀ a types, (f a).FitsMode types) :
    Gives c final (do return f (← m)) ByMode :=
  .after (fun a => .pure (fun s => h a s.types))

theorem fits_typeOperand (type : TypeId) : Gives c final (typeOperand type span) ByMode :=
  fits_made (fun _ _ => Operand.fitsMode_of_type rfl)

theorem fits_namedOperand (name : String) (type : TypeId) {f : Operand → Operand}
    (h : ∀ id types, (f (.value id type span)).FitsMode types) :
    Gives c final (do return f (← namedOperand name type span)) ByMode := by
  unfold namedOperand
  simp only [bind_assoc, pure_bind]
  exact fits_made h

theorem fits_symbolOperand (name : String) (symbol : Symbol) :
    Gives c final (symbolOperand name symbol span) ByMode := by
  cases symbol with
  | typeName type => exact fits_typeOperand type
  | «variable» type => exact fits_made (fun _ _ => Operand.fitsMode_of_value rfl)
  | constant type value =>
    exact fits_namedOperand name type (fun _ _ => Operand.fitsMode_of_value rfl)

theorem fits_resolvedOperand (resolution : Resolution) (package : Option String) (name : String) :
    Gives c final (resolvedOperand resolution package name span) ByMode := by
  unfold resolvedOperand
  cases resolution with
  | value spelled hostName type => exact fits_made (fun _ _ => Operand.fitsMode_of_value rfl)
  | const value type => exact fits_made (fun _ _ => Operand.fitsMode_of_value rfl)
  | nil => exact fits_namedOperand _ _ (fun _ _ => rfl)
  | type type => exact fits_typeOperand type
  | package path => exact fits_namedOperand _ _ (fun _ _ => rfl)
  | builtin function => exact fits_namedOperand _ _ (fun _ _ => rfl)

theorem fits_globalOperand (global : Global) (name : String) :
    Gives c final (globalOperand walk global name span) ByMode := by
  have hnamed (type : TypeId) : Gives c final (namedOperand name type span) ByMode :=
    fits_made (fun _ _ => Operand.fitsMode_of_value rfl)
  unfold globalOperand
  cases global with
  | value root =>
    refine .after (fun _ => .after (fun s => ?_))
    split
    · exact fits_symbolOperand name _
    · exact hnamed _
  | func _ type => exact hnamed _
  | type => exact .after (fun type => fits_typeOperand type)

theorem fits_nameOperand? (name : String) :
    Gives c final (nameOperand? walk name span) (IfAny ByMode) :=
  gives_nameOperand? name (fits_symbolOperand name) (fun global => fits_globalOperand global name)
    (fun _ => fits_namedOperand _ _ (fun _ _ => rfl))
    (fun resolution => fits_resolvedOperand resolution none name)

/-! ## Operands made of operands -/

theorem fits_lowerUnaryOperand (op : UnaryOp) (operand : Operand) :
    Gives c final (lowerUnaryOperand op operand span) ByMode := by
  have hplain (types : TypeTable) : Plain (do
      if ((← read).registry.get? operand.type).isSome then
        lowerRegisteredUnary op operand span
      else if types.isInvalid operand.type || (← hasUnary op operand.type) then
        return .value (← place (.unary op operand.id) span) operand.type span
      else
        failOperation op.symbol operand.type span : Lower Operand) := inferInstance
  unfold lowerUnaryOperand
  refine .after (fun _ => .after (fun types => ?_))
  split
  · unfold foldUnary
    split
    · exact .failing
    · have hfolded {m : Lower HostId} {value : Constant} : Gives c final (do
          return Operand.ofConstant (← m) operand.type (some value) span) ByMode :=
        fits_made (fun _ _ => Operand.fitsMode_of_value rfl)
      dsimp only
      split
      · exact hfolded
      · exact .after (fun big => .ite (fun _ => .after (fun _ => hfolded)) (fun _ => hfolded))
  · exact (hplain types).fits

theorem fits_foldBinary? (op : BinaryOp) (left right : Operand) :
    Gives c final (foldBinary? op left right span) (IfAny ByMode) := by
  intro s folded s' hrun hfinal
  rcases foldBinary?_ok hrun with ⟨rfl, -⟩ | ⟨_, _, _, _, _, -, -, -, -, hfolded⟩
  · exact ifAny_none
  · have hsome {m : Lower HostId} {kind : BasicType} {value : Constant} : Gives c final (do
        return some (Operand.ofConstant (← m) (TypeTable.basic kind) (some value) span))
        (IfAny ByMode) := by
      refine .after (fun id => .pure (fun s => ?_))
      rintro _ ⟨⟩
      exact Operand.fitsMode_of_value rfl
    unfold foldedOperand at hfolded
    refine Gives.ite (fun _ => .after (fun _ => hsome)) (fun _ => ?_) hfolded hfinal
    exact .after (fun _ => .after (fun _ => hsome))

theorem fits_lowerBinary (op : BinaryOp) (left right : Operand) :
    Gives c final (lowerBinary op left right span) ByMode := by
  unfold lowerBinary
  refine .after (fun _ => .after (fun _ => .after (fun _ => .after (fun _ => ?_))))
  refine .ite (fun _ => Plain.fits inferInstance) (fun _ => ?_)
  intro s r s' hrun hfinal
  obtain ⟨folded, s₁, hfold, hrest⟩ := bind_ok.mp hrun
  cases folded with
  | none => exact plain_operation.fits hrest hfinal
  | some folded =>
    obtain ⟨rfl, rfl⟩ := pure_ok.mp hrest
    exact fits_foldBinary? op left right hfold hfinal _ rfl

theorem fits_lowerConversion (callee : Operand) (args : List Argument) :
    Gives c final (lowerConversion walk callee args span) ByMode := by
  intro s r s' hrun _
  rcases lowerConversion_ok hrun with ⟨-, hresult⟩ | ⟨_, _, _, -, -, hconvert⟩
  · exact hresult.fitsMode
  · exact Operand.fitsMode_of_value (convertOperand_mode hconvert)

theorem fits_callOperand (callee : Operand) (args : List Argument) (spread : Bool)
    (expect : Expectation) :
    Gives c final (callOperand walk callee args spread span expect) ByMode := by
  cases hmode : callee.mode with
  | type =>
    rw [callOperand, hmode]
    exact fits_lowerConversion callee args
  | value =>
    rw [callOperand, hmode]
    exact plain_calledValue.fits
  | _ =>
    rw [callOperand, hmode]
    exact Plain.fits inferInstance

theorem fits_lowerDereference (inner : NodeId) :
    Gives c final (lowerDereference walk inner span) ByMode := by
  unfold lowerDereference
  refine .after (fun operand => .ite (fun _ => .after (fun type => ?_))
    (fun _ => plain_dereferenced.fits))
  exact fits_made (fun _ _ => Operand.fitsMode_of_type rfl)

theorem fits_lowerAmbiguousCommand (head : NodeId) (op : UnaryOp) (operand : NodeId)
    (expect : Expectation) :
    Gives c final (lowerAmbiguousCommand walk head op operand span expect) ByMode := by
  unfold lowerAmbiguousCommand
  refine .after (fun head => .after (fun callable => .ite (fun _ => ?_) (fun _ => ?_)))
  · exact .after (fun _ => fits_callOperand _ _ _ _)
  · split
    · exact .after (fun _ => fits_lowerBinary _ _ _)
    · exact .failing

theorem Operand.FitsMode.grows {u : TypeTable} (h : r.FitsMode types) (hgrows : types.Grows u) :
    r.FitsMode u := by
  unfold FitsMode at h ⊢
  cases hmode : r.mode with
  | noValue =>
    rw [hmode] at h
    exact hgrows.get_eq (by rw [h]; nofun) (by rw [h]; rfl) ▸ h
  | _ =>
    rw [hmode] at h
    exact h

section

variable (hwalk : ∀ id expect, Gives c final (walk.expr id expect) ByMode)

include hwalk

theorem fits_lowerGrouping (inner : NodeId) (expect : Expectation) :
    Gives c final (lowerGrouping walk inner span expect) ByMode := by
  unfold lowerGrouping
  refine Gives.bind (hwalk inner expect) (fun operand s₁ r s' hoperand hrun hfinal => ?_)
  obtain ⟨_, _, ⟨⟩, hrest⟩ := bind_ok.mp hrun
  split at hrest
  · obtain ⟨rfl, rfl⟩ := pure_ok.mp hrest
    exact hoperand
  · obtain ⟨id, s₂, hplace, hrest⟩ := bind_ok.mp hrest
    obtain ⟨rfl, rfl⟩ := pure_ok.mp hrest
    have hs := Steady.run (m := place (.paren operand.id) span) inferInstance c s₁
    rw [hplace] at hs
    exact hoperand.grows hs.types

theorem fits_lowerWrappedCall (inner : NodeId) :
    Gives c final (lowerWrappedCall walk inner) ByMode := by
  unfold lowerWrappedCall
  refine .after (fun context => .ite (fun _ => hwalk inner .none) (fun _ => ?_))
  refine Gives.bind (g := fun operand => ?_) (hwalk inner .called)
    (fun operand s₁ r s' hoperand hrun hfinal => ?_)
  · refine Keeps.before (fun types => ?_)
    split <;> infer_instance
  obtain ⟨_, _, ⟨⟩, hrest⟩ := bind_ok.mp hrun
  have hsame (h : (pure operand : Lower Operand) c s₁ = (.ok r, s')) : ByMode s' r := by
    obtain ⟨rfl, rfl⟩ := pure_ok.mp h
    exact hoperand
  cases hmode : operand.mode with
  | value =>
    rw [hmode] at hrest
    generalize s₁.types.signature? operand.type = signature at hrest
    rcases signature with _ | ⟨_ | ⟨param, params⟩, results, variadic⟩
    · exact hsame hrest
    · exact Plain.fits inferInstance hrest hfinal
    · exact hsame hrest
  | _ =>
    rw [hmode] at hrest
    exact hsame hrest

variable [walk.Keeps extension]

theorem fits_lowerExprKind (expression : Expr) (expect : Expectation) :
    Gives c final (lowerExprKind walk expression span expect) ByMode := by
  cases expression with
  | identifier name => exact gives_lowerIdentifier name fits_nameOperand?
  | literal kind text =>
    change Gives c final (lowerLiteral kind text span) ByMode
    unfold lowerLiteral
    split
    · exact fits_made (fun _ _ => Operand.fitsMode_of_value rfl)
    · exact .failing
  | grouping inner => exact fits_lowerGrouping hwalk inner expect
  | member object name =>
    exact gives_lowerMember object name expect
      (fun resolution path => fits_resolvedOperand resolution (some path)) Plain.fits
  | call callee args spread => exact .after (fun _ => fits_callOperand _ _ _ _)
  | command head args => exact .after (fun _ => fits_callOperand _ _ _ _)
  | ambiguousCommand head op operand =>
    exact fits_lowerAmbiguousCommand head op operand expect
  | dereference inner => exact fits_lowerDereference inner
  | unary op operand =>
    change Gives c final (lowerUnary walk op operand span expect) ByMode
    unfold lowerUnary
    split
    · exact Plain.fits inferInstance
    · exact Plain.fits inferInstance
    · exact .after (fun _ => fits_lowerUnaryOperand op _)
  | binary op left right => exact .after (fun _ => .after (fun _ => fits_lowerBinary op _ _))
  | _ => exact Plain.fits (by unfold lowerExprKind; infer_instance)

theorem fits_lowerExpr (id : NodeId) (expect : Expectation) :
    Gives c final (lowerExpr walk id expect) ByMode := by
  unfold lowerExpr
  refine .after (fun span => .after (fun context => ?_))
  split
  · exact fits_lowerExprKind hwalk _ expect
  · exact .after (fun type => fits_typeOperand type)

end

theorem fits_walkWithin (depth : Nat) (id : NodeId) (expect : Expectation) :
    Gives c final ((walkWithin depth).expr id expect) ByMode := by
  induction depth generalizing id expect with
  | zero => exact .after (fun _ => .failing)
  | succ depth ih => exact fits_lowerExpr ih id expect

/-! ## Which wraps succeed -/

/-- Whether a policy can deal with a call that has some values before its error. -/
def Wraps (walk : Walk) (c : Context) (s : State) (values : List TypeId) : WrapPolicy → Prop
  | .raise => True
  | .fallback default => ∃ value, values = [value] ∧
      ∀ node ∈ default, ∃ id s', lowerInto walk node value c s = (.ok id, s')
  | .propagate => s.ReturnsError ∧ values.length ≤ 1

theorem resultsBeforeError?_eq_some_iff {results values : List TypeId} :
    resultsBeforeError? results = some values ↔
      results.getLast? = some TypeTable.error ∧ values = results.dropLast := by
  unfold resultsBeforeError?
  by_cases hlast : results.getLast? = some TypeTable.error
  · rw [if_pos (beq_iff_eq.mpr hlast)]
    simp [hlast, eq_comm]
  · rw [if_neg (by simpa using hlast)]
    simp [hlast]

instance answers_addNode (kind : HostKind) (origin : Option Span) : Answers (addNode kind origin) :=
  ⟨fun c s => ⟨_, _, run_addNode kind origin c s⟩⟩

instance answers_place (kind : HostKind) (span : Span) : Answers (place kind span) :=
  answers_addNode _ _

instance answers_scaffold (kind : HostKind) : Answers (scaffold kind) := answers_addNode _ _

instance answers_mapM {β : Type} {f : α → Lower β} {xs : List α} [h : ∀ a, Answers (f a)] :
    Answers (xs.mapM f) := by
  induction xs with
  | nil => exact answers_pure []
  | cons x xs ih =>
    rw [List.mapM_cons]
    infer_instance

instance answers_resultOperand (call : HostId) (results : List TypeId) (span : Span) :
    Answers (resultOperand call results span) := by
  unfold resultOperand
  split <;> infer_instance

instance answers_immediateCall (results : List HostParam) (body : List HostId) (span : Span) :
    Answers (immediateCall results body span) := by
  unfold immediateCall blockNode
  infer_instance

instance answers_zeroValue (type : TypeId) : Answers (zeroValue type) := by
  unfold zeroValue getTypes literalNode
  refine Answers.before (fun types => ?_)
  split <;> infer_instance

instance answers_declareError (span : Span) : Answers (declareError span) := by
  unfold declareError
  infer_instance

instance answers_assignResults (targets : List String) (call : HostId) (span : Span) :
    Answers (assignResults targets call span) := by
  unfold assignResults identNode
  infer_instance

instance answers_addFrame (text : String) (span : Span) : Answers (addFrame text span) := by
  unfold addFrame qualifiedNode identNode literalNode callNode
  infer_instance

instance answers_onError (handler : List HostId) (span : Span) :
    Answers (onError handler span) := by
  unfold onError identNode binaryNode blockNode
  infer_instance

instance answers_wrapRaise (call : HostId) (values : List TypeId) (text : String) (span : Span) :
    Answers (wrapRaise call values text span) := by
  unfold wrapRaise identNode callNode
  infer_instance

instance answers_propagateBlock (call : HostId) (targets : List String) (label text : String)
    (results : List TypeId) (span : Span) :
    Answers (propagateBlock call targets label text results span) := by
  unfold propagateBlock identNode
  infer_instance

instance answers_freshName : Answers freshName := ⟨fun _ _ => ⟨_, _, rfl⟩⟩

instance answers_hoist (id : HostId) : Answers (hoist id) := ⟨fun _ _ => ⟨_, _, rfl⟩⟩

instance answers_notePropagation (call : HostId) (names : List String) :
    Answers (notePropagation call names) :=
  ⟨fun _ _ => ⟨_, _, rfl⟩⟩

/-- The results of the function around, if they end in an error. -/
theorem run_errorResults? :
    errorResults? c s =
      (.ok (s.function.filter (fun results => results.getLast? == some TypeTable.error)), s) := by
  unfold errorResults?
  rw [run_get]
  cases s.function with
  | none => rfl
  | some results =>
    rw [Option.filter_some]
    rfl

theorem exists_wrapPropagate_ok_iff {id : HostId} {values : List TypeId} {text : String} :
    (∃ r s', wrapPropagate id values text span c s = (.ok r, s')) ↔
      s.ReturnsError ∧ values.length ≤ 1 := by
  unfold wrapPropagate
  simp only [run_bind, run_errorResults?]
  cases hresults : s.function.filter (fun results => results.getLast? == some TypeTable.error) with
  | none =>
    have hplain : ¬s.ReturnsError := by
      rintro ⟨results, hfunction, hlast⟩
      rw [hfunction, Option.filter_some, if_pos (beq_iff_eq.mpr hlast)] at hresults
      cases hresults
    simp only [hplain, false_and, iff_false]
    rintro ⟨r, s', hrun⟩
    exact absurd hrun Fails.fails
  | some results =>
    have hreturns : s.ReturnsError := by
      obtain ⟨hfunction, hlast⟩ := Option.filter_eq_some_iff.mp hresults
      exact ⟨results, hfunction, beq_iff_eq.mp hlast⟩
    rcases values with _ | ⟨value, _ | ⟨next, rest⟩⟩
    · simp only [hreturns, List.length_nil, Nat.zero_le, and_true, iff_true]
      exact Answers.ok c s
    · simp only [hreturns, List.length_singleton, Nat.le_refl, and_true, iff_true]
      unfold hoistTemporary
      exact Answers.ok c s
    · simp only [List.length_cons, Nat.reduceLeDiff, and_false, iff_false]
      rintro ⟨r, s', hrun⟩
      exact absurd hrun Fails.fails

theorem exists_wrapFallback_ok_iff {id : HostId} {values : List TypeId} {default : Option NodeId} :
    (∃ r s', wrapFallback walk id values default span c s = (.ok r, s')) ↔
      Wraps walk c s values (.fallback default) := by
  unfold wrapFallback Wraps
  match values with
  | [value] =>
    have hrest (fallback : HostId) : Answers (do
        let declare ← declareError span
        let assign ← assignResults [Names.result] id span
        let fallback ← place (.ret [fallback]) span
        let check ← onError [fallback] span
        let done ← place (.ret []) span
        immediateCall (namedResults [value]) [declare, assign, check, done] span) := inferInstance
    cases default with
    | none =>
      have hzero := (@answers_bind _ _ _ _ (answers_zeroValue value) hrest).ok c s
      simp only [List.cons.injEq, and_true, Option.not_mem_none, false_imp_iff, implies_true,
        exists_eq', iff_true]
      exact hzero
    | some node =>
      simp only [List.cons.injEq, and_true, exists_eq_left', Option.mem_some, forall_eq']
      constructor
      · rintro ⟨r, s', hrun⟩
        obtain ⟨fallback, s₁, hinto, -⟩ := bind_ok.mp hrun
        exact ⟨fallback, s₁, hinto⟩
      · rintro ⟨fallback, s₁, hinto⟩
        obtain ⟨r, s', hrun⟩ := (hrest fallback).ok c s₁
        exact ⟨r, s', bind_ok.mpr ⟨fallback, s₁, hinto, hrun⟩⟩
  | [] =>
    simp only [List.nil_eq, List.cons_ne_nil, false_and, exists_false, iff_false]
    rintro ⟨r, s', hrun⟩
    exact absurd hrun Fails.fails
  | _ :: _ :: _ =>
    simp only [List.cons.injEq, reduceCtorEq, and_false, false_and, exists_false, iff_false]
    rintro ⟨r, s', hrun⟩
    exact absurd hrun Fails.fails

section

variable {inner : NodeId} {policy : WrapPolicy}
  (hcall : lowerWrappedCall walk inner c s = (.ok call, s₁))

include hcall

theorem lowerErrorWrap_rejects (h : resultsBeforeError? (s₁.types.resultsOf call.type) = none) :
    lowerErrorWrap walk inner policy span c s =
      (.error (.found (.missingErrorResult (c.sources.slice (c.unit.span inner))) call.span),
        s₁) := by
  have htext : textOf inner c s₁ = (.ok (c.sources.slice (c.unit.span inner)), s₁) := rfl
  have htypes : getTypes c s₁ = (.ok s₁.types, s₁) := rfl
  unfold lowerErrorWrap
  simp only [run_bind, hcall, htext, htypes, h]
  rfl

/-- A wrap succeeds if the results of what is wrapped end in an error and the policy can deal with
those before it. -/
theorem exists_lowerErrorWrap_ok_iff :
    (∃ r s', lowerErrorWrap walk inner policy span c s = (.ok r, s')) ↔
      ∃ values, resultsBeforeError? (s₁.types.resultsOf call.type) = some values ∧
        Wraps walk c s₁ values policy := by
  cases hresults : resultsBeforeError? (s₁.types.resultsOf call.type) with
  | none =>
    rw [lowerErrorWrap_rejects hcall hresults]
    refine iff_of_false ?_ (by simp)
    rintro ⟨_, _, ⟨⟩⟩
  | some values =>
    simp only [Option.some.injEq, exists_eq_left']
    have htext : textOf inner c s₁ = (.ok (c.sources.slice (c.unit.span inner)), s₁) := rfl
    have htypes : getTypes c s₁ = (.ok s₁.types, s₁) := rfl
    unfold lowerErrorWrap
    simp only [run_bind, hcall, htext, htypes, hresults]
    cases policy with
    | raise => simpa only [Wraps, iff_true] using Answers.ok c s₁
    | fallback default => exact exists_wrapFallback_ok_iff
    | propagate => exact exists_wrapPropagate_ok_iff

end

/-! ## Values only -/

/-- The type that a mode fixes has no error for its last result. -/
theorem resultsBeforeError?_eq_none (hgrows : TypeTable.initial.Grows types)
    (h : r.FitsMode types) (hvalue : r.mode ≠ .value) (htype : r.mode ≠ .type) :
    resultsBeforeError? (types.resultsOf r.type) = none := by
  unfold Operand.FitsMode at h
  cases hmode : r.mode with
  | value => exact absurd hmode hvalue
  | type => exact absurd hmode htype
  | noValue =>
    rw [hmode] at h
    rw [TypeTable.resultsOf, h]
    rfl
  | nil =>
    rw [hmode] at h
    have hbasics := (TypeTable.hasFixed_of_grows hgrows).basics
    rw [h, TypeTable.resultsOf, show types.get TypeTable.untypedNil = _ from hbasics _]
    rfl
  | _ =>
    rw [hmode] at h
    have hinvalid : types.get TypeTable.invalid = .invalid := by
      rcases (hgrows TypeTable.invalid (by decide)).2 with hsame | ⟨hnamed, -⟩
      · exact hsame
      · cases hnamed
    rw [h, TypeTable.resultsOf, hinvalid]
    rfl

/-- If a wrap succeeds, then what is wrapped is a value whose results end in an error, unless it is
a type that a wrap takes for the results of a call: `error` is the one type that is no tuple and
ends in an error. What is neither a value nor a type is rejected. -/
theorem lowerErrorWrap_isValue_iff {depth : Nat} {inner : NodeId} {policy : WrapPolicy}
    (hgrows : TypeTable.initial.Grows s.types)
    (hcall : lowerWrappedCall (walkWithin depth) inner c s = (.ok call, s₁)) :
    (((∃ r s', lowerErrorWrap (walkWithin depth) inner policy span c s = (.ok r, s')) →
        call.mode = .value ∧
          (s₁.types.resultsOf call.type).getLast? = some TypeTable.error) ↔
      ¬(call.mode = .type ∧ ∃ values,
        resultsBeforeError? (s₁.types.resultsOf call.type) = some values ∧
          Wraps (walkWithin depth) c s₁ values policy)) ∧
    (call.mode ≠ .value → call.mode ≠ .type →
      (lowerErrorWrap (walkWithin depth) inner policy span c s).1 =
        .error (.found (.missingErrorResult (c.sources.slice (c.unit.span inner))) call.span)) := by
  have hs := Steady.run (m := lowerWrappedCall (walkWithin depth) inner) inferInstance c s
  rw [hcall] at hs
  have hfits : call.FitsMode s₁.types :=
    fits_lowerWrappedCall (fits_walkWithin depth) inner hcall (.refl s₁)
  have hnone := resultsBeforeError?_eq_none (hgrows.trans hs.types) hfits
  refine ⟨?_, fun hvalue htype => ?_⟩
  · rw [exists_lowerErrorWrap_ok_iff hcall]
    constructor
    · rintro h ⟨htype, hwraps⟩
      rw [(h hwraps).1] at htype
      cases htype
    · rintro h ⟨values, hresults, hwraps⟩
      have htype : call.mode ≠ .type := fun htype => h ⟨htype, values, hresults, hwraps⟩
      refine ⟨?_, (resultsBeforeError?_eq_some_iff.mp hresults).1⟩
      by_contra hvalue
      rw [hnone hvalue htype] at hresults
      cases hresults
  · rw [lowerErrorWrap_rejects hcall (hnone hvalue htype)]

/-- The nodes of `x!` and `error!`. -/
def wrappedSample : Context :=
  .sample [.expr (.identifier "x"), .expr (.identifier "error")] []

/-- A function with a variable of type `error`. -/
def wrappedState : State := .inside .initial [] [("x", TypeTable.error)]

/-- A variable of type `error` is a value that can be wrapped. -/
theorem lowerErrorWrap_isValue_iff_variable : ∃ call s₁,
    lowerWrappedCall (walkWithin 1) ⟨0⟩ wrappedSample wrappedState = (.ok call, s₁) ∧
      call.mode = .value ∧ (s₁.types.resultsOf call.type).getLast? = some TypeTable.error := by
  have hrun : (lowerWrappedCall (walkWithin 1) ⟨0⟩ wrappedSample wrappedState).1.toOption.map
      (fun call => decide (call.mode = .value)) = some true := by
    decide +kernel
  rcases hcall : lowerWrappedCall (walkWithin 1) ⟨0⟩ wrappedSample wrappedState with
    ⟨failure | call, s₁⟩
  · rw [hcall] at hrun
    cases hrun
  · rw [hcall] at hrun
    have hvalue : call.mode = .value := of_decide_eq_true (Option.some.inj hrun)
    obtain ⟨r, s', hwrap⟩ := exists_ok (m := lowerErrorWrap (walkWithin 1) ⟨0⟩ .raise .synthetic)
      (c := wrappedSample) (s := wrappedState) (by decide +kernel)
    refine ⟨call, s₁, rfl,
      (lowerErrorWrap_isValue_iff (TypeTable.Grows.refl _) hcall).1.mpr (fun h => ?_)
        ⟨r, s', hwrap⟩⟩
    rw [hvalue] at h
    cases h.1

/-- The type `error` is wrapped as if it were a call that gives an error. -/
theorem lowerErrorWrap_type :
    (lowerWrappedCall (walkWithin 1) ⟨1⟩ wrappedSample wrappedState).1.toOption.map (·.mode) =
        some .type ∧
      (lowerErrorWrap (walkWithin 1) ⟨1⟩ .raise .synthetic wrappedSample wrappedState).1.isOk =
        true := by
  decide +kernel

end GoLowering.Lowering
