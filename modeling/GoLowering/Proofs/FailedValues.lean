import GoLowering.Proofs.FailedOperands
import GoLowering.Proofs.Phases
import GoLowering.Proofs.Situations

/-!
# Uses of failed values

A declaration that refers to a package value whose declaration has failed is to report nothing about
it. `ValueUse` lists what can be done with a value: in an expression, in a call of a built-in
function, in a place for a value and in a statement. A use of a failed value reports just what the
rest of it reports, apart from the uses that are refused (`FailsAt.verdict_use`,
`ValueUse.isRefused`): the code asks there for a channel, an error, something to iterate over, a
constant, a slice or a map without letting the invalid type pass.
-/

namespace GoLowering.Lowering

open Surface

section

variable {walk : Walk} {c : Context} {s s₁ : State} {id : NodeId} {bad : Operand}

/-! ## Failed values in places for values -/

/-- A place for a value, in an expression or in a statement. -/
inductive ValuePlace where
  /-- Where a value of a type is needed, or one of any type. -/
  | value (type : Option TypeId)
  | right (op : BinaryOp) (left : Operand)
  | condition
  | position
  | caseValue (tag : Option TypeId)
  | subject
  | target
  | source
  /-- The source of the first clause of a comprehension. -/
  | clause (frame : ComprehensionFrame) (first : ForClause) (rest : List ForClause)
  | constant (type : Option TypeId)

namespace ValuePlace

def lower (walk : Walk) (id : NodeId) (span : Span) : ValuePlace → Lower Unit
  | value type => discard (lowerSlotValue walk id type)
  | right op left => do discard (lowerBinary op left (← walk.expr id .none) span)
  | condition => discard (lowerCondition walk id)
  | position => discard (lowerPosition walk id)
  | caseValue tag => discard (lowerCaseValue walk tag id)
  | subject => discard (lowerSubject walk id)
  | target => discard (lowerTarget walk id)
  | source => discard (lowerSource walk id)
  | clause frame first rest =>
    discard (lowerClauses walk frame ({ first with source := id } :: rest))
  | constant type => discard (lowerConstant walk type id)

/-- What is asked for apart from a value of the invalid type. -/
def rest : ValuePlace → Lower Unit
  | right _ left => checkValue left
  | _ => return ()

/-- The failure in a place that a value of the invalid type may not be put in. -/
def refusal? (c : Context) (id : NodeId) (bad : Operand) : ValuePlace → Option Failure
  | source | clause .. => some (.found (.notEnumerable "invalid type") bad.span)
  | constant _ =>
    some (.found (.typeMismatch "constant" (c.sources.slice (c.unit.span id))) bad.span)
  | _ => none

end ValuePlace

/-- The invalid type has no elements. -/
theorem verdict_planRange (hs : InvalidIsInert c s) (span : Span) :
    verdict (planRange TypeTable.invalid span c s) =
      (some (.found (.notEnumerable "invalid type") span), s.diagnostics) := by
  have hplan : rangePlan? s.types (s.method? c.env) TypeTable.invalid = none := by
    simp [rangePlan?, hs.types.rangeTypes?, hs.methods]
  unfold planRange
  rw [run_read, run_get, hplan]
  change (some (Failure.found (.notEnumerable (s.types.format TypeTable.invalid)) span),
    s.diagnostics) = _
  rw [hs.types.format]

namespace FailsAt

variable (h : FailsAt walk c s id bad s₁) (hs : InvalidIsInert c s₁) (span : Span)

include h hs

theorem verdict_lowerSource :
    verdict (lowerSource walk id c s) =
      (some (.found (.notEnumerable "invalid type") bad.span), s₁.diagnostics) := by
  unfold lowerSource
  rw [verdict_of_ok (h.run _), verdict_of_ok (h.failed.run_defaultValue hs.types)]
  exact verdict_of_failed (verdict_planRange hs bad.span) _

/-- Apart from what is refused, a failed value is put in any place. -/
theorem verdict_valuePlace (place : ValuePlace) :
    verdict (place.lower walk id span c s) =
      match place.refusal? c id bad with
      | some failure => (some failure, s₁.diagnostics)
      | none => verdict (place.rest c s₁) := by
  have ht := hs.types
  have hcondition : verdict (lowerCondition walk id c s) = (none, s₁.diagnostics) := by
    unfold lowerCondition
    rw [verdict_of_ok (h.run _), h.failed.type, verdict_of_ok (run_isBoolean_invalid ht),
      if_pos rfl, verdict_of_ok (h.failed.run_defaultValue ht)]
    rfl
  cases place with
  | value type =>
    refine (verdict_discard _).trans ?_
    unfold lowerSlotValue
    rw [verdict_of_ok (h.run _)]
    exact congrArg verdict (h.failed.run_coerceOrDefault ht type)
  | right op left =>
    refine (verdict_of_ok (h.run _) _).trans ((verdict_discard _).trans ?_)
    exact h.failed.verdict_lowerBinary_right ht op left span
  | condition => exact (verdict_discard _).trans hcondition
  | position =>
    refine (verdict_discard _).trans ?_
    unfold lowerPosition
    rw [verdict_of_ok (h.run _), verdict_of_ok (h.failed.run_defaultValue ht)]
    dsimp only
    rw [verdict_of_ok (run_basicOf?_invalid ht), verdict_of_ok (run_isInvalid ht)]
    rfl
  | caseValue tag =>
    refine (verdict_discard _).trans ?_
    cases tag with
    | none => exact hcondition
    | some type =>
      unfold lowerCaseValue
      dsimp only
      rw [verdict_of_ok (h.run _), verdict_of_ok (run_getTypes c s₁)]
      split
      · rw [verdict_of_ok (h.failed.run_defaultValue ht)]
        rfl
      · exact congrArg verdict (h.failed.run_coerce ht type)
  | subject =>
    refine (verdict_discard _).trans ?_
    unfold lowerSubject
    rw [verdict_of_ok (h.run_lowerByDefault ht)]
    dsimp only
    rw [verdict_of_ok (run_getTypes c s₁), ht.isInvalid, Bool.or_true, if_pos rfl]
    rfl
  | target =>
    refine (verdict_discard _).trans ?_
    unfold lowerTarget
    rw [run_read, if_neg (by simpa using h.notBlank), verdict_of_ok (h.run _),
      verdict_of_ok (h.failed.run_checkValue ht)]
    rfl
  | source => exact (verdict_discard _).trans (h.verdict_lowerSource hs)
  | clause frame first rest =>
    refine (verdict_discard _).trans ?_
    unfold lowerClauses
    rw [verdict_of_ok (h.run _), verdict_of_ok (h.failed.run_defaultValue ht)]
    exact verdict_of_failed (verdict_planRange hs bad.span) _
  | constant type =>
    refine (verdict_discard _).trans ?_
    unfold lowerConstant
    rw [verdict_of_ok (h.run _), h.failed.constant]
    rfl

end FailsAt

/-! ## Failed values in statements -/

/-- Where a value stands in a statement that begins with it. -/
inductive StatementForm where
  | expression
  | stepped (increment : Bool)
  | sentTo (value : NodeId)
  | assigned (value : NodeId)
  | compound (op : BinaryOp) (value : NodeId)
  /-- The value of a new variable. -/
  | defines (name : NodeId)
  | declares (name : String) (doc : Option String)
  | ranged (key value : Option NodeId) (define : Bool) (body : NodeId)
  | phrase (first : ForClause) (body : NodeId)
  deriving DecidableEq, Repr

namespace StatementForm

def toStmt (id : NodeId) : StatementForm → Stmt
  | expression => .expression id
  | stepped increment => .incDec id increment
  | sentTo value => .send id value
  | assigned value => .assign [id] .plain [value]
  | compound op value => .assign [id] (.compound op) [value]
  | defines name => .assign [name] .define [id]
  | declares name doc => .varDecl ⟨[name], none, [id], doc⟩
  | ranged key value define body => .range key value define id body
  | phrase first body => .forPhrase { first with source := id } body

/-- What there is to be lowered in a statement apart from a value of the invalid type. -/
def rest (walk : Walk) (bad : Operand) (span : Span) : StatementForm → Lower Unit
  | sentTo value => discard (lowerInto walk value TypeTable.invalid)
  | assigned value => discard (lowerSlotValue walk value (some TypeTable.invalid))
  | compound op value => do
    let expected := if op.isShift then none else some TypeTable.invalid
    let value ← walk.expr value (.maybe expected)
    checkValue value
    let _ ← binaryNode op bad.id value.id
    discard (coerceOrDefault value expected)
  | defines name => do
    let name ← definedName name
    if name != Names.blank && !(← get).scopes.isLocal name then return ()
    else fail .noNewVariables span
  | declares name _ => bindNew span name (.variable TypeTable.invalid)
  | expression | stepped _ | ranged .. | phrase .. => return ()

/-- The failure of a statement that is not allowed for a value of the invalid type. -/
def refusal? (bad : Operand) : StatementForm → Option Failure
  | ranged .. | phrase .. => some (.found (.notEnumerable "invalid type") bad.span)
  | _ => none

end StatementForm

theorem run_mapM_single {α β : Type} {f : α → Lower β} {x : α} {b : β}
    (h : f x c s = (.ok b, s₁)) : [x].mapM f c s = (.ok [b], s₁) := by
  rw [List.mapM_cons, run_bind, h]
  rfl

theorem verdict_mapM_single {α β : Type} (f : α → Lower β) (x : α) :
    verdict ([x].mapM f c s) = verdict (f x c s) := by
  rw [List.mapM_cons]
  exact verdict_bind_silent (fun _ _ _ => rfl)

namespace FailsAt

variable (h : FailsAt walk c s id bad s₁) (hs : s₁.types.HasInvalid) (span : Span)

include h hs

theorem verdict_lowerSend (value : NodeId) :
    verdict (lowerSend walk id value span c s) =
      verdict (lowerInto walk value TypeTable.invalid c s₁) := by
  unfold lowerSend
  rw [verdict_of_ok (h.run_lowerByDefault hs)]
  dsimp only
  rw [verdict_of_ok (run_getTypes c s₁), hs.shape]
  dsimp only
  rw [hs.isInvalid, if_pos rfl, pure_bind]
  exact verdict_bind_silent (fun _ _ _ => rfl)

theorem verdict_lowerIncDec (registry : c.registry.get? TypeTable.invalid = none)
    (increment : Bool) :
    verdict (lowerIncDec walk id increment span c s) = (none, s₁.diagnostics) := by
  unfold lowerIncDec
  rw [verdict_of_ok (h.run _), verdict_of_ok (h.failed.run_checkValue hs), run_read,
    h.failed.type, registry, if_neg (by simp), verdict_of_ok (run_basicOf?_invalid hs),
    verdict_of_ok (run_isInvalid hs)]
  rfl

theorem run_lowerTarget :
    lowerTarget walk id c s = (.ok (bad.id, some TypeTable.invalid), s₁) := by
  unfold lowerTarget
  rw [run_read, if_neg (by simpa using h.notBlank), run_bind, h.run]
  dsimp only
  rw [run_bind, h.failed.run_checkValue hs, h.failed.type]
  rfl

theorem verdict_lowerAssign (value : NodeId) :
    verdict (lowerAssign walk [id] [value] span c s) =
      verdict (lowerSlotValue walk value (some TypeTable.invalid) c s₁) := by
  unfold lowerAssign
  rw [verdict_of_ok (run_mapM_single (h.run_lowerTarget hs))]
  refine (verdict_bind_silent (fun _ _ _ => rfl)).trans ?_
  exact (verdict_mapM_single _ _).trans (verdict_map _ _)

theorem verdict_lowerCompound [walk.Keeps extension]
    (registry : c.registry.get? TypeTable.invalid = none) (op : BinaryOp) (value : NodeId) :
    verdict (lowerCompound walk op [id] [value] span c s) =
      verdict ((StatementForm.compound op value).rest walk bad span c s₁) := by
  unfold lowerCompound
  dsimp only [StatementForm.rest]
  rw [verdict_of_ok (h.run _), verdict_of_ok (h.failed.run_checkValue hs), h.failed.type]
  refine verdict_bind_congr (fun o s₂ hvalue => ?_)
  rw [run_read, registry, if_neg (by simp)]
  refine (verdict_bind_of_eq
    (h.failed.run_lowerBinary (hasInvalid_after hs hvalue) op o span) _).trans ?_
  simp only [bind_assoc, pure_bind]
  refine verdict_bind_congr (fun _ s₃ _ => ?_)
  refine verdict_bind_congr (fun _ s₄ _ => ?_)
  exact (verdict_bind_silent (fun _ _ _ => rfl)).trans (verdict_discard _).symm

theorem run_lowerValues :
    lowerValues walk [id] 1 none span c s = (.ok ([bad.id], [TypeTable.invalid]), s₁) := by
  have hvalue : lowerSlotValue walk id none c s = (.ok (bad.id, TypeTable.invalid), s₁) :=
    h.run_lowerByDefault hs
  unfold lowerValues
  rw [if_pos (show ([id].length == 1) = true from rfl), run_bind,
    run_mapM_single (f := (lowerSlotValue walk · none)) hvalue]
  rfl

theorem verdict_lowerDefine (name : NodeId) :
    verdict (lowerDefine walk [name] [id] span c s) =
      verdict ((StatementForm.defines name).rest walk bad span c s₁) := by
  unfold lowerDefine
  dsimp only [StatementForm.rest]
  cases hname : c.unit.identifier? name with
  | none =>
    have hfails (s : State) : verdict (definedName name c s) =
        (some (.found (.unsupportedConstruct
          (c.sources.slice (c.unit.span name) ++ " on the left side of :=")) (c.unit.span name)),
          s.diagnostics) := by
      unfold definedName
      rw [run_read, hname]
      rfl
    rw [verdict_of_failed ((verdict_mapM_single _ _).trans (hfails s)),
      verdict_of_failed (hfails s₁), h.diagnostics_eq]
  | some text =>
    have hdefined (s : State) : definedName name c s = (.ok text, s) := by
      unfold definedName
      rw [run_read, hname]
      rfl
    have hget : (get : Lower State) c s₁ = (.ok s₁, s₁) := rfl
    rw [verdict_of_ok (run_mapM_single (hdefined s)), verdict_of_ok (hdefined s₁),
      List.length_singleton, verdict_of_ok (h.run_lowerValues hs span), verdict_of_ok hget,
      verdict_of_ok hget, List.any_cons, List.any_nil, Bool.or_false]
    split <;> rfl

theorem verdict_lowerLocalValues (name : String) (doc : Option String) :
    verdict (lowerLocalValues walk ⟨[name], none, [id], doc⟩ false span c s) =
      verdict (bindNew span name (.variable TypeTable.invalid) c s₁) := by
  have hspec : lowerValueSpec walk ⟨[name], none, [id], doc⟩ false span c s = (do
      let node ← place (.varDecl ⟨[name], none, [bad.id], doc⟩) span
      return ⟨some node, [(name, .variable TypeTable.invalid)]⟩ : Lower ValueDecl) c s₁ := by
    have htype : (none : Option NodeId).mapM walk.type = pure none := rfl
    unfold lowerValueSpec
    rw [htype, pure_bind, if_neg Bool.false_ne_true]
    unfold lowerVariables
    dsimp only
    rw [List.length_singleton, run_bind, h.run_lowerValues hs span]
    rfl
  have hbind (tree : HostTree) :
      verdict (bindNew span name (.variable TypeTable.invalid) c { s₁ with tree }) =
        verdict (bindNew span name (.variable TypeTable.invalid) c s₁) := by
    unfold bindNew
    rw [run_get, run_get]
    dsimp only
    cases s₁.scopes.define name (.variable TypeTable.invalid) <;> rfl
  unfold lowerLocalValues
  refine (verdict_of_ok (hspec.trans rfl) _).trans ?_
  refine (verdict_bind_silent (fun _ _ _ => rfl)).trans ?_
  change verdict ((bindNew span name (.variable TypeTable.invalid) >>= pure) c _) = _
  rw [bind_pure]
  exact hbind _

theorem verdict_expressionStatement :
    verdict (expressionStatement walk { bad with span } c s₁) = (none, s₁.diagnostics) := by
  have hkind : kindOf bad.id c s₁ = (.ok (s₁.tree.kind bad.id), s₁) := rfl
  unfold expressionStatement
  dsimp only
  rw [verdict_of_ok hkind, h.failed.mode]
  have hbare (called : Lower HostId) : verdict ((do
      if isBareCallable (← getTypes) bad.type then called
      else place (.expression bad.id) span : Lower HostId) c s₁) = (none, s₁.diagnostics) := by
    rw [verdict_of_ok (run_getTypes c s₁), isBareCallable, h.failed.type, hs.signature?]
    rfl
  cases s₁.tree.kind bad.id with
  | call _ _ _ => rfl
  | _ => exact hbare _

end FailsAt

/-- Apart from what is refused, a statement that begins with a failed value reports what the rest
of it reports. -/
theorem FailsAt.verdict_statementForm [walk.Keeps extension] (h : FailsAt walk c s id bad s₁)
    (hs : InvalidIsInert c s₁) (span : Span) (form : StatementForm) :
    verdict (lowerStmtKind walk (form.toStmt id) span c s) =
      match form.refusal? bad with
      | some failure => (some failure, s₁.diagnostics)
      | none => verdict (form.rest walk bad span c s₁) := by
  have ht := hs.types
  have hsome (m : Lower HostId) (s : State) :
      verdict ((do return some (← m) : Lower (Option HostId)) c s) = verdict (m c s) :=
    verdict_bind_silent (fun _ _ _ => rfl)
  cases form with
  | expression =>
    refine (verdict_of_ok (h.run _) _).trans ?_
    exact (hsome _ _).trans (h.verdict_expressionStatement ht span)
  | stepped increment =>
    exact (hsome _ _).trans (h.verdict_lowerIncDec ht span hs.registry increment)
  | sentTo value =>
    exact (hsome _ _).trans ((h.verdict_lowerSend ht span value).trans (verdict_discard _).symm)
  | assigned value =>
    exact (hsome _ _).trans ((h.verdict_lowerAssign ht span value).trans (verdict_discard _).symm)
  | compound op value =>
    exact (hsome _ _).trans (h.verdict_lowerCompound ht span hs.registry op value)
  | defines name => exact (hsome _ _).trans (h.verdict_lowerDefine ht span name)
  | declares name doc => exact h.verdict_lowerLocalValues ht span name doc
  | ranged key value define body =>
    exact (hsome _ _).trans (verdict_of_failed (h.verdict_lowerSource hs) _)
  | phrase first body =>
    exact (hsome _ _).trans (verdict_of_failed (h.verdict_lowerSource hs) _)

/-! ## Reports about uses of failed values -/

/-- How a value is used. -/
inductive ValueUse where
  | operand (form : OperandForm)
  | argument (form : BuiltinForm)
  | inPlace (place : ValuePlace)
  | statement (form : StatementForm)

namespace ValueUse

def lower (walk : Walk) (id : NodeId) (span : Span) (expect : Expectation) :
    ValueUse → Lower Unit
  | operand form => discard (lowerExprKind walk (form.toExpr id) span expect)
  | argument form => discard (form.lower walk id span expect)
  | inPlace place => place.lower walk id span
  | statement form => discard (lowerStmtKind walk (form.toStmt id) span)

/-- What there is to be lowered apart from a value of the invalid type. -/
def rest (walk : Walk) (bad : Operand) (span : Span) : ValueUse → Lower Unit
  | operand form => form.rest walk
  | argument form => form.rest walk
  | inPlace place => place.rest
  | statement form => form.rest walk bad span

/-- The failure of a use that is not allowed for a value of the invalid type. -/
def refusal? (c : Context) (id : NodeId) (bad : Operand) (span : Span) :
    ValueUse → Option Failure
  | operand form => form.refusal? c id bad span
  | argument form => form.refusal? span
  | inPlace place => place.refusal? c id bad
  | statement form => form.refusal? bad

/-- A value of the invalid type is refused by receives, error wraps, iterations, constants, by the
built-in functions that take only slices, maps, channels or complex numbers, and as the head of an
ambiguous command that is no binary operation. -/
def isRefused : ValueUse → Bool
  | operand (.signed op _) => op.asBinary?.isNone
  | operand (.unary .receive) | operand (.wrapped _) => true
  | argument (.append ..) | argument (.delete _) | argument .close | argument (.part _) => true
  | inPlace .source | inPlace (.clause ..) | inPlace (.constant _) => true
  | statement (.ranged ..) | statement (.phrase ..) => true
  | _ => false

theorem isSome_refusal? (c : Context) (id : NodeId) (bad : Operand) (span : Span)
    (use : ValueUse) : (use.refusal? c id bad span).isSome = use.isRefused := by
  cases use with
  | operand form =>
    cases form with
    | signed op operand => cases op <;> rfl
    | unary op => cases op <;> rfl
    | _ => rfl
  | argument form => cases form <;> rfl
  | inPlace place => cases place <;> rfl
  | statement form => cases form <;> rfl

end ValueUse

/-- A declaration that consists of a part reports nothing. -/
def ReportsNothing (part : Lower Unit) (c : Context) (s : State) : Prop :=
  (reporting part c s).2.diagnostics = s.diagnostics

/-- Apart from what is refused, a use of a failed value reports what the rest of it reports. -/
theorem FailsAt.verdict_use [walk.Keeps extension] (h : FailsAt walk c s id bad s₁)
    (hs : InvalidIsInert c s₁) (span : Span) (expect : Expectation) (use : ValueUse) :
    verdict (use.lower walk id span expect c s) =
      match use.refusal? c id bad span with
      | some failure => (some failure, s₁.diagnostics)
      | none => verdict (use.rest walk bad span c s₁) := by
  cases use with
  | operand form => exact (verdict_discard _).trans (h.verdict_operandForm hs span expect form)
  | argument form =>
    exact (verdict_discard _).trans (h.verdict_builtinForm hs.types span expect form)
  | inPlace place => exact h.verdict_valuePlace hs span place
  | statement form => exact (verdict_discard _).trans (h.verdict_statementForm hs span form)

theorem FailsAt.reportsNothing_iff [walk.Keeps extension] (h : FailsAt walk c s id bad s₁)
    (hs : InvalidIsInert c s₁) (span : Span) (expect : Expectation) (use : ValueUse) :
    ReportsNothing (use.lower walk id span expect) c s ↔
      use.isRefused = false ∧ ReportsNothing (use.rest walk bad span) c s₁ := by
  have hverdict := h.verdict_use hs span expect use
  have hrefused := use.isSome_refusal? c id bad span
  unfold ReportsNothing
  rw [diagnostics_reporting, diagnostics_reporting, hverdict, ← hrefused, ← h.diagnostics_eq]
  cases use.refusal? c id bad span with
  | some failure => simp
  | none => simp

end

/-- A reference to a package value whose declaration has failed reports nothing itself, and what is
done with it reports nothing just in case it is none of the uses that refuse a value of the
invalid type and the rest of it reports nothing. -/
theorem reportsNothing_failed_value_iff {c : Context} {s : State} {id : NodeId}
    {height depth : Nat} (reference : FailedReference c s height id) (inert : InvalidIsInert c s)
    (hdepth : height ≤ depth) :
    ∃ bad s₁, (∀ expect, (walkWithin depth).expr id expect c s = (.ok bad, s₁)) ∧
      bad.type = TypeTable.invalid ∧ s₁.diagnostics = s.diagnostics ∧
      ∀ (use : ValueUse) (span : Span) (expect : Expectation),
        ReportsNothing (use.lower (walkWithin depth) id span expect) c s ↔
          use.isRefused = false ∧ ReportsNothing (use.rest (walkWithin depth) bad span) c s₁ := by
  obtain ⟨bad, s₁, h⟩ := reference.failsAt inert hdepth
  exact ⟨bad, s₁, h.run, h.failed.type, h.diagnostics_eq, fun use span expect =>
    h.reportsNothing_iff (h.inert inert) span expect use⟩

/-- `c` and `0`. -/
def failedSample : Context :=
  Context.sample [.expr (.identifier "c"), .expr (.literal .int "0")] []

/-- A state in which the declaration of `c` has failed. -/
def failedSampleState : State :=
  { State.initial failedSample.unit .initial with
    globals := [("c", .value ⟨2⟩)], progress := [(⟨2⟩, .failed)] }

theorem reportsNothing_failed_value_iff_index :
    FailedReference failedSample failedSampleState 2 ⟨0⟩ ∧
      InvalidIsInert failedSample failedSampleState ∧
      ReportsNothing ((ValueUse.operand (.indexed ⟨1⟩)).lower (walkWithin 2) ⟨0⟩ .synthetic .none)
        failedSample failedSampleState ∧
      ¬ ReportsNothing ((ValueUse.operand (.unary .receive)).lower (walkWithin 2) ⟨0⟩ .synthetic
        .none) failedSample failedSampleState := by
  have reference : FailedReference failedSample failedSampleState 2 ⟨0⟩ :=
    @FailedReference.name _ _ _ "c" ⟨2⟩ rfl (by decide) ⟨rfl, rfl, rfl⟩
  have inert : InvalidIsInert failedSample failedSampleState :=
    ⟨TypeTable.hasInvalid_initial, rfl, fun _ => rfl⟩
  obtain ⟨bad, s₁, hrun, -, -, huse⟩ :=
    reportsNothing_failed_value_iff reference inert (Nat.le_refl 2)
  refine ⟨reference, inert, (huse _ _ _).mpr ⟨rfl, ?_⟩, fun h => ?_⟩
  · have hs₁ : s₁ = ((walkWithin 2).expr ⟨0⟩ .none failedSample failedSampleState).2 := by
      rw [hrun]
    change (reporting ((OperandForm.indexed ⟨1⟩).rest (walkWithin 2))
      failedSample s₁).2.diagnostics = s₁.diagnostics
    rw [hs₁]
    decide +kernel
  · cases ((huse _ _ _).mp h).1

/-- A declaration of `c` and `func f() { <-c }` -/
def receiveSample (part : NodeKind) (spec : ValueSpec) : Context :=
  Context.sample
    [.type (.named none "int"), part, .stmt (.varDecl spec), .type (.func [] [] false),
      .expr (.identifier "c"), .expr (.unary .receive ⟨4⟩), .stmt (.expression ⟨5⟩),
      .stmt (.block [⟨6⟩]), .stmt (.function ⟨none, "f", ⟨3⟩, some ⟨7⟩, none⟩)]
    [⟨2⟩, ⟨8⟩]

/-- `var c = d` -/
def failedChannel : Context := receiveSample (.expr (.identifier "d")) ⟨["c"], none, [⟨1⟩], none⟩

/-- `var c chan int` -/
def goodChannel : Context := receiveSample (.type (.chan .both ⟨0⟩)) ⟨["c"], some ⟨1⟩, [], none⟩

/-- A receive that is fine from a channel is reported when the declaration of the channel has
failed, under the batch policy too. -/
theorem receive_from_failed_value_reported :
    (∃ out, lowerUnitWith goodChannel.unit goodChannel.sources ⟨.initial, goodChannel.env⟩
      goodChannel.settings goodChannel.registry = .ok out) ∧
    failedChannel.settings.errorPolicy = .batch ∧ ∃ reports,
      lowerUnitWith failedChannel.unit failedChannel.sources ⟨.initial, failedChannel.env⟩
        failedChannel.settings failedChannel.registry = .error reports ∧
      reports.map (fun report => (report.severity, report.message)) =
        [(.error, "undefined: d"),
          (.error, "invalid operation: operator <- not defined on invalid type")] :=
  ⟨⟨_, lowerUnitWith_ok.mpr ⟨by decide +kernel, rfl⟩⟩, rfl, _,
    lowerUnitWith_error.mpr ⟨by decide +kernel, rfl⟩, by decide +kernel⟩

end GoLowering.Lowering
