import GoLowering.Proofs.InvalidOperands

/-!
# Failed values in expressions

A reference to a package value whose declaration has failed comes to an operand of the invalid type,
and nothing is reported on the way (`FailedReference.failsAt`). An expression that begins with such
an operand, or a call of a built-in function with it as the first argument, is either refused or
reports just what the rest of it reports (`FailsAt.verdict_operandForm`,
`FailsAt.verdict_builtinForm`).
-/

namespace GoLowering.Lowering

open Surface

/-! ## References -/

/-- Nothing is known about the invalid type: no operators and no methods. -/
structure InvalidIsInert (c : Context) (s : State) : Prop where
  types : s.types.HasInvalid
  registry : c.registry.get? TypeTable.invalid = none
  methods : ∀ name, s.method? c.env TypeTable.invalid name = none

/-- Whatever the expression at a node is lowered for, it comes to a failed operand, and nothing
happens apart from nodes that are put out and notes that are taken. -/
structure FailsAt (walk : Walk) (c : Context) (s : State) (id : NodeId) (bad : Operand)
    (s₁ : State) : Prop where
  run : ∀ expect, walk.expr id expect c s = (.ok bad, s₁)
  failed : bad.IsFailed
  notBlank : c.unit.identifier? id ≠ some Names.blank
  state : s₁ = { s with tree := s₁.tree, history := s₁.history }

/-- A name stands for a package value whose declaration has failed. -/
structure NamesFailed (s : State) (name : String) (root : NodeId) : Prop where
  unbound : s.scopes.lookup? name = none
  declared : s.globals.lookup name = some (.value root)
  failed : s.progress.lookup root = some .failed

/-- A name stands for nothing. -/
structure NamesNothing (c : Context) (s : State) (name : String) : Prop where
  unbound : s.scopes.lookup? name = none
  undeclared : s.globals.lookup name = none
  notImported : s.imports.lookup name = none
  unresolved : c.env.resolve? name = none

/-- A name of a package value whose declaration has failed, written as it is or in lower case, or a
part of the value that is reached by members and pointers. The number is a depth at which a walk
gets to the name. -/
inductive FailedReference (c : Context) (s : State) : Nat → NodeId → Prop
  | name {id : NodeId} {name : String} {root : NodeId}
      (expr : c.unit.expr? id = some (.identifier name)) (notBlank : name ≠ Names.blank)
      (names : NamesFailed s name root) : FailedReference c s 2 id
  | exported {id : NodeId} {name : String} {root : NodeId}
      (expr : c.unit.expr? id = some (.identifier name)) (notBlank : name ≠ Names.blank)
      (nothing : NamesNothing c s name) (notExported : Names.isExported name = false)
      (changed : Names.capitalize name ≠ name)
      (names : NamesFailed s (Names.capitalize name) root) : FailedReference c s 2 id
  | grouping {height : Nat} {id inner : NodeId} (expr : c.unit.expr? id = some (.grouping inner))
      (reference : FailedReference c s height inner) : FailedReference c s (height + 1) id
  | member {height : Nat} {id object : NodeId} {name : String}
      (expr : c.unit.expr? id = some (.member object name))
      (reference : FailedReference c s height object) : FailedReference c s (height + 1) id
  | dereference {height : Nat} {id inner : NodeId}
      (expr : c.unit.expr? id = some (.dereference inner))
      (reference : FailedReference c s height inner) : FailedReference c s (height + 1) id

section

variable {walk : Walk} {c : Context} {s s₁ : State} {id : NodeId} {bad : Operand}

namespace FailsAt

theorem diagnostics_eq (h : FailsAt walk c s id bad s₁) : s₁.diagnostics = s.diagnostics := by
  rw [h.state]

theorem inert (h : FailsAt walk c s id bad s₁) (hs : InvalidIsInert c s) :
    InvalidIsInert c s₁ := by
  have hmethod (name : String) :
      s₁.method? c.env TypeTable.invalid name = s.method? c.env TypeTable.invalid name := by
    rw [h.state]
    rfl
  exact ⟨h.state ▸ hs.types, hs.registry, fun name => (hmethod name).trans (hs.methods name)⟩

end FailsAt

theorem lowerExpr_of_expr? {expression : Expr} (h : c.unit.expr? id = some expression)
    (expect : Expectation) :
    lowerExpr walk id expect c s =
      lowerExprKind walk expression (c.unit.span id) expect c s := by
  have hspan : spanOf id c s = (.ok (c.unit.span id), s) := rfl
  unfold lowerExpr
  rw [run_bind, hspan]
  dsimp only
  rw [run_read, h]

/-- A failed operand that is put out as a node. -/
def placeFailed (kind : HostKind) (span : Span) : Lower Operand := do
  return .value (← place kind span) TypeTable.invalid span

theorem run_placeFailed (kind : HostKind) (span : Span) (c : Context) (s : State) :
    ∃ o tree, placeFailed kind span c s = (.ok o, { s with tree }) ∧ o.IsFailed :=
  ⟨_, _, rfl, rfl, rfl, rfl⟩

theorem verdict_placeFailed (kind : HostKind) (span : Span) :
    verdict (placeFailed kind span c s) = (none, s.diagnostics) := rfl

/-- A name of a failed value stands for a value of the invalid type. -/
theorem run_nameOperand?_failed {name : String} {root : NodeId} (names : NamesFailed s name root)
    (depth : Nat) (span : Span) (c : Context) :
    nameOperand? (walkWithin (depth + 1)) name span c s =
      (some <$> placeFailed (.identifier name) span) c
        (s.noting (.valueNeeded root name span (some .failed))) := by
  have hvalue : (walkWithin (depth + 1)).value root name span c s =
      (.ok (), s.noting (.valueNeeded root name span (some .failed))) :=
    run_ensureValue_ended names.failed (by decide)
  have hglobal : globalOperand (walkWithin (depth + 1)) (.value root) name span c s =
      placeFailed (.identifier name) span c
        (s.noting (.valueNeeded root name span (some .failed))) := by
    unfold globalOperand
    dsimp only
    have hunbound : (s.noting (.valueNeeded root name span (some .failed))).scopes.lookup? name =
        none := names.unbound
    rw [run_bind, hvalue]
    dsimp only
    rw [run_get, hunbound]
    rfl
  unfold nameOperand?
  rw [run_get, names.unbound]
  dsimp only
  unfold unboundOperand?
  rw [run_get, names.declared]
  dsimp only
  rw [run_bind, hglobal]
  rfl

theorem run_nameOperand?_nothing {name : String} (nothing : NamesNothing c s name) (walk : Walk)
    (span : Span) : nameOperand? walk name span c s = (.ok none, s) := by
  unfold nameOperand?
  rw [run_get, nothing.unbound]
  dsimp only
  unfold unboundOperand?
  rw [run_get, nothing.undeclared]
  dsimp only
  rw [run_get, nothing.notImported]
  dsimp only
  rw [run_read, nothing.unresolved]
  rfl

theorem run_lowerIdentifier_failed {name : String} {root : NodeId}
    (names : NamesFailed s name root) (notBlank : name ≠ Names.blank) (depth : Nat) (span : Span)
    (c : Context) :
    lowerIdentifier (walkWithin (depth + 1)) name span c s =
      placeFailed (.identifier name) span c
        (s.noting (.valueNeeded root name span (some .failed))) := by
  unfold lowerIdentifier
  rw [if_neg (by simpa using notBlank), run_bind, run_nameOperand?_failed names]
  rfl

/-- A name without a meaning stands for what it stands for in upper case. -/
theorem run_lowerIdentifier_exported {name : String} {root : NodeId}
    (nothing : NamesNothing c s name) (names : NamesFailed s (Names.capitalize name) root)
    (notBlank : name ≠ Names.blank) (notExported : Names.isExported name = false)
    (changed : Names.capitalize name ≠ name) (depth : Nat) (span : Span) :
    lowerIdentifier (walkWithin (depth + 1)) name span c s =
      placeFailed (.identifier (Names.capitalize name)) span c
        (s.noting (.valueNeeded root (Names.capitalize name) span (some .failed))) := by
  unfold lowerIdentifier
  rw [if_neg (by simpa using notBlank), run_bind, run_nameOperand?_nothing nothing]
  dsimp only
  rw [notExported, if_neg (by simpa using changed), run_bind, run_nameOperand?_failed names]
  rfl

/-! ## Operands of expressions -/

namespace FailsAt

variable (h : FailsAt walk c s id bad s₁) (hs : s₁.types.HasInvalid) (span : Span)
  (expect : Expectation)

include h hs

theorem run_lowerGrouping : lowerGrouping walk id span expect c s = (.ok bad, s₁) := by
  unfold lowerGrouping
  rw [run_bind, h.run]
  dsimp only
  rw [h.failed.type, run_bind, run_isInvalid hs]
  dsimp only
  rw [Bool.or_true, if_pos rfl]
  rfl

theorem run_lowerByDefault :
    lowerByDefault walk id c s = (.ok (bad.id, TypeTable.invalid), s₁) := by
  unfold lowerByDefault
  rw [run_bind, h.run]
  exact h.failed.run_defaultValue hs

theorem run_lowerMember (name : String) :
    lowerMember walk id name span expect c s =
      placeFailed (.selector bad.id name) span c s₁ := by
  unfold lowerMember
  rw [run_bind, h.run]
  dsimp only
  rw [h.failed.mode]
  unfold lowerValueMember
  dsimp only
  rw [run_bind, h.failed.run_defaultValue hs]
  change (if s₁.types.isInvalid TypeTable.invalid then
    placeFailed (.selector bad.id name) span else _ : Lower Operand) c s₁ = _
  rw [if_pos hs.isInvalid]

theorem run_lowerDereference :
    lowerDereference walk id span c s = placeFailed (.dereference bad.id) span c s₁ := by
  unfold lowerDereference
  rw [run_bind, h.run]
  dsimp only
  rw [h.failed.mode, if_neg (by decide), run_bind, h.failed.run_checkValue hs]
  dsimp only
  rw [run_bind, run_getTypes]
  dsimp only
  rw [h.failed.type, hs.shape]
  rfl

end FailsAt

/-- An expression that is put out as a failed operand fails wherever it stands. -/
theorem failsAt_of_placeFailed {depth : Nat} {expression : Expr} {kind : HostKind} {s₀ : State}
    (expr : c.unit.expr? id = some expression) (notBlank : expression ≠ .identifier Names.blank)
    (run : ∀ expect, lowerExprKind (walkWithin depth) expression (c.unit.span id) expect c s =
      placeFailed kind (c.unit.span id) c s₀)
    (state : s₀ = { s with tree := s₀.tree, history := s₀.history }) :
    ∃ bad s₁, FailsAt (walkWithin (depth + 1)) c s id bad s₁ := by
  obtain ⟨o, tree, hplace, ho⟩ := run_placeFailed kind (c.unit.span id) c s₀
  refine ⟨o, { s₀ with tree }, fun expect => ?_, ho, fun hblank => notBlank ?_, ?_⟩
  · exact (lowerExpr_of_expr? expr expect).trans ((run expect).trans hplace)
  · unfold SourceUnit.identifier? at hblank
    rw [expr] at hblank
    split at hblank
    · rename_i name hname
      rw [Option.some.inj hname, Option.some.inj hblank]
    · cases hblank
  · rw [state]

/-- A reference to a failed value comes to a failed operand. -/
theorem FailedReference.failsAt {height depth : Nat} (h : FailedReference c s height id)
    (hs : InvalidIsInert c s) (hdepth : height ≤ depth) :
    ∃ bad s₁, FailsAt (walkWithin depth) c s id bad s₁ := by
  induction h generalizing depth with
  | @name id name root expr notBlank names =>
    obtain ⟨depth, rfl⟩ := Nat.exists_eq_add_of_le' hdepth
    have run := run_lowerIdentifier_failed names notBlank depth (c.unit.span id) c
    exact failsAt_of_placeFailed expr (by simpa using notBlank) (fun _ => run) rfl
  | @exported id name root expr notBlank nothing notExported changed names =>
    obtain ⟨depth, rfl⟩ := Nat.exists_eq_add_of_le' hdepth
    have run := run_lowerIdentifier_exported nothing names notBlank notExported changed depth
      (c.unit.span id)
    exact failsAt_of_placeFailed expr (by simpa using notBlank) (fun _ => run) rfl
  | grouping expr reference ih =>
    obtain ⟨depth, rfl⟩ := Nat.exists_eq_add_of_le' hdepth
    obtain ⟨bad, s₁, inner⟩ := ih (Nat.le_add_left _ depth)
    refine ⟨bad, s₁, fun expect => ?_, inner.failed, ?_, inner.state⟩
    · exact (lowerExpr_of_expr? expr expect).trans
        (inner.run_lowerGrouping (inner.inert hs).types _ _)
    · simp [SourceUnit.identifier?, expr]
  | member expr reference ih =>
    obtain ⟨depth, rfl⟩ := Nat.exists_eq_add_of_le' hdepth
    obtain ⟨bad, s₁, object⟩ := ih (Nat.le_add_left _ depth)
    exact failsAt_of_placeFailed expr (by simp)
      (fun expect => object.run_lowerMember (object.inert hs).types _ expect _) object.state
  | dereference expr reference ih =>
    obtain ⟨depth, rfl⟩ := Nat.exists_eq_add_of_le' hdepth
    obtain ⟨bad, s₁, inner⟩ := ih (Nat.le_add_left _ depth)
    exact failsAt_of_placeFailed expr (by simp)
      (fun _ => inner.run_lowerDereference (inner.inert hs).types _) inner.state

/-! ## Failed values in expressions -/

/-- Where a value stands in an expression that begins with it. -/
inductive OperandForm where
  | grouped
  | selected (name : String)
  | called (args : List NodeId) (spread : Bool)
  | commanded (args : List NodeId)
  | signed (op : UnaryOp) (operand : NodeId)
  | indexed (index : NodeId)
  | sliced (low high max : Option NodeId)
  | asserted (type : NodeId)
  | dereferenced
  | unary (op : UnaryOp)
  | left (op : BinaryOp) (right : NodeId)
  | wrapped (policy : WrapPolicy)
  deriving DecidableEq, Repr

namespace OperandForm

/-- The expression of a form around a value. -/
def toExpr (id : NodeId) : OperandForm → Expr
  | grouped => .grouping id
  | selected name => .member id name
  | called args spread => .call id args spread
  | commanded args => .command id args
  | signed op operand => .ambiguousCommand id op operand
  | indexed index => .index id index
  | sliced low high max => .slice id low high max
  | asserted type => .typeAssertion id (some type)
  | dereferenced => .dereference id
  | unary op => .unary op id
  | left op right => .binary op id right
  | wrapped policy => .errorWrap id policy

/-- What there is to be lowered in an expression apart from a value of the invalid type. -/
def rest (walk : Walk) : OperandForm → Lower Unit
  | called args _ | commanded args => discard (args.mapM (walk.expr · .none))
  | signed _ right | left _ right => do checkValue (← walk.expr right .none)
  | indexed index => discard (lowerByDefault walk index)
  | sliced low high max => do
    let _ ← low.mapM (lowerPosition walk)
    let _ ← high.mapM (lowerPosition walk)
    let _ ← max.mapM (lowerPosition walk)
  | asserted type => discard (walk.type type)
  | grouped | selected _ | dereferenced | unary _ | wrapped _ => return ()

/-- The failure of an expression that is not allowed for a value of the invalid type. -/
def refusal? (c : Context) (id : NodeId) (bad : Operand) (span : Span) :
    OperandForm → Option Failure
  | signed op _ =>
    if op.asBinary?.isSome then none
    else some (.found (.notCallable (c.sources.slice bad.span)) bad.span)
  | unary .receive =>
    some (.found (.invalidOperation UnaryOp.receive.symbol "invalid type") span)
  | wrapped _ =>
    some (.found (.missingErrorResult (c.sources.slice (c.unit.span id))) bad.span)
  | _ => none

end OperandForm

theorem run_hasUnary (op : UnaryOp) (type : TypeId) (c : Context) (s : State) :
    ∃ defined, hasUnary op type c s = (.ok defined, s) := by
  cases op <;> exact ⟨_, rfl⟩

namespace FailsAt

section

variable (h : FailsAt walk c s id bad s₁) (hs : s₁.types.HasInvalid) (span : Span)
  (expect : Expectation)

include h hs

theorem verdict_lowerCall (args : List NodeId) (spread : Bool) :
    verdict (lowerCall walk id args spread span expect c s) =
      verdict (args.mapM (walk.expr · .none) c s₁) := by
  unfold lowerCall
  rw [verdict_of_ok (h.run _)]
  unfold callOperand
  rw [h.failed.mode]
  dsimp only
  rw [h.failed.type, verdict_of_ok (run_isInvalid hs), if_pos rfl, List.mapM_map]
  exact verdict_bind_silent (fun _ _ _ => rfl)

theorem verdict_lowerTypeAssertion (type : NodeId) :
    verdict (lowerTypeAssertion walk id (some type) span c s) = verdict (walk.type type c s₁) := by
  unfold lowerTypeAssertion
  dsimp only
  rw [verdict_of_ok (h.run _), verdict_of_ok (h.failed.run_checkValue hs)]
  change verdict ((if s₁.types.isInterface bad.type || s₁.types.isInvalid bad.type then do
      let target ← walk.type type
      let id ← place (.typeAssert bad.id (some target)) span
      return { Operand.value id target span with commaOk := true }
    else _ : Lower Operand) c s₁) = _
  rw [h.failed.type, hs.isInvalid, Bool.or_true, if_pos rfl]
  exact verdict_bind_silent (fun _ _ _ => rfl)

/-- An operator other than that of a receive is put before a failed operand. -/
theorem verdict_lowerUnary (registry : c.registry.get? TypeTable.invalid = none) {op : UnaryOp}
    (hop : op ≠ .receive) :
    verdict (lowerUnary walk op id span expect c s) = (none, s₁.diagnostics) := by
  have hoperand (op : UnaryOp) :
      verdict (lowerUnaryOperand op bad span c s₁) = (none, s₁.diagnostics) := by
    obtain ⟨defined, hdefined⟩ := run_hasUnary op TypeTable.invalid c s₁
    unfold lowerUnaryOperand
    rw [verdict_of_ok (h.failed.run_checkValue hs), verdict_of_ok (run_getTypes c s₁),
      h.failed.constant, h.failed.type]
    dsimp only
    rw [run_read, registry, if_neg (by simp), verdict_of_ok hdefined, hs.isInvalid, Bool.true_or,
      if_pos rfl]
    rfl
  unfold lowerUnary
  cases op with
  | receive => exact absurd rfl hop
  | addressOf =>
    dsimp only
    unfold lowerAddressOf
    rw [verdict_of_ok (run_getTypes c s), verdict_of_ok (h.run _),
      verdict_of_ok (h.failed.run_checkValue hs)]
    rfl
  | not | negate | plus | bitNot =>
    dsimp only
    rw [verdict_of_ok (h.run _)]
    exact hoperand _

theorem verdict_lowerReceive :
    verdict (lowerReceive walk id span c s) =
      (some (.found (.invalidOperation UnaryOp.receive.symbol "invalid type") span),
        s₁.diagnostics) := by
  unfold lowerReceive
  rw [verdict_of_ok (h.run _), verdict_of_ok (h.failed.run_checkValue hs)]
  dsimp only
  rw [verdict_of_ok (run_getTypes c s₁), h.failed.type, hs.shape]
  dsimp only
  exact verdict_failOperation hs _ _

/-- A failed value does not return an error. -/
theorem verdict_lowerErrorWrap (policy : WrapPolicy) :
    verdict (lowerErrorWrap walk id policy span c s) =
      (some (.found (.missingErrorResult (c.sources.slice (c.unit.span id))) bad.span),
        s₁.diagnostics) := by
  have hcall : lowerWrappedCall walk id c s = (.ok bad, s₁) := by
    unfold lowerWrappedCall
    rw [run_read]
    split
    · exact h.run _
    · rw [run_bind, h.run]
      dsimp only
      rw [run_bind, run_getTypes, h.failed.mode, h.failed.type]
      dsimp only
      rw [hs.signature?]
      rfl
  unfold lowerErrorWrap
  rw [verdict_of_ok hcall]
  have htext : textOf id c s₁ = (.ok (c.sources.slice (c.unit.span id)), s₁) := rfl
  rw [verdict_of_ok htext, verdict_of_ok (run_getTypes c s₁), h.failed.type, hs.resultsOf]
  rfl

end

section

variable [walk.Keeps extension] (h : FailsAt walk c s id bad s₁) (hs : s₁.types.HasInvalid)
  (span : Span) (expect : Expectation)

include h hs

theorem verdict_lowerBinary (op : BinaryOp) (right : NodeId) :
    verdict ((do lowerBinary op bad (← walk.expr right .none) span) c s₁) =
      verdict ((do checkValue (← walk.expr right .none)) c s₁) :=
  verdict_bind_congr (fun o _ hright =>
    h.failed.verdict_lowerBinary_left (hasInvalid_after hs hright) op o span)

/-- A failed head of an ambiguous command is the left operand of a binary operation. -/
theorem verdict_lowerAmbiguousCommand (op : UnaryOp) (operand : NodeId) :
    verdict (lowerAmbiguousCommand walk id op operand span expect c s) =
      match (OperandForm.signed op operand).refusal? c id bad span with
      | some failure => (some failure, s₁.diagnostics)
      | none => verdict ((do checkValue (← walk.expr operand .none)) c s₁) := by
  have hcallable : isCallable bad c s₁ = (.ok false, s₁) := by
    unfold isCallable
    rw [h.failed.mode]
    dsimp only
    rw [run_bind, run_getTypes, h.failed.type]
    dsimp only
    rw [hs.signature?]
    rfl
  unfold lowerAmbiguousCommand
  rw [verdict_of_ok (h.run _), verdict_of_ok hcallable, if_neg Bool.false_ne_true]
  unfold OperandForm.refusal?
  dsimp only
  cases op.asBinary? with
  | some binary => exact h.verdict_lowerBinary hs span binary operand
  | none => rfl

theorem verdict_lowerIndex (index : NodeId) :
    verdict (lowerIndex walk id index span c s) =
      verdict (lowerByDefault walk index c s₁) := by
  unfold lowerIndex
  rw [verdict_of_ok (h.run _), verdict_of_ok (h.failed.run_checkValue hs)]
  have hcontainer : containerOf s₁.types bad.type = TypeTable.invalid := by
    rw [containerOf, h.failed.type, hs.shape]
    exact hs.underlying
  rw [verdict_of_ok (run_getTypes c s₁)]
  dsimp only
  rw [hcontainer, hs.get]
  dsimp only
  simp only [pure_bind]
  refine verdict_bind_silent (fun value s₂ hindex => ?_)
  rw [verdict_of_ok (h.failed.run_defaultValue (hasInvalid_after hs hindex))]
  rfl

theorem verdict_lowerSlice (low high max : Option NodeId) :
    verdict (lowerSlice walk id low high max span c s) =
      verdict ((OperandForm.sliced low high max).rest walk c s₁) := by
  unfold lowerSlice
  rw [verdict_of_ok (h.run _), verdict_of_ok (h.failed.run_checkValue hs)]
  have hsliced : slicedType? bad.type c s₁ = (.ok (some TypeTable.invalid), s₁) := by
    unfold slicedType?
    rw [run_bind, run_getTypes]
    dsimp only
    rw [h.failed.type, hs.shape]
    rfl
  rw [verdict_of_ok hsliced]
  dsimp only [OperandForm.rest]
  refine verdict_bind_congr (fun low s₂ hlow => ?_)
  refine verdict_bind_congr (fun high s₃ hhigh => ?_)
  refine verdict_bind_congr (fun max s₄ hmax => ?_)
  have hs₄ := hasInvalid_after (hasInvalid_after (hasInvalid_after hs hlow) hhigh) hmax
  rw [verdict_of_ok (h.failed.run_defaultValue hs₄)]
  rfl

end

/-- Apart from what is refused, an expression around a failed value reports what the rest of it
reports. -/
theorem verdict_operandForm [walk.Keeps extension] (h : FailsAt walk c s id bad s₁)
    (hs : InvalidIsInert c s₁) (span : Span) (expect : Expectation) (form : OperandForm) :
    verdict (lowerExprKind walk (form.toExpr id) span expect c s) =
      match form.refusal? c id bad span with
      | some failure => (some failure, s₁.diagnostics)
      | none => verdict (form.rest walk c s₁) := by
  have ht := hs.types
  cases form with
  | grouped => exact congrArg verdict (h.run_lowerGrouping ht span expect)
  | selected name =>
    exact (congrArg verdict (h.run_lowerMember ht span expect name)).trans
      (verdict_placeFailed _ _)
  | called args spread =>
    exact (h.verdict_lowerCall ht span expect args spread).trans (verdict_discard _).symm
  | commanded args =>
    exact (h.verdict_lowerCall ht span expect args false).trans (verdict_discard _).symm
  | signed op operand => exact h.verdict_lowerAmbiguousCommand ht span expect op operand
  | indexed index => exact (h.verdict_lowerIndex ht span index).trans (verdict_discard _).symm
  | sliced low high max => exact h.verdict_lowerSlice ht span low high max
  | asserted type =>
    exact (h.verdict_lowerTypeAssertion ht span type).trans (verdict_discard _).symm
  | dereferenced =>
    exact (congrArg verdict (h.run_lowerDereference ht span)).trans (verdict_placeFailed _ _)
  | unary op =>
    cases op with
    | receive => exact h.verdict_lowerReceive ht span
    | not | negate | plus | bitNot | addressOf =>
      exact h.verdict_lowerUnary ht span expect hs.registry (by decide)
  | left op right =>
    exact (verdict_of_ok (h.run _) _).trans (h.verdict_lowerBinary ht span op right)
  | wrapped policy => exact h.verdict_lowerErrorWrap ht span policy

end FailsAt

/-! ## Failed values as arguments of built-in functions -/

/-- A call of a built-in function with a value as its first argument. -/
inductive BuiltinForm where
  | length (capacity : Bool)
  | append (others : List NodeId) (spread : Bool)
  | delete (key : NodeId)
  | close
  | copy (source : NodeId)
  | panic
  | complex (imaginary : NodeId)
  | part (imaginary : Bool)
  deriving DecidableEq, Repr

namespace BuiltinForm

def function : BuiltinForm → Builtin
  | length capacity => if capacity then .cap else .len
  | append .. => .append
  | delete _ => .delete
  | close => .close
  | copy _ => .copy
  | panic => .panic
  | complex _ => .complex
  | part imaginary => if imaginary then .imag else .real

def others : BuiltinForm → List NodeId
  | length _ | close | panic | part _ => []
  | append others _ => others
  | delete other | copy other | complex other => [other]

def spread : BuiltinForm → Bool
  | append _ spread => spread
  | _ => false

/-- A call with a value as its first argument. -/
def lower (walk : Walk) (form : BuiltinForm) (id : NodeId) (span : Span) (expect : Expectation) :
    Lower (List HostId × List TypeId) :=
  lowerBuiltinParts walk form.function (.node id :: form.others.map .node) form.spread span expect

/-- What there is to be lowered apart from a first argument of the invalid type. -/
def rest (walk : Walk) : BuiltinForm → Lower Unit
  | copy other | complex other => discard (lowerByDefault walk other)
  | _ => return ()

/-- The failure of a call that is not allowed for a value of the invalid type. -/
def refusal? (span : Span) (form : BuiltinForm) : Option Failure :=
  match form with
  | append .. | delete _ | close | part _ =>
    some (.found (.invalidOperation form.function.name "invalid type") span)
  | length _ | copy _ | panic | complex _ => none

end BuiltinForm

namespace FailsAt

variable (h : FailsAt walk c s id bad s₁) (hs : s₁.types.HasInvalid) (span : Span)
  (expect : Expectation)

include h hs

theorem run_argumentByDefault :
    argumentByDefault walk (.node id) c s = (.ok (bad.id, TypeTable.invalid), s₁) :=
  h.run_lowerByDefault hs

/-- Apart from what is refused, a call of a built-in function with a failed argument reports what
its other argument reports. -/
theorem verdict_builtinForm (form : BuiltinForm) :
    verdict (form.lower walk id span expect c s) =
      match form.refusal? span with
      | some failure => (some failure, s₁.diagnostics)
      | none => verdict (form.rest walk c s₁) := by
  have hdefault := h.run_argumentByDefault hs
  have hlength (capacity : Bool) : hasLength s₁.types TypeTable.invalid capacity = true := by
    rw [hasLength, hs.shape]
  cases form with
  | length capacity =>
    cases capacity <;>
    · refine (verdict_of_ok hdefault _).trans ?_
      dsimp only
      rw [verdict_of_ok (run_getTypes c s₁), hlength, if_pos rfl]
      rfl
  | append others spread =>
    refine (verdict_of_ok (h.run _) _).trans ?_
    dsimp only
    rw [verdict_of_ok (run_getTypes c s₁), h.failed.type, hs.shape]
    dsimp only
    exact verdict_failOperation hs _ _
  | delete key =>
    refine (verdict_of_ok hdefault _).trans ?_
    dsimp only
    rw [verdict_of_ok (run_getTypes c s₁), hs.shape]
    dsimp only
    exact verdict_failOperation hs _ _
  | close =>
    refine (verdict_of_ok hdefault _).trans ?_
    dsimp only
    rw [verdict_of_ok (run_getTypes c s₁), hs.shape]
    dsimp only
    exact verdict_failOperation hs _ _
  | copy source =>
    refine (verdict_of_ok hdefault _).trans ?_
    exact (verdict_bind_silent (fun _ _ _ => rfl)).trans (verdict_discard _).symm
  | panic =>
    have hinto : argumentInto walk (.node id) TypeTable.any c s = (.ok bad.id, s₁) := by
      unfold argumentInto lowerArgument
      dsimp only
      rw [run_bind, h.run]
      exact h.failed.run_coerce hs _
    exact verdict_of_ok hinto _
  | complex imaginary =>
    refine (verdict_of_ok hdefault _).trans ?_
    exact (verdict_bind_silent (fun _ _ _ => rfl)).trans (verdict_discard _).symm
  | part imaginary =>
    cases imaginary <;>
    · refine (verdict_of_ok hdefault _).trans ?_
      dsimp only
      rw [verdict_of_ok (run_basicOf?_invalid hs)]
      dsimp only
      exact verdict_failOperation hs _ _

end FailsAt

end

end GoLowering.Lowering
