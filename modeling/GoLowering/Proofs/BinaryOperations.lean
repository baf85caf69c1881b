import GoLowering.Proofs.Outcomes
import GoLowering.Proofs.Phases
import GoLowering.Proofs.Situations

/-!
# What a binary operation becomes

Two untyped constants are folded, unless one of them is a string: an unbounded value is a literal
with the text of the operation, any other value an operation on what stands for the operands. All
other operations are those of a registered type or of the host (`lowerBinary_ok`).
-/

namespace GoLowering.Lowering

variable {c : Context}

/-! ## Folding -/

/-- The kind and the value of an untyped constant. -/
def constantOf? (types : TypeTable) (operand : Operand) : Option (BasicType × Constant) :=
  match operand.constant, types.basic? operand.type with
  | some value, some kind =>
    if operand.mode == .value && types.isUntyped operand.type then some (kind, value) else none
  | _, _ => none

theorem run_untypedConstant? (operand : Operand) (c : Context) (s : State) :
    untypedConstant? operand c s = (.ok (constantOf? s.types operand), s) := by
  unfold untypedConstant? constantOf?
  rw [run_bind]
  change (match operand.constant, s.types.basic? operand.type with
    | some value, some kind =>
      (pure (if operand.mode == OperandMode.value && s.types.isUntyped operand.type then some (kind, value)
        else none) : Lower _)
    | _, _ => pure none) c s = _
  cases operand.constant <;> cases s.types.basic? operand.type <;> rfl

/-- What two constants are folded to: an unbounded value is a literal of its own, any other value
is an operation on what stands for the operands. -/
def foldedOperand (op : BinaryOp) (left right : Operand) (kind : BasicType) (value : Constant)
    (span : Span) : Lower (Option Operand) := do
  let id ←
    if kind.isUntypedBig then
      place (.literal (← textAt span)) span
    else do
      let left ← foldedNode left
      let right ← foldedNode right
      place (.binary op left right) span
  return some (Operand.ofConstant id (TypeTable.basic kind) (some value) span)

theorem foldedOperand_ne_none {op : BinaryOp} {left right : Operand} {kind : BasicType}
    {value : Constant} {span : Span} {s s' : State} :
    foldedOperand op left right kind value span c s ≠ (.ok none, s') := by
  intro h
  unfold foldedOperand at h
  dsimp only at h
  split at h
  · obtain ⟨_, _, -, h⟩ := bind_ok.mp h
    obtain ⟨_, _, -, h⟩ := bind_ok.mp h
    cases (pure_ok.mp h).1
  · obtain ⟨_, _, -, h⟩ := bind_ok.mp h
    obtain ⟨_, _, -, h⟩ := bind_ok.mp h
    obtain ⟨_, _, -, h⟩ := bind_ok.mp h
    cases (pure_ok.mp h).1

/-- Two untyped constants are folded unless one of them is a string. -/
theorem foldBinary?_ok {op : BinaryOp} {left right : Operand} {span : Span} {s s' : State}
    {r : Option Operand} (h : foldBinary? op left right span c s = (.ok r, s')) :
    (r = none ∧ s' = s ∧ ∀ leftKind a rightKind b,
      constantOf? s.types left = some (leftKind, a) →
        constantOf? s.types right = some (rightKind, b) → (a.isString || b.isString) = true) ∨
      ∃ leftKind a rightKind b value, constantOf? s.types left = some (leftKind, a) ∧
        constantOf? s.types right = some (rightKind, b) ∧ (a.isString || b.isString) = false ∧
        Constant.foldBinary op a b (leftKind.isUntypedBig || rightKind.isUntypedBig) = .ok value ∧
        foldedOperand op left right (Constant.promote leftKind rightKind value) value span c s =
          (.ok r, s') := by
  unfold foldBinary? at h
  obtain ⟨a, s₁, ha, h⟩ := bind_ok.mp h
  rw [run_untypedConstant?] at ha
  obtain ⟨hva, rfl⟩ := Prod.mk.inj ha
  obtain ⟨b, s₂, hb, h⟩ := bind_ok.mp h
  rw [run_untypedConstant?] at hb
  obtain ⟨hvb, rfl⟩ := Prod.mk.inj hb
  obtain rfl := Except.ok.inj hva
  obtain rfl := Except.ok.inj hvb
  rcases hl : constantOf? s.types left with _ | ⟨leftKind, a⟩
  · rw [hl] at h
    dsimp only at h
    obtain ⟨hnone, hs⟩ := pure_ok.mp h
    exact .inl ⟨hnone.symm, hs.symm, fun _ _ _ _ hl => by cases hl⟩
  rcases hr : constantOf? s.types right with _ | ⟨rightKind, b⟩
  · rw [hl, hr] at h
    dsimp only at h
    obtain ⟨hnone, hs⟩ := pure_ok.mp h
    exact .inl ⟨hnone.symm, hs.symm, fun _ _ _ _ _ hr => by cases hr⟩
  rw [hl, hr] at h
  dsimp only at h
  cases hstring : a.isString || b.isString with
  | true =>
    rw [hstring, if_pos rfl] at h
    obtain ⟨hnone, hs⟩ := pure_ok.mp h
    refine .inl ⟨hnone.symm, hs.symm, ?_⟩
    rintro _ _ _ _ ⟨⟩ ⟨⟩
    exact hstring
  | false =>
    rw [hstring, if_neg Bool.false_ne_true] at h
    cases hfold : Constant.foldBinary op a b (leftKind.isUntypedBig || rightKind.isUntypedBig) with
    | error error =>
      rw [hfold] at h
      exact absurd h Fails.fails
    | ok value =>
      rw [hfold] at h
      exact .inr ⟨leftKind, a, rightKind, b, value, rfl, rfl, hstring, hfold, h⟩

/-! ## Binary operations -/

/-- An operation of the host on two operands. -/
def lowerHostBinary (op : BinaryOp) (left right : Operand) (span : Span) : Lower Operand :=
  if op.isShift then lowerShift op left right span
  else if op.isComparison then lowerComparison op left right span
  else lowerArithmetic op left right span

/-- What a binary operation becomes: an operation as it is written, the folded constant, a call of
a registered operator or an operation of the host. -/
theorem lowerBinary_ok {op : BinaryOp} {left right r : Operand} {span : Span} {s s' : State}
    (h : lowerBinary op left right span c s = (.ok r, s')) :
    ((s.types.isInvalid left.type || s.types.isInvalid right.type) = true ∧
      binaryNode op left.id right.id c s = (.ok r.id, s')) ∨
    (s.types.isInvalid left.type || s.types.isInvalid right.type) = false ∧
      (foldBinary? op left right span c s = (.ok (some r), s') ∨
        foldBinary? op left right span c s = (.ok none, s) ∧
          ((∃ target, operatorType? left right c s = (.ok (some target), s) ∧
              lowerRegisteredBinary op target left right span c s = (.ok r, s')) ∨
            operatorType? left right c s = (.ok none, s) ∧
              lowerHostBinary op left right span c s = (.ok r, s'))) := by
  unfold lowerBinary at h
  obtain ⟨_, s₁, hl, h₁⟩ := bind_ok.mp h
  obtain ⟨_, s₂, hr, h₂⟩ := bind_ok.mp h₁
  obtain rfl := (Reads.ok hr).trans (Reads.ok hl)
  clear h h₁ hl hr
  obtain ⟨_, _, ⟨⟩, h₃⟩ := bind_ok.mp h₂
  obtain ⟨_, _, ⟨⟩, h₄⟩ := bind_ok.mp h₃
  clear h₂ h₃
  cases hinvalid : (s₂.types.isInvalid left.type || s₂.types.isInvalid right.type) with
  | true =>
    rw [hinvalid, if_pos rfl] at h₄
    obtain ⟨id, s₃, hid, h⟩ := bind_ok.mp h₄
    obtain ⟨rfl, rfl⟩ := pure_ok.mp h
    exact .inl ⟨rfl, hid⟩
  | false =>
    rw [hinvalid, if_neg Bool.false_ne_true] at h₄
    refine .inr ⟨rfl, ?_⟩
    obtain ⟨folded, s₃, hfold, h₅⟩ := bind_ok.mp h₄
    cases folded with
    | some folded =>
      obtain ⟨rfl, rfl⟩ := pure_ok.mp h₅
      exact .inl hfold
    | none =>
      obtain rfl : s₃ = s₂ := by
        rcases foldBinary?_ok hfold with ⟨-, hs, -⟩ | ⟨_, _, _, _, _, -, -, -, -, hfolded⟩
        · exact hs
        · exact absurd hfolded foldedOperand_ne_none
      refine .inr ⟨hfold, ?_⟩
      obtain ⟨target, s₄, htarget, h₆⟩ := bind_ok.mp h₅
      obtain rfl := Reads.ok htarget
      cases target with
      | some target => exact .inl ⟨target, htarget, h₆⟩
      | none => exact .inr ⟨htarget, h₆⟩

end GoLowering.Lowering
