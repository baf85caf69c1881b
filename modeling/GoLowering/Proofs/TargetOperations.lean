import GoLowering.Proofs.TypedPlaces

/-!
# Operations on the target of an assignment

What an operator of the host takes on the right of a value of a type, so that the result is of the
type again (`Combines`): an operand that is failed, an amount of a shift, or a value that is brought
to the type. `lowerBinary_of_combines` and `combines_of_lowerBinary` say that these are the operands
with which an operation is lowered, if it is neither a comparison nor a logical one and the type is
not registered.
-/

namespace GoLowering

namespace BinaryOp

/-- The operators that the host has before `=`. -/
def assigns (op : BinaryOp) : Bool := !op.isComparison && !op.isLogical

theorem assigns_iff {op : BinaryOp} :
    op.assigns = true ↔ op.isComparison = false ∧ op.isLogical = false := by
  simp [assigns]

end BinaryOp

namespace Lowering

variable {c : Context} {s s' : State} {op : BinaryOp} {t v x y r : Operand} {type : TypeId}
  {span : Span}

/-! ## Places of types that are not registered -/

/-- An operand that is a value of a type, and not a constant of it. Its values are no values of
registered types, so the type is not registered, either. -/
structure Operand.IsTarget (c : Context) (s : State) (t : Operand) : Prop where
  mode : t.mode = .value
  constant : t.constant = none
  single : ∀ elements, s.types.get t.type ≠ .tuple elements
  valid : s.types.isInvalid t.type = false
  typed : s.types.isUntyped t.type = false
  apart : ∀ registered, (c.registry.get? registered).isSome = true →
    ¬s.assignable c t.type registered

/-- An operand that is untyped and not unbounded if it is `nil`. -/
def Operand.IsUntypedNil (types : TypeTable) (v : Operand) : Prop :=
  v.mode = .nil → types.isUntyped v.type = true ∧ types.isBig v.type = false

/-- An operand that an operator takes on the right of a value of a type, for a result of the type:
anything whose type is invalid, an amount of a shift, or a value that is brought to the type. -/
inductive Combines (c : Context) (s : State) (op : BinaryOp) (type : TypeId) (v : Operand) : Prop
  | invalid (hinvalid : s.types.isInvalid v.type = true)
  | shift {kind : BasicType} (hop : op.isShift = true)
      (hunregistered : c.registry.get? v.type = none) (hkind : s.types.basic? type = some kind)
      (hshiftable : (kind.isInteger || kind == .untypedFloat) = true) (hamount : v.IsAmount s)
  | arithmetic {kind : BasicType} (hop : op.isShift = false)
      (hunregistered : c.registry.get? v.type = none) (hkind : s.types.basic? type = some kind)
      (hdefined : isDefinedOn op kind = true) (htaken : v.IsTaken c s type)
      (hback : s.types.isUntyped v.type = false → s.assignable c type v.type)

/-! ### What is the same elsewhere -/

section

variable {u : State}

theorem Operand.IsTarget.of_alike (h : t.IsTarget c s) (hs : SameTypes s u) (hx : t.Alike x) :
    x.IsTarget c u where
  mode := hx.mode ▸ h.mode
  constant := hx.constant ▸ h.constant
  single := hs.types ▸ hx.type ▸ h.single
  valid := hs.types ▸ hx.type ▸ h.valid
  typed := hs.types ▸ hx.type ▸ h.typed
  apart registered hregistered hassignable :=
    h.apart registered hregistered (hs.assignable_iff.mpr (hx.type ▸ hassignable))

theorem Combines.of_alike (h : Combines c s op type v) (hs : SameTypes s u) (hy : v.Alike y) :
    Combines c u op type y := by
  cases h with
  | invalid hinvalid => exact .invalid (hs.types ▸ hy.type ▸ hinvalid)
  | shift hop hunregistered hkind hshiftable hamount =>
    exact .shift hop (hy.type ▸ hunregistered) (hs.types ▸ hkind) hshiftable
      (hamount.of_alike hs hy)
  | arithmetic hop hunregistered hkind hdefined htaken hback =>
    refine .arithmetic hop (hy.type ▸ hunregistered) (hs.types ▸ hkind) hdefined
      (htaken.of_alike hs hy) (fun htyped => ?_)
    rw [← hs.types, ← hy.type] at htyped
    exact hs.assignable_iff.mp (hy.type ▸ hback htyped)

end

/-! ## Operations on a target -/

/-- Two typed operands that are brought to a basic type are of types that take the values of each
other, and the basic type is that of the left one. -/
theorem unify_typed_basic_ok {common : HostId × HostId × TypeId} {kind : BasicType}
    (hleft : s.types.isUntyped t.type = false) (hright : s.types.isUntyped v.type = false)
    (hkind : s.types.basic? common.2.2 = some kind)
    (hrun : unify t v span c s = (.ok common, s')) :
    s' = s ∧ common.2.2 = t.type ∧ s.assignable c v.type t.type ∧
      s.assignable c t.type v.type := by
  have hplain := TypeTable.isInterface_of_basic? hkind
  unfold unify at hrun
  obtain ⟨_, _, ⟨⟩, hrun⟩ := bind_ok.mp hrun
  rw [hleft, hright] at hrun
  dsimp only at hrun
  rw [run_assignable_bind, run_assignable_bind] at hrun
  split at hrun
  · rename_i hone
    obtain ⟨rfl, rfl⟩ := pure_ok.mp hrun
    refine ⟨rfl, rfl, ?_⟩
    simp only [Bool.or_eq_true, Bool.and_eq_true, beq_iff_eq] at hone
    rcases hone with (hsame | hboth) | ⟨hinterface, -⟩
    · rw [hsame]
      exact ⟨TypeTable.assignable_refl .., TypeTable.assignable_refl ..⟩
    · exact hboth
    · cases hplain.symm.trans hinterface
  · split at hrun
    · rename_i hother
      obtain ⟨rfl, rfl⟩ := pure_ok.mp hrun
      cases hplain.symm.trans (Bool.and_eq_true_iff.mp hother).1
    · exact absurd hrun Fails.fails

namespace Operand.IsTarget

variable (h : t.IsTarget c s)

include h

theorem isSingle : t.IsSingle s.types := ⟨.inl h.mode, h.single⟩

theorem unregistered : c.registry.get? t.type = none := by
  by_contra hregistered
  exact h.apart t.type (Option.isSome_iff_ne_none.mpr hregistered) (TypeTable.assignable_refl ..)

theorem isBig : s.types.isBig t.type = false := isBig_of_typed h.typed

/-- The result of an operation is a value that its type takes. -/
theorem isTaken_result (id : HostId) (span : Span) :
    (Operand.value id t.type span).IsTaken c s t.type where
  mode := rfl
  small := h.isBig
  fits huntyped := by cases h.typed.symm.trans huntyped
  assignable := TypeTable.assignable_refl ..

theorem run_defaultValue : defaultValue t c s = (.ok (t.id, t.type), s) := by
  rw [run_defaultValue_small h.isSingle h.mode h.isBig, if_neg,
    TypeTable.defaultType_of_typed h.typed]
  rw [h.typed]
  rintro ⟨⟨⟩, -⟩

/-! ### Shifts -/

theorem run_lowerShift {kind : BasicType} (hkind : s.types.basic? t.type = some kind)
    (hshiftable : (kind.isInteger || kind == .untypedFloat) = true) (hamount : v.IsAmount s)
    (hsingle : v.IsSingle s.types) : ∃ id s', SameTypes s s' ∧
      lowerShift op t v span c s = (.ok (.value id t.type span), s') := by
  unfold lowerShift
  dsimp only
  rw [run_basicOf?_bind, hkind, Option.any_some, hshiftable, Bool.not_true,
    if_neg Bool.false_ne_true, run_bind, hamount.run_defaultValue hsingle]
  dsimp only
  rw [run_basicOf?_bind, hamount.integer, Bool.not_true, if_neg Bool.false_ne_true, run_bind,
    h.run_defaultValue]
  refine ⟨_, _, ?_, rfl⟩
  exact ⟨rfl, rfl⟩

omit h in
/-- What is shifted, and what it is shifted by. -/
theorem of_lowerShift (hrun : lowerShift op t v span c s = (.ok r, s')) :
    (∃ kind, s.types.basic? t.type = some kind ∧
        (kind.isInteger || kind == .untypedFloat) = true) ∧
      ∃ amount s₁, defaultValue v c s = (.ok amount, s₁) ∧
        (s₁.types.basic? amount.2).any BasicType.isInteger = true := by
  unfold lowerShift at hrun
  dsimp only at hrun
  rw [run_basicOf?_bind] at hrun
  split at hrun
  · exact absurd hrun Fails.fails
  rename_i hshiftable
  obtain ⟨amount, s₁, hamount, hrun⟩ := bind_ok.mp hrun
  rw [run_basicOf?_bind] at hrun
  split at hrun
  · exact absurd hrun Fails.fails
  rename_i hinteger
  rw [Bool.not_eq_true', Bool.not_eq_false] at hshiftable hinteger
  exact ⟨(Option.any_eq_true _ _).mp hshiftable, amount, s₁, hamount, hinteger⟩

omit h in
theorem isAmount_of_lowerShift (hsingle : v.IsSingle s.types)
    (hsmall : s.types.isBig v.type = false) (hrun : lowerShift op t v span c s = (.ok r, s')) :
    v.IsAmount s := by
  obtain ⟨-, amount, s₁, hamount, hinteger⟩ := of_lowerShift hrun
  have hmode := mode_of_defaultValue hamount
  rw [run_defaultValue_small hsingle hmode hsmall] at hamount
  split at hamount
  · exact absurd hamount Fails.fails
  rename_i hfits
  obtain ⟨⟨⟩, rfl⟩ := Prod.mk.inj hamount
  refine ⟨hmode, hsmall, fun huntyped => ?_, hinteger⟩
  by_contra hoverflow
  exact hfits ⟨huntyped, by simpa using hoverflow⟩

/-! ### Arithmetic -/

omit h in
/-- A type on whose values an operator is defined is no interface and has no `nil`. -/
theorem plain_of_isDefinedOn {kind : BasicType} (hkind : s.types.basic? type = some kind)
    (hdefined : isDefinedOn op kind = true) :
    s.types.isInterface type = false ∧ s.types.isNilable type = false := by
  refine ⟨TypeTable.isInterface_of_basic? hkind, ?_⟩
  rw [TypeTable.isNilable_of_basic? hkind]
  revert hdefined
  cases op <;> cases kind <;> decide

theorem run_unify (htaken : v.IsTaken c s t.type) (hsingle : v.IsSingle s.types)
    (hback : s.types.isUntyped v.type = false → s.assignable c t.type v.type) :
    unify t v span c s = (.ok (t.id, v.id, t.type), s) := by
  cases huntyped : s.types.isUntyped v.type with
  | true =>
    rw [run_unify_right h.typed huntyped, run_bind, htaken.run_coerce hsingle h.unregistered]
    rfl
  | false =>
    have hleft : s.types.assignable (fun id name => (s.method? c.env id name).isSome) v.type
        t.type = true := htaken.assignable
    have hright : s.types.assignable (fun id name => (s.method? c.env id name).isSome) t.type
        v.type = true := hback huntyped
    unfold unify
    rw [run_bind, run_getTypes]
    dsimp only
    rw [h.typed, huntyped]
    dsimp only
    rw [run_assignable_bind, run_assignable_bind, hleft, hright]
    simp only [Bool.and_self, Bool.or_true, Bool.true_or, if_true]
    rfl

theorem run_lowerArithmetic {kind : BasicType} (hlogical : op.isLogical = false)
    (hkind : s.types.basic? t.type = some kind) (hdefined : isDefinedOn op kind = true)
    (htaken : v.IsTaken c s t.type) (hsingle : v.IsSingle s.types)
    (hback : s.types.isUntyped v.type = false → s.assignable c t.type v.type) :
    ∃ id s', SameTypes s s' ∧
      lowerArithmetic op t v span c s = (.ok (.value id t.type span), s') := by
  unfold lowerArithmetic
  rw [run_bind, h.run_unify htaken hsingle hback]
  dsimp only
  rw [hlogical, if_neg Bool.false_ne_true, run_basicOf?_bind, hkind, pure_bind, Option.any_some,
    hdefined, if_pos rfl]
  refine ⟨_, _, ?_, rfl⟩
  exact ⟨rfl, rfl⟩

theorem of_lowerArithmetic (hsingle : v.IsSingle s.types)
    (hvalid : s.types.isInvalid v.type = false) (hsmall : s.types.isBig v.type = false)
    (hnil : v.mode = .nil → s.types.isUntyped v.type = true) (hlogical : op.isLogical = false)
    (hrun : lowerArithmetic op t v span c s = (.ok r, s')) :
    ∃ kind, s.types.basic? t.type = some kind ∧ isDefinedOn op kind = true ∧
      v.IsTaken c s t.type ∧
      (s.types.isUntyped v.type = false → s.assignable c t.type v.type) := by
  unfold lowerArithmetic at hrun
  obtain ⟨⟨leftId, rightId, type⟩, s₁, hunify, hrun⟩ := bind_ok.mp hrun
  have hoperates : ∃ kind, s₁.types.basic? type = some kind ∧ isDefinedOn op kind = true := by
    dsimp only at hrun
    rw [hlogical, if_neg Bool.false_ne_true, run_basicOf?_bind, pure_bind] at hrun
    cases hdefined : (s₁.types.basic? type).any (isDefinedOn op) with
    | true => exact (Option.any_eq_true _ _).mp hdefined
    | false =>
      rw [hdefined, if_neg Bool.false_ne_true] at hrun
      exact absurd hrun Fails.fails
  obtain ⟨kind, hkind, hdefined⟩ := hoperates
  cases huntyped : s.types.isUntyped v.type with
  | true =>
    rw [run_unify_right h.typed huntyped] at hunify
    obtain ⟨id, s₂, hcoerce, hunify⟩ := bind_ok.mp hunify
    obtain ⟨⟨⟩, rfl⟩ := pure_ok.mp hunify
    obtain rfl := state_of_coerce hsmall h.unregistered hcoerce
    obtain ⟨hinterface, hnilable⟩ := plain_of_isDefinedOn hkind hdefined
    exact ⟨kind, hkind, hdefined,
      isTaken_of_coerce hsingle hvalid h.valid h.unregistered hinterface hnilable hcoerce, nofun⟩
  | false =>
    have hmode : v.mode = .value :=
      hsingle.mode.resolve_right (fun hmode => by cases huntyped.symm.trans (hnil hmode))
    -- the operator is defined on the common type, so that is no interface: it is that of `t`
    obtain rfl := (unify_typed_ok h.typed huntyped hunify).1
    obtain ⟨-, rfl, hright, hleft⟩ := unify_typed_basic_ok h.typed huntyped hkind hunify
    exact ⟨kind, hkind, hdefined,
      ⟨hmode, hsmall, (fun hother => by cases huntyped.symm.trans hother), hright⟩, fun _ => hleft⟩

/-! ### All operators -/

/-- An operation that a registered type has is none on a target, which is no value of the type. -/
theorem not_lowerRegisteredBinary_ok {registered : TypeId} :
    ¬∃ r s', lowerRegisteredBinary op registered t v span c s = (.ok r, s') := by
  rintro ⟨r, s', hrun⟩
  unfold lowerRegisteredBinary at hrun
  rw [run_read] at hrun
  cases hentry : c.registry.get? registered with
  | none =>
    rw [hentry] at hrun
    exact Fails.fails hrun
  | some entry =>
    cases hmethod : op.method? with
    | none =>
      rw [hentry, hmethod] at hrun
      exact Fails.fails hrun
    | some method =>
      rw [hentry, hmethod] at hrun
      obtain ⟨id, s₁, hcoerce, -⟩ := bind_ok.mp hrun
      have hapart := h.apart registered (by rw [hentry]; rfl)
      have hvalid : s.types.isInvalid registered = false := by
        by_contra hinvalid
        refine hapart ?_
        rw [State.assignable, TypeTable.assignable, eq_true_of_ne_false hinvalid, Bool.or_true,
          if_pos rfl]
      have hok := (coerce_ok_iff h.isSingle h.mode h.valid hvalid).mp ⟨id, s₁, hcoerce⟩
      rw [h.typed, h.isBig, if_neg (by rintro ⟨⟨⟩, -⟩), if_neg Bool.false_ne_true] at hok
      exact hapart hok.2

theorem run_foldBinary? : foldBinary? op t v span c s = (.ok none, s) := by
  have hnone : constantOf? s.types t = none := by rw [constantOf?, h.constant]
  unfold foldBinary?
  rw [run_bind, run_untypedConstant?, hnone]
  dsimp only
  rw [run_bind, run_untypedConstant?]
  rfl

/-- Which registered type an operation on a target is one of. -/
theorem run_operatorType? : operatorType? t v c s =
    (.ok (if (c.registry.get? v.type).isSome then some v.type
      else if s.types.isBig v.type then
        ((s.types.basic? v.type).bind c.registry.defaultFor?).map (·.type)
      else none), s) := by
  unfold operatorType?
  rw [run_read, h.unregistered, Option.isSome_none, if_neg Bool.false_ne_true]
  split
  · rfl
  · rw [run_isUntypedBig_bind, h.isBig, Bool.false_and, if_neg Bool.false_ne_true,
      run_isUntypedBig_bind, h.constant, Option.isNone_none, Bool.and_true]
    split <;> rfl

/-- What is neither unbounded nor registered is operated on by the host. -/
theorem run_lowerBinary (hsingle : v.IsSingle s.types) (hvalid : s.types.isInvalid v.type = false)
    (hunregistered : c.registry.get? v.type = none) (hsmall : s.types.isBig v.type = false) :
    lowerBinary op t v span c s = lowerHostBinary op t v span c s := by
  unfold lowerBinary
  rw [run_bind, h.isSingle.run_checkValue]
  dsimp only
  rw [run_bind, hsingle.run_checkValue]
  dsimp only
  rw [run_isInvalid_bind, run_isInvalid_bind, h.valid, hvalid, Bool.or_false,
    if_neg Bool.false_ne_true, run_bind, h.run_foldBinary?]
  dsimp only
  rw [run_bind, h.run_operatorType?, hunregistered, hsmall]
  rfl

/-- An unbounded value is brought to no type beside a target but one that is registered for it. -/
theorem defaultValue_of_lowerHostBinary (hmode : v.mode = .value)
    (hbig : s.types.isBig v.type = true) (hassigns : op.assigns = true)
    (hrun : lowerHostBinary op t v span c s = (.ok r, s')) :
    ∃ value s₁, defaultValue v c s = (.ok value, s₁) := by
  obtain ⟨hcomparison, hlogical⟩ := BinaryOp.assigns_iff.mp hassigns
  unfold lowerHostBinary at hrun
  split at hrun
  · obtain ⟨-, value, s₁, hvalue, -⟩ := of_lowerShift hrun
    exact ⟨value, s₁, hvalue⟩
  · have huntyped := isUntyped_of_isBig hbig
    rw [hcomparison, if_neg Bool.false_ne_true] at hrun
    unfold lowerArithmetic at hrun
    obtain ⟨_, s₁, hunify, -⟩ := bind_ok.mp hrun
    rw [run_unify_right h.typed huntyped] at hunify
    obtain ⟨id, s₂, hcoerce, -⟩ := bind_ok.mp hunify
    have hok := (coerce_ok_iff (isSingle_of_isUntyped hmode huntyped) hmode
      (isInvalid_of_untyped huntyped) h.valid).mp ⟨id, s₂, hcoerce⟩
    rw [h.unregistered, if_neg (by rintro ⟨-, -, ⟨⟩⟩), if_pos hbig] at hok
    exact hok.2

/-- Nothing that is unbounded or registered goes beside a target. -/
theorem not_lowerBinary_ok (hvalid : s.types.isInvalid v.type = false)
    (hassigns : op.assigns = true) (hother : (c.registry.get? v.type).isSome = true ∨
      v.mode = .value ∧ s.types.isBig v.type = true) :
    ¬∃ r s', lowerBinary op t v span c s = (.ok r, s') := by
  rintro ⟨r, s', hrun⟩
  obtain ⟨hinvalid, -⟩ | ⟨-, hfolded | ⟨-, ⟨registered, -, hcall⟩ | ⟨htype, hhost⟩⟩⟩ :=
    lowerBinary_ok hrun
  · rw [h.valid, hvalid] at hinvalid
    cases hinvalid
  · cases h.run_foldBinary?.symm.trans hfolded
  · exact h.not_lowerRegisteredBinary_ok ⟨r, s', hcall⟩
  · -- the host is left with an unbounded value only if no type is registered for it
    rw [h.run_operatorType?] at htype
    have hnone := Except.ok.inj (Prod.mk.inj htype).1
    split at hnone
    · cases hnone
    rename_i hunregistered
    obtain ⟨hmode, hbig⟩ := hother.resolve_left hunregistered
    rw [if_pos hbig, Option.map_eq_none_iff] at hnone
    have hsingle := isSingle_of_isUntyped hmode (isUntyped_of_isBig hbig)
    obtain ⟨entry, hentry, -⟩ := (defaultValue_big_ok_iff hsingle hmode hbig).mp
      (h.defaultValue_of_lowerHostBinary hmode hbig hassigns hhost)
    cases hnone.symm.trans hentry

/-- What an operator of the host takes beside a target. -/
theorem combines_of_lowerBinary (hassigns : op.assigns = true)
    (hnil : v.IsUntypedNil s.types)
    (hrun : lowerBinary op t v span c s = (.ok r, s')) :
    v.IsSingle s.types ∧ Combines c s op t.type v := by
  obtain ⟨hcomparison, hlogical⟩ := BinaryOp.assigns_iff.mp hassigns
  have hsingle : v.IsSingle s.types := by
    unfold lowerBinary at hrun
    obtain ⟨_, s₁, hleft, hrun⟩ := bind_ok.mp hrun
    obtain ⟨-, rfl⟩ := checkValue_ok_iff.mp hleft
    obtain ⟨_, s₂, hright, -⟩ := bind_ok.mp hrun
    exact (checkValue_ok_iff.mp hright).1
  refine ⟨hsingle, ?_⟩
  cases hvalid : s.types.isInvalid v.type with
  | true => exact .invalid hvalid
  | false =>
    have hother := mt (h.not_lowerBinary_ok hvalid hassigns (v := v)) (not_not.mpr ⟨r, s', hrun⟩)
    obtain ⟨hunregistered, hunbounded⟩ := not_or.mp hother
    rw [Option.not_isSome_iff_eq_none] at hunregistered
    have hsmall : s.types.isBig v.type = false := by
      rcases hsingle.mode with hmode | hmode
      · exact Bool.not_eq_true _ ▸ fun hbig => hunbounded ⟨hmode, hbig⟩
      · exact (hnil hmode).2
    rw [h.run_lowerBinary hsingle hvalid hunregistered hsmall, lowerHostBinary, hcomparison,
      if_neg Bool.false_ne_true] at hrun
    cases hshift : op.isShift with
    | true =>
      rw [hshift, if_pos rfl] at hrun
      obtain ⟨⟨kind, hkind, hshiftable⟩, -⟩ := of_lowerShift hrun
      exact .shift hshift hunregistered hkind hshiftable
        (isAmount_of_lowerShift hsingle hsmall hrun)
    | false =>
      rw [hshift, if_neg Bool.false_ne_true] at hrun
      obtain ⟨kind, hkind, hdefined, htaken, hback⟩ := h.of_lowerArithmetic hsingle hvalid hsmall
        (fun hmode => (hnil hmode).1) hlogical hrun
      exact .arithmetic hshift hunregistered hkind hdefined htaken hback

/-- The result is a value of the type of the target. -/
theorem lowerBinary_of_combines (hassigns : op.assigns = true) (hsingle : v.IsSingle s.types)
    (hcombines : Combines c s op t.type v) : ∃ id s', SameTypes s s' ∧
      lowerBinary op t v span c s = (.ok (.value id t.type span), s') := by
  obtain ⟨hcomparison, hlogical⟩ := BinaryOp.assigns_iff.mp hassigns
  cases hvalid : s.types.isInvalid v.type with
  | true =>
    unfold lowerBinary
    rw [run_bind, h.isSingle.run_checkValue]
    dsimp only
    rw [run_bind, hsingle.run_checkValue]
    dsimp only
    rw [run_isInvalid_bind, run_isInvalid_bind, hvalid, Bool.or_true, if_pos rfl]
    refine ⟨_, _, ?_, rfl⟩
    exact ⟨rfl, rfl⟩
  | false =>
    cases hcombines with
    | invalid hinvalid => cases hvalid.symm.trans hinvalid
    | shift hop hunregistered hkind hshiftable hamount =>
      rw [h.run_lowerBinary hsingle hvalid hunregistered hamount.small, lowerHostBinary, hop,
        if_pos rfl]
      exact h.run_lowerShift hkind hshiftable hamount hsingle
    | arithmetic hop hunregistered hkind hdefined htaken hback =>
      rw [h.run_lowerBinary hsingle hvalid hunregistered htaken.small, lowerHostBinary, hop,
        if_neg Bool.false_ne_true, hcomparison, if_neg Bool.false_ne_true]
      exact h.run_lowerArithmetic hlogical hkind hdefined htaken hsingle hback

end Operand.IsTarget

end Lowering

end GoLowering
