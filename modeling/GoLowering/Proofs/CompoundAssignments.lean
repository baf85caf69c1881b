import GoLowering.Proofs.FailedOperands
import GoLowering.Proofs.RegisteredOperations
import GoLowering.Proofs.TargetOperations
import GoLowering.Proofs.WrappedOperands

/-!
# Compound assignments

An assignment `x op= y` is lowered if `x op y` is an operation and `y` can be taken as a value of
the type of `x`, and `x = x op y` if `x op y` is an operation whose result can be. For the operators
that the host has before `=`, what goes beside `x` is the same for both, but `y` is read with a type
in the first one and without in the second (`lowersCompound_iff`, `lowersAssign_iff`). Nothing asks
whether the operator is one of these: comparisons and logical operations are accepted as
assignments, too (`compoundSound_iff`).
-/

namespace GoLowering

namespace AssignOp

/-- The assignments with an operator that the host has. -/
def hostSymbols : List String :=
  ["+=", "-=", "*=", "/=", "%=", "&=", "|=", "^=", "&^=", "<<=", ">>="]

theorem symbol_mem_hostSymbols_iff {op : BinaryOp} :
    (compound op).symbol ∈ hostSymbols ↔ op.assigns = true := by
  cases op <;> decide +kernel

end AssignOp

namespace Lowering

open Surface

variable {c : Context} {s s' s₁ s₂ : State} {op : BinaryOp} {t v x y : Operand} {type : TypeId}
  {span : Span}

/-! ## Right sides -/

/-- The type that is expected on the right of an assignment with an operator. -/
def rightType? (op : BinaryOp) (t : Operand) : Option TypeId :=
  if op.isShift then none else some t.type

/-- What is `nil` is untyped. -/
theorem isUntypedNil_of_fitsMode (hbasics : s.types.HasBasics) (hfits : v.FitsMode s.types) :
    v.IsUntypedNil s.types := by
  intro hnil
  rw [Operand.FitsMode, hnil] at hfits
  have hget : s.types.get v.type = .basic .untypedNil := by
    rw [hfits]
    exact hbasics _
  exact ⟨TypeTable.isUntyped_of_get hget, isBig_eq hget⟩

/-- What goes beside a target is taken for the right side of an assignment to it. -/
theorem Combines.run_coerceOrDefault (h : Combines c s op t.type v) (hsingle : v.IsSingle s.types)
    (hnil : v.IsUntypedNil s.types)
    (hunregistered : c.registry.get? t.type = none) :
    ∃ value, coerceOrDefault v (rightType? op t) c s = (.ok value, s) := by
  unfold rightType?
  cases h with
  | invalid hinvalid =>
    have htyped : s.types.isUntyped v.type = false := by
      by_contra huntyped
      cases (isInvalid_of_untyped (by simpa using huntyped)).symm.trans hinvalid
    have hmode : v.mode = .value :=
      hsingle.mode.resolve_right (fun hmode => by cases htyped.symm.trans (hnil hmode).1)
    split
    · refine ⟨(v.id, s.types.defaultType v.type), ?_⟩
      change defaultValue v c s = _
      rw [Operand.run_defaultValue_small hsingle hmode (isBig_of_typed htyped), if_neg]
      rintro ⟨huntyped, -⟩
      cases htyped.symm.trans huntyped
    · exact ⟨(v.id, t.type), bind_ok.mpr ⟨v.id, s, v.run_coerce_of_isInvalid hsingle hinvalid, rfl⟩⟩
  | shift hop _ _ _ hamount =>
    rw [hop, if_pos rfl]
    exact ⟨_, hamount.run_defaultValue hsingle⟩
  | arithmetic hop _ _ _ htaken _ =>
    rw [hop, if_neg Bool.false_ne_true]
    exact ⟨(v.id, t.type), bind_ok.mpr ⟨v.id, s, htaken.run_coerce hsingle hunregistered, rfl⟩⟩

namespace Operand.IsTarget

/-- When `t op v` is an operation and `v` is of use as the right side of `t op= v`. -/
theorem compound_ok_iff (h : t.IsTarget c s) (hassigns : op.assigns = true)
    (hnil : v.IsUntypedNil s.types) :
    (∃ r s₁, lowerBinary op t v span c s = (.ok r, s₁) ∧
        ∃ value s', coerceOrDefault v (rightType? op t) c s₁ = (.ok value, s')) ↔
      v.IsSingle s.types ∧ Combines c s op t.type v := by
  constructor
  · rintro ⟨r, s₁, hbinary, -⟩
    exact h.combines_of_lowerBinary hassigns hnil hbinary
  · rintro ⟨hsingle, hcombines⟩
    obtain ⟨id, s₁, hs, hbinary⟩ :=
      h.lowerBinary_of_combines hassigns hsingle hcombines
    obtain ⟨value, hvalue⟩ := (hcombines.of_alike hs ⟨rfl, rfl, rfl⟩).run_coerceOrDefault
      (hs.types ▸ hsingle) (hs.types ▸ hnil) h.unregistered
    exact ⟨_, s₁, hbinary, value, s₁, hvalue⟩

/-- When `t op v` is an operation with a result that is of use in `t = t op v`. -/
theorem plain_ok_iff (h : t.IsTarget c s) (hassigns : op.assigns = true)
    (hnil : v.IsUntypedNil s.types) :
    (∃ r s₁, lowerBinary op t v span c s = (.ok r, s₁) ∧
        ∃ value s', coerce r t.type c s₁ = (.ok value, s')) ↔
      v.IsSingle s.types ∧ Combines c s op t.type v := by
  constructor
  · rintro ⟨r, s₁, hbinary, -⟩
    exact h.combines_of_lowerBinary hassigns hnil hbinary
  · rintro ⟨hsingle, hcombines⟩
    obtain ⟨id, s₁, hs, hbinary⟩ :=
      h.lowerBinary_of_combines hassigns hsingle hcombines
    have htarget := h.of_alike hs ⟨rfl, rfl, rfl⟩
    have hresult := (htarget.isTaken_result id span).run_coerce
      ⟨.inl rfl, htarget.single⟩ h.unregistered
    exact ⟨_, s₁, hbinary, id, s₁, hresult⟩

end Operand.IsTarget

section

variable {walk : Walk} {a b bin : NodeId} {id : HostId}

/-- Whether `a op= b` is lowered. -/
def LowersCompound (walk : Walk) (c : Context) (s : State) (op : BinaryOp) (a b : NodeId)
    (span : Span) : Prop :=
  ∃ id s', lowerCompound walk op [a] [b] span c s = (.ok id, s')

/-- Whether `a = b` is lowered. -/
def LowersAssign (walk : Walk) (c : Context) (s : State) (a b : NodeId) (span : Span) : Prop :=
  ∃ id s', lowerAssign walk [a] [b] span c s = (.ok id, s')

/-- What becomes of the sides of an assignment with an operator once they are lowered. -/
theorem lowerCompound_ok_iff (hleft : walk.expr a .none c s = (.ok t, s₁))
    (hsingle : t.IsSingle s₁.types)
    (hright : walk.expr b (.maybe (rightType? op t)) c s₁ = (.ok v, s₂))
    (hunregistered : c.registry.get? t.type = none) :
    LowersCompound walk c s op a b span ↔
      ∃ r s₃, lowerBinary op t v span c s₂ = (.ok r, s₃) ∧
        ∃ value s', coerceOrDefault v (rightType? op t) c s₃ = (.ok value, s') := by
  unfold rightType? at hright ⊢
  unfold LowersCompound lowerCompound
  dsimp only
  rw [run_bind, hleft]
  dsimp only
  rw [run_bind, hsingle.run_checkValue]
  dsimp only
  rw [run_bind, hright]
  dsimp only
  rw [run_read, hunregistered, Option.isSome_none, if_neg Bool.false_ne_true]
  constructor
  · rintro ⟨id, s', hrun⟩
    obtain ⟨r, s₃, hbinary, hrun⟩ := bind_ok.mp hrun
    obtain ⟨value, s₄, hvalue, -⟩ := bind_ok.mp hrun
    exact ⟨r, s₃, hbinary, value, s₄, hvalue⟩
  · rintro ⟨r, s₃, hbinary, value, s₄, hvalue⟩
    refine ⟨_, _, bind_ok.mpr ⟨r, s₃, hbinary, bind_ok.mpr ⟨value, s₄, hvalue, rfl⟩⟩⟩

theorem isSingle_of_lowerCompound (hleft : walk.expr a .none c s = (.ok t, s₁))
    (hrun : lowerCompound walk op [a] [b] span c s = (.ok id, s')) :
    t.IsSingle s₁.types ∧ ∃ v s₂, walk.expr b (.maybe (rightType? op t)) c s₁ = (.ok v, s₂) := by
  unfold lowerCompound at hrun
  dsimp only at hrun
  rw [run_bind, hleft] at hrun
  obtain ⟨_, s₂, hcheck, hrun⟩ := bind_ok.mp hrun
  obtain ⟨hsingle, rfl⟩ := checkValue_ok_iff.mp hcheck
  obtain ⟨v, s₃, hright, -⟩ := bind_ok.mp hrun
  exact ⟨hsingle, v, s₃, hright⟩

theorem isSingle_of_lowerAssign (hname : c.unit.identifier? a ≠ some Names.blank)
    (hleft : walk.expr a .none c s = (.ok t, s₁))
    (hrun : lowerAssign walk [a] [bin] span c s = (.ok id, s')) : t.IsSingle s₁.types := by
  obtain ⟨targets, s₂, htargets, -⟩ := bind_ok.mp hrun
  rw [List.mapM_cons] at htargets
  obtain ⟨target, s₃, htarget, -⟩ := bind_ok.mp htargets
  unfold lowerTarget at htarget
  rw [run_read, beq_eq_false_iff_ne.mpr hname, if_neg Bool.false_ne_true, run_bind, hleft]
    at htarget
  obtain ⟨_, s₄, hcheck, -⟩ := bind_ok.mp htarget
  exact (checkValue_ok_iff.mp hcheck).1

/-- What becomes of an assignment of one value once its target is lowered. -/
theorem lowerAssign_single_ok_iff (hname : c.unit.identifier? a ≠ some Names.blank)
    (hleft : walk.expr a .none c s = (.ok t, s₁)) (hsingle : t.IsSingle s₁.types) :
    LowersAssign walk c s a bin span ↔
      ∃ r s₂, walk.expr bin (.maybe (some t.type)) c s₁ = (.ok r, s₂) ∧
        ∃ value s', coerce r t.type c s₂ = (.ok value, s') := by
  have htarget : lowerTarget walk a c s = (.ok (t.id, some t.type), s₁) := by
    unfold lowerTarget
    rw [run_read, beq_eq_false_iff_ne.mpr hname, if_neg Bool.false_ne_true, run_bind, hleft]
    dsimp only
    rw [run_bind, hsingle.run_checkValue]
    rfl
  have htargets : ([a].mapM (lowerTarget walk) : Lower _) c s =
      (.ok [(t.id, some t.type)], s₁) := by
    rw [List.mapM_cons, run_bind, htarget]
    rfl
  have hslots : (lowerSlots walk [bin] [some t.type] span : Lower _) = do
      let r ← walk.expr bin (.maybe (some t.type))
      let value ← coerce r t.type
      return [value] := by
    unfold lowerSlots
    rw [if_pos (by rfl)]
    simp only [List.zip_cons_cons, List.zip_nil_right, List.mapM_cons, List.mapM_nil,
      lowerSlotValue, coerceOrDefault, bind_assoc, pure_bind]
  unfold LowersAssign lowerAssign
  rw [run_bind, htargets]
  change (∃ id s', (lowerSlots walk [bin] [some t.type] span >>= fun values =>
    place (.assign [t.id] .plain values) span) c s₁ = (.ok id, s')) ↔ _
  rw [hslots]
  constructor
  · rintro ⟨id, s', hrun⟩
    obtain ⟨values, s₂, hvalues, -⟩ := bind_ok.mp hrun
    obtain ⟨r, s₃, hr, hvalues⟩ := bind_ok.mp hvalues
    obtain ⟨value, s₄, hvalue, -⟩ := bind_ok.mp hvalues
    exact ⟨r, s₃, hr, value, s₄, hvalue⟩
  · rintro ⟨r, s₂, hr, value, s', hvalue⟩
    exact ⟨_, _, bind_ok.mpr ⟨[value], s',
      bind_ok.mpr ⟨r, s₂, hr, bind_ok.mpr ⟨value, s', hvalue, rfl⟩⟩, rfl⟩⟩

theorem run_expr_binary {depth : Nat} {expect : Expectation}
    (hbinary : c.unit.expr? bin = some (.binary op a b)) :
    (walkWithin (depth + 1)).expr bin expect c s = (do
      let x ← (walkWithin depth).expr a .none
      let y ← (walkWithin depth).expr b .none
      lowerBinary op x y (c.unit.span bin) : Lower Operand) c s :=
  lowerExpr_of_expr? hbinary expect

/-- What an assignment with an operator becomes if the type of its target is not registered. -/
theorem kind_of_lowerCompound (hleft : walk.expr a .none c s = (.ok t, s₁))
    (hunregistered : c.registry.get? t.type = none)
    (hrun : lowerCompound walk op [a] [b] span c s = (.ok id, s')) :
    ∃ value, s'.tree.kind id = .assign [t.id] (.compound op) [value] := by
  obtain ⟨hsingle, v, s₂, hright⟩ := isSingle_of_lowerCompound hleft hrun
  have hoperands : (OperatorUse.compound op a b).evaluate walk c s = (.ok [t, v], s₂) :=
    bind_ok.mpr ⟨t, s₁, hleft, bind_ok.mpr ⟨(), s₁, hsingle.run_checkValue,
      bind_ok.mpr ⟨v, s₂, hright, rfl⟩⟩⟩
  obtain ⟨target, _, hsides, ⟨hregistered, -⟩ | ⟨-, hkind⟩⟩ := lowerCompound_ok hoperands hrun
  · obtain ⟨rfl, -⟩ := List.cons.inj hsides
    rw [hunregistered] at hregistered
    cases hregistered
  · obtain ⟨rfl, -⟩ := List.cons.inj hsides
    exact hkind

/-- An assignment `a op= b` is lowered just in case `a = bin` is, where `bin` is `a op b`, and then
it is one that the host has. -/
structure CompoundSound (walk : Walk) (c : Context) (s : State) (op : BinaryOp) (a b bin : NodeId)
    (span span' : Span) : Prop where
  iff : LowersCompound walk c s op a b span ↔ LowersAssign walk c s a bin span'
  allowed : ∀ id s', lowerCompound walk op [a] [b] span c s = (.ok id, s') →
    ∃ targets operator values, s'.tree.kind id = .assign targets operator values ∧
      operator.symbol ∈ AssignOp.hostSymbols

theorem CompoundSound.of_neither {span' : Span} (hcompound : ¬LowersCompound walk c s op a b span)
    (hplain : ¬LowersAssign walk c s a bin span') :
    CompoundSound walk c s op a b bin span span' where
  iff := iff_of_false hcompound hplain
  allowed id s' hrun := absurd ⟨id, s', hrun⟩ hcompound

/-- With an operator that the host does not have before `=`, nothing may be lowered. -/
theorem compoundSound_iff_neither {span' : Span} (hassigns : op.assigns = false)
    (hleft : walk.expr a .none c s = (.ok t, s₁))
    (hunregistered : c.registry.get? t.type = none) :
    CompoundSound walk c s op a b bin span span' ↔
      ¬LowersCompound walk c s op a b span ∧ ¬LowersAssign walk c s a bin span' := by
  constructor
  · intro hsound
    have hcompound : ¬LowersCompound walk c s op a b span := by
      rintro ⟨id, s', hrun⟩
      obtain ⟨targets, operator, values, hkind, hsymbol⟩ := hsound.allowed id s' hrun
      obtain ⟨value, hcompound⟩ := kind_of_lowerCompound hleft hunregistered hrun
      obtain ⟨-, rfl, -⟩ := HostKind.assign.inj (hkind.symm.trans hcompound)
      cases hassigns.symm.trans (AssignOp.symbol_mem_hostSymbols_iff.mp hsymbol)
    exact ⟨hcompound, mt hsound.iff.mpr hcompound⟩
  · rintro ⟨hcompound, hplain⟩
    exact .of_neither hcompound hplain

end

/-! ## The two readings of the sides -/

section

variable {depth : Nat} {a b bin : NodeId} {span' : Span}

/-- However the right side is read, in `a op= b` and in `a op b`, the left one is a target of one
type beside it. -/
structure ReadsTarget (depth : Nat) (c : Context) (op : BinaryOp) (a b : NodeId) (t : Operand)
    (s₁ : State) : Prop where
  compound : ∀ v s₂,
    (walkWithin (depth + 1)).expr b (.maybe (rightType? op t)) c s₁ = (.ok v, s₂) → t.IsTarget c s₂
  plain : ∀ x s₃ y s₄, (walkWithin depth).expr a .none c s₁ = (.ok x, s₃) →
    (walkWithin depth).expr b .none c s₃ = (.ok y, s₄) → x.IsTarget c s₄ ∧ t.type = x.type

/-- The right side is read in `a op= b` to what goes beside the target. -/
def CompoundTakes (depth : Nat) (c : Context) (op : BinaryOp) (b : NodeId) (t : Operand)
    (s₁ : State) : Prop :=
  ∃ v s₂, (walkWithin (depth + 1)).expr b (.maybe (rightType? op t)) c s₁ = (.ok v, s₂) ∧
    v.IsSingle s₂.types ∧ Combines c s₂ op t.type v

/-- The right side is read in `a op b` to what goes beside the left one. -/
def PlainTakes (depth : Nat) (c : Context) (op : BinaryOp) (a b : NodeId) (s₁ : State) : Prop :=
  ∃ x s₃ y s₄, (walkWithin depth).expr a .none c s₁ = (.ok x, s₃) ∧
    (walkWithin depth).expr b .none c s₃ = (.ok y, s₄) ∧
    y.IsSingle s₄.types ∧ Combines c s₄ op x.type y

/-- Types that have been added do not move the basic ones. -/
theorem grows_of_expr {depth : Nat} {expect : Expectation}
    (hgrows : TypeTable.initial.Grows s.types)
    (hrun : (walkWithin depth).expr b expect c s = (.ok v, s₁)) :
    TypeTable.initial.Grows s₁.types := by
  have h := Steady.run (m := (walkWithin depth).expr b expect) inferInstance c s
  rw [hrun] at h
  exact hgrows.trans h.types

theorem lowersCompound_iff (hgrows : TypeTable.initial.Grows s₁.types)
    (hassigns : op.assigns = true) (hsingle : t.IsSingle s₁.types)
    (hread : (walkWithin (depth + 1)).expr a .none c s = (.ok t, s₁))
    (htarget : ReadsTarget depth c op a b t s₁) (span : Span) :
    LowersCompound (walkWithin (depth + 1)) c s op a b span ↔ CompoundTakes depth c op b t s₁ := by
  have hiff (v : Operand) (s₂ : State)
      (hcompound : (walkWithin (depth + 1)).expr b (.maybe (rightType? op t)) c s₁ = (.ok v, s₂)) :
      LowersCompound (walkWithin (depth + 1)) c s op a b span ↔
        v.IsSingle s₂.types ∧ Combines c s₂ op t.type v := by
    have ht := htarget.compound v s₂ hcompound
    rw [lowerCompound_ok_iff hread hsingle hcompound ht.unregistered]
    exact ht.compound_ok_iff hassigns (isUntypedNil_of_fitsMode
      (TypeTable.hasFixed_of_grows (grows_of_expr hgrows hcompound)).basics
      (fits_walkWithin (depth + 1) b _ hcompound (.refl s₂)))
  constructor
  · intro hlowers
    obtain ⟨id, s', hrun⟩ := hlowers
    obtain ⟨-, v, s₂, hright⟩ := isSingle_of_lowerCompound hread hrun
    exact ⟨v, s₂, hright, (hiff v s₂ hright).mp ⟨id, s', hrun⟩⟩
  · rintro ⟨v, s₂, hright, htakes⟩
    exact (hiff v s₂ hright).mpr htakes

theorem lowersAssign_iff (hgrows : TypeTable.initial.Grows s₁.types)
    (hassigns : op.assigns = true) (hsingle : t.IsSingle s₁.types)
    (hname : c.unit.identifier? a ≠ some Names.blank)
    (hbinary : c.unit.expr? bin = some (.binary op a b))
    (hread : (walkWithin (depth + 1)).expr a .none c s = (.ok t, s₁))
    (htarget : ReadsTarget depth c op a b t s₁) (span' : Span) :
    LowersAssign (walkWithin (depth + 1)) c s a bin span' ↔ PlainTakes depth c op a b s₁ := by
  have hiff (x y : Operand) (s₃ s₄ : State)
      (hleft : (walkWithin depth).expr a .none c s₁ = (.ok x, s₃))
      (hright : (walkWithin depth).expr b .none c s₃ = (.ok y, s₄)) :
      LowersAssign (walkWithin (depth + 1)) c s a bin span' ↔
        y.IsSingle s₄.types ∧ Combines c s₄ op x.type y := by
    obtain ⟨hx, htype⟩ := htarget.plain x s₃ y s₄ hleft hright
    -- `a` is lowered a second time inside of `bin`, so the operation is on `x` and `y`
    have hruns (expect : Expectation) : (walkWithin (depth + 1)).expr bin expect c s₁ =
        lowerBinary op x y (c.unit.span bin) c s₄ := by
      rw [run_expr_binary hbinary, run_bind, hleft]
      dsimp only
      rw [run_bind, hright]
    have hgrows₄ := grows_of_expr (grows_of_expr hgrows hleft) hright
    rw [lowerAssign_single_ok_iff hname hread hsingle, hruns, htype]
    exact hx.plain_ok_iff hassigns (isUntypedNil_of_fitsMode
      (TypeTable.hasFixed_of_grows hgrows₄).basics (fits_walkWithin depth b _ hright (.refl s₄)))
  constructor
  · intro hassign
    obtain ⟨r, s₂, hr, -⟩ := (lowerAssign_single_ok_iff hname hread hsingle).mp hassign
    rw [run_expr_binary hbinary] at hr
    obtain ⟨x, s₃, hx, hr⟩ := bind_ok.mp hr
    obtain ⟨y, s₄, hy, -⟩ := bind_ok.mp hr
    exact ⟨x, s₃, y, s₄, hx, hy, (hiff x y s₃ s₄ hx hy).mp hassign⟩
  · rintro ⟨x, s₃, y, s₄, hx, hy, htakes⟩
    exact (hiff x y s₃ s₄ hx hy).mpr htakes

/-- An assignment `a op= b` to a target is lowered just in case `a = a op b` is, and is one that the
host has, if its operator is one that the host has before `=` and `b` goes beside the target as it is
read in both of them or in neither. Otherwise it is so only if neither of them is lowered. -/
theorem compoundSound_iff (hgrows : TypeTable.initial.Grows s.types)
    (hname : c.unit.identifier? a ≠ some Names.blank)
    (hbinary : c.unit.expr? bin = some (.binary op a b))
    (hread : (walkWithin (depth + 1)).expr a .none c s = (.ok t, s₁))
    (hunregistered : c.registry.get? t.type = none)
    (htarget : ReadsTarget depth c op a b t s₁) (span span' : Span) :
    CompoundSound (walkWithin (depth + 1)) c s op a b bin span span' ↔
      op.assigns = true ∧ (CompoundTakes depth c op b t s₁ ↔ PlainTakes depth c op a b s₁) ∨
      ¬LowersCompound (walkWithin (depth + 1)) c s op a b span ∧
        ¬LowersAssign (walkWithin (depth + 1)) c s a bin span' := by
  by_cases hsingle : t.IsSingle s₁.types
  · cases hassigns : op.assigns with
    | true =>
      have hgrows₁ := grows_of_expr hgrows hread
      have hcompound := lowersCompound_iff hgrows₁ hassigns hsingle hread htarget span
      have hplain := lowersAssign_iff hgrows₁ hassigns hsingle hname hbinary hread htarget span'
      constructor
      · exact fun hsound => .inl ⟨rfl, hcompound.symm.trans (hsound.iff.trans hplain)⟩
      · rintro (⟨-, htakes⟩ | ⟨hnot, hnot'⟩)
        · refine ⟨hcompound.trans (htakes.trans hplain.symm), fun id s' hrun => ?_⟩
          obtain ⟨value, hkind⟩ := kind_of_lowerCompound hread hunregistered hrun
          exact ⟨_, _, _, hkind, AssignOp.symbol_mem_hostSymbols_iff.mpr hassigns⟩
        · exact .of_neither hnot hnot'
    | false =>
      rw [compoundSound_iff_neither hassigns hread hunregistered, or_iff_right (fun h => nomatch h.1)]
  · have hcompound : ¬LowersCompound (walkWithin (depth + 1)) c s op a b span := by
      rintro ⟨id, s', hrun⟩
      exact hsingle (isSingle_of_lowerCompound hread hrun).1
    have hplain : ¬LowersAssign (walkWithin (depth + 1)) c s a bin span' := by
      rintro ⟨id, s', hrun⟩
      exact hsingle (isSingle_of_lowerAssign hname hread hrun)
    exact iff_of_true (.of_neither hcompound hplain) (.inr ⟨hcompound, hplain⟩)

/-! ## Sides that are read alike -/

/-- The sides of an assignment are read to the same in `a op= b` and in `a op b`: in neither both of
them can be read, or they come to operands alike, of which the left one is a target. -/
inductive ReadsAlike (depth : Nat) (c : Context) (op : BinaryOp) (a b : NodeId) (t : Operand)
    (s₁ : State) : Prop
  | fails (hcompound : ∀ v s₂,
        (walkWithin (depth + 1)).expr b (.maybe (rightType? op t)) c s₁ ≠ (.ok v, s₂))
      (hplain : ∀ x s₂ y s₃, (walkWithin depth).expr a .none c s₁ = (.ok x, s₂) →
        (walkWithin depth).expr b .none c s₂ ≠ (.ok y, s₃))
  | same {v x y : Operand} {s₂ s₃ s₄ : State}
      (hcompound : (walkWithin (depth + 1)).expr b (.maybe (rightType? op t)) c s₁ = (.ok v, s₂))
      (hleft : (walkWithin depth).expr a .none c s₁ = (.ok x, s₃))
      (hright : (walkWithin depth).expr b .none c s₃ = (.ok y, s₄))
      (htarget : t.IsTarget c s₂) (htypes : SameTypes s₂ s₄) (hx : t.Alike x) (hy : v.Alike y)

theorem ReadsAlike.readsTarget (h : ReadsAlike depth c op a b t s₁) :
    ReadsTarget depth c op a b t s₁ := by
  cases h with
  | fails hcompound hplain =>
    exact ⟨fun v s₂ hv => absurd hv (hcompound v s₂),
      fun x s₃ y s₄ hx hy => absurd hy (hplain x s₃ y s₄ hx)⟩
  | same hcompound hleft hright htarget htypes hx hy =>
    constructor
    · intro v s₂ hv
      obtain ⟨⟨⟩, rfl⟩ := Prod.mk.inj (hcompound.symm.trans hv)
      exact htarget
    · intro x s₃ y s₄ hx' hy'
      obtain ⟨⟨⟩, rfl⟩ := Prod.mk.inj (hleft.symm.trans hx')
      obtain ⟨⟨⟩, rfl⟩ := Prod.mk.inj (hright.symm.trans hy')
      exact ⟨htarget.of_alike htypes hx, hx.type⟩

/-- What is read alike goes beside the target in both readings or in neither. -/
theorem ReadsAlike.takes_iff (h : ReadsAlike depth c op a b t s₁) :
    CompoundTakes depth c op b t s₁ ↔ PlainTakes depth c op a b s₁ := by
  cases h with
  | fails hcompound hplain =>
    refine iff_of_false ?_ ?_
    · rintro ⟨v, s₂, hv, -⟩
      exact hcompound v s₂ hv
    · rintro ⟨x, s₃, y, s₄, hx, hy, -⟩
      exact hplain x s₃ y s₄ hx hy
  | @same v x y s₂ s₃ s₄ hcompound hleft hright htarget htypes hx hy =>
    constructor
    · rintro ⟨v, s₂, hv, hsingle, htakes⟩
      obtain ⟨⟨⟩, rfl⟩ := Prod.mk.inj (hcompound.symm.trans hv)
      exact ⟨x, s₃, y, s₄, hleft, hright, htypes.types ▸ hy.isSingle hsingle,
        hx.type ▸ htakes.of_alike htypes hy⟩
    · rintro ⟨x', s₃', y', s₄', hx', hy', hsingle, htakes⟩
      obtain ⟨⟨⟩, rfl⟩ := Prod.mk.inj (hleft.symm.trans hx')
      obtain ⟨⟨⟩, rfl⟩ := Prod.mk.inj (hright.symm.trans hy')
      exact ⟨v, s₂, hcompound, htypes.types ▸ hy.symm.isSingle hsingle,
        hx.type ▸ htakes.of_alike htypes.symm hy.symm⟩

end

/-! ## Names and literals -/

/-- An expression that is read to operands of one sort wherever the types and the names are those of
a state, and leaves them so. -/
def ReadsAs (c : Context) (s : State) (id : NodeId) (o : Operand) : Prop :=
  ∀ depth expect u, SameTypes s u → s.scopes = u.scopes →
    ∃ r u', (walkWithin (depth + 1)).expr id expect c u = (.ok r, u') ∧ o.Alike r ∧
      SameTypes s u' ∧ s.scopes = u'.scopes

theorem readsAs_of_place {id : NodeId} {expression : Expr} {o : Operand} (kind : HostKind)
    (hexpr : c.unit.expr? id = some expression)
    (hrun : ∀ walk expect u, s.scopes = u.scopes →
      lowerExprKind walk expression (c.unit.span id) expect c u =
        (do return { o with id := ← place kind (c.unit.span id) } : Lower Operand) c u) :
    ReadsAs c s id o := by
  intro depth expect u htypes hscopes
  change ∃ r u', lowerExpr (walkWithin depth) id expect c u = (.ok r, u') ∧ _
  rw [lowerExpr_of_expr? hexpr, hrun _ _ _ hscopes]
  refine ⟨_, _, rfl, ⟨rfl, rfl, rfl⟩, ?_, hscopes⟩
  exact ⟨htypes.types, htypes.methods⟩

/-- The name of a variable. -/
theorem readsAs_variable {id : NodeId} {name : String}
    (hexpr : c.unit.expr? id = some (.identifier name)) (hname : name ≠ Names.blank)
    (hvariable : s.scopes.lookup? name = some (.variable type)) :
    ReadsAs c s id (.value ⟨0⟩ type (c.unit.span id)) := by
  refine readsAs_of_place (.identifier name) hexpr (fun walk expect u hscopes => ?_)
  change lowerIdentifier walk name (c.unit.span id) c u = _
  unfold lowerIdentifier nameOperand?
  rw [if_neg (by simpa using hname), bind_assoc, run_get, ← hscopes, hvariable]
  rfl

theorem readsAs_literal {id : NodeId} {kind : LiteralKind} {text : String} {basic : BasicType}
    {value : Constant} (hexpr : c.unit.expr? id = some (.literal kind text))
    (hvalue : literalValue? kind text = some (basic, value)) :
    ReadsAs c s id
      (.ofConstant ⟨0⟩ (TypeTable.basic basic) (some value) (c.unit.span id)) := by
  refine readsAs_of_place (.literal text) hexpr (fun walk expect u _ => ?_)
  change lowerLiteral kind text (c.unit.span id) c u = _
  rw [lowerLiteral, hvalue]
  rfl

/-- Names and literals are read alike. -/
theorem readsAlike_of_readsAs {depth : Nat} {a b : NodeId} {o p : Operand} (ha : ReadsAs c s a o)
    (hb : ReadsAs c s b p) (htarget : o.IsTarget c s)
    (hread : (walkWithin (depth + 2)).expr a .none c s = (.ok t, s₁)) :
    ReadsAlike (depth + 1) c op a b t s₁ := by
  obtain ⟨t', u, ht, halike, hs₁, hscopes₁⟩ := ha (depth + 1) .none s (.refl s) rfl
  obtain ⟨⟨⟩, rfl⟩ := Prod.mk.inj (hread.symm.trans ht)
  obtain ⟨v, s₂, hv, hvalike, hs₂, -⟩ := hb (depth + 1) (.maybe (rightType? op t)) s₁ hs₁ hscopes₁
  obtain ⟨x, s₃, hx, hxalike, hs₃, hscopes₃⟩ := ha depth .none s₁ hs₁ hscopes₁
  obtain ⟨y, s₄, hy, hyalike, hs₄, -⟩ := hb depth .none s₃ hs₃ hscopes₃
  exact .same hv hx hy (htarget.of_alike hs₂ halike)
    ⟨hs₂.types.symm.trans hs₄.types, hs₂.methods.symm.trans hs₄.methods⟩
    (halike.symm.trans hxalike) (hvalike.symm.trans hyalike)

/-- The nodes of `x`, `1`, `x + 1` and `x == 1`, where the types of numbers are registered. -/
def compoundSample : Context :=
  { Context.sample [.expr (.identifier "x"), .expr (.literal .int "1"),
      .expr (.binary .add ⟨0⟩ ⟨1⟩), .expr (.binary .equal ⟨0⟩ ⟨1⟩)] [] with
    registry := .standard bigTypes }

/-- A function with a variable `x int`. -/
def compoundState : State := .inside bigTypes [] [("x", TypeTable.int)]

/-- The variable is a target. -/
theorem isTarget_compoundSample : (Operand.value ⟨0⟩ TypeTable.int
    (compoundSample.unit.span ⟨0⟩)).IsTarget compoundSample compoundState where
  mode := rfl
  constant := rfl
  single elements htuple := by
    have hget : compoundState.types.get TypeTable.int = .basic .int := by decide +kernel
    cases hget.symm.trans htuple
  valid := by decide +kernel
  typed := by decide +kernel
  apart registered hregistered hassignable := by
    have hall : (compoundSample.registry.entries.all (fun entry => !compoundState.types.assignable
        (fun id name => (compoundState.method? compoundSample.env id name).isSome) TypeTable.int
        entry.type)) = true := by decide +kernel
    obtain ⟨entry, hentry⟩ := Option.isSome_iff_exists.mp hregistered
    have hnot := List.all_eq_true.mp hall entry (List.mem_of_find?_eq_some hentry)
    have htype : entry.type = registered := by simpa using List.find?_some hentry
    rw [htype, Bool.not_eq_true'] at hnot
    cases hnot.symm.trans hassignable

/-- `x += 1` is lowered just in case `x = x + 1` is, and it is. -/
theorem compoundSound_iff_add :
    CompoundSound (walkWithin 2) compoundSample compoundState .add ⟨0⟩ ⟨1⟩ ⟨2⟩ .synthetic
        .synthetic ∧
      LowersCompound (walkWithin 2) compoundSample compoundState .add ⟨0⟩ ⟨1⟩ .synthetic := by
  obtain ⟨t, s₁, hread⟩ := exists_ok (m := (walkWithin 2).expr ⟨0⟩ .none) (c := compoundSample)
    (s := compoundState) (by decide +kernel)
  have hx : ReadsAs compoundSample compoundState ⟨0⟩ _ :=
    readsAs_variable rfl (by decide) rfl
  have hy : ReadsAs compoundSample compoundState ⟨1⟩ _ := readsAs_literal rfl rfl
  have hreads : ReadsAlike 1 compoundSample .add ⟨0⟩ ⟨1⟩ t s₁ :=
    readsAlike_of_readsAs hx hy isTarget_compoundSample hread
  obtain ⟨t', u, ht, halike, -, -⟩ := hx 1 .none compoundState (.refl _) rfl
  obtain ⟨⟨⟩, rfl⟩ := Prod.mk.inj (hread.symm.trans ht)
  have hunregistered : compoundSample.registry.get? t.type = none := by
    rw [← halike.type]
    decide +kernel
  exact ⟨(compoundSound_iff grows_bigTypes (by decide +kernel) rfl hread hunregistered
    hreads.readsTarget _ _).mpr (.inl ⟨rfl, hreads.takes_iff⟩), exists_ok (by decide +kernel)⟩

/-- `x === 1` is lowered, and `x = x == 1` is not. -/
theorem compound_equal_unsound :
    LowersCompound (walkWithin 2) compoundSample compoundState .equal ⟨0⟩ ⟨1⟩ .synthetic ∧
      ¬CompoundSound (walkWithin 2) compoundSample compoundState .equal ⟨0⟩ ⟨1⟩ ⟨3⟩ .synthetic
        .synthetic := by
  have hcompound : LowersCompound (walkWithin 2) compoundSample compoundState .equal ⟨0⟩ ⟨1⟩
      .synthetic := exists_ok (by decide +kernel)
  refine ⟨hcompound, fun hsound => ?_⟩
  obtain ⟨id, s', hrun⟩ := hsound.iff.mp hcompound
  have hfails : (lowerAssign (walkWithin 2) [⟨0⟩] [⟨3⟩] .synthetic compoundSample
      compoundState).1.isOk = false := by decide +kernel
  rw [hrun] at hfails
  cases hfails

end Lowering

end GoLowering
