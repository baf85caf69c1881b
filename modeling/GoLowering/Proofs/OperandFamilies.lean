import GoLowering.Proofs.BinaryOperations
import GoLowering.Proofs.ConstantPlaces
import GoLowering.Proofs.LiteralElements

/-!
# Families of operands

Truth values, numbers and strings are three families of values, and an operation of the host is on
values of one of them. Two operands are brought to one type before they are operated on, and each of
them should be of use as a value of that type (`Usable`).

`unify_usable_iff` says when it is: always but for two untyped operands of different families
(`Apart`). Of these the later kind by `Constant.rank` is taken, in which all kinds but those of
numbers are on one level, and the operation is accepted if it is one on that kind. Whether operands
can be brought to one type does not depend on their order.
-/

namespace GoLowering

/-- The families of values; `nothing` is that of `nil`. -/
inductive Family where
  | truth | number | text | nothing
  deriving DecidableEq, Repr

namespace BasicType

variable {a b kind : BasicType}

def family : BasicType → Family
  | bool | untypedBool => .truth
  | string | untypedString => .text
  | unsafePointer | untypedNil => .nothing
  | _ => .number

theorem family_of_isNumeric (h : kind.isNumeric = true) : kind.family = .number := by
  cases kind <;> first | rfl | cases h

theorem family_of_isUntypedBig (h : kind.isUntypedBig = true) : kind.family = .number := by
  cases kind <;> first | rfl | cases h

end BasicType

namespace Constant

variable {a b : BasicType}

/-- Two kinds are promoted to one of them, or to an unbounded kind if one of them is unbounded. -/
theorem promote_cases (a b : BasicType) (n : Int) :
    promote a b (.int n) = a ∨ promote a b (.int n) = b ∨
      (a.isUntypedBig || b.isUntypedBig) = true ∧ (promote a b (.int n)).isUntypedBig = true := by
  unfold promote
  rw [if_neg (by simp [isBool])]
  split
  · rename_i hbig
    refine .inr (.inr ⟨hbig, ?_⟩)
    dsimp only
    split <;> rfl
  · split
    · exact .inl rfl
    · exact .inr (.inl rfl)

theorem isUntyped_promote (ha : a.isUntyped = true) (hb : b.isUntyped = true) (n : Int) :
    (promote a b (.int n)).isUntyped = true := by
  rcases promote_cases a b n with h | h | ⟨-, h⟩
  · rw [h, ha]
  · rw [h, hb]
  · revert h
    generalize promote a b (.int n) = kind
    cases kind <;> first | (intro; rfl) | nofun

/-- Kinds of one family are promoted to a kind of it. -/
theorem family_promote (h : a.family = b.family) (n : Int) :
    (promote a b (.int n)).family = a.family := by
  rcases promote_cases a b n with hkind | hkind | ⟨hbig, hkind⟩
  · rw [hkind]
  · rw [hkind, h]
  · rw [BasicType.family_of_isUntypedBig hkind]
    rcases (Bool.or_eq_true _ _).mp hbig with hbig | hbig
    · exact (BasicType.family_of_isUntypedBig hbig).symm
    · exact (h.trans (BasicType.family_of_isUntypedBig hbig)).symm

end Constant

namespace TypeTable

variable {t : TypeTable} {id target : TypeId} {a b : BasicType}

theorem get_of_isUntyped (h : t.isUntyped id = true) :
    ∃ kind, t.get id = .basic kind ∧ kind.isUntyped = true := by
  unfold isUntyped at h
  split at h
  · rename_i kind hget
    exact ⟨kind, hget, h⟩
  · cases h

theorem isUntyped_of_get (h : t.get id = .basic a) : t.isUntyped id = a.isUntyped := by
  rw [isUntyped, h]

/-- An untyped value is assignable to an untyped type of its family only. -/
theorem family_of_assignable {hasMethod : TypeId → String → Bool} (hid : t.get id = .basic a)
    (htarget : t.get target = .basic b) (ha : a.isUntyped = true) (hb : b.isUntyped = true)
    (h : t.assignable hasMethod id target = true) : a.family = b.family := by
  by_cases hsame : id = target
  · rw [hsame, htarget] at hid
    rw [Ty.basic.inj hid]
  · have hshape := shape_of_basic? (basic?_of_get htarget)
    have hrun : t.assignable hasMethod id target = t.untypedAssignable a target := by
      rw [assignable, beq_eq_false_iff_ne.mpr hsame,
        isInvalid_eq_false.mpr (by simp [hid]),
        isInvalid_eq_false.mpr (by simp [htarget]), hid]
      simp [ha]
    rw [hrun, untypedAssignable, isInterface_of_basic? (basic?_of_get htarget),
      if_neg Bool.false_ne_true, hshape] at h
    cases a with
    | untypedInt | untypedRune | untypedFloat | untypedComplex =>
      exact (BasicType.family_of_isNumeric h).symm
    | untypedBool | untypedString | untypedNil =>
      obtain rfl := eq_of_beq h
      cases hb
    | untypedBigInt | untypedBigRat => cases h
    | _ => cases ha

/-- Unbounded constants are assignable to every interface. -/
theorem assignable_interface_of_isBig (hasMethod : TypeId → String → Bool)
    (hbig : t.isBig id = true) (hinterface : t.isInterface target = true) :
    t.assignable hasMethod id target = true := by
  unfold isBig at hbig
  split at hbig
  · rename_i kind hget
    unfold assignable
    split
    · rfl
    · rw [hget]
      dsimp only
      cases kind with
      | untypedBigInt | untypedBigRat =>
        simp only [BasicType.isUntyped, if_true]
        rw [untypedAssignable, if_pos hinterface]
        rfl
      | _ => cases hbig
  · cases hbig

end TypeTable

namespace Lowering

variable {c : Context} {s s' : State} {op : BinaryOp} {left right r operand : Operand}
  {target : TypeId} {span : Span}

/-! ## Operands that are of use -/

/-- A value of a type other than the invalid one. -/
structure Operand.IsValid (types : TypeTable) (operand : Operand) : Prop where
  mode : operand.mode = .value
  valid : types.isInvalid operand.type = false

/-- Whether an operand can be used as a value of a type: it is one, or assignable to it, or an
untyped value of the family of the type. A registered type is one of numbers, of which it is said by
its initializers which are values of it. -/
inductive Usable (c : Context) (s : State) (operand : Operand) (type : TypeId) : Prop
  | same (htype : operand.type = type)
  | assignable (hassignable : s.assignable c operand.type type)
  | family {kind wanted : BasicType} (hkind : s.types.get operand.type = .basic kind)
      (huntyped : kind.isUntyped = true) (hwanted : s.types.basic? type = some wanted)
      (hfamily : kind.family = wanted.family)
  | built {entry : RegisteredType} {value : Constant} {function : String}
      (huntyped : s.types.isUntyped operand.type = true)
      (htyped : s.types.isUntyped type = false) (hentry : c.registry.get? type = some entry)
      (hvalue : operand.constant = some value)
      (hfunction : entry.initializer? (s.types.isBig operand.type) value = some function)

/-- Two untyped operands of different families. -/
structure Apart (types : TypeTable) (left right : Operand) (a b : BasicType) : Prop where
  left : types.get left.type = .basic a
  right : types.get right.type = .basic b
  leftUntyped : a.isUntyped = true
  rightUntyped : b.isUntyped = true
  families : a.family ≠ b.family

/-- Whether an operation of the host is one on values of a kind. -/
def OperatesOn (op : BinaryOp) (kind : BasicType) : Prop :=
  op.isShift = false ∧
    if op.isComparison then op.NeedsOrder → isOrdered kind = true
    else if op.isLogical then kind = .untypedBool
    else isDefinedOn op kind = true

/-- What can be taken as a value of a typed place is of use there. -/
theorem usable_of_coerce {id : HostId} (hmode : operand.mode = .value)
    (huntyped : s.types.isUntyped operand.type = true)
    (htyped : s.types.isUntyped target = false) (htarget : s.types.isInvalid target = false)
    (h : coerce operand target c s = (.ok id, s')) : Usable c s operand target := by
  obtain ⟨kind, hget, -⟩ := TypeTable.get_of_isUntyped huntyped
  have hsingle : operand.IsSingle s.types := ⟨.inl hmode, fun elements htuple => by
    rw [hget] at htuple
    cases htuple⟩
  have hok := (coerce_ok_iff hsingle hmode (isInvalid_of_untyped huntyped) htarget).mp ⟨id, s', h⟩
  split at hok
  · obtain ⟨entry, value, function, hentry, hvalue, hfunction⟩ := materialize_ok_iff.mp hok
    exact .built huntyped htyped hentry hvalue hfunction
  · split at hok
    · rename_i hbig
      exact .assignable (TypeTable.assignable_interface_of_isBig _ hbig hok.1)
    · exact .assignable hok.2

/-- An untyped operand is of no use as a value of an untyped type of another family. -/
theorem not_usable_of_family {kind wanted : BasicType}
    (hkind : s.types.get operand.type = .basic kind)
    (hwanted : s.types.get target = .basic wanted) (huntyped : kind.isUntyped = true)
    (huntyped' : wanted.isUntyped = true) (hfamily : kind.family ≠ wanted.family) :
    ¬Usable c s operand target := by
  intro husable
  cases husable with
  | same htype =>
    rw [htype, hwanted] at hkind
    exact hfamily (congrArg _ (Ty.basic.inj hkind).symm)
  | assignable hassignable =>
    exact hfamily (TypeTable.family_of_assignable hkind hwanted huntyped huntyped' hassignable)
  | family hkind' _ hwanted' hfamily' =>
    obtain rfl := Ty.basic.inj (hkind.symm.trans hkind')
    obtain rfl := Option.some.inj ((TypeTable.basic?_of_get hwanted).symm.trans hwanted')
    exact hfamily hfamily'
  | built _ htyped =>
    rw [TypeTable.isUntyped_of_get hwanted, huntyped'] at htyped
    cases htyped

/-- An untyped constant that is not unbounded is of its default type where no type is given. -/
theorem defaultValue_untyped_ok {value : HostId × TypeId} (hmode : operand.mode = .value)
    (huntyped : s.types.isUntyped operand.type = true) (hsmall : s.types.isBig operand.type = false)
    (h : defaultValue operand c s = (.ok value, s')) :
    value.2 = s.types.defaultType operand.type ∧ s' = s := by
  unfold defaultValue at h
  obtain ⟨_, s₁, hcheck, hrest⟩ := bind_ok.mp h
  obtain rfl := Reads.ok hcheck
  rw [hmode, if_neg (by decide), run_isUntypedBig_bind, hsmall, if_neg Bool.false_ne_true, run_bind,
    run_getTypes] at hrest
  dsimp only at hrest
  rw [huntyped, if_pos rfl] at hrest
  split at hrest
  · exact absurd hrest Fails.fails
  · obtain ⟨rfl, rfl⟩ := pure_ok.mp hrest
    exact ⟨rfl, rfl⟩

theorem run_basicOf?_bind {α : Type} (type : TypeId) (f : Option BasicType → Lower α) :
    (basicOf? type >>= f) c s = f (s.types.basic? type) c s := rfl

theorem run_isBoolean_basic (hbasics : s.types.HasBasics) (kind : BasicType) :
    isBoolean (TypeTable.basic kind) c s =
      (.ok (kind == .bool || kind == .untypedBool), s) := by
  unfold isBoolean
  rw [run_basicOf?_bind, hbasics.basic?_basic]
  change (Except.ok (some kind == some .bool || some kind == some .untypedBool ||
    s.types.isInvalid (TypeTable.basic kind)), s) = _
  rw [hbasics.isInvalid_basic, Bool.or_false]
  rfl

/-! ## Operands that are brought to one type -/

theorem run_unify_left (hleft : s.types.isUntyped left.type = true)
    (hright : s.types.isUntyped right.type = false) :
    unify left right span c s =
      (do return (← coerce left right.type, right.id, right.type) : Lower _) c s := by
  unfold unify
  rw [run_bind, run_getTypes]
  dsimp only
  rw [hleft, hright]

theorem run_unify_right (hleft : s.types.isUntyped left.type = false)
    (hright : s.types.isUntyped right.type = true) :
    unify left right span c s =
      (do return (left.id, ← coerce right left.type, left.type) : Lower _) c s := by
  unfold unify
  rw [run_bind, run_getTypes]
  dsimp only
  rw [hleft, hright]

theorem run_unify_untyped {a b : BasicType} (hleft : s.types.get left.type = .basic a)
    (hright : s.types.get right.type = .basic b) (ha : a.isUntyped = true)
    (hb : b.isUntyped = true) :
    unify left right span c s =
      (.ok (left.id, right.id, TypeTable.basic (Constant.promote a b (.int 0))), s) := by
  unfold unify
  rw [run_bind, run_getTypes]
  dsimp only
  rw [TypeTable.isUntyped_of_get hleft, TypeTable.isUntyped_of_get hright, ha, hb]
  dsimp only
  rw [TypeTable.basic?_of_get hleft, TypeTable.basic?_of_get hright]
  rfl

/-- Two typed operands are brought together if one of the types takes the values of the other. -/
theorem unify_typed_ok_iff (hleft : s.types.isUntyped left.type = false)
    (hright : s.types.isUntyped right.type = false) :
    (∃ common s', unify left right span c s = (.ok common, s')) ↔
      left.type = right.type ∨
        s.assignable c left.type right.type ∧ s.assignable c right.type left.type ∨
        s.types.isInterface left.type = true ∧ s.assignable c right.type left.type ∨
        s.types.isInterface right.type = true ∧ s.assignable c left.type right.type := by
  unfold unify
  rw [run_bind, run_getTypes]
  dsimp only
  rw [hleft, hright]
  dsimp only
  rw [run_assignable_bind, run_assignable_bind]
  unfold State.assignable
  generalize s.types.assignable _ left.type right.type = leftToRight
  generalize s.types.assignable _ right.type left.type = rightToLeft
  split
  · rename_i hone
    refine iff_of_true ⟨_, s, rfl⟩ ?_
    simp only [Bool.or_eq_true, Bool.and_eq_true, beq_iff_eq] at hone
    rcases hone with (hsame | ⟨hr, hl⟩) | hinterface
    · exact .inl hsame
    · exact .inr (.inl ⟨hl, hr⟩)
    · exact .inr (.inr (.inl hinterface))
  · rename_i hnot
    split
    · rename_i hother
      exact iff_of_true ⟨_, s, rfl⟩ (.inr (.inr (.inr (Bool.and_eq_true_iff.mp hother))))
    · rename_i hnone
      refine iff_of_false (fun ⟨_, _, h⟩ => Fails.fails h) ?_
      simp only [Bool.or_eq_true, Bool.and_eq_true, beq_iff_eq] at hnot hnone
      tauto

/-- Whether operands can be brought to one type does not depend on their order. -/
theorem unify_ok_comm : (∃ common s', unify left right span c s = (.ok common, s')) ↔
    ∃ common s', unify right left span c s = (.ok common, s') := by
  have hcoerce (x y : Operand) {f : HostId → HostId × HostId × TypeId} :
      (∃ common s', (do return f (← coerce x y.type) : Lower _) c s = (.ok common, s')) ↔
        ∃ id s', coerce x y.type c s = (.ok id, s') := by
    constructor
    · rintro ⟨_, _, h⟩
      obtain ⟨id, s₁, h, -⟩ := bind_ok.mp h
      exact ⟨id, s₁, h⟩
    · rintro ⟨id, s₁, h⟩
      exact ⟨f id, s₁, bind_ok.mpr ⟨id, s₁, h, rfl⟩⟩
  cases hleft : s.types.isUntyped left.type with
  | true =>
    cases hright : s.types.isUntyped right.type with
    | true =>
      obtain ⟨a, ha, hau⟩ := TypeTable.get_of_isUntyped hleft
      obtain ⟨b, hb, hbu⟩ := TypeTable.get_of_isUntyped hright
      exact iff_of_true ⟨_, _, run_unify_untyped ha hb hau hbu⟩
        ⟨_, _, run_unify_untyped hb ha hbu hau⟩
    | false => rw [run_unify_left hleft hright, run_unify_right hright hleft, hcoerce, hcoerce]
  | false =>
    cases hright : s.types.isUntyped right.type with
    | true => rw [run_unify_right hleft hright, run_unify_left hright hleft, hcoerce, hcoerce]
    | false =>
      rw [unify_typed_ok_iff hleft hright, unify_typed_ok_iff hright hleft, eq_comm]
      tauto

/-- Operands that are not apart are of use as values of the type that they are brought to. -/
theorem usable_of_unify {l r : HostId} {type : TypeId} (hbasics : s.types.HasBasics)
    (hleft : left.IsValid s.types) (hright : right.IsValid s.types)
    (h : unify left right span c s = (.ok (l, r, type), s'))
    (hfamilies : ∀ a b, ¬Apart s.types left right a b) :
    Usable c s left type ∧ Usable c s right type := by
  cases hl : s.types.isUntyped left.type with
  | true =>
    cases hr : s.types.isUntyped right.type with
    | true =>
      obtain ⟨a, ha, hau⟩ := TypeTable.get_of_isUntyped hl
      obtain ⟨b, hb, hbu⟩ := TypeTable.get_of_isUntyped hr
      rw [run_unify_untyped ha hb hau hbu] at h
      cases h
      have hfamily : a.family = b.family := by
        by_contra hne
        exact hfamilies a b ⟨ha, hb, hau, hbu, hne⟩
      have hpromote := Constant.family_promote hfamily 0
      exact ⟨.family ha hau (hbasics.basic?_basic _) hpromote.symm,
        .family hb hbu (hbasics.basic?_basic _) (hfamily.symm.trans hpromote.symm)⟩
    | false =>
      rw [run_unify_left hl hr] at h
      obtain ⟨id, s₁, hcoerce, h⟩ := bind_ok.mp h
      obtain ⟨⟨⟩, -⟩ := pure_ok.mp h
      exact ⟨usable_of_coerce hleft.mode hl hr hright.valid hcoerce, .same rfl⟩
  | false =>
    cases hr : s.types.isUntyped right.type with
    | true =>
      rw [run_unify_right hl hr] at h
      obtain ⟨id, s₁, hcoerce, h⟩ := bind_ok.mp h
      obtain ⟨⟨⟩, -⟩ := pure_ok.mp h
      exact ⟨.same rfl, usable_of_coerce hright.mode hr hl hleft.valid hcoerce⟩
    | false =>
      obtain ⟨-, ⟨hsame | hassignable, rfl⟩ | ⟨hassignable, rfl⟩⟩ := unify_typed_ok hl hr h
      · exact ⟨.same rfl, .same hsame.symm⟩
      · exact ⟨.same rfl, .assignable hassignable⟩
      · exact ⟨.assignable hassignable, .same rfl⟩

/-! ## Untyped operands of different families -/

namespace Apart

variable {a b : BasicType}

theorem run_unify (h : Apart s.types left right a b) : unify left right span c s =
    (.ok (left.id, right.id, TypeTable.basic (Constant.promote a b (.int 0))), s) :=
  run_unify_untyped h.left h.right h.leftUntyped h.rightUntyped

/-- One of the operands is of no use as a value of the type that they are brought to. -/
theorem not_usable (h : Apart s.types left right a b) (hbasics : s.types.HasBasics) :
    ¬(Usable c s left (TypeTable.basic (Constant.promote a b (.int 0))) ∧
      Usable c s right (TypeTable.basic (Constant.promote a b (.int 0)))) := by
  have huntyped := Constant.isUntyped_promote h.leftUntyped h.rightUntyped 0
  rintro ⟨hl, hr⟩
  have hleft : a.family = (Constant.promote a b (.int 0)).family := by
    by_contra hne
    exact not_usable_of_family h.left (hbasics _) h.leftUntyped huntyped hne hl
  have hright : b.family = (Constant.promote a b (.int 0)).family := by
    by_contra hne
    exact not_usable_of_family h.right (hbasics _) h.rightUntyped huntyped hne hr
  exact h.families (hleft.trans hright.symm)

/-- One of them is no amount of a shift if the other one can be shifted. -/
theorem not_lowerShift_ok (h : Apart s.types left right a b) (hbasics : s.types.HasBasics)
    (hmode : right.mode = .value) : ¬∃ r s', lowerShift op left right span c s = (.ok r, s') := by
  rintro ⟨r, s', hrun⟩
  unfold lowerShift at hrun
  dsimp only at hrun
  obtain ⟨_, _, ⟨⟩, hrun⟩ := bind_ok.mp hrun
  rw [TypeTable.basic?_of_get h.left, Option.any_some] at hrun
  split at hrun
  · exact Fails.fails hrun
  rename_i hshiftable
  have hnumber : a.family = .number := by
    cases a <;> first | rfl | exact absurd rfl hshiftable
  have hother : b.family ≠ .number := fun hb => h.families (hnumber.trans hb.symm)
  have hsmall : s.types.isBig right.type = false := by
    rw [isBig_eq h.right]
    by_contra hbig
    exact hother (BasicType.family_of_isUntypedBig (by simpa using hbig))
  obtain ⟨amount, s₁, hamount, hrest⟩ := bind_ok.mp hrun
  obtain ⟨htype, rfl⟩ := defaultValue_untyped_ok hmode
    ((TypeTable.isUntyped_of_get h.right).trans h.rightUntyped) hsmall hamount
  obtain ⟨_, _, ⟨⟩, hrest⟩ := bind_ok.mp hrest
  have hno : (s₁.types.basic? amount.2).any BasicType.isInteger = false := by
    rw [htype, TypeTable.defaultType, h.right]
    cases b with
    | untypedBool => rw [TypeTable.bool, hbasics.basic?_basic]; rfl
    | untypedString => rw [TypeTable.string, hbasics.basic?_basic]; rfl
    | untypedNil => rw [TypeTable.basic?_of_get h.right]; rfl
    | untypedInt | untypedRune | untypedFloat | untypedComplex | untypedBigInt | untypedBigRat =>
      exact absurd rfl hother
    | _ => cases h.rightUntyped
  rw [hno, Bool.not_false, if_pos rfl] at hrest
  exact Fails.fails hrest

/-- They are compared if the kind that they are brought to is ordered, or needs no order. -/
theorem lowerComparison_ok_iff (h : Apart s.types left right a b) (hbasics : s.types.HasBasics)
    (hleft : left.mode = .value) (hright : right.mode = .value) :
    (∃ r s', lowerComparison op left right span c s = (.ok r, s')) ↔
      (op.NeedsOrder → isOrdered (Constant.promote a b (.int 0)) = true) := by
  have hkind := hbasics.basic?_basic (Constant.promote a b (.int 0))
  constructor
  · rintro ⟨r, s', hrun⟩ horder
    rcases lowerComparison_ok hrun with ⟨hnil, -⟩ | ⟨-, hnil, -⟩ |
      ⟨-, -, common, s₁, hunify, hordered⟩
    · rw [hleft] at hnil
      cases hnil
    · rw [hright] at hnil
      cases hnil
    · rw [h.run_unify] at hunify
      cases hunify
      obtain ⟨kind, hbasic, hordered⟩ := hordered horder
      rwa [← Option.some.inj (hbasic.symm.trans hkind)]
  · intro hordered
    have hchecked : (op != .equal && op != .notEqual &&
        !isOrdered (Constant.promote a b (.int 0))) = false := by
      by_contra hno
      simp only [Bool.not_eq_false, Bool.and_eq_true, bne_iff_ne, ne_eq,
        Bool.not_eq_true'] at hno
      rw [hordered hno.1] at hno
      cases hno.2
    unfold lowerComparison
    dsimp only
    rw [hleft, hright]
    dsimp only
    rw [run_bind, h.run_unify]
    dsimp only
    rw [run_basicOf?_bind, hkind, Option.any_some, hchecked, if_neg Bool.false_ne_true]
    exact ⟨_, _, rfl⟩

/-- They are operated on if the operator is one on the kind that they are brought to. -/
theorem lowerArithmetic_ok_iff (h : Apart s.types left right a b) (hbasics : s.types.HasBasics) :
    (∃ r s', lowerArithmetic op left right span c s = (.ok r, s')) ↔
      if op.isLogical then Constant.promote a b (.int 0) = .untypedBool
      else isDefinedOn op (Constant.promote a b (.int 0)) = true := by
  have hkind := hbasics.basic?_basic (Constant.promote a b (.int 0))
  have huntyped := Constant.isUntyped_promote h.leftUntyped h.rightUntyped 0
  unfold lowerArithmetic
  rw [run_bind, h.run_unify]
  dsimp only
  cases op.isLogical with
  | true =>
    have htruth : (Constant.promote a b (.int 0) == .bool ||
        Constant.promote a b (.int 0) == .untypedBool) = true ↔
          Constant.promote a b (.int 0) = .untypedBool := by
      revert huntyped
      generalize Constant.promote a b (.int 0) = kind
      cases kind <;> decide
    rw [if_pos rfl, if_pos rfl, run_bind, run_isBoolean_basic hbasics]
    dsimp only
    split
    · rename_i hvalid
      exact iff_of_true ⟨_, _, rfl⟩ (htruth.mp hvalid)
    · rename_i hinvalid
      exact iff_of_false (fun ⟨_, _, h⟩ => Fails.fails h) (mt htruth.mpr hinvalid)
  | false =>
    rw [if_neg Bool.false_ne_true, if_neg Bool.false_ne_true, run_basicOf?_bind, hkind, pure_bind,
      Option.any_some]
    split
    · rename_i hdefined
      exact iff_of_true ⟨_, _, rfl⟩ hdefined
    · rename_i hundefined
      exact iff_of_false (fun ⟨_, _, h⟩ => Fails.fails h) hundefined

/-- The operations of the host that they are accepted in. -/
theorem lowerHostBinary_ok_iff (h : Apart s.types left right a b) (hbasics : s.types.HasBasics)
    (hleft : left.mode = .value) (hright : right.mode = .value) :
    (∃ r s', lowerHostBinary op left right span c s = (.ok r, s')) ↔
      OperatesOn op (Constant.promote a b (.int 0)) := by
  unfold lowerHostBinary OperatesOn
  cases op.isShift with
  | true =>
    rw [if_pos rfl]
    exact iff_of_false (h.not_lowerShift_ok hbasics hright) (by rintro ⟨⟨⟩, -⟩)
  | false =>
    rw [if_neg Bool.false_ne_true]
    cases op.isComparison with
    | true =>
      rw [if_pos rfl, if_pos rfl, h.lowerComparison_ok_iff hbasics hleft hright]
      exact (and_iff_right rfl).symm
    | false =>
      rw [if_neg Bool.false_ne_true, if_neg Bool.false_ne_true, h.lowerArithmetic_ok_iff hbasics]
      exact (and_iff_right rfl).symm

end Apart

/-! ## Values -/

/-- Whether two values can be brought to one type does not depend on their order, and each of them
is of use as a value of that type unless they are untyped ones of different families, and only then.
Of those an operation of the host is accepted just in case it is one on the kind that they are
promoted to. -/
theorem unify_usable_iff (htypes : TypeTable.initial.Grows s.types)
    (hleft : left.IsValid s.types) (hright : right.IsValid s.types) (span : Span) :
    ((∃ common s', unify left right span c s = (.ok common, s')) ↔
        ∃ common s', unify right left span c s = (.ok common, s')) ∧
      ((∀ l r type s', unify left right span c s = (.ok (l, r, type), s') →
          Usable c s left type ∧ Usable c s right type) ↔
        ∀ a b, ¬Apart s.types left right a b) ∧
      ∀ a b, Apart s.types left right a b → ∀ op,
        ((∃ r s', lowerHostBinary op left right span c s = (.ok r, s')) ↔
          OperatesOn op (Constant.promote a b (.int 0))) := by
  have hbasics := (TypeTable.hasFixed_of_grows htypes).basics
  refine ⟨unify_ok_comm, ⟨fun husable a b hapart => ?_, fun hfamilies l r type s' h => ?_⟩,
    fun a b hapart op => hapart.lowerHostBinary_ok_iff hbasics hleft.mode hright.mode⟩
  · exact hapart.not_usable hbasics (husable _ _ _ _ hapart.run_unify)
  · exact usable_of_unify hbasics hleft hright h hfamilies

/-- Of `1` and a variable of type `int` both are of use as an `int`. -/
theorem unify_usable_iff_counter :
    TypeTable.initial.Grows bigState.types ∧ one.IsValid bigState.types ∧
      counter.IsValid bigState.types ∧
      (∃ l r s', unify one counter .synthetic bigContext bigState =
        (.ok (l, r, TypeTable.int), s')) ∧
      Usable bigContext bigState one TypeTable.int ∧
      Usable bigContext bigState counter TypeTable.int := by
  have hone : one.IsValid bigState.types := ⟨rfl, by decide +kernel⟩
  have hcounter : counter.IsValid bigState.types := ⟨rfl, by decide +kernel⟩
  obtain ⟨s', hrun⟩ : ∃ s', unify one counter .synthetic bigContext bigState =
      (.ok (one.id, counter.id, TypeTable.int), s') := ⟨_, Prod.ext (by decide +kernel) rfl⟩
  have hfamilies : ∀ a b, ¬Apart bigState.types one counter a b := by
    intro a b hapart
    have hget : bigState.types.get counter.type = .basic .int := by decide +kernel
    obtain rfl := Ty.basic.inj (hapart.right.symm.trans hget)
    cases hapart.rightUntyped
  obtain ⟨-, husable, -⟩ := unify_usable_iff (c := bigContext) grows_bigTypes hone hcounter
    .synthetic
  exact ⟨grows_bigTypes, hone, hcounter, ⟨_, _, _, hrun⟩, husable.mpr hfamilies _ _ _ _ hrun⟩

/-- `"a"` and `1` are brought to the type of untyped strings, of which `1` is no value; they are
added, compared and put in order. -/
theorem unify_usable_letter :
    letter.IsValid bigState.types ∧ one.IsValid bigState.types ∧
      (unify letter one .synthetic bigContext bigState).1 =
        .ok (letter.id, one.id, TypeTable.basic .untypedString) ∧
      ¬Usable bigContext bigState one (TypeTable.basic .untypedString) ∧
      ∀ op ∈ [BinaryOp.add, .equal, .less],
        (lowerBinary op letter one .synthetic bigContext bigState).1.isOk = true := by
  have hget : bigState.types.get one.type = .basic .untypedInt := by decide +kernel
  have htext : bigState.types.get (TypeTable.basic .untypedString) = .basic .untypedString := by
    decide +kernel
  exact ⟨⟨rfl, by decide +kernel⟩, ⟨rfl, by decide +kernel⟩, by decide +kernel,
    not_usable_of_family hget htext rfl rfl (by decide), by decide +kernel⟩

end Lowering

end GoLowering
