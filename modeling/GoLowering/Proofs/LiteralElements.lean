import GoLowering.Proofs.CommonTypes
import GoLowering.Proofs.ConstantExpressions
import GoLowering.Proofs.HostComparisons

/-!
# Elements of literals

The type that the elements of a literal have in common is found by the kinds of the constants among
them, and each element is then taken as a value of it by its own value. `coerce_common_iff` says
which elements are refused there (`Misfits`): all others are values of the common type.
-/

namespace GoLowering

namespace TypeTable

/-- A table that begins like all others. -/
structure HasFixed (t : TypeTable) : Prop where
  basics : t.HasBasics
  any : t.get any = .interface []

theorem hasFixed_of_grows {t : TypeTable} (h : initial.Grows t) : t.HasFixed where
  basics := HasBasics.grows get_basic h
  any := by rw [h.get_eq (by rw [get_any]; nofun) (by rw [get_any]; rfl), get_any]

/-- Unbounded constants go to interfaces only. -/
theorem isInterface_of_untypedAssignable {t : TypeTable} {kind : BasicType} {target : TypeId}
    (hbig : kind.isUntypedBig = true) (h : t.untypedAssignable kind target = true) :
    t.isInterface target = true := by
  by_contra hinterface
  rw [untypedAssignable, if_neg hinterface] at h
  cases kind with
  | untypedBigInt | untypedBigRat => cases hshape : t.shape target <;> simp [hshape] at h
  | _ => cases hbig

namespace HasFixed

variable {t : TypeTable} (h : t.HasFixed)

include h

theorem shape_any : t.shape TypeTable.any = .interface [] := by
  simp only [shape, underlying, resolve, h.any]

theorem isInterface_any : t.isInterface TypeTable.any = true := by
  rw [isInterface, h.shape_any]

theorem isNilable_any : t.isNilable TypeTable.any = true := by
  rw [isNilable, h.shape_any]

theorem basic?_any : t.basic? TypeTable.any = none := by
  rw [basic?, h.shape_any]

/-- Everything is assignable to `interface{}`. -/
theorem assignable_any (hasMethod : TypeId → String → Bool) (source : TypeId) :
    t.assignable hasMethod source TypeTable.any = true := by
  have htyped : t.typedAssignable hasMethod source TypeTable.any = true := by
    rw [typedAssignable, h.shape_any]
    rfl
  have huntyped (kind : BasicType) : t.untypedAssignable kind TypeTable.any = true := by
    rw [untypedAssignable, h.isInterface_any, h.isNilable_any]
    simp
  unfold assignable
  split
  · rfl
  · split
    · split
      · exact huntyped _
      · exact htyped
    · exact htyped

end HasFixed

end TypeTable

namespace Lowering

variable {c : Context} {s s' : State} {operands : List Operand} {operand : Operand}
  {type target : TypeId} {span : Span}

/-! ## Values of a type -/

/-- The runs of `defaultValue` on an unbounded constant that end well. -/
theorem defaultValue_big_ok_iff (hsingle : operand.IsSingle s.types) (hmode : operand.mode = .value)
    (hbig : s.types.isBig operand.type = true) :
    (∃ r s', defaultValue operand c s = (.ok r, s')) ↔
      ∃ entry, (s.types.basic? operand.type).bind c.registry.defaultFor? = some entry ∧
        ∃ id s', materialize operand entry.type c s = (.ok id, s') := by
  have hnil : (operand.mode == .nil) = false := by rw [hmode]; rfl
  have hdefault : bigDefault? operand.type c s =
      (.ok (((s.types.basic? operand.type).bind c.registry.defaultFor?).map (·.type)), s) := rfl
  unfold defaultValue
  rw [run_bind, hsingle.run_checkValue]
  simp only [hnil, Bool.false_eq_true, if_false, run_isUntypedBig_bind, hbig, if_true]
  rw [run_bind, hdefault]
  cases (s.types.basic? operand.type).bind c.registry.defaultFor? with
  | none =>
    refine iff_of_false ?_ (by rintro ⟨entry, ⟨⟩, -⟩)
    rintro ⟨r, s', h⟩
    cases h
  | some entry =>
    constructor
    · rintro ⟨r, s', h⟩
      obtain ⟨id, s₁, hmaterialize, -⟩ := bind_ok.mp h
      exact ⟨entry, rfl, id, s₁, hmaterialize⟩
    · rintro ⟨_, ⟨⟩, id, s₁, hmaterialize⟩
      exact ⟨_, s₁, bind_ok.mpr ⟨id, s₁, hmaterialize, rfl⟩⟩

theorem run_assignable_bind {α : Type} (source target : TypeId) (f : Bool → Lower α) :
    (assignable source target >>= f) c s =
      f (s.types.assignable (fun id name => (s.method? c.env id name).isSome) source target) c s :=
  rfl

/-- When a value of a valid type is taken as one of a valid type. -/
theorem coerce_ok_iff (hsingle : operand.IsSingle s.types) (hmode : operand.mode = .value)
    (hvalid : s.types.isInvalid operand.type = false) (htarget : s.types.isInvalid target = false) :
    (∃ id s', coerce operand target c s = (.ok id, s')) ↔
      if s.types.isUntyped operand.type = true ∧ operand.constant.isSome = true ∧
          (c.registry.get? target).isSome = true then
        ∃ id s', materialize operand target c s = (.ok id, s')
      else if s.types.isBig operand.type = true then
        s.types.isInterface target = true ∧ ∃ r s', defaultValue operand c s = (.ok r, s')
      else
        (s.types.isUntyped operand.type = true →
          overflows BasicType.isNumeric operand.constant (s.types.basic? target) = false) ∧
        s.assignable c operand.type target := by
  have hnil : (operand.mode == .nil) = false := by rw [hmode]; rfl
  have hrun : coerce operand target c s =
      (if s.types.isUntyped operand.type && operand.constant.isSome &&
          (c.registry.get? target).isSome then
        materialize operand target
      else if s.types.isBig operand.type then
        if s.types.isInterface target then do return (← defaultValue operand).1
        else failMismatch operand target
      else if s.types.isUntyped operand.type &&
          overflows BasicType.isNumeric operand.constant (s.types.basic? target) then
        failOverflow operand
      else do
        if ← assignable operand.type target then return operand.id
        else failMismatch operand target : Lower HostId) c s := by
    unfold coerce
    rw [run_bind, hsingle.run_checkValue]
    dsimp only
    rw [run_bind, run_getTypes]
    simp only [hvalid, htarget, hnil, Bool.or_false, Bool.false_eq_true, if_false]
    rw [run_read]
    split
    · rfl
    · rw [run_isUntypedBig_bind]
  rw [hrun]
  simp only [Bool.and_eq_true, and_assoc]
  split
  · exact Iff.rfl
  · split
    · cases s.types.isInterface target with
      | true =>
        simp only [if_true, true_and]
        constructor
        · rintro ⟨id, s', h⟩
          obtain ⟨r, s₁, hdefault, -⟩ := bind_ok.mp h
          exact ⟨r, s₁, hdefault⟩
        · rintro ⟨r, s₁, hdefault⟩
          exact ⟨r.1, s₁, bind_ok.mpr ⟨r, s₁, hdefault, rfl⟩⟩
      | false =>
        simp only [Bool.false_eq_true, if_false, false_and, iff_false]
        rintro ⟨id, s', h⟩
        exact Fails.fails h
    · split
      · rename_i hoverflow
        refine iff_of_false ?_ ?_
        · rintro ⟨id, s', h⟩
          exact Fails.fails h
        · rintro ⟨hfits, -⟩
          rw [hfits hoverflow.1] at hoverflow
          cases hoverflow.2
      · rename_i hfits
        have hfits : s.types.isUntyped operand.type = true →
            overflows BasicType.isNumeric operand.constant (s.types.basic? target) = false := by
          intro huntyped
          by_contra hwide
          exact hfits ⟨huntyped, by simpa using hwide⟩
        rw [run_assignable_bind, State.assignable]
        cases s.types.assignable (fun id name => (s.method? c.env id name).isSome) operand.type
          target with
        | true => exact iff_of_true ⟨operand.id, s, rfl⟩ ⟨hfits, rfl⟩
        | false =>
          refine iff_of_false ?_ (by rintro ⟨-, ⟨⟩⟩)
          rintro ⟨id, s', h⟩
          simp only [Bool.false_eq_true, if_false] at h
          exact Fails.fails h

/-! ## Types of constants -/

/-- A constant of one class with a type: its values are there, apart from their size. -/
def InClass (kind wanted : BasicType) : Bool :=
  match kind with
  | .untypedBool => wanted == .bool
  | .untypedString => wanted == .string
  | .untypedInt | .untypedRune | .untypedFloat | .untypedComplex => wanted.isNumeric
  | _ => false

/-- The types that constants by themselves have in common. -/
inductive ConstantsType (c : Context) (kinds : List BasicType) : TypeId → Prop
  | any : ConstantsType c kinds TypeTable.any
  | registered {type : TypeId} (h : (c.registry.get? type).isSome = true) :
      ConstantsType c kinds type
  | basic {wanted : BasicType} (h : ∀ kind ∈ kinds, InClass kind wanted = true) :
      ConstantsType c kinds (TypeTable.basic wanted)

theorem commonBigType_ok {kinds : List BasicType}
    (h : commonBigType kinds span c s = (.ok type, s')) : ConstantsType c kinds type := by
  unfold commonBigType at h
  split at h
  · exact absurd h Fails.fails
  · dsimp only at h
    rw [run_read] at h
    obtain ⟨rfl, -⟩ := pure_ok.mp h
    cases hdefault : c.registry.defaultFor? (if (kinds.contains .untypedBigRat ||
        widest? kinds == some .untypedFloat) = true then .untypedBigRat else .untypedBigInt) with
    | none => exact .any
    | some entry =>
      refine .registered ?_
      simp [Registry.get?_of_defaultFor? hdefault]

theorem widest?_eq_some {kinds : List BasicType} {kind : BasicType}
    (h : widest? kinds = some kind) :
    kind = .untypedComplex ∨ kind = .untypedFloat ∨ kind = .untypedRune ∨ kind = .untypedInt := by
  have hmem := List.mem_of_find?_eq_some h
  simpa using hmem

theorem widest?_eq_none {kinds : List BasicType} (h : widest? kinds = none) {kind : BasicType}
    (hkind : kind ∈ kinds) : kind ≠ .untypedComplex ∧ kind ≠ .untypedFloat ∧
      kind ≠ .untypedRune ∧ kind ≠ .untypedInt := by
  have hnone := List.find?_eq_none.mp h
  refine ⟨?_, ?_, ?_, ?_⟩ <;> rintro rfl
  · exact hnone .untypedComplex (by simp) (List.contains_iff_mem.mpr hkind)
  · exact hnone .untypedFloat (by simp) (List.contains_iff_mem.mpr hkind)
  · exact hnone .untypedRune (by simp) (List.contains_iff_mem.mpr hkind)
  · exact hnone .untypedInt (by simp) (List.contains_iff_mem.mpr hkind)

theorem one_of_count {numeric strings bools : Bool}
    (h : ¬([numeric, strings, bools].count true != 1) = true) :
    (numeric = true ∧ strings = false ∧ bools = false) ∨
      (numeric = false ∧ strings = true ∧ bools = false) ∨
      (numeric = false ∧ strings = false ∧ bools = true) := by
  revert h
  cases numeric <;> cases strings <;> cases bools <;> decide

theorem not_mem_of_contains {kinds : List BasicType} {kind : BasicType}
    (h : kinds.contains kind = false) : kind ∉ kinds := by
  intro hmem
  rw [List.contains_iff_mem.mpr hmem] at h
  cases h

/-- The kinds of ordinary constants: numbers, strings and truth values. -/
theorem ordinary_cases {kind : BasicType} (huntyped : kind.isUntyped = true)
    (hnil : kind ≠ .untypedNil) (hsmall : kind.isUntypedBig = false) :
    (kind = .untypedComplex ∨ kind = .untypedFloat ∨ kind = .untypedRune ∨ kind = .untypedInt) ∨
      kind = .untypedString ∨ kind = .untypedBool := by
  cases kind <;> simp_all [BasicType.isUntyped, BasicType.isUntypedBig]

theorem commonUntypedType_ok {kinds : List BasicType} (hbasics : s.types.HasBasics)
    (huntyped : ∀ kind ∈ kinds, kind.isUntyped = true ∧ kind ≠ .untypedNil)
    (h : commonUntypedType kinds span c s = (.ok type, s')) : ConstantsType c kinds type := by
  unfold commonUntypedType at h
  split at h
  · obtain ⟨rfl, -⟩ := pure_ok.mp h
    exact .any
  rename_i hclass
  split at h
  · exact commonBigType_ok h
  rename_i hsmall
  have hany : kinds.any BasicType.isUntypedBig = false := by simpa using hsmall
  have hcases {kind : BasicType} (hkind : kind ∈ kinds) :=
    ordinary_cases (huntyped kind hkind).1 (huntyped kind hkind).2
      (by simpa using List.any_eq_false.mp hany kind hkind)
  have hone := one_of_count hclass
  rw [hany, Bool.false_or] at hone
  cases hwidest : widest? kinds with
  | some widest =>
    rw [hwidest] at h hone
    obtain ⟨-, hstrings, hbools⟩ | ⟨⟨⟩, -⟩ | ⟨⟨⟩, -⟩ := hone
    have hnumeric {wanted : BasicType} (hwanted : wanted.isNumeric = true) :
        ∀ kind ∈ kinds, InClass kind wanted = true := by
      intro kind hkind
      rcases hcases hkind with (rfl | rfl | rfl | rfl) | rfl | rfl
      · exact hwanted
      · exact hwanted
      · exact hwanted
      · exact hwanted
      · exact absurd hkind (not_mem_of_contains hstrings)
      · exact absurd hkind (not_mem_of_contains hbools)
    obtain ⟨htype, -⟩ := Prod.mk.inj h
    obtain rfl : s.types.defaultType (TypeTable.basic widest) = type := Except.ok.inj htype
    rw [TypeTable.defaultType, hbasics]
    rcases widest?_eq_some hwidest with rfl | rfl | rfl | rfl
    · exact .basic (hnumeric rfl)
    · exact .basic (hnumeric rfl)
    · exact .basic (hnumeric rfl)
    · exact .basic (hnumeric rfl)
  | none =>
    rw [hwidest] at h hone
    obtain ⟨rfl, -⟩ := pure_ok.mp h
    have hcases {kind : BasicType} (hkind : kind ∈ kinds) :
        kind = .untypedString ∨ kind = .untypedBool := by
      obtain ⟨hcomplex, hfloat, hrune, hint⟩ := widest?_eq_none hwidest hkind
      refine (hcases hkind).resolve_left ?_
      rintro (rfl | rfl | rfl | rfl) <;> contradiction
    rcases hone with ⟨⟨⟩, -⟩ | ⟨-, hstrings, hbools⟩ | ⟨-, hstrings, hbools⟩
    · rw [if_pos hstrings]
      refine .basic (fun kind hkind => ?_)
      rcases hcases hkind with rfl | rfl
      · rfl
      · exact absurd hkind (not_mem_of_contains hbools)
    · rw [hstrings]
      refine .basic (fun kind hkind => ?_)
      rcases hcases hkind with rfl | rfl
      · exact absurd hkind (not_mem_of_contains hstrings)
      · rfl

/-! ## Elements -/

/-- What keeps an untyped element out of the type that the elements of a literal have in common. -/
inductive Obstacle (c : Context) (s : State) (operands : List Operand) (operand : Operand)
    (type : TypeId) : Prop
  /-- The type is registered and has no initializer for the constant. -/
  | unbuilt {entry : RegisteredType} {value : Constant}
      (hentry : c.registry.get? type = some entry) (hvalue : operand.constant = some value)
      (hnone : entry.initializer? (s.types.isBig operand.type) value = none)
  /-- The type is an interface, and an unbounded constant has no registered type by default or one
  without an initializer for it. -/
  | undefaulted {value : Constant} (hfree : c.registry.get? type = none)
      (hinterface : s.types.isInterface type = true)
      (hbig : s.types.isBig operand.type = true) (hvalue : operand.constant = some value)
      (hnone : ∀ entry, (s.types.basic? operand.type).bind c.registry.defaultFor? = some entry →
        entry.initializer? true value = none)
  /-- All elements are constants, and the default type of the widest kind among them does not hold
  the value of this one. -/
  | tooWide {kind : BasicType} {value : Constant}
      (huntyped : ∀ other ∈ operands, s.types.isUntyped other.type = true)
      (hfree : c.registry.get? type = none) (hsmall : s.types.isBig operand.type = false)
      (hkind : s.types.basic? type = some kind) (hnumeric : kind.isNumeric = true)
      (hvalue : operand.constant = some value) (hwide : value.representable kind = false)
  /-- The value of the element is not known, so that no initializer is looked for. -/
  | unknown (hconstant : operand.constant = none)
      (hunfit : s.types.isBig operand.type = true ∨ ¬s.assignable c operand.type type)

/-- An element that is no value of the type that the elements of a literal have in common. -/
structure Misfits (c : Context) (s : State) (operands : List Operand) (operand : Operand)
    (type : TypeId) : Prop where
  value : operand.mode = .value
  untyped : s.types.isUntyped operand.type = true
  valid : s.types.isInvalid type = false
  obstacle : Obstacle c s operands operand type

/-! ## Elements beside others -/

theorem untypedKind?_eq_some {types : TypeTable} {kind : BasicType} :
    untypedKind? types operand = some kind ↔
      types.get operand.type = .basic kind ∧ kind.isUntyped = true := by
  unfold untypedKind?
  cases types.get operand.type with
  | basic kind' =>
    simp only [Option.ite_none_right_eq_some, Option.some.injEq, Ty.basic.injEq]
    constructor
    · rintro ⟨huntyped, rfl⟩
      exact ⟨rfl, huntyped⟩
    · rintro ⟨rfl, huntyped⟩
      exact ⟨huntyped, rfl⟩
  | _ => simp

theorem isUntyped_eq (types : TypeTable) (operand : Operand) :
    types.isUntyped operand.type = (untypedKind? types operand).isSome := by
  unfold TypeTable.isUntyped untypedKind?
  cases types.get operand.type with
  | basic kind => cases h : kind.isUntyped <;> simp [h]
  | _ => rfl

theorem isBig_eq {types : TypeTable} {kind : BasicType}
    (h : types.get operand.type = .basic kind) :
    types.isBig operand.type = kind.isUntypedBig := by
  rw [TypeTable.isBig, h]

theorem isInvalid_of_untyped {types : TypeTable} (h : types.isUntyped type = true) :
    types.isInvalid type = false := by
  rw [TypeTable.isInvalid_eq_false]
  intro hget
  rw [TypeTable.isUntyped, hget] at h
  cases h

theorem isBig_of_typed {types : TypeTable} (h : types.isUntyped operand.type = false) :
    types.isBig operand.type = false := by
  unfold TypeTable.isUntyped at h
  unfold TypeTable.isBig
  cases hget : types.get operand.type with
  | basic kind =>
    rw [hget] at h
    cases kind <;> first | rfl | cases h
  | _ => rfl

theorem overflows_none (constant : Option Constant) (inClass : BasicType → Bool) :
    overflows inClass constant none = false := by
  cases constant <;> rfl

/-- An untyped operand beside elements of an unregistered type. -/
structure Fits (c : Context) (s : State) (operands : List Operand) (operand : Operand)
    (type : TypeId) : Prop where
  assignable : s.assignable c operand.type type
  interface : s.types.isBig operand.type = true → s.types.isInterface type = true
  overflows : overflows BasicType.isNumeric operand.constant (s.types.basic? type) = true →
    ∀ other ∈ operands, s.types.isUntyped other.type = true

theorem fits_any (hfixed : s.types.HasFixed) : Fits c s operands operand TypeTable.any where
  assignable := hfixed.assignable_any _ _
  interface _ := hfixed.isInterface_any
  overflows h := by
    rw [hfixed.basic?_any, overflows_none] at h
    cases h

theorem fits_basic {kind wanted : BasicType} (hbasics : s.types.HasBasics)
    (hget : s.types.get operand.type = .basic kind) (hclass : InClass kind wanted = true)
    (hall : ∀ other ∈ operands, s.types.isUntyped other.type = true) :
    Fits c s operands operand (TypeTable.basic wanted) where
  assignable := by
    have hshape : s.types.shape (TypeTable.basic wanted) = .basic wanted :=
      TypeTable.shape_of_basic? (hbasics.basic?_basic wanted)
    have hinterface : s.types.isInterface (TypeTable.basic wanted) = false := by
      rw [TypeTable.isInterface, hshape]
    unfold State.assignable TypeTable.assignable
    split
    · rfl
    · rw [hget]
      cases kind <;> first
        | cases hclass
        | (simp only [BasicType.isUntyped, if_true, TypeTable.untypedAssignable, hinterface, hshape]
           exact hclass)
  interface hbig := by
    rw [isBig_eq hget] at hbig
    cases kind <;> first | cases hclass | cases hbig
  overflows _ := hall

theorem fits_of_agree {kind : BasicType} (hagree : Agree c s operands type)
    (hmem : operand ∈ operands) (hkind : untypedKind? s.types operand = some kind)
    (hfree : c.registry.get? type = none) (hvalid : s.types.isInvalid type = false)
    (htyped : s.types.isUntyped type = false) : Fits c s operands operand type := by
  have hfits := hagree operand hmem
  rw [hkind] at hfits
  simp only [fits, hfree, Option.isSome_none, Bool.false_eq_true, if_false, Bool.and_eq_true,
    Bool.not_eq_true'] at hfits
  refine ⟨hfits.1, fun hbig => ?_, fun hwide => ?_⟩
  · obtain ⟨hget, huntyped⟩ := untypedKind?_eq_some.mp hkind
    rw [isBig_eq hget] at hbig
    have hassignable := hfits.1
    have hne : (operand.type == type) = false := by
      refine beq_eq_false_iff_ne.mpr ?_
      rintro rfl
      rw [isUntyped_eq, hkind] at htyped
      cases htyped
    have hsource : s.types.isInvalid operand.type = false := by
      rw [TypeTable.isInvalid_eq_false, hget]
      rintro ⟨⟩
    rw [TypeTable.assignable, hne, hsource, hvalid, hget] at hassignable
    simp only [Bool.or_false, Bool.false_eq_true, if_false, huntyped, if_true] at hassignable
    exact TypeTable.isInterface_of_untypedAssignable hbig hassignable
  · rw [hfits.2] at hwide
    cases hwide

/-- The common type is `interface{}`, or one that constants have in common, or a type of which one
element is and with which all agree. -/
theorem commonType_cases (hbasics : s.types.HasBasics)
    (hcommon : commonType operands span c s = (.ok type, s')) :
    type = TypeTable.any ∨ (∀ operand ∈ operands, ¬IsNothing s.types operand) ∧
      ((∀ operand ∈ operands, s.types.isUntyped operand.type = true) ∧
          ConstantsType c (operands.filterMap (untypedKind? s.types)) type ∨
        s.types.isUntyped type = false ∧ Agree c s operands type) := by
  have hsingle : ∀ operand ∈ operands, operand.IsSingle s.types := by
    obtain ⟨_, s₁, hcheck, -⟩ := bind_ok.mp hcommon
    exact (forM_checkValue_ok_iff.mp hcheck).1
  rw [run_commonType hsingle] at hcommon
  by_cases hnothing : ∃ operand ∈ operands, IsNothing s.types operand
  · rw [if_pos hnothing] at hcommon
    exact .inl (Except.ok.inj (Prod.mk.inj hcommon).1).symm
  rw [if_neg hnothing] at hcommon
  have hsome : ∀ operand ∈ operands, ¬IsNothing s.types operand :=
    fun operand hmem h => hnothing ⟨operand, hmem, h⟩
  cases htyped : typedOf s.types operands with
  | nil =>
    rw [htyped] at hcommon
    refine .inr ⟨hsome, .inl ⟨fun operand hmem => ?_, ?_⟩⟩
    · by_contra hno
      rw [isUntyped_eq, Bool.not_eq_true, Option.isSome_eq_false_iff, Option.isNone_iff_eq_none]
        at hno
      have hin := mem_typedOf.mpr ⟨hmem, hno⟩
      rw [htyped] at hin
      exact absurd hin List.not_mem_nil
    · refine commonUntypedType_ok hbasics (fun kind hkind => ?_) hcommon
      obtain ⟨operand, hmem, hkind⟩ := List.mem_filterMap.mp hkind
      refine ⟨(untypedKind?_eq_some.mp hkind).2, ?_⟩
      rintro rfl
      exact hsome operand hmem (.inr hkind)
  | cons first rest =>
    rw [htyped] at hcommon
    have htype := Except.ok.inj (Prod.mk.inj hcommon).1
    by_cases hagree : Agree c s operands first.type
    · rw [if_pos hagree] at htype
      have hfirst := (mem_typedOf.mp (htyped ▸ List.mem_cons_self :
        first ∈ typedOf s.types operands)).2
      refine .inr ⟨hsome, .inr ⟨?_, htype ▸ hagree⟩⟩
      rw [← htype, isUntyped_eq, hfirst]
      rfl
    · rw [if_neg hagree] at htype
      exact .inl htype.symm

/-- Every untyped element fits into the common type, but for its value. -/
theorem fits_of_common (hfixed : s.types.HasFixed)
    (hcommon : commonType operands span c s = (.ok type, s')) (hmem : operand ∈ operands)
    (huntyped : s.types.isUntyped operand.type = true)
    (hfree : c.registry.get? type = none) (hvalid : s.types.isInvalid type = false) :
    Fits c s operands operand type := by
  rw [isUntyped_eq, Option.isSome_iff_exists] at huntyped
  obtain ⟨kind, hkind⟩ := huntyped
  rcases commonType_cases hfixed.basics hcommon with
    rfl | ⟨-, ⟨hall, hconstants⟩ | ⟨htyped, hagree⟩⟩
  · exact fits_any hfixed
  · cases hconstants with
    | any => exact fits_any hfixed
    | registered h =>
      rw [hfree] at h
      cases h
    | basic h =>
      have hclass := h kind (List.mem_filterMap.mpr ⟨operand, hmem, hkind⟩)
      exact fits_basic hfixed.basics (untypedKind?_eq_some.mp hkind).1 hclass hall
  · exact fits_of_agree hagree hmem hkind hfree hvalid htyped

/-- Every typed element is a value of the common type. -/
theorem assignable_of_common (hfixed : s.types.HasFixed)
    (hcommon : commonType operands span c s = (.ok type, s')) (hmem : operand ∈ operands)
    (htyped : s.types.isUntyped operand.type = false) : s.assignable c operand.type type := by
  rcases commonType_cases hfixed.basics hcommon with rfl | ⟨-, ⟨hall, -⟩ | ⟨-, hagree⟩⟩
  · exact hfixed.assignable_any _ _
  · rw [hall operand hmem] at htyped
    cases htyped
  · have hnone : untypedKind? s.types operand = none := by
      rw [isUntyped_eq, Option.isSome_eq_false_iff, Option.isNone_iff_eq_none] at htyped
      exact htyped
    have htype := hagree.type_eq (mem_typedOf.mpr ⟨hmem, hnone⟩)
    rw [State.assignable, htype]
    exact TypeTable.assignable_refl ..

/-- Beside a `nil` all elements are values of `interface{}`. -/
theorem any_of_nil (hbasics : s.types.HasBasics)
    (hcommon : commonType operands span c s = (.ok type, s')) (hmem : operand ∈ operands)
    (hmode : operand.mode = .nil) : type = TypeTable.any := by
  rcases commonType_cases hbasics hcommon with htype | ⟨hsome, -⟩
  · exact htype
  · exact absurd (.inl hmode) (hsome operand hmem)

/-- Where something has failed before, the operand is taken as it is. -/
theorem coerce_of_invalid (hsingle : operand.IsSingle s.types)
    (hinvalid : (s.types.isInvalid operand.type || s.types.isInvalid target) = true) :
    coerce operand target c s = (.ok operand.id, s) := by
  unfold coerce
  rw [run_bind, hsingle.run_checkValue]
  dsimp only
  rw [run_bind, run_getTypes]
  simp only [hinvalid, if_true]
  rfl

theorem coerce_nil (hsingle : operand.IsSingle s.types) (hmode : operand.mode = .nil)
    (hnilable : s.types.isNilable target = true) :
    coerce operand target c s = (.ok operand.id, s) := by
  cases hinvalid : s.types.isInvalid operand.type || s.types.isInvalid target with
  | true => exact coerce_of_invalid hsingle hinvalid
  | false =>
    have hnil : (operand.mode == .nil) = true := by rw [hmode]; rfl
    unfold coerce
    rw [run_bind, hsingle.run_checkValue]
    dsimp only
    rw [run_bind, run_getTypes]
    simp only [hinvalid, hnil, hnilable, Bool.false_eq_true, if_false, if_true]
    rfl

/-- An element without a known value. -/
theorem coerce_unknown_iff (hsingle : operand.IsSingle s.types) (hmode : operand.mode = .value)
    (hsource : s.types.isInvalid operand.type = false) (hvalid : s.types.isInvalid type = false)
    (huntyped : s.types.isUntyped operand.type = true) (hconstant : operand.constant = none) :
    (∃ id s', coerce operand type c s = (.ok id, s')) ↔ ¬Misfits c s operands operand type := by
  rw [coerce_ok_iff hsingle hmode hsource hvalid, if_neg (by simp [hconstant])]
  split
  · rename_i hbig
    refine iff_of_false ?_ (not_not.mpr ⟨hmode, huntyped, hvalid, .unknown hconstant (.inl hbig)⟩)
    rintro ⟨-, hdefault⟩
    obtain ⟨entry, -, hmaterialize⟩ := (defaultValue_big_ok_iff hsingle hmode hbig).mp hdefault
    obtain ⟨_, _, _, -, hvalue, -⟩ := materialize_ok_iff.mp hmaterialize
    rw [hconstant] at hvalue
    cases hvalue
  · rename_i hbig
    constructor
    · rintro ⟨-, hassignable⟩ hmisfits
      cases hmisfits.obstacle with
      | unbuilt _ hvalue _ | undefaulted _ _ _ hvalue _ | tooWide _ _ _ _ _ hvalue _ =>
        rw [hconstant] at hvalue
        cases hvalue
      | unknown _ hunfit => exact hunfit.elim hbig (fun h => h hassignable)
    · intro hno
      refine ⟨fun _ => by rw [hconstant]; rfl, ?_⟩
      by_contra hassignable
      exact hno ⟨hmode, huntyped, hvalid, .unknown hconstant (.inr hassignable)⟩

/-- A constant of a registered type. -/
theorem coerce_registered_iff {entry : RegisteredType} {value : Constant}
    (hsingle : operand.IsSingle s.types) (hmode : operand.mode = .value)
    (hsource : s.types.isInvalid operand.type = false) (hvalid : s.types.isInvalid type = false)
    (huntyped : s.types.isUntyped operand.type = true) (hvalue : operand.constant = some value)
    (hentry : c.registry.get? type = some entry) :
    (∃ id s', coerce operand type c s = (.ok id, s')) ↔ ¬Misfits c s operands operand type := by
  rw [coerce_ok_iff hsingle hmode hsource hvalid, if_pos (by simp [huntyped, hvalue, hentry]),
    materialize_ok_iff]
  constructor
  · rintro ⟨_, _, function, hentry', hvalue', hfunction⟩ hmisfits
    cases hmisfits.obstacle with
    | unbuilt hentry'' hvalue'' hnone =>
      obtain rfl := Option.some.inj (hentry'.symm.trans hentry'')
      obtain rfl := Option.some.inj (hvalue'.symm.trans hvalue'')
      rw [hfunction] at hnone
      cases hnone
    | undefaulted hfree | tooWide _ hfree =>
      rw [hentry] at hfree
      cases hfree
    | unknown hconstant =>
      rw [hvalue] at hconstant
      cases hconstant
  · intro hno
    cases hfunction : entry.initializer? (s.types.isBig operand.type) value with
    | none => exact absurd ⟨hmode, huntyped, hvalid, .unbuilt hentry hvalue hfunction⟩ hno
    | some function => exact ⟨entry, value, function, hentry, hvalue, hfunction⟩

/-- A constant of an unregistered type that it fits into, but for its value. -/
theorem coerce_fits_iff {value : Constant} (hsingle : operand.IsSingle s.types)
    (hmode : operand.mode = .value) (hsource : s.types.isInvalid operand.type = false)
    (hvalid : s.types.isInvalid type = false) (huntyped : s.types.isUntyped operand.type = true)
    (hvalue : operand.constant = some value) (hfree : c.registry.get? type = none)
    (hfits : Fits c s operands operand type) :
    (∃ id s', coerce operand type c s = (.ok id, s')) ↔ ¬Misfits c s operands operand type := by
  rw [coerce_ok_iff hsingle hmode hsource hvalid, if_neg (by simp [hfree])]
  split
  · rename_i hbig
    rw [defaultValue_big_ok_iff hsingle hmode hbig]
    constructor
    · rintro ⟨-, entry, hdefault, hmaterialize⟩ hmisfits
      obtain ⟨kind, -, hkind⟩ := Option.bind_eq_some_iff.mp hdefault
      obtain ⟨_, _, function, hentry, hvalue', hfunction⟩ := materialize_ok_iff.mp hmaterialize
      obtain rfl := Option.some.inj ((Registry.get?_of_defaultFor? hkind).symm.trans hentry)
      cases hmisfits.obstacle with
      | unbuilt hentry' =>
        rw [hfree] at hentry'
        cases hentry'
      | undefaulted _ _ _ hvalue'' hnone =>
        obtain rfl := Option.some.inj (hvalue'.symm.trans hvalue'')
        rw [hbig, hnone entry hdefault] at hfunction
        cases hfunction
      | tooWide _ _ hsmall =>
        rw [hbig] at hsmall
        cases hsmall
      | unknown hconstant =>
        rw [hvalue] at hconstant
        cases hconstant
    · intro hno
      refine ⟨hfits.interface hbig, ?_⟩
      by_contra hdefault
      refine hno ⟨hmode, huntyped, hvalid,
        .undefaulted hfree (hfits.interface hbig) hbig hvalue (fun entry hentry => ?_)⟩
      cases hfunction : entry.initializer? true value with
      | none => rfl
      | some function =>
        obtain ⟨kind, -, hkind⟩ := Option.bind_eq_some_iff.mp hentry
        refine absurd ⟨entry, hentry, materialize_ok_iff.mpr ?_⟩ hdefault
        exact ⟨entry, value, function, Registry.get?_of_defaultFor? hkind, hvalue,
          hbig.symm ▸ hfunction⟩
  · rename_i hsmall
    have hsmall : s.types.isBig operand.type = false := by simpa using hsmall
    constructor
    · rintro ⟨hnarrow, hassignable⟩ hmisfits
      cases hmisfits.obstacle with
      | unbuilt hentry' =>
        rw [hfree] at hentry'
        cases hentry'
      | undefaulted _ _ hbig =>
        rw [hsmall] at hbig
        cases hbig
      | tooWide _ _ _ hkind hnumeric hvalue' hwide =>
        have hnarrow := hnarrow huntyped
        rw [hvalue', hkind, overflows, hnumeric, hwide] at hnarrow
        cases hnarrow
      | unknown _ hunfit => exact hunfit.elim (by simp [hsmall]) (fun h => h hassignable)
    · intro hno
      refine ⟨fun _ => ?_, hfits.assignable⟩
      by_contra hwide
      have hwide : overflows BasicType.isNumeric operand.constant (s.types.basic? type) = true := by
        simpa using hwide
      have hall := hfits.overflows hwide
      rw [hvalue] at hwide
      cases hkind : s.types.basic? type with
      | none =>
        rw [hkind] at hwide
        cases hwide
      | some kind =>
        rw [hkind, overflows, Bool.and_eq_true, Bool.not_eq_true'] at hwide
        exact hno ⟨hmode, huntyped, hvalid,
          .tooWide hall hfree hsmall hkind hwide.1 hvalue hwide.2⟩

/-- An element is a value of the type that it has in common with others if nothing is in the way of
that, and only then. -/
theorem coerce_common_iff (htypes : TypeTable.initial.Grows s.types)
    (hcommon : commonType operands span c s = (.ok type, s')) (hmem : operand ∈ operands) :
    (∃ id s'', coerce operand type c s' = (.ok id, s'')) ↔ ¬Misfits c s' operands operand type := by
  have hfixed := TypeTable.hasFixed_of_grows htypes
  have hsingle : operand.IsSingle s.types := by
    obtain ⟨_, s₁, hcheck, -⟩ := bind_ok.mp hcommon
    exact (forM_checkValue_ok_iff.mp hcheck).1 operand hmem
  obtain rfl := commonType_state hcommon
  cases hinvalid : s'.types.isInvalid operand.type || s'.types.isInvalid type with
  | true =>
    refine iff_of_true ⟨_, _, coerce_of_invalid hsingle hinvalid⟩ (fun hmisfits => ?_)
    rw [isInvalid_of_untyped hmisfits.untyped, hmisfits.valid] at hinvalid
    cases hinvalid
  | false =>
    obtain ⟨hsource, hvalid⟩ := Bool.or_eq_false_iff.mp hinvalid
    rcases hsingle.mode with hmode | hmode
    · cases huntyped : s'.types.isUntyped operand.type with
      | false =>
        refine iff_of_true ?_ (fun hmisfits => ?_)
        · rw [coerce_ok_iff hsingle hmode hsource hvalid, if_neg (by simp [huntyped]),
            if_neg (by simp [isBig_of_typed huntyped])]
          refine ⟨fun h => ?_, assignable_of_common hfixed hcommon hmem huntyped⟩
          rw [huntyped] at h
          cases h
        · have := hmisfits.untyped
          rw [huntyped] at this
          cases this
      | true =>
        cases hvalue : operand.constant with
        | none => exact coerce_unknown_iff hsingle hmode hsource hvalid huntyped hvalue
        | some value =>
          cases hentry : c.registry.get? type with
          | some entry =>
            exact coerce_registered_iff hsingle hmode hsource hvalid huntyped hvalue hentry
          | none =>
            exact coerce_fits_iff hsingle hmode hsource hvalid huntyped hvalue hentry
              (fits_of_common hfixed hcommon hmem huntyped hentry hvalid)
    · obtain rfl := any_of_nil hfixed.basics hcommon hmem hmode
      refine iff_of_true ⟨_, _, coerce_nil hsingle hmode hfixed.isNilable_any⟩ (fun hmisfits => ?_)
      have := hmisfits.value
      rw [hmode] at this
      cases this

theorem commonType_of_fst (h : (commonType operands span c s).1 = .ok type) :
    commonType operands span c s = (.ok type, s) :=
  Prod.ext h (commonType_state (Prod.ext h rfl))

theorem grows_bigTypes : TypeTable.initial.Grows bigTypes :=
  TypeTable.Begins.grows
    (.trans (TypeTable.begins_declareNamed _ _ _) (TypeTable.begins_declareNamed _ _ _))

/-- A variable of the registered type of big integers. -/
def bigVariable : Operand := .value ⟨1⟩ bigint .synthetic

/-- `"a"` -/
def letter : Operand :=
  .ofConstant ⟨2⟩ (TypeTable.basic .untypedString) (some (.string "\"a\"")) .synthetic

/-- Beside a big integer `1` is one. -/
theorem coerce_common_iff_one :
    TypeTable.initial.Grows bigState.types ∧
      commonType [bigVariable, one] .synthetic bigContext bigState = (.ok bigint, bigState) ∧
      ¬Misfits bigContext bigState [bigVariable, one] one bigint := by
  have hcommon : commonType [bigVariable, one] .synthetic bigContext bigState =
      (.ok bigint, bigState) := commonType_of_fst (by decide +kernel)
  have hmem : one ∈ [bigVariable, one] := List.mem_cons_of_mem _ List.mem_cons_self
  exact ⟨grows_bigTypes, hcommon,
    (coerce_common_iff grows_bigTypes hcommon hmem).mp (exists_ok (by decide +kernel))⟩

/-- The common type of a big integer and a string is that of big integers, of which the string is
no value. -/
theorem coerce_common_letter :
    commonType [bigVariable, letter] .synthetic bigContext bigState = (.ok bigint, bigState) ∧
      (coerce letter bigint bigContext bigState).1 = .error (.found
        (.typeMismatch "ng.Bigint" "untyped string") .synthetic) :=
  ⟨commonType_of_fst (by decide +kernel), by decide +kernel⟩

end Lowering

end GoLowering
