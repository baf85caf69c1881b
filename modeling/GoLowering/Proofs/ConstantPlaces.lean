import GoLowering.Constant.Exact
import GoLowering.Proofs.ConstantRanges
import GoLowering.Proofs.LiteralElements

/-!
# Constants at typed places

An untyped number takes the type of the place where it stands if that is a type of numbers, and its
default type at an interface. Its exact value should be a value of the type that it takes, and an
interface should accept the numbers that are accepted where no type is given. `coerce_number_iff`
says where both hold: everywhere but where the range is not looked at (`UncheckedRange`), as it is
not at any interface.
-/

namespace GoLowering

namespace NumberKind

/-- The kind of the type that numbers of a kind take by default. Unbounded numbers have none. -/
def default? : NumberKind → Option BasicType
  | int => some .int
  | rune => some .int32
  | float => some .float64
  | bigInt | bigRat => none

end NumberKind

namespace TypeTable

variable {t : TypeTable} {source target : TypeId}

/-- The kind of the type that a constant takes at a place. -/
def takenKind? (t : TypeTable) (source target : TypeId) : Option BasicType :=
  t.basic? (if t.isInterface target then t.defaultType source else target)

theorem basic?_of_get {kind : BasicType} (h : t.get source = .basic kind) :
    t.basic? source = some kind := by
  rw [basic?, shape, underlying]
  simp only [resolve, h]

theorem isInterface_of_basic? {kind : BasicType} (h : t.basic? target = some kind) :
    t.isInterface target = false := by
  rw [isInterface, shape_of_basic? h]

/-- A number of an ordinary kind has the kind of its default type. -/
theorem basic?_defaultType (hbasics : t.HasBasics) {kind : NumberKind} (hsmall : kind.isBig = false)
    (hget : t.get source = .basic kind.basic) :
    t.basic? (t.defaultType source) = kind.default? := by
  rw [defaultType, hget]
  cases kind with
  | int | rune | float => exact hbasics.basic?_basic _
  | bigInt | bigRat => cases hsmall

/-- Numbers are assignable to interfaces and to types of numbers. -/
theorem assignable_number_iff {kind : NumberKind} (hsmall : kind.isBig = false)
    (hget : t.get source = .basic kind.basic) (hvalid : t.isInvalid target = false)
    (hasMethod : TypeId → String → Bool) :
    t.assignable hasMethod source target = true ↔ t.isInterface target = true ∨
      ∃ wanted, t.basic? target = some wanted ∧ wanted.isNumeric = true := by
  by_cases hsame : source = target
  · subst hsame
    refine iff_of_true (assignable_refl ..) (.inr ⟨kind.basic, basic?_of_get hget, ?_⟩)
    cases kind <;> first | rfl | cases hsmall
  · have hsource : t.isInvalid source = false := by
      rw [isInvalid_eq_false, hget]
      rintro ⟨⟩
    have hrun : t.assignable hasMethod source target = t.untypedAssignable kind.basic target := by
      rw [assignable, beq_eq_false_iff_ne.mpr hsame, hsource, hvalid, hget]
      cases kind <;> rfl
    have hsome : (kind.basic == .untypedNil) = false := by cases kind <;> rfl
    rw [hrun, untypedAssignable, basic?]
    cases hinterface : t.isInterface target with
    | true => simp [bne, hsome]
    | false =>
      simp only [Bool.false_eq_true, if_false, false_or, hsome, Bool.false_and]
      cases t.shape target with
      | basic wanted =>
        cases kind with
        | int | rune | float =>
          constructor
          · intro h
            exact ⟨wanted, rfl, h⟩
          · rintro ⟨_, ⟨⟩, h⟩
            exact h
        | bigInt | bigRat => cases hsmall
      | _ => exact iff_of_false Bool.false_ne_true (by rintro ⟨_, ⟨⟩, -⟩)

end TypeTable

namespace Lowering

/-- An operand with the constant of an untyped number that is not unbounded. -/
structure Operand.IsNumber (types : TypeTable) (operand : Operand) (kind : NumberKind)
    (value : Constant) : Prop where
  mode : operand.mode = .value
  type : types.get operand.type = .basic kind.basic
  ordinary : kind.isBig = false
  constant : operand.constant = some value

variable {c : Context} {s s' : State} {operand : Operand} {target : TypeId} {kind : NumberKind}
  {value : Constant} {v : ℚ}

namespace Operand.IsNumber

variable {types : TypeTable} (h : operand.IsNumber types kind value)

include h

theorem isSingle : operand.IsSingle types where
  mode := .inl h.mode
  type _ htuple := by
    rw [h.type] at htuple
    cases htuple

theorem isUntyped : types.isUntyped operand.type = true := by
  rw [TypeTable.isUntyped, h.type]
  cases kind <;> rfl

theorem isBig : types.isBig operand.type = false := by
  rw [isBig_eq h.type]
  have hordinary := h.ordinary
  cases kind with
  | int | rune | float => rfl
  | bigInt | bigRat => cases hordinary

end Operand.IsNumber

/-! ## Places that accept a number -/

theorem coerce_number_ok_iff (hnumber : operand.IsNumber s.types kind value)
    (hvalid : s.types.isInvalid target = false) (hfree : c.registry.get? target = none) :
    (∃ id s', coerce operand target c s = (.ok id, s')) ↔ s.types.isInterface target = true ∨
      ∃ wanted, s.types.basic? target = some wanted ∧ wanted.isNumeric = true ∧
        value.representable wanted = true := by
  rw [coerce_ok_iff hnumber.isSingle hnumber.mode (isInvalid_of_untyped hnumber.isUntyped) hvalid,
    if_neg (by simp [hfree]), if_neg (by simp [hnumber.isBig]), State.assignable,
    TypeTable.assignable_number_iff hnumber.ordinary hnumber.type hvalid, hnumber.constant]
  cases hwanted : s.types.basic? target with
  | none => simp [overflows_none]
  | some wanted =>
    simp only [TypeTable.isInterface_of_basic? hwanted, Bool.false_eq_true, false_or,
      hnumber.isUntyped, true_imp_iff, overflows, Option.some.injEq, exists_eq_left',
      Bool.and_eq_false_iff, Bool.not_eq_false']
    constructor
    · rintro ⟨hfits, hnumeric⟩
      exact ⟨hnumeric, hfits.resolve_left (by simp [hnumeric])⟩
    · rintro ⟨hnumeric, hfits⟩
      exact ⟨.inr hfits, hnumeric⟩

/-- Where no type is given, the value is looked at if the default type is one of integers. -/
theorem defaultValue_number_ok_iff (hnumber : operand.IsNumber s.types kind value) :
    (∃ r s', defaultValue operand c s = (.ok r, s')) ↔
      overflows BasicType.isInteger (some value)
        (s.types.basic? (s.types.defaultType operand.type)) = false := by
  have hnil : (operand.mode == .nil) = false := by rw [hnumber.mode]; rfl
  have hrun : defaultValue operand c s =
      (if overflows BasicType.isInteger (some value)
          (s.types.basic? (s.types.defaultType operand.type)) then
        failOverflow operand
      else return (operand.id, s.types.defaultType operand.type) :
        Lower (HostId × TypeId)) c s := by
    unfold defaultValue
    rw [run_bind, hnumber.isSingle.run_checkValue]
    simp only [hnil, Bool.false_eq_true, if_false, run_isUntypedBig_bind, hnumber.isBig]
    rw [run_bind, run_getTypes]
    simp only [hnumber.isUntyped, hnumber.constant, if_true]
  rw [hrun]
  split
  · rename_i hoverflow
    refine iff_of_false ?_ (by simp [hoverflow])
    rintro ⟨r, s', h⟩
    exact Fails.fails h
  · rename_i hfits
    exact iff_of_true ⟨_, _, rfl⟩ (by simpa using hfits)

/-- A number in the range of its default type is accepted without a type. -/
theorem defaultValue_ok_of_holds (hbasics : s.types.HasBasics)
    (hnumber : operand.IsNumber s.types kind value) (hexact : value.number? = some v)
    {default : BasicType} (hdefault : kind.default? = some default) (hholds : default.Holds v) :
    ∃ r s', defaultValue operand c s = (.ok r, s') := by
  rw [defaultValue_number_ok_iff hnumber,
    TypeTable.basic?_defaultType hbasics hnumber.ordinary hnumber.type, hdefault]
  cases kind with
  | int | rune =>
    obtain rfl := Option.some.inj hdefault
    rw [overflows, (Constant.representable_integer_iff hexact rfl).mpr hholds]
    rfl
  | float =>
    obtain rfl := Option.some.inj hdefault
    rfl
  | bigInt | bigRat => cases hdefault

/-! ## Places and ranges -/

/-- The range of the type that a number takes is not looked at, and the number is not in it. -/
inductive UncheckedRange (types : TypeTable) (source target : TypeId) (v : ℚ) : Prop
  /-- At an interface numbers of any size are accepted. -/
  | atInterface {default : BasicType} (hinterface : types.isInterface target = true)
      (hdefault : types.basic? (types.defaultType source) = some default)
      (hwide : ¬default.Holds v)
  /-- The range of another kind is looked at, or none. -/
  | atNumber {wanted : BasicType} (hwanted : types.basic? target = some wanted)
      (hexceeds : Constant.Exceeds wanted v)

theorem UncheckedRange.coerce_ok (h : UncheckedRange s.types operand.type target v)
    (hnumber : operand.IsNumber s.types kind value) (hexact : value.number? = some v)
    (hvalid : s.types.isInvalid target = false) (hfree : c.registry.get? target = none) :
    ∃ id s', coerce operand target c s = (.ok id, s') := by
  rw [coerce_number_ok_iff hnumber hvalid hfree]
  cases h with
  | atInterface hinterface => exact .inl hinterface
  | atNumber hwanted hexceeds =>
    exact .inr ⟨_, hwanted, hexceeds.isNumeric, hexceeds.representable hexact⟩

theorem UncheckedRange.not_holds {types : TypeTable} {source : TypeId} {taken : BasicType}
    (h : UncheckedRange types source target v)
    (htaken : types.takenKind? source target = some taken) : ¬taken.Holds v := by
  rw [TypeTable.takenKind?] at htaken
  cases h with
  | atInterface hinterface hdefault hwide =>
    rw [if_pos hinterface, hdefault] at htaken
    exact Option.some.inj htaken ▸ hwide
  | atNumber hwanted hexceeds =>
    rw [if_neg (by simp [TypeTable.isInterface_of_basic? hwanted]), hwanted] at htaken
    exact Option.some.inj htaken ▸ hexceeds.not_holds

/-- A number that is accepted at a place is a value of the type that it takes there, and an
interface accepts the numbers that are accepted without a type, unless the range is not looked at,
and only then. -/
theorem coerce_number_iff (htypes : TypeTable.initial.Grows s.types)
    (hnumber : operand.IsNumber s.types kind value) (hexact : value.number? = some v)
    (hvalid : s.types.isInvalid target = false) (hfree : c.registry.get? target = none) :
    ((∀ id s', coerce operand target c s = (.ok id, s') →
        ∃ taken, s.types.takenKind? operand.type target = some taken ∧ taken.Holds v) ∧
      (s.types.isInterface target = true →
        ((∃ id s', coerce operand target c s = (.ok id, s')) ↔
          ∃ r s', defaultValue operand c s = (.ok r, s')))) ↔
      ¬UncheckedRange s.types operand.type target v := by
  have hbasics := (TypeTable.hasFixed_of_grows htypes).basics
  have haccepted := coerce_number_ok_iff hnumber hvalid hfree
  obtain ⟨default, hdefault⟩ : ∃ default, kind.default? = some default := by
    have hordinary := hnumber.ordinary
    cases kind with
    | int | rune | float => exact ⟨_, rfl⟩
    | bigInt | bigRat => cases hordinary
  have hkind : s.types.basic? (s.types.defaultType operand.type) = some default :=
    (TypeTable.basic?_defaultType hbasics hnumber.ordinary hnumber.type).trans hdefault
  constructor
  · rintro ⟨hholds, -⟩ hunchecked
    obtain ⟨id, s', hok⟩ := hunchecked.coerce_ok hnumber hexact hvalid hfree
    obtain ⟨taken, htaken, hin⟩ := hholds id s' hok
    exact hunchecked.not_holds htaken hin
  · intro hchecked
    have hrange (hinterface : s.types.isInterface target = true) : default.Holds v := by
      by_contra hwide
      exact hchecked (.atInterface hinterface hkind hwide)
    refine ⟨fun id s' hok => ?_, fun hinterface => ?_⟩
    · rw [TypeTable.takenKind?]
      rcases haccepted.mp ⟨id, s', hok⟩ with hinterface | ⟨wanted, hwanted, hnumeric, hfits⟩
      · rw [if_pos hinterface]
        exact ⟨default, hkind, hrange hinterface⟩
      · rw [if_neg (by simp [TypeTable.isInterface_of_basic? hwanted])]
        refine ⟨wanted, hwanted, ?_⟩
        exact (Constant.holds_or_exceeds hexact hnumeric hfits).resolve_right
          fun hexceeds => hchecked (.atNumber hwanted hexceeds)
    · exact iff_of_true (haccepted.mpr (.inl hinterface))
        (defaultValue_ok_of_holds hbasics hnumber hexact hdefault (hrange hinterface))

theorem isNumber_one : one.IsNumber .initial .int (.int 1) := ⟨rfl, rfl, rfl, rfl⟩

/-- At `interface{}` the constant `1` is an `int`. -/
theorem coerce_number_iff_one :
    TypeTable.initial.Grows TypeTable.initial ∧ one.IsNumber .initial .int (.int 1) ∧
      (Constant.int 1).number? = some 1 ∧ TypeTable.initial.isInvalid TypeTable.any = false ∧
      (Context.bare []).registry.get? TypeTable.any = none ∧
      (∀ id s', coerce one TypeTable.any (Context.bare []) (.initial (.bare [] []) .initial) =
          (.ok id, s') →
        ∃ taken, TypeTable.initial.takenKind? one.type TypeTable.any = some taken ∧
          taken.Holds 1) := by
  have hexact : (Constant.int 1).number? = some 1 := rfl
  have hvalid : TypeTable.initial.isInvalid TypeTable.any = false := by decide
  have hfree : (Context.bare []).registry.get? TypeTable.any = none := by decide
  have hchecked : ¬UncheckedRange TypeTable.initial one.type TypeTable.any 1 := by
    rintro (⟨-, hdefault, hwide⟩ | ⟨hwanted, -⟩)
    · obtain rfl := Option.some.inj (hdefault.symm.trans (rfl : _ = some BasicType.int))
      exact hwide (by decide)
    · cases hwanted
  exact ⟨.refl _, isNumber_one, hexact, hvalid, hfree,
    ((coerce_number_iff (s := .initial (.bare [] []) .initial) (.refl _) isNumber_one hexact hvalid
      hfree).mpr hchecked).1⟩

/-- `99999999999999999999` -/
def wide : Operand :=
  .ofConstant ⟨0⟩ (TypeTable.basic .untypedInt) (some (.int 99999999999999999999)) .synthetic

/-- An interface accepts an integer of which no `int` is the value, and which is refused where no
type is given. -/
theorem coerce_number_wide :
    (coerce wide TypeTable.any (Context.bare []) (.initial (.bare [] []) .initial)).1.isOk = true ∧
      (defaultValue wide (Context.bare []) (.initial (.bare [] []) .initial)).1.isOk = false ∧
      ¬BasicType.Holds .int 99999999999999999999 := by
  decide +kernel

end Lowering

end GoLowering
