import GoLowering.Proofs.ConstantRanges
import GoLowering.Proofs.KnownValues
import GoLowering.Proofs.OperandFamilies
import GoLowering.Text.Quoted

/-!
# Conversions of constants

A conversion of a constant to a scalar type is a constant of the host: a truth value or a string is
kept, an integer becomes the string of a character, a number has to be in the range of the type and
is rounded to its format (`HostConverts`). The lowering records for it the value of the constant as
it is. `conversion_isStatic_iff` says for which constants and types the recorded value is the one of
the host; the others are those of `Miscast` and the unbounded ones.
-/

namespace GoLowering

/-- A format of floating-point numbers: how many digits a significand has, and the exponents. -/
structure FloatFormat where
  digits : ℕ
  least : ℤ
  greatest : ℤ

namespace FloatFormat

variable {f : FloatFormat} {v : ℚ}

def binary32 : FloatFormat := ⟨24, -149, 104⟩

def binary64 : FloatFormat := ⟨53, -1074, 971⟩

/-- The numbers that have a representation in a format. -/
def Has (f : FloatFormat) (v : ℚ) : Prop :=
  ∃ m e : ℤ, |m| < 2 ^ f.digits ∧ f.least ≤ e ∧ e ≤ f.greatest ∧ v = m * 2 ^ e

/-- The numbers whose last digit in a format is zero. -/
def HasEven (f : FloatFormat) (v : ℚ) : Prop :=
  ∃ m e : ℤ, Even m ∧ |m| < 2 ^ f.digits ∧ (2 ^ (f.digits - 1) ≤ |m| ∨ e = f.least) ∧
    f.least ≤ e ∧ e ≤ f.greatest ∧ v = m * 2 ^ e

/-- Rounding to the nearest number of a format, and to the even one of two. -/
structure Nearest (f : FloatFormat) (v w : ℚ) : Prop where
  has : f.Has w
  closest (u : ℚ) (h : f.Has u) : |v - w| ≤ |v - u|
  even (u : ℚ) (h : f.Has u) (hne : u ≠ w) (hsame : |v - u| = |v - w|) : f.HasEven w

/-- Just the numbers of a format are not changed by rounding. -/
theorem nearest_self_iff : f.Nearest v v ↔ f.Has v := by
  refine ⟨Nearest.has, fun h => ⟨h, fun u _ => ?_, fun u _ hne hsame => ?_⟩⟩
  · rw [sub_self, abs_zero]
    exact abs_nonneg _
  · rw [sub_self, abs_zero, abs_eq_zero, sub_eq_zero] at hsame
    exact absurd hsame.symm hne

theorem Has.abs_le (h : f.Has v) : |v| ≤ (2 ^ f.digits - 1) * 2 ^ f.greatest := by
  obtain ⟨m, e, hm, -, he, rfl⟩ := h
  have hpower : (0 : ℚ) < 2 ^ e := by positivity
  have hdigits : (|(m : ℚ)|) ≤ 2 ^ f.digits - 1 := by
    have hle : |m| ≤ 2 ^ f.digits - 1 := by omega
    exact_mod_cast hle
  calc |(m : ℚ) * 2 ^ e| = |(m : ℚ)| * 2 ^ e := by rw [abs_mul, abs_of_pos hpower]
    _ ≤ (2 ^ f.digits - 1) * 2 ^ f.greatest := by
        gcongr
        · exact (abs_nonneg _).trans hdigits
        · norm_num

end FloatFormat

namespace BasicType

variable {kind : BasicType} {v : ℚ}

/-- The format of the values of a kind, and of the parts of complex ones. -/
def format? : BasicType → Option FloatFormat
  | .float32 | .complex64 => some .binary32
  | .float64 | .complex128 => some .binary64
  | _ => none

theorem format?_of_integerBits? {bits : ℕ} (h : kind.integerBits? = some bits) :
    kind.format? = none := by
  cases kind <;> first | rfl | cases h

theorem isUntyped_of_integerBits? {bits : ℕ} (h : kind.integerBits? = some bits) :
    kind.isUntyped = false := by
  cases kind <;> first | rfl | cases h

theorem isUntyped_of_format? {format : FloatFormat} (h : kind.format? = some format) :
    kind.isUntyped = false := by
  cases kind <;> first | rfl | cases h

theorem isUntyped_of_isNumeric (hnumeric : kind.isNumeric = true)
    (hbits : kind.integerBits? = none) (hformat : kind.format? = none) :
    kind.isUntyped = true := by
  revert hnumeric hbits hformat
  cases kind <;> simp [integerBits?, format?, isNumeric, isInteger, isFloat, isComplex, isUntyped]

theorem holds_of_has {format : FloatFormat} (hformat : kind.format? = some format)
    (h : format.Has v) : kind.Holds v := by
  have hle := h.abs_le
  cases kind with
  | float32 | complex64 =>
    obtain rfl := Option.some.inj hformat
    refine lt_of_le_of_lt hle ?_
    norm_num [FloatFormat.binary32]
  | float64 | complex128 =>
    obtain rfl := Option.some.inj hformat
    have hunit : (2 : ℚ) ^ (971 : ℤ) = 2 * 2 ^ 970 := by
      rw [← pow_succ']
      rfl
    refine lt_of_le_of_lt hle ?_
    change ((2 : ℚ) ^ 53 - 1) * 2 ^ (971 : ℤ) < (2 ^ 54 - 1) * 2 ^ 970
    rw [hunit, ← mul_assoc]
    exact mul_lt_mul_of_pos_right (by norm_num) (by positivity)
  | _ => cases hformat

end BasicType

namespace Constant

variable {value : Constant}

/-- The number that a constant stands for, in its real and its imaginary part. -/
def parts? : Constant → Option (ℚ × ℚ)
  | .complex re im => do
    let x ← number? (.float re)
    let y ← number? (.float im)
    return (x, y)
  | value => value.number?.map (·, 0)

theorem number?_of_toInt? {n : ℤ} (h : value.toInt? = some n) : value.number? = some (n : ℚ) := by
  cases value with
  | int m =>
    obtain rfl := Option.some.inj h
    rfl
  | rat r =>
    obtain ⟨hden, hnum⟩ := Option.ite_none_right_eq_some.mp h
    obtain rfl := Option.some.inj hnum
    exact congrArg some ((Rat.den_eq_one_iff r).mp (by simpa using hden)).symm
  | float f =>
    obtain ⟨p, hparts, hp⟩ := Option.bind_eq_some_iff.mp h
    rw [number?, hparts, Option.map_some, Binary64.Parts.toInt?_eq_some_iff.mp hp]
  | bool _ | string _ | complex _ _ => cases h

theorem parts?_of_number? {v : ℚ} (h : value.number? = some v) : value.parts? = some (v, 0) := by
  cases value with
  | int _ | rat _ | float _ => exact congrArg (Option.map (·, 0)) h
  | bool _ | string _ | complex _ _ => cases h

theorem toInt?_of_representable {kind : BasicType} {bits : ℕ}
    (hbits : kind.integerBits? = some bits) (h : value.representable kind = true) :
    ∃ n, value.toInt? = some n := by
  unfold representable at h
  rw [hbits] at h
  dsimp only at h
  rw [fitsInteger] at h
  split at h
  · exact ⟨_, ‹_›⟩
  · cases h

end Constant

/-! ## What the host makes of a constant -/

/-- The character of a code point. -/
def hostCharacter (n : ℤ) : Char :=
  if 0 ≤ n ∧ Nat.isValidChar n.toNat then Char.ofNat n.toNat else '\uFFFD'

/-- The value that the host gives the conversion of an untyped constant of some kind to a type. -/
inductive HostConverts (kind : BasicType) (v : Constant) (target : BasicType) (w : Constant) : Prop
  | truth {b : Bool} (htarget : target = .bool) (hv : v = .bool b) (hw : w = .bool b)
  | text {t : String} (htarget : target = .string) (hv : v = .string t) (hw : w = .string t)
  | character {n : ℤ} (htarget : target = .string) (hkind : kind.isInteger = true)
      (hv : v.toInt? = some n)
      (hw : w = .string (Quoted.quoteInterpreted (String.singleton (hostCharacter n))))
  | integer {n : ℤ} {bits : ℕ} (htarget : target.integerBits? = some bits)
      (hv : v.parts? = some ((n : ℚ), 0)) (hholds : target.Holds n)
      (hw : w.parts? = some ((n : ℚ), 0))
  | rounded {format : FloatFormat} {x y x' y' : ℚ} (htarget : target.format? = some format)
      (hv : v.parts? = some (x, y)) (hreal : target.isFloat = true → y = 0)
      (hx : target.Holds x) (hy : target.Holds y) (hx' : format.Nearest x x')
      (hy' : format.Nearest y y') (hw : w.parts? = some (x', y'))

/-- The constants whose conversion has another value: those that are no truth values and strings,
and numbers that a format of floating-point numbers does not have. No type of a program is an
untyped one. -/
inductive Miscast (v : Constant) (target : BasicType) : Prop
  | truth (htarget : target = .bool) (hv : v.isBool = false)
  | text (htarget : target = .string) (hv : v.isString = false)
  | inexact {format : FloatFormat} (htarget : target.format? = some format)
      (hv : ¬∃ x y, v.parts? = some (x, y) ∧ format.Has x ∧ format.Has y ∧
        (target.isFloat = true → y = 0))
  | untyped (htarget : target.isUntyped = true)

/-- A constant that is accepted at a type has the value that the host gives its conversion unless it
is one of those. -/
theorem hostConverts_self_iff {kind target : BasicType} {v : Constant}
    (haccepted : target.isNumeric = true ∧ v.representable target = true ∨
      target = .string ∨ target = .bool) :
    HostConverts kind v target v ↔ ¬Miscast v target := by
  constructor
  · intro h hmiscast
    cases h with
    | truth htarget hv =>
      subst htarget hv
      obtain ⟨-, ⟨⟩⟩ | ⟨⟨⟩⟩ | ⟨⟨⟩⟩ | ⟨⟨⟩⟩ := hmiscast
    | text htarget hv =>
      subst htarget hv
      obtain ⟨⟨⟩⟩ | ⟨-, ⟨⟩⟩ | ⟨⟨⟩⟩ | ⟨⟨⟩⟩ := hmiscast
    | character _ _ hv hw =>
      rw [hw] at hv
      cases hv
    | integer htarget =>
      obtain ⟨rfl, -⟩ | ⟨rfl, -⟩ | ⟨hformat, -⟩ | ⟨huntyped⟩ := hmiscast
      · cases htarget
      · cases htarget
      · cases (BasicType.format?_of_integerBits? htarget).symm.trans hformat
      · cases (BasicType.isUntyped_of_integerBits? htarget).symm.trans huntyped
    | rounded htarget hv hreal _ _ hx' hy' hw =>
      obtain ⟨rfl, rfl⟩ := Prod.mk.inj (Option.some.inj (hv.symm.trans hw))
      obtain ⟨rfl, -⟩ | ⟨rfl, -⟩ | ⟨hformat, hinexact⟩ | ⟨huntyped⟩ := hmiscast
      · cases htarget
      · cases htarget
      · obtain rfl := Option.some.inj (htarget.symm.trans hformat)
        exact hinexact ⟨_, _, hv, hx'.has, hy'.has, hreal⟩
      · cases (BasicType.isUntyped_of_format? htarget).symm.trans huntyped
  · intro hkept
    rcases haccepted with ⟨hnumeric, hfits⟩ | rfl | rfl
    · cases hbits : target.integerBits? with
      | some bits =>
        obtain ⟨n, hn⟩ := Constant.toInt?_of_representable hbits hfits
        have hnumber := Constant.number?_of_toInt? hn
        have hparts := Constant.parts?_of_number? hnumber
        exact .integer hbits hparts ((Constant.representable_integer_iff hnumber hbits).mp hfits)
          hparts
      | none =>
        cases hformat : target.format? with
        | some format =>
          obtain ⟨x, y, hparts, hx, hy, hreal⟩ := not_not.mp (mt (Miscast.inexact hformat) hkept)
          exact .rounded hformat hparts hreal (BasicType.holds_of_has hformat hx)
            (BasicType.holds_of_has hformat hy) (FloatFormat.nearest_self_iff.mpr hx)
            (FloatFormat.nearest_self_iff.mpr hy) hparts
        | none =>
          exact absurd (.untyped (BasicType.isUntyped_of_isNumeric hnumeric hbits hformat)) hkept
    · cases v with
      | string t => exact .text rfl rfl rfl
      | _ => exact absurd (Miscast.text rfl rfl) hkept
    · cases v with
      | bool b => exact .truth rfl rfl rfl
      | _ => exact absurd (Miscast.truth rfl rfl) hkept

namespace Lowering

open Surface

variable {c : Context} {final s₀ s s' : State}

/-- A conversion with a recorded value is one of an untyped constant of that value. The host
evaluates it, and to the recorded value, unless the constant is unbounded or one of those whose
conversion has another value. -/
theorem conversion_isStatic_iff (hwritten : final.WritesTyped) {depth : ℕ} {head : NodeId}
    {expect : Expectation} {callee r : Operand} {args : List Argument} {span : Span} {w : Constant}
    (hcallee : (walkWithin depth).expr head expect c s₀ = (.ok callee, s))
    (hmode : callee.mode = .type)
    (h : lowerConversion (walkWithin depth) callee args span c s = (.ok r, s'))
    (hw : r.constant = some w) (hfinal : Extends s' final) :
    ∃ argument operand s₁ kind target, args = [argument] ∧
      lowerArgument (walkWithin depth) argument .none c s = (.ok operand, s₁) ∧
      s₁.types.get operand.type = .basic kind ∧ kind.isUntyped = true ∧
      operand.constant = some w ∧ s'.types.basic? callee.type = some target ∧
      ((final.tree.IsStatic s'.types r.id ∧ HostConverts kind w target w) ↔
        kind.isUntypedBig = false ∧ ¬Miscast w target) := by
  have hsome : r.constant.isSome = true := by rw [hw]; rfl
  rcases lowerConversion_ok h with ⟨hnone, -⟩ | ⟨argument, operand, s₁, rfl, hargument, hconvert⟩
  · cases hnone.symm.trans hw
  obtain ⟨arg, hconverts⟩ := convertOperand_known hconvert hsome
  obtain ⟨target, -, htarget, haccepted⟩ := hconverts.scalar
  obtain ⟨kind, hget, huntyped⟩ := TypeTable.get_of_isUntyped hconverts.untyped
  have hv : operand.constant = some w := hconverts.constant ▸ hw
  refine ⟨argument, operand, s₁, kind, target, rfl, hargument, hget, huntyped, hv, htarget, ?_⟩
  have hs := Steady.run (m := lowerArgument (walkWithin depth) argument .none) inferInstance c s
  have hs₁ := Steady.run (m := convertOperand callee.id callee.type operand span) inferInstance c s₁
  rw [hargument] at hs
  rw [hconvert] at hs₁
  have hlater := hs₁.trans hfinal
  have hkind := (known_walkWithin hwritten depth head expect hcallee (hs.trans hlater)).type hmode
  have hnode : final.tree.Converts callee.type arg r.id :=
    .call (hconverts.node final.tree hfinal.tree) hkind
  have hkindBig := isBig_eq hget
  cases hbig : kind.isUntypedBig with
  | true =>
    have hcalls := hconverts.unbounded (hkindBig.trans hbig) final.tree hfinal.tree
    exact iff_of_false (fun h => hcalls.not_isStatic hnode.reaches h.1) (fun h => nomatch h.1)
  | false =>
    have hoperand := gives_lowerArgument (known_walkWithin hwritten depth) argument .none hargument
      hlater
    have hinert := hoperand.isInert (by rw [hv]; rfl) hconverts.untyped hlater.types
    rw [← hconverts.ordinary (hkindBig.trans hbig)] at hinert
    have hstatic := hnode.isStatic ⟨target, htarget, haccepted.imp And.left id⟩ hinert
    rw [and_iff_right hstatic, and_iff_right rfl]
    exact hostConverts_self_iff (haccepted.imp_left fun ⟨hnumeric, hfits⟩ =>
      ⟨hnumeric, by simpa [overflows, hv, hnumeric] using hfits⟩)

/-- The nodes of `int`, `string` and `65`. -/
def conversionSample : Context :=
  Context.sample
    [.expr (.identifier "int"), .expr (.identifier "string"), .expr (.literal .int "65")] []

/-- A conversion of `65` to the type that a node names. -/
def converted (head : NodeId) : Lower Operand := do
  lowerConversion (walkWithin 1) (← (walkWithin 1).expr head .called) [.node ⟨2⟩] .synthetic

def conversionState : State := .initial conversionSample.unit .initial

theorem converted_ok (head : NodeId) (type : TypeId) (value : ℤ) (target : BasicType)
    (h : (converted head conversionSample conversionState).1.toOption.map
      (fun r => (r.type, r.constant.bind Constant.toInt?)) = some (type, some value))
    (htype : (converted head conversionSample conversionState).2.types.basic? type = some target) :
    ∃ r s' w, converted head conversionSample conversionState = (.ok r, s') ∧
      r.constant = some w ∧ w.toInt? = some value ∧ r.type = type ∧
      s'.types.basic? type = some target := by
  rcases hrun : converted head conversionSample conversionState with ⟨failure | r, s'⟩
  · rw [hrun] at h
    cases h
  · rw [hrun] at h htype
    obtain ⟨rfl, hvalue⟩ := Prod.mk.inj (Option.some.inj h)
    obtain ⟨w, hw, hvalue⟩ := Option.bind_eq_some_iff.mp hvalue
    exact ⟨r, s', w, rfl, hw, hvalue, rfl, htype⟩

/-- `int(65)` is evaluated by the host, to the recorded value. -/
theorem conversion_isStatic_iff_int :
    ∃ callee s r s' w, (walkWithin 1).expr ⟨0⟩ .called conversionSample conversionState =
        (.ok callee, s) ∧ callee.mode = .type ∧
      lowerConversion (walkWithin 1) callee [.node ⟨2⟩] .synthetic conversionSample s =
        (.ok r, s') ∧ r.constant = some w ∧ s'.WritesTyped ∧ w.toInt? = some 65 ∧
      s'.tree.IsStatic s'.types r.id ∧ HostConverts .untypedInt w .int w := by
  obtain ⟨r, s', w, hrun, hw, hvalue, -, htarget⟩ :=
    converted_ok ⟨0⟩ TypeTable.int 65 .int (by decide +kernel) (by decide +kernel)
  have hwritten : (converted ⟨0⟩ conversionSample conversionState).2.WritesTyped :=
    State.writesTyped_of_all (by decide +kernel)
  have hmode : ((walkWithin 1).expr ⟨0⟩ .called conversionSample conversionState).1.toOption.map
      (fun callee => (callee.mode, callee.type)) = some (.type, TypeTable.int) := by decide +kernel
  have hkind : (lowerArgument (walkWithin 1) (.node ⟨2⟩) .none conversionSample
      ((walkWithin 1).expr ⟨0⟩ .called conversionSample conversionState).2).1.toOption.map
        (·.type) = some (TypeTable.basic .untypedInt) := by decide +kernel
  have hbasic : (lowerArgument (walkWithin 1) (.node ⟨2⟩) .none conversionSample
      ((walkWithin 1).expr ⟨0⟩ .called conversionSample conversionState).2).2.types.get
        (TypeTable.basic .untypedInt) = .basic .untypedInt := by decide +kernel
  rw [hrun] at hwritten
  obtain ⟨callee, s, hcallee, hconversion⟩ := bind_ok.mp hrun
  rw [hcallee] at hmode hkind hbasic
  obtain ⟨hmode, htype⟩ := Prod.mk.inj (Option.some.inj hmode)
  obtain ⟨argument, operand, s₁, kind, target, hargs, hargument, hget, -, -, hbasic', hiff⟩ :=
    conversion_isStatic_iff hwritten hcallee hmode hconversion hw (.refl s')
  obtain rfl : Argument.node ⟨2⟩ = argument := by
    cases hargs
    rfl
  rw [hargument] at hkind hbasic
  obtain rfl : kind = .untypedInt := by
    rw [← Option.some.inj hkind, hget] at hbasic
    exact Ty.basic.inj hbasic
  obtain rfl : target = .int := by
    rw [htype] at hbasic'
    exact Option.some.inj (hbasic'.symm.trans htarget)
  have hkept : ¬Miscast w .int := by
    rintro (⟨⟨⟩⟩ | ⟨⟨⟩⟩ | ⟨⟨⟩⟩ | ⟨⟨⟩⟩)
  obtain ⟨hstatic, hconverts⟩ := hiff.mpr ⟨rfl, hkept⟩
  exact ⟨callee, s, r, s', w, hcallee, hmode, hconversion, hw, hwritten, hvalue, hstatic,
    hconverts⟩

/-- The value that is recorded for `string(65)` is a number, which no string is. -/
theorem conversion_of_character :
    ∃ r s' w, converted ⟨1⟩ conversionSample conversionState = (.ok r, s') ∧
      r.constant = some w ∧ w.toInt? = some 65 ∧ s'.types.basic? r.type = some .string ∧
      ∀ kind v, ¬HostConverts kind v .string w := by
  obtain ⟨r, s', w, hrun, hw, hvalue, htype, htarget⟩ :=
    converted_ok ⟨1⟩ TypeTable.string 65 .string (by decide +kernel) (by decide +kernel)
  rw [← htype] at htarget
  refine ⟨r, s', w, hrun, hw, hvalue, htarget, fun kind v h => ?_⟩
  cases h with
  | text _ _ hw | character _ _ _ hw =>
    rw [hw] at hvalue
    cases hvalue
  | truth htarget | integer htarget | rounded htarget => cases htarget

end Lowering

end GoLowering
