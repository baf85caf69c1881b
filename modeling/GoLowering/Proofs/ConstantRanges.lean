import GoLowering.Constant.Fold
import GoLowering.Proofs.FloatWords

/-!
# Ranges of constants

A constant that is a real number has an exact value, and a kind of numbers has a range. Whether a
constant is taken for a value of a kind is decided in three ways, by its integer, by its nearest
floating-point value, or not at all; here each is compared with the range.
-/

namespace GoLowering

namespace Binary64

def signedBy (negative : Bool) (n : ℕ) : ℤ := if negative then -n else n

theorem natAbs_signedBy (negative : Bool) (n : ℕ) : (signedBy negative n).natAbs = n := by
  cases negative <;> simp [signedBy]

theorem signedBy_mul (negative : Bool) (n k : ℕ) :
    signedBy negative (n * k) = signedBy negative n * k := by
  cases negative <;> simp [signedBy]

/-- The number that a finite value stands for. -/
def Parts.value (p : Parts) : ℚ := signedBy p.negative p.significand * 2 ^ p.exponent

theorem Parts.abs_value (p : Parts) : |p.value| = p.significand * 2 ^ p.exponent := by
  have hpower : (0 : ℚ) < 2 ^ p.exponent := by positivity
  rw [value, abs_mul, abs_of_pos hpower, ← Int.cast_abs, ← Nat.cast_natAbs, natAbs_signedBy]

theorem Parts.toInt?_eq_some_iff {p : Parts} {n : ℤ} : p.toInt? = some n ↔ p.value = n := by
  obtain ⟨negative, m, e⟩ := p
  cases e with
  | ofNat k =>
    change some (signedBy negative (m * 2 ^ k)) = some n ↔
      (signedBy negative m * 2 ^ (k : ℤ) : ℚ) = n
    rw [Option.some.injEq, signedBy_mul, zpow_natCast]
    norm_cast
  | negSucc k =>
    change (if m % 2 ^ (k + 1) == 0 then some (signedBy negative (m / 2 ^ (k + 1))) else none) =
      some n ↔ (signedBy negative m * 2 ^ Int.negSucc k : ℚ) = n
    rw [Option.ite_none_right_eq_some, beq_iff_eq, Option.some.injEq, zpow_negSucc,
      ← div_eq_mul_inv, div_eq_iff (by positivity)]
    norm_cast
    constructor
    · rintro ⟨hmod, rfl⟩
      rw [← signedBy_mul, Nat.div_mul_cancel (Nat.dvd_of_mod_eq_zero hmod)]
    · intro h
      have hm : m = n.natAbs * 2 ^ (k + 1) := by
        rw [← natAbs_signedBy negative m, h, Int.natAbs_mul, Int.natAbs_natCast]
      refine ⟨hm ▸ Nat.mul_mod_left _ _, ?_⟩
      have hpower : ((2 ^ (k + 1) : ℕ) : ℤ) ≠ 0 := by positivity
      refine mul_right_cancel₀ hpower ?_
      rw [← signedBy_mul, Nat.div_mul_cancel (Dvd.intro_left _ hm.symm), h]

end Binary64

/-! ## Exact values -/

namespace Constant

variable {value : Constant} {v : ℚ}

/-- The number that a constant stands for, if it is a finite real one. -/
def number? : Constant → Option ℚ
  | .int n => some n
  | .rat r => some r
  | .float f => (Binary64.parts? f.toBits).map Binary64.Parts.value
  | _ => none

theorem toInt?_eq_some_iff {n : ℤ} (hexact : value.number? = some v) :
    value.toInt? = some n ↔ v = n := by
  cases value with
  | int m =>
    obtain rfl := Option.some.inj hexact
    simp [toInt?]
  | rat r =>
    obtain rfl := Option.some.inj hexact
    rw [toInt?, Option.ite_none_right_eq_some, beq_iff_eq, Option.some.injEq]
    constructor
    · rintro ⟨hden, rfl⟩
      exact (Rat.den_eq_one_iff _).mp hden |>.symm
    · rintro rfl
      exact ⟨rfl, rfl⟩
  | float f =>
    obtain ⟨p, hparts, rfl⟩ := Option.map_eq_some_iff.mp hexact
    rw [toInt?, Binary64.toInt?, hparts, Option.bind_some, Binary64.Parts.toInt?_eq_some_iff]
  | bool _ | string _ | complex _ _ => cases hexact

theorem abs_eq_natAbs_div_den (r : ℚ) : |r| = r.num.natAbs / r.den :=
  calc |r| = |(r.num : ℚ) / r.den| := by rw [Rat.num_div_den]
    _ = r.num.natAbs / r.den := by rw [abs_div, Nat.abs_cast, Nat.cast_natAbs, Int.cast_abs]

/-- The floating-point value nearest to an exact value is at most another one if the exact value
is at most the half above that. -/
theorem exists_toFloat? (hexact : value.number? = some v) :
    ∃ f, value.toFloat? = some f ∧ ∀ {m e}, Binary64.IsCanonical m e →
      Binary64.magnitudeBits m e < Binary64.infinity →
      (Binary64.magnitude f ≤ Binary64.magnitudeBits m e ↔
        Binary64.RoundsBelow (|v| / 2 ^ e) m) := by
  cases value with
  | int n =>
    obtain rfl := Option.some.inj hexact
    refine ⟨_, rfl, fun hm hfinite => ?_⟩
    rw [Binary64.ofInt, Binary64.magnitude_ofParts,
      Binary64.nearestBits_le_iff Nat.one_pos hm hfinite]
    simp
  | rat r =>
    obtain rfl := Option.some.inj hexact
    refine ⟨_, rfl, fun hm hfinite => ?_⟩
    rw [Binary64.ofRat, Binary64.magnitude_ofParts,
      Binary64.nearestBits_le_iff r.den_pos hm hfinite, abs_eq_natAbs_div_den]
  | float f =>
    obtain ⟨p, hparts, rfl⟩ := Option.map_eq_some_iff.mp hexact
    obtain ⟨hcanonical, hword⟩ := Binary64.parts?_eq_some hparts
    refine ⟨f, rfl, fun hm _ => ?_⟩
    rw [Binary64.magnitude, hword,
      (Binary64.isRounded_of_canonical hcanonical).bits_le_iff hm, Binary64.Parts.abs_value]
  | bool _ | string _ | complex _ _ => cases hexact

theorem bitLength_le_iff {n bits : ℕ} : bitLength n ≤ bits ↔ n < 2 ^ bits := by
  unfold bitLength
  by_cases hn : n = 0
  · simp [hn]
  · rw [if_neg (by simpa using hn), Nat.succ_le_iff, Nat.log2_lt hn]

end Constant

/-! ## Ranges -/

namespace BasicType

/-- Whether an integer has a representation in a number of bits, in two's complement if it is
signed. -/
def InRange (n : ℤ) (bits : ℕ) (unsigned : Bool) : Prop :=
  if unsigned then 0 ≤ n ∧ n < 2 ^ bits else -2 ^ (bits - 1) ≤ n ∧ n < 2 ^ (bits - 1)

instance (n : ℤ) (bits : ℕ) (unsigned : Bool) : Decidable (InRange n bits unsigned) :=
  inferInstanceAs (Decidable (if unsigned then _ else _))

/-- Whether a number is a value of a kind of numbers. A value of a kind of floating-point numbers
may have lost digits; from half a unit above the greatest finite one there is no such value. -/
def Holds (kind : BasicType) (v : ℚ) : Prop :=
  match kind.integerBits? with
  | some bits => v.den = 1 ∧ InRange v.num bits kind.isUnsigned
  | none =>
    match kind with
    | .untypedInt | .untypedRune => v.den = 1
    | .float32 | .complex64 => |v| < (2 ^ 25 - 1) * 2 ^ 103
    | .float64 | .complex128 => |v| < (2 ^ 54 - 1) * 2 ^ 970
    | .untypedFloat | .untypedComplex => True
    | _ => False

instance (kind : BasicType) (v : ℚ) : Decidable (kind.Holds v) := by
  unfold Holds
  split
  · infer_instance
  · split <;> infer_instance

end BasicType

namespace Constant

variable {value : Constant} {v : ℚ} {kind : BasicType}

theorem intFits_iff {n : ℤ} {bits : ℕ} {unsigned : Bool} :
    intFits n bits unsigned = true ↔ BasicType.InRange n bits unsigned := by
  cases unsigned with
  | true =>
    simp only [intFits, BasicType.InRange, if_true, Bool.and_eq_true, decide_eq_true_iff,
      bitLength_le_iff]
    refine and_congr_right fun hnonneg => ?_
    rw [← Int.ofNat_lt, Int.natAbs_of_nonneg hnonneg]
    push_cast
    rfl
  | false =>
    simp only [intFits, BasicType.InRange, Bool.false_eq_true, if_false, Bool.and_eq_true,
      decide_eq_true_iff, Nat.pow_eq]
    push_cast
    rfl

/-- A number fits in a width if it is an integer of this width. -/
theorem fitsInteger_iff {bits : ℕ} {unsigned : Bool} (hexact : value.number? = some v) :
    value.fitsInteger bits unsigned = true ↔ ∃ n : ℤ, v = n ∧ BasicType.InRange n bits unsigned := by
  rw [fitsInteger]
  constructor
  · intro h
    cases hint : value.toInt? with
    | none =>
      rw [hint] at h
      cases h
    | some n =>
      rw [hint] at h
      exact ⟨n, (toInt?_eq_some_iff hexact).mp hint, intFits_iff.mp h⟩
  · rintro ⟨n, hn, hrange⟩
    rw [(toInt?_eq_some_iff hexact).mpr hn]
    exact intFits_iff.mpr hrange

theorem representable_integer_eq {bits : ℕ} (hbits : kind.integerBits? = some bits) :
    value.representable kind = value.fitsInteger bits kind.isUnsigned := by
  unfold representable
  rw [hbits]

theorem representable_integer_iff {bits : ℕ} (hexact : value.number? = some v)
    (hbits : kind.integerBits? = some bits) : value.representable kind = true ↔ kind.Holds v := by
  have hholds : kind.Holds v ↔ v.den = 1 ∧ BasicType.InRange v.num bits kind.isUnsigned := by
    unfold BasicType.Holds
    rw [hbits]
  rw [representable_integer_eq hbits, fitsInteger_iff hexact, hholds]
  constructor
  · rintro ⟨n, rfl, hrange⟩
    exact ⟨rfl, hrange⟩
  · rintro ⟨hden, hrange⟩
    exact ⟨v.num, ((Rat.den_eq_one_iff v).mp hden).symm, hrange⟩

/-- The greatest value of 64 bits has half a unit above it that is rounded up. -/
theorem roundsBelow_greatest64 {x : ℚ} :
    Binary64.RoundsBelow (x / 2 ^ (971 : ℤ)) (2 ^ 53 - 1) ↔ x < (2 ^ 54 - 1) * 2 ^ 970 := by
  have hunit : (2 : ℚ) ^ (971 : ℤ) = 2 * 2 ^ 970 := by
    rw [← pow_succ']
    rfl
  have hpos : (0 : ℚ) < 2 * 2 ^ 970 := by positivity
  rw [Binary64.roundsBelow_odd (by decide), hunit, div_lt_iff₀ hpos]
  generalize (2 : ℚ) ^ 970 = unit
  have hhalf : (((2 ^ 53 - 1 : ℕ) : ℚ) + 1 / 2) * (2 * unit) = (2 ^ 54 - 1) * unit := by
    push_cast
    ring
  rw [hhalf]

/-- What is rounded to the greatest value of 32 bits, in the digits of 64, is below half a unit
above it. -/
theorem lt_of_roundsBelow_greatest32 {x : ℚ}
    (h : Binary64.RoundsBelow (x / 2 ^ (75 : ℤ)) (2 ^ 53 - 2 ^ 29)) :
    x < (2 ^ 25 - 1) * 2 ^ 103 := by
  rw [Binary64.roundsBelow_even (by decide), div_le_iff₀ (by positivity)] at h
  refine h.trans_lt ?_
  norm_num

theorem toBits_maxFloat32 :
    maxFloat32.toBits.toNat = Binary64.magnitudeBits (2 ^ 53 - 2 ^ 29) 75 := by
  rw [maxFloat32, Binary64.ofInt, Binary64.toBits_ofParts]
  decide +kernel

theorem representable_finite_iff (hexact : value.number? = some v)
    (hkind : kind = .float64 ∨ kind = .complex64 ∨ kind = .complex128) :
    value.representable kind = true ↔ BasicType.Holds .float64 v := by
  obtain ⟨f, hf, hmagnitude⟩ := exists_toFloat? hexact
  have hrepresentable : value.representable kind = Binary64.isFinite f := by
    cases value with
    | int _ | rat _ | float _ =>
      rcases hkind with rfl | rfl | rfl <;>
        simp only [representable, BasicType.integerBits?, hf, Bool.or_false]
    | bool _ | string _ | complex _ _ => cases hexact
  have hcanonical : Binary64.IsCanonical (2 ^ 53 - 1) 971 := ⟨by decide, by decide, by decide⟩
  have hgreatest : Binary64.magnitudeBits (2 ^ 53 - 1) 971 + 1 = Binary64.infinity := by
    decide +kernel
  rw [hrepresentable, Binary64.isFinite_iff, ← hgreatest, Nat.lt_succ_iff,
    hmagnitude hcanonical (by omega)]
  exact roundsBelow_greatest64

theorem holds_float32 (hexact : value.number? = some v)
    (h : value.representable .float32 = true) : BasicType.Holds .float32 v := by
  obtain ⟨f, hf, hmagnitude⟩ := exists_toFloat? hexact
  have hcanonical : Binary64.IsCanonical (2 ^ 53 - 2 ^ 29) 75 := ⟨by decide, by decide, by decide⟩
  have hfinite : Binary64.magnitudeBits (2 ^ 53 - 2 ^ 29) 75 < Binary64.infinity := by
    decide +kernel
  have hle : f.abs ≤ maxFloat32 := by
    simpa only [representable, BasicType.integerBits?, hf, decide_eq_true_iff] using h
  rw [Binary64.abs_le_iff (by rwa [toBits_maxFloat32]), toBits_maxFloat32,
    hmagnitude hcanonical hfinite] at hle
  exact lt_of_roundsBelow_greatest32 hle

/-- A number that is taken for a value of a kind of numbers and is none: complex numbers of 64 bits
are checked like those of 128, and untyped kinds are not checked. -/
inductive Exceeds (kind : BasicType) (v : ℚ) : Prop
  | complex64 (hkind : kind = .complex64) (hfits : BasicType.Holds .complex128 v)
      (hwide : ¬kind.Holds v)
  | untyped (hkind : kind = .untypedInt ∨ kind = .untypedRune) (hfraction : ¬kind.Holds v)

theorem Exceeds.not_holds (h : Exceeds kind v) : ¬kind.Holds v := by
  cases h with
  | complex64 _ _ hwide => exact hwide
  | untyped _ hfraction => exact hfraction

theorem Exceeds.isNumeric (h : Exceeds kind v) : kind.isNumeric = true := by
  cases h with
  | complex64 hkind =>
    rw [hkind]
    rfl
  | untyped hkind => rcases hkind with rfl | rfl <;> rfl

theorem Exceeds.representable (h : Exceeds kind v) (hexact : value.number? = some v) :
    value.representable kind = true := by
  cases h with
  | complex64 hkind hfits => exact (representable_finite_iff hexact (.inr (.inl hkind))).mpr hfits
  | untyped hkind => rcases hkind with rfl | rfl <;> rfl

/-- A constant is taken for a value of a kind of numbers if its exact value is in the range, but for
the exceptions. -/
theorem holds_or_exceeds (hexact : value.number? = some v) (hnumeric : kind.isNumeric = true)
    (h : value.representable kind = true) : kind.Holds v ∨ Exceeds kind v := by
  by_cases hholds : kind.Holds v
  · exact .inl hholds
  cases kind with
  | float32 => exact .inl (holds_float32 hexact h)
  | float64 => exact .inl ((representable_finite_iff hexact (.inl rfl)).mp h)
  | complex128 => exact .inl ((representable_finite_iff hexact (.inr (.inr rfl))).mp h)
  | complex64 =>
    exact .inr (.complex64 rfl ((representable_finite_iff hexact (.inr (.inl rfl))).mp h) hholds)
  | untypedInt => exact .inr (.untyped (.inl rfl) hholds)
  | untypedRune => exact .inr (.untyped (.inr rfl) hholds)
  | untypedFloat | untypedComplex => exact .inl trivial
  | int | int8 | int16 | int32 | int64 | uint | uint8 | uint16 | uint32 | uint64 | uintptr =>
    exact .inl ((representable_integer_iff hexact rfl).mp h)
  | _ => cases hnumeric

-- `1e300` is taken for a complex number of 64 bits
example : Exceeds .complex64 (10 ^ 300) :=
  .complex64 rfl (by decide +kernel) (by decide +kernel)

end Constant

end GoLowering

/-!
## Widths of integers

A number fits in a width just in case it is an integer between the limits of the width, which are
powers of two (`Constant.fitsInteger_iff`). The limits move apart as widths grow, those of signed
integers lie outside of those of all narrower unsigned ones (`BasicType.InRange.widen`), and the
complement `-1 - n` exchanges the two limits of signed integers
(`BasicType.inRange_complement_iff`).
-/

namespace GoLowering

namespace BasicType

variable {n : ℤ} {bits width : ℕ} {unsigned unsigned' : Bool}

/-- Whether integers of a width, signed or not, have room in another width. -/
inductive Widens (bits width : ℕ) : Bool → Bool → Prop
  | same {unsigned : Bool} (h : bits ≤ width) : Widens bits width unsigned unsigned
  /-- The sign takes one bit. -/
  | signed (h : bits < width) : Widens bits width true false

theorem InRange.widen (h : InRange n bits unsigned)
    (hwidens : Widens bits width unsigned unsigned') : InRange n width unsigned' := by
  cases hwidens with
  | @same unsigned hle =>
    cases unsigned with
    | true => exact ⟨h.1, h.2.trans_le (pow_le_pow_right₀ (by decide) hle)⟩
    | false =>
      have hlimit : (2 : ℤ) ^ (bits - 1) ≤ 2 ^ (width - 1) :=
        pow_le_pow_right₀ (by decide) (Nat.sub_le_sub_right hle 1)
      exact ⟨(neg_le_neg hlimit).trans h.1, h.2.trans_le hlimit⟩
  | signed hlt =>
    have hlimit : (2 : ℤ) ^ bits ≤ 2 ^ (width - 1) :=
      pow_le_pow_right₀ (by decide) (Nat.le_sub_one_of_lt hlt)
    have hpos : (0 : ℤ) < 2 ^ (width - 1) := by positivity
    exact ⟨(neg_nonpos.mpr hpos.le).trans h.1, h.2.trans_le hlimit⟩

theorem inRange_complement_iff : InRange (-1 - n) bits false ↔ InRange n bits false := by
  simp only [InRange, Bool.false_eq_true, if_false]
  omega

end BasicType

namespace Constant

variable {value complement : Constant} {v : ℚ} {bits width : ℕ} {unsigned unsigned' : Bool}

theorem number?_of_toRat? (hexact : value.toRat? = some v) : value.number? = some v := by
  cases value with
  | int _ | rat _ => exact hexact
  | bool _ | string _ | float _ | complex _ _ => cases hexact

theorem fitsInteger_widen (hexact : value.number? = some v)
    (hwidens : BasicType.Widens bits width unsigned unsigned')
    (h : value.fitsInteger bits unsigned = true) : value.fitsInteger width unsigned' = true := by
  obtain ⟨n, hn, hrange⟩ := (fitsInteger_iff hexact).mp h
  exact (fitsInteger_iff hexact).mpr ⟨n, hn, hrange.widen hwidens⟩

/-- A number and its complement fit in the same signed widths. -/
theorem fitsInteger_complement (hexact : value.number? = some v)
    (hcomplement : complement.number? = some (-1 - v)) (bits : ℕ) :
    complement.fitsInteger bits false = value.fitsInteger bits false := by
  rw [Bool.eq_iff_iff, fitsInteger_iff hexact, fitsInteger_iff hcomplement]
  constructor
  · rintro ⟨n, hn, hrange⟩
    refine ⟨-1 - n, ?_, BasicType.inRange_complement_iff.mpr hrange⟩
    push_cast
    linarith
  · rintro ⟨n, rfl, hrange⟩
    exact ⟨-1 - n, by push_cast; rfl, BasicType.inRange_complement_iff.mpr hrange⟩

theorem toRat?_of_bitNot (hexact : value.toRat? = some v)
    (hfold : foldUnary .bitNot value = .ok complement) : complement.toRat? = some (-1 - v) := by
  cases value with
  | int n =>
    obtain rfl := Except.ok.inj hfold
    obtain rfl := Option.some.inj hexact
    rw [Bitwise.not, toRat?]
    push_cast
    rfl
  | bool _ | string _ | rat _ | float _ | complex _ _ => cases hfold

/-- An exact number fits in a width if it is an integer between the limits of the width. What fits
in a width fits in all widths that have room for it, and is a value of the kinds of integers of
these widths. A number and its complement are values of the same signed kinds. -/
theorem integer_widths (hexact : value.toRat? = some v) :
    (∀ bits,
      (value.fitsInteger (bits + 1) true = true ↔ ∃ n : ℤ, v = n ∧ 0 ≤ n ∧ n < 2 ^ (bits + 1)) ∧
      (value.fitsInteger (bits + 1) false = true ↔
        ∃ n : ℤ, v = n ∧ -2 ^ bits ≤ n ∧ n < 2 ^ bits)) ∧
    (∀ {bits width unsigned unsigned'}, 0 < bits →
      BasicType.Widens bits width unsigned unsigned' →
      value.fitsInteger bits unsigned = true → value.fitsInteger width unsigned' = true) ∧
    (∀ {kind wider : BasicType} {bits width}, kind.integerBits? = some bits →
      wider.integerBits? = some width →
      BasicType.Widens bits width kind.isUnsigned wider.isUnsigned →
      value.representable kind = true → value.representable wider = true) ∧
    (∀ {complement : Constant}, foldUnary .bitNot value = .ok complement →
      complement.toRat? = some (-1 - v)) ∧
    ∀ {complement : Constant} {kind : BasicType} {bits}, complement.toRat? = some (-1 - v) →
      kind.integerBits? = some bits → kind.isUnsigned = false →
      complement.representable kind = value.representable kind := by
  have hnumber := number?_of_toRat? hexact
  refine ⟨fun bits => ⟨fitsInteger_iff hnumber, fitsInteger_iff hnumber⟩,
    fun _ hwidens h => fitsInteger_widen hnumber hwidens h, ?_, toRat?_of_bitNot hexact, ?_⟩
  · intro kind wider bits width hbits hwidth hwidens h
    rw [representable_integer_eq hbits] at h
    rw [representable_integer_eq hwidth]
    exact fitsInteger_widen hnumber hwidens h
  · intro complement kind bits hcomplement hbits hsigned
    rw [representable_integer_eq hbits, representable_integer_eq hbits, hsigned]
    exact fitsInteger_complement hnumber (number?_of_toRat? hcomplement) bits

/-- The greatest value of `uint8` is one of `int16`, as is its complement. -/
theorem integer_widths_byte :
    (int 255).representable .int16 = true ∧ (int (-256)).representable .int16 = true := by
  have hexact : (int 255).toRat? = some ((255 : ℤ) : ℚ) := rfl
  have hwidths := integer_widths hexact
  have hbyte : BasicType.uint8.integerBits? = some 8 := rfl
  have hwide : (int 255).representable .int16 = true :=
    hwidths.2.2.1 hbyte rfl (.signed (by decide)) (by decide)
  have hcomplement : (int (-256)).toRat? = some (-1 - ((255 : ℤ) : ℚ)) := hwidths.2.2.2.1 rfl
  exact ⟨hwide, (hwidths.2.2.2.2 hcomplement rfl rfl).trans hwide⟩

end Constant

end GoLowering
