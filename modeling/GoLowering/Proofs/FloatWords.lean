import Mathlib
import GoLowering.Constant.Binary64

/-!
# Words of floating-point values

The bits of a magnitude `m · 2^e` grow with it, and `nearestBits` is rounding to the nearest of
these magnitudes: `nearestBits_le_iff` compares its result with the bits of any of them.

The operations on floating-point values take their words apart and put them together again. Both are
read as arithmetic on the words: the magnitudes of finite values are in the order of their words
without the sign.
-/

namespace GoLowering.Binary64

/-! ## Nearest magnitudes -/

section

variable {num den m : ℕ} {e : ℤ}

/-- Rounded to an integer, `x` is at most `m`: the half above `m` goes to the even neighbour. -/
def RoundsBelow (x : ℚ) (m : ℕ) : Prop :=
  x < m + 1 / 2 ∨ (x = m + 1 / 2 ∧ Even m)

theorem roundsBelow_of_le {x : ℚ} (h : x ≤ m) : RoundsBelow x m :=
  .inl (by linarith)

theorem not_roundsBelow {x : ℚ} (h : (m : ℚ) + 1 ≤ x) : ¬RoundsBelow x m := by
  rintro (h' | ⟨h', -⟩) <;> linarith

theorem roundsBelow_odd {x : ℚ} (h : ¬Even m) : RoundsBelow x m ↔ x < m + 1 / 2 := by
  simp [RoundsBelow, h]

theorem roundsBelow_even {x : ℚ} (h : Even m) : RoundsBelow x m ↔ x ≤ m + 1 / 2 := by
  simp [RoundsBelow, h, le_iff_lt_or_eq]

/-- A quotient compared with a half, in integers. -/
theorem roundsBelow_quotient_iff (hden : 0 < den) :
    RoundsBelow (num / den) m ↔
      2 * num < 2 * (den * m) + den ∨ (2 * num = 2 * (den * m) + den ∧ Even m) := by
  have hpos : (0 : ℚ) < den := by exact_mod_cast hden
  have hhalf : (m : ℚ) + 1 / 2 = ((2 * (den * m) + den : ℕ) : ℚ) / (2 * den) := by
    push_cast
    field_simp
  have hx : (num : ℚ) / den = ((2 * num : ℕ) : ℚ) / (2 * den) := by
    push_cast
    field_simp
  rw [RoundsBelow, hhalf, hx, div_lt_div_iff_of_pos_right (by positivity),
    div_left_inj' (by positivity), Nat.cast_lt, Nat.cast_inj]

theorem roundQuotient_le_iff (hden : 0 < den) :
    roundQuotient num den ≤ m ↔ RoundsBelow (num / den) m := by
  have hdiv : den * (num / den) + num % den = num := Nat.div_add_mod num den
  have hmod : num % den < den := Nat.mod_lt num hden
  rw [roundsBelow_quotient_iff hden, Nat.even_iff]
  simp only [roundQuotient]
  generalize num / den = q at *
  generalize num % den = r at *
  rcases lt_trichotomy q m with h | rfl | h
  · have hnext : den * q + den ≤ den * m := Nat.mul_le_mul_left den h
    split_ifs <;> omega
  · split_ifs <;> omega
  · have hnext : den * m + den ≤ den * q := Nat.mul_le_mul_left den h
    split_ifs <;> omega

/-! ## Places of a quotient -/

theorem quotientBelow_iff (hden : 0 < den) :
    quotientBelow num den e = true ↔ (num / den : ℚ) < 2 ^ e := by
  have hpos : (0 : ℚ) < den := by exact_mod_cast hden
  cases e with
  | ofNat k =>
    rw [quotientBelow, decide_eq_true_iff, Int.ofNat_eq_natCast, zpow_natCast, div_lt_iff₀ hpos,
      mul_comm, Nat.pow_eq]
    norm_cast
  | negSucc k =>
    rw [quotientBelow, decide_eq_true_iff, zpow_negSucc, ← one_div,
      div_lt_div_iff₀ hpos (by positivity), one_mul, Nat.pow_eq]
    norm_cast

/-- The exponent of the first power of two above a quotient. -/
def top (num den : ℕ) : ℤ :=
  let guess : ℤ := (Nat.log2 num : ℤ) - (Nat.log2 den : ℤ)
  if quotientBelow num den guess then guess else guess + 1

/-- The exponent of the last place that is kept of a quotient. -/
def lastPlace (num den : ℕ) : ℤ := max (top num den - 53) (-1074)

/-- A quotient rounded to a multiple of `2^e`. -/
def roundedAt (num den : ℕ) (e : ℤ) : ℕ :=
  match e with
  | .ofNat k => roundQuotient num (den * Nat.pow 2 k)
  | .negSucc k => roundQuotient (num * Nat.pow 2 (k + 1)) den

/-- The bits of `m · 2^e`. -/
def magnitudeBits (m : ℕ) (e : ℤ) : ℕ := (e + 1074).toNat * 2 ^ 52 + m

theorem nearestBits_eq (hnum : num ≠ 0) :
    nearestBits num den =
      min (magnitudeBits (roundedAt num den (lastPlace num den)) (lastPlace num den))
        (2047 * 2 ^ 52) := by
  rw [nearestBits, if_neg (by simpa using hnum)]
  rfl

theorem log2_bounds {n : ℕ} (h : n ≠ 0) :
    (2 : ℚ) ^ (n.log2 : ℤ) ≤ n ∧ (n : ℚ) < 2 ^ ((n.log2 : ℤ) + 1) := by
  have hlow : 2 ^ n.log2 ≤ n := Nat.log2_self_le h
  have hhigh : n < 2 ^ (n.log2 + 1) := Nat.lt_log2_self
  constructor
  · exact_mod_cast hlow
  · exact_mod_cast hhigh

theorem top_bounds (hnum : num ≠ 0) (hden : 0 < den) :
    (2 : ℚ) ^ (top num den - 1) ≤ num / den ∧ (num / den : ℚ) < 2 ^ top num den := by
  have hpos : (0 : ℚ) < den := by exact_mod_cast hden
  obtain ⟨hnumLow, hnumHigh⟩ := log2_bounds hnum
  obtain ⟨hdenLow, hdenHigh⟩ := log2_bounds hden.ne'
  have hlow : (2 : ℚ) ^ ((num.log2 : ℤ) - den.log2 - 1) ≤ num / den := by
    rw [le_div_iff₀ hpos]
    calc (2 : ℚ) ^ ((num.log2 : ℤ) - den.log2 - 1) * den
        ≤ 2 ^ ((num.log2 : ℤ) - den.log2 - 1) * 2 ^ ((den.log2 : ℤ) + 1) := by gcongr
      _ = 2 ^ (num.log2 : ℤ) := by
        rw [← zpow_add₀ two_ne_zero]
        congr 1
        ring
      _ ≤ num := hnumLow
  have hhigh : (num / den : ℚ) < 2 ^ ((num.log2 : ℤ) - den.log2 + 1) := by
    rw [div_lt_iff₀ hpos]
    calc (num : ℚ) < 2 ^ ((num.log2 : ℤ) + 1) := hnumHigh
      _ = 2 ^ ((num.log2 : ℤ) - den.log2 + 1) * 2 ^ (den.log2 : ℤ) := by
        rw [← zpow_add₀ two_ne_zero]
        congr 1
        ring
      _ ≤ 2 ^ ((num.log2 : ℤ) - den.log2 + 1) * den := by gcongr
  unfold top
  dsimp only
  split
  · rename_i hbelow
    exact ⟨hlow, (quotientBelow_iff hden).mp hbelow⟩
  · rename_i habove
    rw [quotientBelow_iff hden, not_lt] at habove
    rw [add_sub_cancel_right]
    exact ⟨habove, hhigh⟩

theorem roundedAt_le_iff (hden : 0 < den) :
    roundedAt num den e ≤ m ↔ RoundsBelow (num / den / 2 ^ e) m := by
  cases e with
  | ofNat k =>
    have hden' : 0 < den * 2 ^ k := by positivity
    rw [roundedAt, Nat.pow_eq, roundQuotient_le_iff hden', Int.ofNat_eq_natCast, zpow_natCast,
      div_div]
    push_cast
    rfl
  | negSucc k =>
    rw [roundedAt, Nat.pow_eq, roundQuotient_le_iff hden, zpow_negSucc, div_inv_eq_mul,
      div_mul_eq_mul_div]
    push_cast
    rfl

/-! ## Comparison -/

/-- A magnitude `m · 2^e` is written with the digits that a floating-point value has: all of them,
unless it has the least exponent. -/
structure IsCanonical (m : ℕ) (e : ℤ) : Prop where
  significand : m < 2 ^ 53
  exponent : -1074 ≤ e
  normal : -1074 < e → 2 ^ 52 ≤ m

/-- A magnitude `x` is rounded to the multiple `r · 2^u`, where `u` is the last place that is kept
of it: 53 digits of `x` at most, and as many above the least place. -/
structure IsRounded (x : ℚ) (r : ℕ) (u : ℤ) : Prop where
  le_iff : ∀ m, r ≤ m ↔ RoundsBelow (x / 2 ^ u) m
  place : -1074 ≤ u
  below : x < 2 ^ 53 * 2 ^ u
  above : -1074 < u → 2 ^ 52 * 2 ^ u ≤ x

/-- The bits of a rounded magnitude are compared with those of another floating-point value as the
magnitude with the half above that value. -/
theorem IsRounded.bits_le_iff {x : ℚ} {r : ℕ} {u : ℤ} (h : IsRounded x r u)
    (hm : IsCanonical m e) :
    magnitudeBits r u ≤ magnitudeBits m e ↔ RoundsBelow (x / 2 ^ e) m := by
  have hplace := h.place
  have hsignificand := hm.significand
  have hexponent := hm.exponent
  have hu : (0 : ℚ) < 2 ^ u := by positivity
  have he : (0 : ℚ) < 2 ^ e := by positivity
  rcases lt_trichotomy u e with hlt | rfl | hgt
  · -- `x` is below all values with the exponent `e`
    have hdigits := hm.normal (by omega)
    have hstep : (2 : ℚ) * 2 ^ u ≤ 2 ^ e := by
      rw [← zpow_one_add₀ two_ne_zero]
      exact zpow_le_zpow_right₀ one_le_two (by omega)
    have hrounded : r ≤ 2 ^ 53 := by
      refine (h.le_iff _).mpr (roundsBelow_of_le ?_)
      rw [div_le_iff₀ hu]
      push_cast
      exact h.below.le
    refine iff_of_true ?_ (roundsBelow_of_le ?_)
    · simp only [magnitudeBits]
      omega
    · rw [div_le_iff₀ he]
      have hdigits : (2 : ℚ) ^ 52 ≤ m := by exact_mod_cast hdigits
      calc x ≤ 2 ^ 53 * 2 ^ u := h.below.le
        _ = 2 ^ 52 * (2 * 2 ^ u) := by ring
        _ ≤ m * 2 ^ e := by gcongr
  · rw [← h.le_iff, magnitudeBits, magnitudeBits, Nat.add_le_add_iff_left]
  · -- `x` is above all values with the exponent `e`
    have hlow := h.above (by omega)
    have hstep : (2 : ℚ) * 2 ^ e ≤ 2 ^ u := by
      rw [← zpow_one_add₀ two_ne_zero]
      exact zpow_le_zpow_right₀ one_le_two (by omega)
    have hrounded : ¬r ≤ 2 ^ 52 - 1 := by
      rw [h.le_iff]
      refine not_roundsBelow ?_
      rw [le_div_iff₀ hu]
      push_cast
      linarith
    refine iff_of_false ?_ (not_roundsBelow ?_)
    · simp only [magnitudeBits]
      omega
    · rw [le_div_iff₀ he]
      have hsignificand : (m : ℚ) + 1 ≤ 2 ^ 53 := by exact_mod_cast hsignificand
      calc ((m : ℚ) + 1) * 2 ^ e ≤ 2 ^ 53 * 2 ^ e := by gcongr
        _ = 2 ^ 52 * (2 * 2 ^ e) := by ring
        _ ≤ 2 ^ 52 * 2 ^ u := by gcongr
        _ ≤ x := hlow

/-- A floating-point value is rounded already. -/
theorem isRounded_of_canonical (hm : IsCanonical m e) : IsRounded (m * 2 ^ e) m e where
  le_iff n := by
    rw [mul_div_cancel_right₀ _ (by positivity)]
    constructor
    · intro h
      exact roundsBelow_of_le (by exact_mod_cast h)
    · intro h
      by_contra hlt
      exact not_roundsBelow (by exact_mod_cast Nat.not_le.mp hlt) h
  place := hm.exponent
  below := by
    have hsignificand : (m : ℚ) < 2 ^ 53 := by exact_mod_cast hm.significand
    gcongr
  above h := by
    have hdigits : (2 : ℚ) ^ 52 ≤ m := by exact_mod_cast hm.normal h
    gcongr

theorem isRounded_nearest (hnum : num ≠ 0) (hden : 0 < den) :
    IsRounded (num / den) (roundedAt num den (lastPlace num den)) (lastPlace num den) := by
  obtain ⟨hlow, hhigh⟩ := top_bounds hnum hden
  have hplaces (k : ℕ) :
      (2 : ℚ) ^ k * 2 ^ lastPlace num den = 2 ^ ((k : ℤ) + lastPlace num den) := by
    rw [zpow_add₀ two_ne_zero, zpow_natCast]
  refine ⟨fun _ => roundedAt_le_iff hden, le_max_right _ _, ?_, fun habove => ?_⟩
  · rw [hplaces]
    refine hhigh.trans_le (zpow_le_zpow_right₀ one_le_two ?_)
    have hplace := le_max_left (top num den - 53) (-1074)
    rw [lastPlace]
    push_cast
    omega
  · rw [hplaces]
    refine le_trans (zpow_le_zpow_right₀ one_le_two ?_) hlow
    rw [lastPlace] at habove ⊢
    push_cast
    omega

/-- A quotient is rounded to at most a floating-point value if it is at most the half above it. -/
theorem nearestBits_le_iff (hden : 0 < den) (hm : IsCanonical m e)
    (hfinite : magnitudeBits m e < 2047 * 2 ^ 52) :
    nearestBits num den ≤ magnitudeBits m e ↔ RoundsBelow (num / den / 2 ^ e) m := by
  by_cases hnum : num = 0
  · subst hnum
    refine iff_of_true (Nat.zero_le _) (roundsBelow_of_le ?_)
    simp
  · rw [nearestBits_eq hnum, min_le_iff, or_iff_left (by omega),
      (isRounded_nearest hnum hden).bits_le_iff hm]

end

/-! ## Words -/

open Float.Model (Format UnpackedFloat)
open Float.Model.UnpackedFloat

/-- The word of infinity. -/
def infinity : ℕ := 2047 * 2 ^ 52

theorem infinity_lt : infinity < 2 ^ 63 := by decide

/-- The part of a word that is the sign. -/
def signBits : Sign → ℕ
  | .positive => 0
  | .negative => 2 ^ 63

theorem signBits_cases (sign : Sign) : signBits sign = 0 ∨ signBits sign = 2 ^ 63 := by
  cases sign with
  | positive => exact .inl rfl
  | negative => exact .inr rfl

/-- The word that a value is put together to. -/
def wordOf : UnpackedFloat → ℕ
  | .notANumber => infinity + 2 ^ 51
  | .infinity sign => signBits sign + infinity
  | .zero sign => signBits sign
  | .finite sign m e _ => signBits sign + magnitudeBits m e

/-- A value that a word is taken apart to. -/
inductive IsUnpacked : UnpackedFloat → Prop
  | notANumber : IsUnpacked .notANumber
  | infinity (sign : Sign) : IsUnpacked (.infinity sign)
  | zero (sign : Sign) : IsUnpacked (.zero sign)
  | finite (sign : Sign) {m : ℕ} {e : ℤ} (hpos : 0 < m) (hm : IsCanonical m e)
      (hfinite : magnitudeBits m e < GoLowering.Binary64.infinity) :
      IsUnpacked (.finite sign m e hpos)

/-- Every word consists of a sign, an exponent and a significand. -/
theorem exists_components (b : BitVec Format.binary64.numBits) :
    ∃ sign exponent significand, b = packComponents .binary64 sign exponent significand :=
  ⟨_, _, _, (packComponents_unpackSign_unpackExponent_unpackMantissa b).symm⟩

theorem toNat_packComponents (sign : Sign) (exponent : BitVec 11) (significand : BitVec 52) :
    (packComponents .binary64 sign exponent significand).toNat =
      signBits sign + exponent.toNat * 2 ^ 52 + significand.toNat := by
  have hsign : sign.toBitVec.toNat * 2 ^ 63 = signBits sign := by cases sign <;> rfl
  have hexponent := exponent.isLt
  rw [packComponents, BitVec.toNat_append, BitVec.toNat_append,
    ← Nat.shiftLeft_add_eq_or_of_lt significand.isLt, ← Nat.shiftLeft_add_eq_or_of_lt exponent.isLt,
    Nat.shiftLeft_eq, Nat.shiftLeft_eq, ← hsign]
  change (sign.toBitVec.toNat * 2 ^ 11 + exponent.toNat) * 2 ^ 52 + significand.toNat = _
  ring

/-! ## Putting together -/

theorem toNat_pack_finite (sign : Sign) {m : ℕ} {e : ℤ} (hpos : 0 < m) (hm : IsCanonical m e)
    (hfinite : magnitudeBits m e < infinity) :
    (pack .binary64 (.finite sign m e hpos)).toNat = signBits sign + magnitudeBits m e := by
  have hsignificand := hm.significand
  have hexponent := hm.exponent
  have hnormal := hm.normal
  rw [infinity, magnitudeBits] at hfinite
  have hbiased : (e + Format.binary64.exponentBias +
      Format.binary64.mantissaBitsWithoutImplicit).toNat = (e + 1075).toNat := by
    change (e + (1023 : ℕ) + (52 : ℕ)).toNat = _
    congr 1
    push_cast
    ring
  have hbits : Format.binary64.mantissaBits = 53 := rfl
  rw [pack]
  dsimp only
  rw [hbiased, hbits, if_neg (by omega), magnitudeBits]
  by_cases hlow : 2 ^ 52 ≤ m
  · have hlog : m.log2 = 52 := by
      have h52 := (Nat.le_log2 hpos.ne').mpr hlow
      have h53 := (Nat.log2_lt hpos.ne').mpr hsignificand
      omega
    rw [hlog, if_pos rfl, toNat_packComponents, BitVec.toNat_ofNat, BitVec.toNat_ofNat]
    omega
  · have hlog : m.log2 < 52 := (Nat.log2_lt hpos.ne').mpr (by omega)
    rw [if_neg (by omega), toNat_packComponents, BitVec.toNat_ofNat, BitVec.toNat_ofNat]
    omega

theorem toNat_pack {u : UnpackedFloat} (h : IsUnpacked u) :
    (pack .binary64 u).toNat = wordOf u := by
  cases h with
  | notANumber => rfl
  | infinity sign => cases sign <;> rfl
  | zero sign => cases sign <;> rfl
  | finite sign hpos hm hfinite => exact toNat_pack_finite sign hpos hm hfinite

/-! ## Taking apart -/

theorem toNat_one_append (significand : BitVec 52) :
    (1#1 ++ significand).toNat = 2 ^ 52 + significand.toNat := by
  rw [BitVec.toNat_append, ← Nat.shiftLeft_add_eq_or_of_lt significand.isLt]
  rfl

/-- A finite value is put together to the bits of its magnitude. -/
theorem finite_of_bits {sign : Sign} {m n : ℕ} {e : ℤ} (hpos : 0 < m) (hm : IsCanonical m e)
    (hbits : magnitudeBits m e = n) (hn : n < infinity) :
    IsUnpacked (.finite sign m e hpos) ∧ wordOf (.finite sign m e hpos) = signBits sign + n := by
  subst hbits
  exact ⟨.finite sign hpos hm hn, rfl⟩

/-- What a word is taken apart to, and that it is put together to the same word, unless it is a NaN.
-/
theorem unpack_cases (b : BitVec Format.binary64.numBits) :
    IsUnpacked (unpack .binary64 b) ∧
      (wordOf (unpack .binary64 b) = b.toNat ∨
        unpack .binary64 b = .notANumber ∧ infinity < b.toNat % 2 ^ 63) := by
  obtain ⟨sign, exponent, significand, rfl⟩ := exists_components b
  have hexponent : exponent.toNat < 2 ^ 11 := exponent.isLt
  have hsignificand : significand.toNat < 2 ^ 52 := significand.isLt
  have hsign := signBits_cases sign
  have hbias : ((Format.binary64.exponentBias : ℕ) : ℤ) = 1023 := rfl
  have hinfinity : infinity = 2047 * 2 ^ 52 := rfl
  rw [toNat_packComponents, unpack]
  simp only [unpackMantissa_packComponents, unpackExponent_packComponents,
    unpackSign_packComponents, Sign.ofBitVec_toBitVec, hbias]
  by_cases hones : exponent = -1#11
  · rw [if_pos hones]
    have hones : exponent.toNat = 2047 := hones ▸ rfl
    by_cases hzero : significand = 0#52
    · rw [if_pos hzero]
      have hzero : significand.toNat = 0 := hzero ▸ rfl
      refine ⟨.infinity _, .inl ?_⟩
      change signBits sign + infinity = _
      omega
    · rw [if_neg hzero]
      have hsome : significand.toNat ≠ 0 := fun h => hzero (BitVec.eq_of_toNat_eq h)
      exact ⟨.notANumber, .inr ⟨rfl, by omega⟩⟩
  · rw [if_neg hones]
    have hordinary : exponent.toNat ≠ 2047 := fun h => hones (BitVec.eq_of_toNat_eq h)
    rw [Nat.add_assoc]
    by_cases hleast : exponent = 0#11
    · rw [if_pos hleast]
      have hleast : exponent.toNat = 0 := hleast ▸ rfl
      by_cases hzero : significand = 0#52
      · rw [dif_pos hzero]
        have hzero : significand.toNat = 0 := hzero ▸ rfl
        refine ⟨.zero _, .inl ?_⟩
        change signBits sign = _
        omega
      · rw [dif_neg hzero]
        refine (finite_of_bits _ ⟨by omega, by omega, by omega⟩ ?_ (by omega)).imp_right .inl
        simp only [magnitudeBits]
        omega
    · rw [if_neg hleast]
      have hnormal : exponent.toNat ≠ 0 := fun h => hleast (BitVec.eq_of_toNat_eq h)
      have happend := toNat_one_append significand
      refine (finite_of_bits _ ⟨by omega, by omega, by omega⟩ ?_ (by omega)).imp_right .inl
      simp only [magnitudeBits, happend]
      omega

/-! ## Order -/

theorem magnitudeBits_le_iff {m n : ℕ} {e k : ℤ} (hm : IsCanonical m e) (hn : IsCanonical n k) :
    magnitudeBits m e ≤ magnitudeBits n k ↔ e < k ∨ e = k ∧ m ≤ n := by
  have hmSignificand := hm.significand
  have hnSignificand := hn.significand
  have hmExponent := hm.exponent
  have hnExponent := hn.exponent
  have hmNormal := hm.normal
  have hnNormal := hn.normal
  simp only [magnitudeBits]
  omega

/-- A word below that of infinity has no sign. -/
theorem positive_of_lt {sign : Sign} {n : ℕ} (h : signBits sign + n < 2 ^ 63) :
    sign = .positive := by
  cases sign with
  | positive => rfl
  | negative =>
    simp only [signBits] at h
    omega

/-- Values without a sign are in the order of their words. -/
theorem le_iff {u v : UnpackedFloat} (hu : IsUnpacked u) (hv : IsUnpacked v)
    (hpos : wordOf u < 2 ^ 63) (hfinite : wordOf v < infinity) :
    u.le v = true ↔ wordOf u ≤ wordOf v := by
  cases hv with
  | notANumber => exact absurd hfinite (by decide)
  | infinity sign => exact absurd (Nat.le_add_left _ _) hfinite.not_ge
  | zero sign =>
    obtain rfl := positive_of_lt (n := 0) (hfinite.trans infinity_lt)
    cases hu with
    | notANumber => decide
    | infinity sign =>
      obtain rfl := positive_of_lt hpos
      decide
    | zero sign =>
      obtain rfl := positive_of_lt (n := 0) hpos
      decide
    | finite sign hm hcanonical hfinite =>
      obtain rfl := positive_of_lt hpos
      refine iff_of_false Bool.false_ne_true (Nat.not_le.mpr ?_)
      change 0 < 0 + magnitudeBits _ _
      rw [magnitudeBits]
      omega
  | finite sign hn hcanonical' _ =>
    obtain rfl := positive_of_lt (hfinite.trans infinity_lt)
    cases hu with
    | notANumber =>
      exact iff_of_false Bool.false_ne_true fun h =>
        hfinite.not_ge ((Nat.le_add_right _ _).trans h)
    | infinity sign =>
      obtain rfl := positive_of_lt hpos
      exact iff_of_false Bool.false_ne_true fun h =>
        hfinite.not_ge ((Nat.le_add_left _ _).trans h)
    | zero sign =>
      obtain rfl := positive_of_lt (n := 0) hpos
      exact iff_of_true rfl (Nat.zero_le _)
    | finite sign hm hcanonical _ =>
      obtain rfl := positive_of_lt hpos
      change Ordering.isLE ((compare _ _).then (compare _ _)) = true ↔
        0 + magnitudeBits _ _ ≤ 0 + magnitudeBits _ _
      rw [Ordering.isLE_then_iff_or, Nat.isLE_compare, compare_lt_iff_lt, compare_eq_iff_eq,
        Nat.zero_add, Nat.zero_add, magnitudeBits_le_iff hcanonical hcanonical']

/-- A value that is put together keeps its word when it is taken apart again. -/
theorem wordOf_unpack_pack {u : UnpackedFloat} (h : IsUnpacked u) :
    wordOf (unpack .binary64 (pack .binary64 u)) = wordOf u := by
  obtain ⟨-, hword | ⟨hnan, hlarge⟩⟩ := unpack_cases (pack .binary64 u)
  · exact hword.trans (toNat_pack h)
  · have hlt := infinity_lt
    rw [hnan]
    rw [toNat_pack h] at hlarge
    cases h with
    | notANumber => rfl
    | infinity sign => cases sign <;> exact absurd hlarge (by decide)
    | zero sign => cases sign <;> exact absurd hlarge (by decide)
    | finite sign _ _ hfinite =>
      have hsign := signBits_cases sign
      change infinity < (signBits sign + magnitudeBits _ _) % 2 ^ 63 at hlarge
      omega

theorem isUnpacked_abs {u : UnpackedFloat} (h : IsUnpacked u) : IsUnpacked u.abs := by
  cases h with
  | notANumber => exact .notANumber
  | infinity _ => exact .infinity _
  | zero _ => exact .zero _
  | finite _ hpos hm hfinite => exact .finite _ hpos hm hfinite

theorem wordOf_abs {u : UnpackedFloat} (h : IsUnpacked u) : wordOf u.abs = wordOf u % 2 ^ 63 := by
  cases h with
  | notANumber => rfl
  | infinity sign => cases sign <;> rfl
  | zero sign => cases sign <;> rfl
  | finite sign hpos hm hfinite =>
    have hsign := signBits_cases sign
    have hlarge := infinity_lt
    change 0 + magnitudeBits _ _ = (signBits sign + magnitudeBits _ _) % 2 ^ 63
    omega

/-! ## Floating-point values -/

/-- The word of a value without its sign. -/
def magnitude (f : Float) : ℕ := f.toBits.toNat % 2 ^ 63

theorem toBits_ofBits {w : UInt64} (h : w.toNat % 2 ^ 63 ≤ infinity) :
    (Float.ofBits w).toBits = w := by
  obtain ⟨hunpacked, hword | ⟨-, hnan⟩⟩ := unpack_cases w.toBitVec
  · refine UInt64.toNat_inj.mp ?_
    exact (toNat_pack hunpacked).trans hword
  · have hnan : infinity < w.toNat % 2 ^ 63 := hnan
    omega

/-- An absolute value is compared with another value by the words. -/
theorem abs_le_iff {f g : Float} (hg : g.toBits.toNat < infinity) :
    f.abs ≤ g ↔ magnitude f ≤ g.toBits.toNat := by
  have hlarge := infinity_lt
  have hle : f.abs ≤ g ↔ (unpack .binary64 (pack .binary64
      (unpack .binary64 f.toBits.toBitVec).abs)).le (unpack .binary64 g.toBits.toBitVec) := by
    change decide _ = true ↔ _
    rw [decide_eq_true_iff]
    rfl
  have hgWord : wordOf (unpack .binary64 g.toBits.toBitVec) = g.toBits.toNat := by
    obtain ⟨-, hword | ⟨-, hnan⟩⟩ := unpack_cases g.toBits.toBitVec
    · exact hword
    · have hnan : infinity < g.toBits.toNat % 2 ^ 63 := hnan
      omega
  obtain ⟨hunpacked, hfWord⟩ := unpack_cases f.toBits.toBitVec
  have habs := wordOf_abs hunpacked
  have hrepacked := wordOf_unpack_pack (isUnpacked_abs hunpacked)
  rw [hle, le_iff (unpack_cases _).1 (unpack_cases _).1
    (by rw [hrepacked, habs]; exact Nat.mod_lt _ (by decide)) (by rwa [hgWord]), hrepacked, habs,
    hgWord]
  rcases hfWord with hword | ⟨hnan, hnanLarge⟩
  · rw [hword]
    rfl
  · rw [hnan]
    have hnanLarge : infinity < magnitude f := hnanLarge
    have hnanWord : infinity < wordOf .notANumber % 2 ^ 63 := by decide
    omega

theorem nearestBits_le_infinity {num den : ℕ} : nearestBits num den ≤ infinity := by
  unfold nearestBits
  split
  · exact Nat.zero_le _
  · exact Nat.min_le_right _ _

theorem toBits_ofParts {negative : Bool} {num den : ℕ} :
    (ofParts negative num den).toBits.toNat =
      (if negative then 2 ^ 63 else 0) + nearestBits num den := by
  have hnearest : nearestBits num den ≤ infinity := nearestBits_le_infinity
  have hlarge := infinity_lt
  rw [ofParts]
  have hword : (UInt64.ofNat (if negative = true then Nat.pow 2 63 + nearestBits num den else
      nearestBits num den)).toNat = (if negative then 2 ^ 63 else 0) + nearestBits num den := by
    rw [UInt64.toNat_ofNat', Nat.pow_eq]
    split <;> omega
  rw [toBits_ofBits, hword]
  rw [hword]
  split <;> omega

theorem magnitude_ofParts {negative : Bool} {num den : ℕ} :
    magnitude (ofParts negative num den) = nearestBits num den := by
  have hnearest : nearestBits num den ≤ infinity := nearestBits_le_infinity
  have hlarge := infinity_lt
  rw [magnitude, toBits_ofParts]
  split <;> omega

/-! ## Parts -/

theorem parts?_eq_some {w : UInt64} {p : Parts} (h : parts? w = some p) :
    IsCanonical p.significand p.exponent ∧
      w.toNat % 2 ^ 63 = magnitudeBits p.significand p.exponent := by
  rw [parts?] at h
  simp only [Nat.pow_eq] at h
  have hfield : w.toNat / 2 ^ 52 % 2 ^ 11 < 2 ^ 11 := Nat.mod_lt _ (by decide)
  split at h
  · cases h
  rename_i hfinite
  split at h
  · rename_i hleast
    obtain rfl := Option.some.inj h
    simp only [beq_iff_eq] at hleast hfinite
    refine ⟨⟨?_, ?_, ?_⟩, ?_⟩ <;> simp only [magnitudeBits] <;> omega
  · rename_i hnormal
    obtain rfl := Option.some.inj h
    simp only [beq_iff_eq] at hnormal hfinite
    refine ⟨⟨?_, ?_, ?_⟩, ?_⟩ <;> simp only [magnitudeBits] <;> omega

theorem isFinite_iff {f : Float} : isFinite f = true ↔ magnitude f < infinity := by
  rw [isFinite, parts?, magnitude, infinity]
  simp only [Nat.pow_eq]
  split
  · rename_i hinfinite
    refine iff_of_false Bool.false_ne_true ?_
    simp only [beq_iff_eq] at hinfinite
    omega
  · rename_i hfinite
    simp only [beq_iff_eq] at hfinite
    have hlt : f.toBits.toNat % 2 ^ 63 < 2047 * 2 ^ 52 := by omega
    refine iff_of_true ?_ hlt
    split <;> rfl

end GoLowering.Binary64
