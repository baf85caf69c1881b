import GoLowering.Constant.Exact
import GoLowering.Proofs.BinaryOperations

/-!
# Folding by values and by kinds

The host has rules by kinds for operations on untyped numbers (`FoldRules.ofKinds`): quotients are
truncated for the kinds of integers and runes only, some operators are defined on the integer
kinds only, and a shifted number stays the integer that it is.

Folding looks at the values (`foldsTo_ofValues`), for which a number of any kind is an integer if
it is integral. The two ways differ (`ExactNumber.combine_eq_iff`)

* for quotients such as `5.0 / 2`, of which the fraction is lost (`LosesFraction`);
* for operations such as `5.0 % 2`, which the host does not have (`TakesFractions`);
* for shifts such as `1 << 3.0`, of which the kind is that of the count (`WidensShift`),

and for no others, so that `foldsTo_ofKinds_iff` says when folding is that of the host. The bits
of integers are those of `Int.testBit`, by `Bitwise.and_eq_land` and its siblings.
-/

namespace GoLowering

/-! ## Bits -/

namespace Bitwise

theorem clear_eq_ldiff (m n : Nat) : clear m n = Nat.ldiff m n := by
  unfold clear
  induction m using Nat.binaryRec generalizing n with
  | zero => simp [Nat.ldiff]
  | bit b m ih =>
    cases n using Nat.bitCasesOn with
    | bit c n =>
      have hle : m &&& n ≤ m := Nat.and_le_left
      rw [Nat.land_bit, Nat.ldiff_bit, ← ih]
      cases b <;> cases c <;> simp [Nat.bit] <;> omega

theorem and_eq_land (a b : Int) : and a b = a.land b := by
  cases a <;> cases b <;> simp [and, Int.land, clear_eq_ldiff]

theorem or_eq_lor (a b : Int) : or a b = a.lor b := by
  cases a <;> cases b <;> simp [or, Int.lor, clear_eq_ldiff]

theorem xor_eq_xor (a b : Int) : xor a b = a.xor b := by
  cases a <;> cases b <;> rfl

theorem not_ofNat (n : Nat) : not (.ofNat n) = .negSucc n := by
  simp only [not, Int.ofNat_eq_natCast, Int.negSucc_eq]
  omega

theorem not_negSucc (n : Nat) : not (.negSucc n) = .ofNat n := by
  simp only [not, Int.ofNat_eq_natCast, Int.negSucc_eq]
  omega

theorem and_not_eq_ldiff (a b : Int) : and a (not b) = a.ldiff b := by
  cases b with
  | ofNat n => rw [not_ofNat]; cases a <;> simp [and, Int.ldiff, clear_eq_ldiff]
  | negSucc n => rw [not_negSucc]; cases a <;> simp [and, Int.ldiff, clear_eq_ldiff]

theorem shiftLeft_eq (n : Int) (count : Nat) :
    (shiftLeft n count : Rat) = (n : Rat) * 2 ^ count := by
  simp [shiftLeft]

/-- A shift to the right is a division that is rounded down. -/
theorem shiftRight_eq (n : Int) (count : Nat) : shiftRight n count = ⌊(n : Rat) / 2 ^ count⌋ := by
  have h := Rat.floor_intCast_div_natCast n (2 ^ count)
  push_cast at h
  rw [h, shiftRight, Int.fdiv_eq_ediv_of_nonneg n (Int.natCast_nonneg _)]
  simp

end Bitwise

namespace ExactNumber

variable {a b : ExactNumber}

/-! ## Numbers and their kinds -/

theorem value_of (kind : NumberKind) (value : Rat) : (of kind value).value = value := by
  unfold of
  split <;> rfl

theorem kind_of (kind : NumberKind) (value : Rat) :
    (of kind value).kind = if kind.isInteger && value.den != 1 then .bigRat else kind := by
  simp only [Bool.and_eq_true, bne_iff_ne]
  unfold of
  split <;> rfl

theorem kind_of_integral {kind : NumberKind} {value : Rat} (h : value.den = 1) :
    (of kind value).kind = kind := by
  rw [kind_of, h, bne_self_eq_false, Bool.and_false, if_neg Bool.false_ne_true]

theorem isIntegral_iff : a.isIntegral = true ↔ a.value = a.value.num :=
  beq_iff_eq.trans ⟨fun h => ((Rat.den_eq_one_iff _).mp h).symm,
    fun h => (Rat.den_eq_one_iff _).mpr h.symm⟩

theorem isIntegral_of_isInteger (h : a.kind.isInteger = true) : a.isIntegral = true :=
  beq_iff_eq.mpr (a.integral h)

theorem isInteger_of_isTruncated {kind : NumberKind} (h : kind.isTruncated = true) :
    kind.isInteger = true ∧ kind.isBig = false := by
  cases kind <;> cases h <;> exact ⟨rfl, rfl⟩

/-! ## Folding of values -/

theorem ofRat_intCast (n : Int) : Constant.ofRat n = .int n := by simp [Constant.ofRat]

theorem integers_ofValues (a b : ExactNumber) :
    FoldRules.ofValues.integers a b = (a.isIntegral && b.isIntegral) := rfl

theorem truncates_ofValues (a b : ExactNumber) :
    FoldRules.ofValues.truncates a b =
      (a.isIntegral && b.isIntegral && !(a.kind.isBig || b.kind.isBig)) := rfl

theorem constant_onIntegers (f : Int → Int → Int) :
    (onIntegers .ofValues a b f).map ExactResult.constant =
      if a.isIntegral && b.isIntegral then some (.int (f a.value.num b.value.num)) else none := by
  rw [onIntegers, integers_ofValues]
  split
  · simp only [Option.map_some, ExactResult.constant, value_of, ofRat_intCast]
  · rfl

theorem toOption_shiftCount (n : Int) :
    (Constant.shiftCount n).toOption =
      if 0 ≤ n ∧ n ≤ Constant.maxShift then some n.toNat else none := by
  unfold Constant.shiftCount
  split
  · rw [if_neg (by omega)]
    rfl
  · split
    · rw [if_pos (by omega)]
      rfl
    · rw [if_neg (by omega)]
      rfl

theorem constant_shift {f : Rat → Nat → Rat} {g : Int → Nat → Int}
    (hfg : ∀ n count, f (n : Int) count = g n count) :
    (shift .ofValues a b f).map ExactResult.constant =
      if a.isIntegral && b.isIntegral then
        (Constant.shiftCount b.value.num).toOption.map (fun count => .int (g a.value.num count))
      else none := by
  rw [toOption_shiftCount, shift]
  simp only [isShiftable, Bool.and_eq_true, decide_eq_true_eq, and_assoc]
  by_cases ha : a.isIntegral = true
  · have hvalue := isIntegral_iff.mp ha
    by_cases hb : b.isIntegral = true ∧ 0 ≤ b.value.num ∧ b.value.num ≤ Constant.maxShift
    · rw [if_pos ⟨ha, hb⟩, if_pos ⟨ha, hb.1⟩, if_pos hb.2, hvalue, hfg]
      simp only [Option.map_some, ExactResult.constant, value_of, ofRat_intCast, Rat.num_intCast]
    · rw [if_neg fun h => hb h.2]
      split
      · rename_i h
        rw [if_neg fun hcount => hb ⟨h.2, hcount⟩]
        rfl
      · rfl
  · rw [if_neg fun h => ha h.1, if_neg fun h => ha h.1]
    rfl

theorem combine_of_isComparison {op : BinaryOp} (rules : FoldRules)
    (h : op.isComparison = true) :
    combine rules op a b =
      some (.truth (Constant.orderHolds op (Constant.ratOrder a.value b.value))) := by
  unfold Constant.ratOrder
  rcases lt_trichotomy a.value b.value with hlt | heq | hgt
  · have hne := hlt.ne
    have hle := hlt.le
    have hnot := hlt.not_gt
    cases op <;> cases h <;> simp [combine, Constant.orderHolds, *]
  · cases op <;> cases h <;> simp [combine, Constant.orderHolds, heq]
  · have hne := hgt.ne'
    have hle := hgt.le
    have hnot := hgt.not_gt
    cases op <;> cases h <;> simp [combine, Constant.orderHolds, *]

/-- The operators that are defined on integers are folded for integral values. -/
theorem toOption_foldInt {op : BinaryOp} (harithmetic : op ∉ [.add, .sub, .mul, .div])
    (hcomparison : op.isComparison = false) (a b : ExactNumber) :
    (if a.isIntegral && b.isIntegral then
        (Constant.foldInt op a.value.num b.value.num).map Constant.int
      else .error .invalid).toOption = (combine .ofValues op a b).map ExactResult.constant := by
  have hsplit {r : Except FoldError Int} {o : Option Constant}
      (h : (if a.isIntegral && b.isIntegral then (r.map Constant.int).toOption else none) = o) :
      (if a.isIntegral && b.isIntegral then r.map Constant.int
        else .error .invalid).toOption = o := by
    rw [← h]
    split <;> rfl
  refine hsplit ?_
  have hshift {g : Int → Nat → Int} : (((Constant.shiftCount b.value.num).map
      (g a.value.num)).map Constant.int).toOption = (Constant.shiftCount b.value.num).toOption.map
        (fun count => .int (g a.value.num count)) := by
    cases Constant.shiftCount b.value.num <;> rfl
  cases op with
  | add | sub | mul | div => exact absurd (by decide) harithmetic
  | equal | notEqual | less | lessEqual | greater | greaterEqual => cases hcomparison
  | mod =>
    simp only [combine, Constant.foldInt]
    by_cases hzero : b.value = 0
    · have hnum : (b.value.num == 0) = true := by rw [hzero]; rfl
      rw [if_pos hzero, hnum]
      split <;> rfl
    · have hnum : (b.value.num == 0) = false := by
        rw [beq_eq_false_iff_ne]
        exact Rat.num_ne_zero.mpr hzero
      rw [if_neg hzero, hnum, constant_onIntegers]
      rfl
  | bitAnd => rw [combine, constant_onIntegers, ← Bitwise.and_eq_land]; rfl
  | bitOr => rw [combine, constant_onIntegers, ← Bitwise.or_eq_lor]; rfl
  | bitXor => rw [combine, constant_onIntegers, ← Bitwise.xor_eq_xor]; rfl
  | bitClear => rw [combine, constant_onIntegers, ← Bitwise.and_not_eq_ldiff]; rfl
  | shiftLeft =>
    rw [combine, constant_shift (fun n count => (Bitwise.shiftLeft_eq n count).symm)]
    exact congrArg (if a.isIntegral && b.isIntegral then · else none) hshift
  | shiftRight =>
    rw [combine, constant_shift (g := Bitwise.shiftRight)
      (fun n count => by rw [Bitwise.shiftRight_eq])]
    exact congrArg (if a.isIntegral && b.isIntegral then · else none) hshift
  | and | or => simp [combine, Constant.foldInt, Except.map, Except.toOption]

/-- Folding two numbers as rationals decides by their values what an operator does. -/
theorem toOption_foldRat (op : BinaryOp) (a b : ExactNumber) :
    (Constant.foldRat op a.value b.value (a.kind.isBig || b.kind.isBig)).toOption =
      (combine .ofValues op a b).map ExactResult.constant := by
  have hnumber (r : Rat) : ExactResult.constant (.number (.of (a.kind.wider b.kind) r)) =
      Constant.ofRat r := by
    rw [ExactResult.constant, value_of]
  unfold Constant.foldRat
  dsimp only
  by_cases hcomparison : op.isComparison = true
  · rw [if_pos hcomparison, combine_of_isComparison _ hcomparison]
    rfl
  rw [if_neg hcomparison]
  by_cases harithmetic : op ∈ [.add, .sub, .mul, .div]
  · cases op with
    | add | sub | mul => exact congrArg some (hnumber _).symm
    | div =>
      dsimp only [combine]
      by_cases hzero : b.value = 0
      · rw [if_pos hzero, if_pos hzero]
        rfl
      rw [if_neg hzero, if_neg hzero]
      by_cases htruncates : FoldRules.ofValues.truncates a b = true
      · rw [if_pos htruncates, if_pos (truncates_ofValues a b ▸ htruncates), Option.map_some,
          hnumber, ofRat_intCast]
        rfl
      · rw [if_neg htruncates, if_neg (truncates_ofValues a b ▸ htruncates), Option.map_some,
          hnumber]
        rfl
    | _ => exact absurd harithmetic (by decide)
  · rw [← toOption_foldInt harithmetic (Bool.eq_false_iff.mpr hcomparison)]
    cases op with
    | add | sub | mul | div => exact absurd (by decide) harithmetic
    | _ => rfl

/-! ## Kinds of results -/

theorem isBool_ofRat (r : Rat) : (Constant.ofRat r).isBool = false := by
  unfold Constant.ofRat
  split <;> rfl

theorem isRat_ofRat (r : Rat) : (Constant.ofRat r).isRat = (r.den != 1) := by
  unfold Constant.ofRat
  split
  · rename_i h
    rw [bne, h]
    rfl
  · rename_i h
    rw [bne, Bool.eq_false_iff.mpr h]
    rfl

/-- The kind of a result is the wider one of the operands, or that of unbounded fractions. -/
theorem promote_ofRat (k l : NumberKind) {r : Rat}
    (h : (k.wider l).isTruncated = true → r.den = 1) :
    Constant.promote k.basic l.basic (.ofRat r) = (of (k.wider l) r).kind.basic := by
  rw [Constant.promote, isBool_ofRat, if_neg Bool.false_ne_true, isRat_ofRat, kind_of]
  cases hr : r.den != 1 with
  | false => cases k <;> cases l <;> rfl
  | true =>
    have hr : r.den ≠ 1 := bne_iff_ne.mp hr
    cases k <;> cases l <;> first | rfl | exact absurd (h rfl) hr

theorem isTruncated_wider {k l : NumberKind} (h : (k.wider l).isTruncated = true) :
    k.isTruncated = true ∧ l.isTruncated = true := by
  cases k <;> cases l <;> cases h <;> exact ⟨rfl, rfl⟩

/-- What is folded for the numbers of truncated kinds is integral. -/
theorem integral_of_isTruncated (hk : (a.kind.wider b.kind).isTruncated = true) :
    a.value = a.value.num ∧ b.value = b.value.num ∧
      FoldRules.ofValues.truncates a b = true := by
  obtain ⟨ha, hb⟩ := isTruncated_wider hk
  obtain ⟨ha, habig⟩ := isInteger_of_isTruncated ha
  obtain ⟨hb, hbbig⟩ := isInteger_of_isTruncated hb
  refine ⟨isIntegral_iff.mp (isIntegral_of_isInteger ha),
    isIntegral_iff.mp (isIntegral_of_isInteger hb), ?_⟩
  rw [truncates_ofValues, isIntegral_of_isInteger ha, isIntegral_of_isInteger hb, habig, hbbig]
  rfl

theorem promote_constant {op : BinaryOp} {result : ExactResult}
    (h : combine .ofValues op a b = some result) :
    Constant.promote a.kind.basic b.kind.basic result.constant = result.kind := by
  have hnumber {r : Rat} {result : ExactResult}
      (h : some (ExactResult.number (.of (a.kind.wider b.kind) r)) = some result)
      (hr : (a.kind.wider b.kind).isTruncated = true → r.den = 1) :
      Constant.promote a.kind.basic b.kind.basic result.constant = result.kind := by
    cases h
    rw [ExactResult.constant, value_of, promote_ofRat _ _ hr, ExactResult.kind]
  have hintegers {f : Int → Int → Int} (h : onIntegers .ofValues a b f = some result) :
      Constant.promote a.kind.basic b.kind.basic result.constant = result.kind := by
    unfold onIntegers at h
    split at h
    · exact hnumber h fun _ => Rat.den_intCast _
    · cases h
  have hshift {f : Rat → Nat → Rat} (h : shift .ofValues a b f = some result)
      (hf : ∀ n : Int, ∀ count, (f n count).den = 1) :
      Constant.promote a.kind.basic b.kind.basic result.constant = result.kind := by
    unfold shift at h
    split at h
    · rename_i hshiftable
      refine hnumber h fun _ => ?_
      rw [isIntegral_iff.mp (by simp_all [isShiftable])]
      exact hf _ _
    · cases h
  cases op with
  | add =>
    refine hnumber h fun hk => ?_
    obtain ⟨ha, hb, -⟩ := integral_of_isTruncated hk
    rw [ha, hb]
    exact_mod_cast Rat.den_intCast (a.value.num + b.value.num)
  | sub =>
    refine hnumber h fun hk => ?_
    obtain ⟨ha, hb, -⟩ := integral_of_isTruncated hk
    rw [ha, hb]
    exact_mod_cast Rat.den_intCast (a.value.num - b.value.num)
  | mul =>
    refine hnumber h fun hk => ?_
    obtain ⟨ha, hb, -⟩ := integral_of_isTruncated hk
    rw [ha, hb]
    exact_mod_cast Rat.den_intCast (a.value.num * b.value.num)
  | div =>
    dsimp only [combine] at h
    split at h
    · cases h
    · split at h
      · exact hnumber h fun _ => Rat.den_intCast _
      · rename_i hexact
        exact hnumber h fun hk => absurd (integral_of_isTruncated hk).2.2 hexact
  | mod =>
    dsimp only [combine] at h
    split at h
    · cases h
    · exact hintegers h
  | bitAnd | bitOr | bitXor | bitClear => exact hintegers h
  | shiftLeft =>
    dsimp only [combine] at h
    exact hshift h fun n count => by exact_mod_cast Rat.den_intCast (n * 2 ^ count)
  | shiftRight =>
    dsimp only [combine] at h
    exact hshift h fun n count => Rat.den_intCast _
  | and | or => cases h
  | _ =>
    cases h
    rfl

end ExactNumber

/-! ## The rules compared -/

namespace ExactNumber

variable {a b : ExactNumber} {op : BinaryOp}

/-- Whether a quotient of numbers that are integral, though not both of integer kinds, is
truncated to another value. -/
def LosesFraction (op : BinaryOp) (a b : ExactNumber) : Prop :=
  op = .div ∧ a.kind.isBig = false ∧ b.kind.isBig = false ∧
    ¬(a.kind.isTruncated = true ∧ b.kind.isTruncated = true) ∧ a.isIntegral = true ∧
    b.isIntegral = true ∧ b.value ≠ 0 ∧ (a.value / b.value).den ≠ 1

/-- Whether an operator that is defined on integers only is applied to numbers that are integral,
though not both of integer kinds. -/
def TakesFractions (op : BinaryOp) (a b : ExactNumber) : Prop :=
  op ∈ [.mod, .bitAnd, .bitOr, .bitXor, .bitClear] ∧
    ¬(a.kind.isInteger = true ∧ b.kind.isInteger = true) ∧ a.isIntegral = true ∧
    b.isIntegral = true ∧ (op = .mod → b.value ≠ 0)

/-- Whether a number is shifted to another kind than that of an integer like it. -/
def WidensShift (op : BinaryOp) (a b : ExactNumber) : Prop :=
  op.isShift = true ∧ a.isShiftable b = true ∧ a.kind.wider b.kind ≠ a.kind.shifted

/-- A quotient of integers that is integral is not changed when it is truncated. -/
theorem tdiv_eq_iff {n m : Int} (hm : m ≠ 0) :
    ((n.tdiv m : Int) : Rat) = (n : Rat) / m ↔ ((n : Rat) / m).den = 1 := by
  constructor
  · intro h
    rw [← h]
    exact Rat.den_intCast _
  · intro h
    obtain ⟨k, rfl⟩ := (Rat.den_div_intCast_eq_one_iff n m hm).mp h
    rw [Int.mul_tdiv_cancel_left k hm]
    push_cast
    field_simp

theorem truncates_ofValues_iff (a b : ExactNumber) :
    FoldRules.ofValues.truncates a b = true ↔
      a.isIntegral = true ∧ b.isIntegral = true ∧ a.kind.isBig = false ∧ b.kind.isBig = false := by
  rw [truncates_ofValues, Bool.and_eq_true, Bool.and_eq_true, Bool.not_eq_true',
    Bool.or_eq_false_iff, and_assoc]

theorem truncates_ofKinds_iff (a b : ExactNumber) :
    FoldRules.ofKinds.truncates a b = true ↔
      a.kind.isTruncated = true ∧ b.kind.isTruncated = true :=
  Bool.and_eq_true_iff

/-- Numbers of integer kinds are integral, so that what is right for them by their kinds is right
by their values. -/
theorem truncates_of_ofKinds (h : FoldRules.ofKinds.truncates a b = true) :
    FoldRules.ofValues.truncates a b = true := by
  obtain ⟨ha, hb⟩ := (truncates_ofKinds_iff a b).mp h
  obtain ⟨ha, habig⟩ := isInteger_of_isTruncated ha
  obtain ⟨hb, hbbig⟩ := isInteger_of_isTruncated hb
  exact (truncates_ofValues_iff a b).mpr
    ⟨isIntegral_of_isInteger ha, isIntegral_of_isInteger hb, habig, hbbig⟩

/-- A truncated quotient differs from an exact one by its value if the exact one is not integral. -/
theorem number_tdiv_eq_iff (kind : NumberKind) (ha : a.isIntegral = true)
    (hb : b.isIntegral = true) (hzero : b.value ≠ 0) :
    some (ExactResult.number (of kind (a.value.num.tdiv b.value.num : Int))) =
      some (.number (of kind (a.value / b.value))) ↔ (a.value / b.value).den = 1 := by
  have hdiv := tdiv_eq_iff (n := a.value.num) (Rat.num_ne_zero.mpr hzero)
  rw [← isIntegral_iff.mp ha, ← isIntegral_iff.mp hb] at hdiv
  rw [← hdiv]
  constructor
  · intro h
    have hnumber := congrArg ExactNumber.value (ExactResult.number.inj (Option.some.inj h))
    rwa [value_of, value_of] at hnumber
  · intro h
    rw [h]

theorem combine_div_eq_iff (a b : ExactNumber) :
    combine .ofValues .div a b = combine .ofKinds .div a b ↔ ¬LosesFraction .div a b := by
  dsimp only [combine]
  by_cases hzero : b.value = 0
  · rw [if_pos hzero, if_pos hzero]
    exact iff_of_true rfl fun h => h.2.2.2.2.2.2.1 hzero
  rw [if_neg hzero, if_neg hzero]
  by_cases hkinds : FoldRules.ofKinds.truncates a b = true
  · rw [if_pos hkinds, if_pos (truncates_of_ofKinds hkinds)]
    exact iff_of_true rfl fun h => h.2.2.2.1 ((truncates_ofKinds_iff a b).mp hkinds)
  rw [if_neg hkinds]
  rw [truncates_ofKinds_iff] at hkinds
  by_cases hvalues : FoldRules.ofValues.truncates a b = true
  · obtain ⟨ha, hb, habig, hbbig⟩ := (truncates_ofValues_iff a b).mp hvalues
    rw [if_pos hvalues, number_tdiv_eq_iff _ ha hb hzero]
    exact ⟨fun hden h => h.2.2.2.2.2.2.2 hden, fun h => by_contra fun hden =>
      h ⟨rfl, habig, hbbig, hkinds, ha, hb, hzero, hden⟩⟩
  · rw [if_neg hvalues]
    exact iff_of_true rfl fun h => hvalues ((truncates_ofValues_iff a b).mpr
      ⟨h.2.2.2.2.1, h.2.2.2.2.2.1, h.2.1, h.2.2.1⟩)

theorem onIntegers_eq_iff (a b : ExactNumber) (f : Int → Int → Int) :
    onIntegers .ofValues a b f = onIntegers .ofKinds a b f ↔
      ¬(¬(a.kind.isInteger = true ∧ b.kind.isInteger = true) ∧ a.isIntegral = true ∧
        b.isIntegral = true) := by
  have hkinds : FoldRules.ofKinds.integers a b = true ↔
      a.kind.isInteger = true ∧ b.kind.isInteger = true := Bool.and_eq_true_iff
  have hvalues : FoldRules.ofValues.integers a b = true ↔
      a.isIntegral = true ∧ b.isIntegral = true := Bool.and_eq_true_iff
  unfold onIntegers
  simp only [hkinds, hvalues]
  by_cases hk : a.kind.isInteger = true ∧ b.kind.isInteger = true
  · rw [if_pos hk, if_pos ⟨isIntegral_of_isInteger hk.1, isIntegral_of_isInteger hk.2⟩]
    exact iff_of_true rfl fun h => h.1 hk
  · rw [if_neg hk]
    by_cases hv : a.isIntegral = true ∧ b.isIntegral = true
    · rw [if_pos hv]
      exact iff_of_false nofun fun h => h ⟨hk, hv⟩
    · rw [if_neg hv]
      exact iff_of_true rfl fun h => hv h.2

theorem shift_eq_iff (a b : ExactNumber) {f : Rat → Nat → Rat}
    (hf : ∀ n : Int, ∀ count, (f n count).den = 1) :
    shift .ofValues a b f = shift .ofKinds a b f ↔
      ¬(a.isShiftable b = true ∧ a.kind.wider b.kind ≠ a.kind.shifted) := by
  unfold shift
  by_cases hshiftable : a.isShiftable b = true
  · have hint : (f a.value b.value.num.toNat).den = 1 := by
      rw [isIntegral_iff.mp (by simp_all [isShiftable])]
      exact hf _ _
    rw [if_pos hshiftable, if_pos hshiftable]
    have hkind (k l : NumberKind) :
        some (ExactResult.number (of k (f a.value b.value.num.toNat))) =
          some (.number (of l (f a.value b.value.num.toNat))) ↔ k = l := by
      constructor
      · intro h
        have hkinds := congrArg ExactNumber.kind (ExactResult.number.inj (Option.some.inj h))
        rwa [kind_of_integral hint, kind_of_integral hint] at hkinds
      · rintro rfl
        rfl
    exact (hkind _ _).trans ⟨fun he h => h.2 he, fun h => by_contra fun hne =>
      h ⟨hshiftable, hne⟩⟩
  · rw [if_neg hshiftable, if_neg hshiftable]
    exact iff_of_true rfl fun h => hshiftable h.1

/-- The rules differ for quotients, for the operators on integers and for the kinds of shifts. -/
theorem combine_eq_iff (op : BinaryOp) (a b : ExactNumber) :
    combine .ofValues op a b = combine .ofKinds op a b ↔
      ¬LosesFraction op a b ∧ ¬TakesFractions op a b ∧ ¬WidensShift op a b := by
  have hdiv : op ≠ .div → ¬LosesFraction op a b := fun hop h => hop h.1
  have hbits : op ∉ [.mod, .bitAnd, .bitOr, .bitXor, .bitClear] → ¬TakesFractions op a b :=
    fun hop h => hop h.1
  have hshift : op.isShift = false → ¬WidensShift op a b :=
    fun hop h => Bool.false_ne_true (hop.symm.trans h.1)
  have hintegers (f : Int → Int → Int) (hop : op ∈ [.mod, .bitAnd, .bitOr, .bitXor, .bitClear])
      (hmod : op = .mod → b.value ≠ 0) :
      onIntegers .ofValues a b f = onIntegers .ofKinds a b f ↔ ¬TakesFractions op a b :=
    (onIntegers_eq_iff a b f).trans ⟨fun h ht => h ⟨ht.2.1, ht.2.2.1, ht.2.2.2.1⟩,
      fun h hne => h ⟨hop, hne.1, hne.2.1, hne.2.2, hmod⟩⟩
  have hshifts {f : Rat → Nat → Rat} (hop : op.isShift = true)
      (hf : ∀ n : Int, ∀ count, (f n count).den = 1) :
      shift .ofValues a b f = shift .ofKinds a b f ↔ ¬WidensShift op a b :=
    (shift_eq_iff a b hf).trans ⟨fun h hw => h hw.2, fun h hne => h ⟨hop, hne⟩⟩
  cases op with
  | div => exact (combine_div_eq_iff a b).trans (and_iff_left ⟨hbits (by decide), hshift rfl⟩).symm
  | mod =>
    dsimp only [combine]
    by_cases hzero : b.value = 0
    · rw [if_pos hzero, if_pos hzero]
      exact iff_of_true rfl ⟨hdiv (by decide), fun h => h.2.2.2.2 rfl hzero, hshift rfl⟩
    · rw [if_neg hzero, if_neg hzero, hintegers _ (by decide) fun _ => hzero]
      exact ⟨fun h => ⟨hdiv (by decide), h, hshift rfl⟩, fun h => h.2.1⟩
  | bitAnd | bitOr | bitXor | bitClear =>
    exact (hintegers _ (by decide) nofun).trans
      ⟨fun h => ⟨hdiv (by decide), h, hshift rfl⟩, fun h => h.2.1⟩
  | shiftLeft =>
    dsimp only [combine]
    rw [hshifts rfl fun n count => by exact_mod_cast Rat.den_intCast (n * 2 ^ count)]
    exact ⟨fun h => ⟨hdiv (by decide), hbits (by decide), h⟩, fun h => h.2.2⟩
  | shiftRight =>
    dsimp only [combine]
    rw [hshifts rfl fun n count => Rat.den_intCast _]
    exact ⟨fun h => ⟨hdiv (by decide), hbits (by decide), h⟩, fun h => h.2.2⟩
  | _ => exact iff_of_true rfl ⟨hdiv (by decide), hbits (by decide), hshift rfl⟩

end ExactNumber

/-- A result is known by its kind and its constant. -/
theorem ExactResult.eq_of_constant {r r' : ExactResult} (hkind : r.kind = r'.kind)
    (hconstant : r.constant = r'.constant) : r = r' := by
  have hbasic {k l : NumberKind} (h : k.basic = l.basic) : k = l := by
    cases k <;> cases l <;> first | rfl | cases h
  cases r with
  | truth b =>
    cases r' with
    | truth b' => exact congrArg truth (Constant.bool.inj hconstant)
    | number n => cases n with | mk k _ _ => cases k <;> cases hkind
  | number n =>
    cases r' with
    | truth b => cases n with | mk k _ _ => cases k <;> cases hkind
    | number n' =>
      have hvalue := congrArg Constant.toRat? hconstant
      rw [constant, constant, Constant.toRat?_ofRat, Constant.toRat?_ofRat] at hvalue
      cases n
      cases n'
      cases hbasic hkind
      cases Option.some.inj hvalue
      rfl

/-! ## Runs -/

namespace Lowering

variable {c : Context} {s : State}

/-- Whether an operand is an untyped constant with the kind and the value of a number. -/
def Denotes (types : TypeTable) (operand : Operand) (n : ExactNumber) : Prop :=
  ∃ value, constantOf? types operand = some (n.kind.basic, value) ∧ value.toRat? = some n.value

/-- Whether a run answers an operand for what is folded, and fails if nothing is. -/
def FoldsTo (run : Except Failure (Option Operand) × State) : Option ExactResult → Prop
  | some result => ∃ operand, run.1 = .ok (some operand) ∧ operand.mode = .value ∧
      operand.type = TypeTable.basic result.kind ∧ operand.constant = some result.constant
  | none => ∃ failure, run.1 = .error failure

theorem run_foldedNode (operand : Operand) (c : Context) (s : State) :
    ∃ id s', foldedNode operand c s = (.ok id, s') := by
  have hbig (n : Int) : ∃ id s', (do
      if ← isUntypedBig operand.type then literalNode (toString n)
      else return operand.id : Lower HostId) c s = (.ok id, s') := by
    rw [run_bind, run_isUntypedBig]
    dsimp only
    split <;> exact ⟨_, _, rfl⟩
  unfold foldedNode
  cases operand.constant with
  | none => exact ⟨_, _, rfl⟩
  | some value =>
    cases value with
    | int n => exact hbig n
    | _ => exact ⟨_, _, rfl⟩

theorem run_foldedOperand (op : BinaryOp) (left right : Operand) (kind : BasicType)
    (value : Constant) (span : Span) (c : Context) (s : State) :
    ∃ id, (foldedOperand op left right kind value span c s).1 =
      .ok (some (.ofConstant id (TypeTable.basic kind) (some value) span)) := by
  unfold foldedOperand
  dsimp only
  split
  · exact ⟨_, rfl⟩
  · obtain ⟨leftId, s₁, hl⟩ := run_foldedNode left c s
    obtain ⟨rightId, s₂, hr⟩ := run_foldedNode right c s₁
    refine ⟨(s₂.tree.add (.binary op leftId rightId) none).1, ?_⟩
    rw [run_bind, hl]
    dsimp only
    rw [run_bind, hr]
    rfl

theorem foldBinary_of_toRat? {a b : Constant} {x y : Rat} (op : BinaryOp) (exact : Bool)
    (ha : a.toRat? = some x) (hb : b.toRat? = some y) :
    Constant.foldBinary op a b exact = Constant.foldRat op x y exact := by
  cases a <;> cases ha <;> cases b <;> cases hb <;> rfl

theorem isString_of_toRat? {a : Constant} {x : Rat} (h : a.toRat? = some x) :
    a.isString = false := by
  cases a <;> cases h <;> rfl

theorem isUntypedBig_basic (kind : NumberKind) : kind.basic.isUntypedBig = kind.isBig := by
  cases kind <;> rfl

/-- Two numbers are folded by the rules that go by their values. -/
theorem foldsTo_ofValues {op : BinaryOp} {left right : Operand} {a b : ExactNumber}
    (hl : Denotes s.types left a) (hr : Denotes s.types right b) (span : Span) :
    FoldsTo (foldBinary? op left right span c s) (ExactNumber.combine .ofValues op a b) := by
  obtain ⟨x, hleft, hx⟩ := hl
  obtain ⟨y, hright, hy⟩ := hr
  have hfold := ExactNumber.toOption_foldRat op a b
  rw [← isUntypedBig_basic, ← isUntypedBig_basic, ← foldBinary_of_toRat? op _ hx hy] at hfold
  unfold foldBinary?
  rw [run_bind, run_untypedConstant?]
  dsimp only
  rw [run_bind, run_untypedConstant?, hleft, hright]
  dsimp only
  rw [isString_of_toRat? hx, isString_of_toRat? hy, Bool.or_self, if_neg Bool.false_ne_true]
  cases hvalue : Constant.foldBinary op x y
      (a.kind.basic.isUntypedBig || b.kind.basic.isUntypedBig) with
  | error error =>
    rw [hvalue] at hfold
    rw [Option.map_eq_none_iff.mp hfold.symm]
    rcases hrun : failFold op left right span error c s with ⟨_ | answer, s'⟩
    · exact ⟨_, congrArg Prod.fst hrun⟩
    · exact absurd hrun Fails.fails
  | ok value =>
    rw [hvalue] at hfold
    obtain ⟨result, hresult, rfl⟩ := Option.map_eq_some_iff.mp hfold.symm
    dsimp only
    rw [hresult, ExactNumber.promote_constant hresult]
    obtain ⟨id, hid⟩ := run_foldedOperand op left right result.kind result.constant span c s
    exact ⟨_, hid, rfl, rfl, rfl⟩

theorem basic_injective {k l : BasicType} (h : TypeTable.basic k = TypeTable.basic l) : k = l := by
  have hindex : k.ctorIdx = l.ctorIdx := by
    have := congrArg TypeId.index h
    simpa [TypeTable.basic] using this
  cases k <;> cases l <;> first | rfl | cases hindex

theorem FoldsTo.unique {run : Except Failure (Option Operand) × State}
    {r r' : Option ExactResult} (h : FoldsTo run r) (h' : FoldsTo run r') : r = r' := by
  cases r with
  | none =>
    cases r' with
    | none => rfl
    | some r' =>
      obtain ⟨_, h⟩ := h
      obtain ⟨_, h', -⟩ := h'
      cases h.symm.trans h'
  | some r =>
    obtain ⟨operand, h, -, htype, hconstant⟩ := h
    cases r' with
    | none =>
      obtain ⟨_, h'⟩ := h'
      cases h.symm.trans h'
    | some r' =>
      obtain ⟨operand', h', -, htype', hconstant'⟩ := h'
      obtain rfl : operand = operand' := by cases h.symm.trans h'; rfl
      exact congrArg some (ExactResult.eq_of_constant (basic_injective (htype.symm.trans htype'))
        (Option.some.inj (hconstant.symm.trans hconstant')))

/-- Two untyped numbers are folded by the rules of the host, unless a fraction of integral numbers
is lost, or integral numbers of other kinds are taken for integers, or a shift gets another kind
than the number that is shifted. -/
theorem foldsTo_ofKinds_iff {op : BinaryOp} {left right : Operand} {a b : ExactNumber}
    {span : Span} (hl : Denotes s.types left a) (hr : Denotes s.types right b) :
    FoldsTo (foldBinary? op left right span c s) (ExactNumber.combine .ofKinds op a b) ↔
      ¬ExactNumber.LosesFraction op a b ∧ ¬ExactNumber.TakesFractions op a b ∧
        ¬ExactNumber.WidensShift op a b := by
  have hvalues : FoldsTo (foldBinary? op left right span c s)
      (ExactNumber.combine .ofValues op a b) := foldsTo_ofValues hl hr span
  rw [← ExactNumber.combine_eq_iff]
  constructor
  · intro h
    exact hvalues.unique h
  · intro h
    exact h ▸ hvalues

/-- A constant of an integral number. -/
def numeral (kind : NumberKind) (n : Int) : Operand :=
  .ofConstant ⟨0⟩ (TypeTable.basic kind.basic) (some (.int n)) .synthetic

/-- The integral number of a kind. -/
def integral (kind : NumberKind) (n : Int) : ExactNumber :=
  ⟨kind, n, fun _ => Rat.den_intCast n⟩

/-- Folds two integral numbers of some kinds in a new unit. -/
def runFold (op : BinaryOp) (a : NumberKind × Int) (b : NumberKind × Int) :
    Except Failure (Option Operand) × State :=
  foldBinary? op (numeral a.1 a.2) (numeral b.1 b.2) .synthetic (Context.bare [])
    (.initial (.bare [] []) .initial)

theorem denotes_numeral (kind : NumberKind) (n : Int) :
    Denotes TypeTable.initial (numeral kind n) (integral kind n) :=
  ⟨.int n, by cases kind <;> rfl, rfl⟩

/-- The half of an unbounded integer. -/
theorem foldsTo_ofKinds_half :
    Denotes TypeTable.initial (numeral .bigInt 1) (integral .bigInt 1) ∧
      Denotes TypeTable.initial (numeral .int 2) (integral .int 2) ∧
      FoldsTo (runFold .div (.bigInt, 1) (.int, 2)) (some (.number ⟨.bigRat, 1 / 2, nofun⟩)) := by
  refine ⟨denotes_numeral .bigInt 1, denotes_numeral .int 2, ?_⟩
  have hfolds : FoldsTo (runFold .div (.bigInt, 1) (.int, 2))
      (ExactNumber.combine .ofKinds .div (integral .bigInt 1) (integral .int 2)) :=
    (foldsTo_ofKinds_iff (denotes_numeral .bigInt 1) (denotes_numeral .int 2)).mpr
      ⟨fun h => Bool.false_ne_true h.2.1.symm, fun h => absurd h.1 (by decide),
        fun h => Bool.false_ne_true h.1⟩
  rwa [show ExactNumber.combine .ofKinds .div (integral .bigInt 1) (integral .int 2) =
    some (.number ⟨.bigRat, 1 / 2, nofun⟩) by decide +kernel] at hfolds

/-- `5.0 / 2` is folded to `2`, `5.0 % 2` is folded at all, and `1 << 3.0` is folded to a number
that is no integer by its kind. -/
theorem not_foldsTo_ofKinds_five :
    (Literal.decimal? "5.0").bind Constant.toRat? = some 5 ∧
      (FoldsTo (runFold .div (.float, 5) (.int, 2)) (some (.number (integral .float 2))) ∧
        ¬FoldsTo (runFold .div (.float, 5) (.int, 2))
          (ExactNumber.combine .ofKinds .div (integral .float 5) (integral .int 2))) ∧
      (FoldsTo (runFold .mod (.float, 5) (.int, 2)) (some (.number (integral .float 1))) ∧
        ¬FoldsTo (runFold .mod (.float, 5) (.int, 2))
          (ExactNumber.combine .ofKinds .mod (integral .float 5) (integral .int 2))) ∧
      FoldsTo (runFold .shiftLeft (.int, 1) (.float, 3)) (some (.number (integral .float 8))) ∧
        ¬FoldsTo (runFold .shiftLeft (.int, 1) (.float, 3))
          (ExactNumber.combine .ofKinds .shiftLeft (integral .int 1) (integral .float 3)) := by
  have hfolds (op : BinaryOp) (a b : NumberKind × Int) {result : Option ExactResult}
      (h : ExactNumber.combine .ofValues op (integral a.1 a.2) (integral b.1 b.2) = result) :
      FoldsTo (runFold op a b) result := by
    rw [← h]
    exact foldsTo_ofValues (c := Context.bare []) (s := .initial (.bare [] []) .initial)
      (denotes_numeral a.1 a.2) (denotes_numeral b.1 b.2) .synthetic
  have hdiv : FoldsTo (runFold .div (.float, 5) (.int, 2)) (some (.number (integral .float 2))) :=
    hfolds .div (.float, 5) (.int, 2) (by decide +kernel)
  have hmod : FoldsTo (runFold .mod (.float, 5) (.int, 2)) (some (.number (integral .float 1))) :=
    hfolds .mod (.float, 5) (.int, 2) (by decide +kernel)
  have hshift : FoldsTo (runFold .shiftLeft (.int, 1) (.float, 3))
      (some (.number (integral .float 8))) :=
    hfolds .shiftLeft (.int, 1) (.float, 3) (by decide +kernel)
  refine ⟨by decide +kernel, ⟨hdiv, fun h => ?_⟩, ⟨hmod, fun h => ?_⟩, hshift, fun h => ?_⟩
  · exact absurd (hdiv.unique h) (by decide +kernel)
  · exact absurd (hmod.unique h) (by decide +kernel)
  · exact absurd (hshift.unique h) (by decide +kernel)

end Lowering

end GoLowering
