import GoLowering.Proofs.ConstantRules

/-!
# Arithmetic on integer constants

A quotient of integer constants is the truncated quotient of two fractions, while remainders, bits
and shifts are computed on the integers. `integer_laws` says how they fit together, for integers
of any size and sign: quotient and remainder make up the dividend, the bitwise operators are those
on two's complement with infinitely many sign bits, and a shift is an exact multiplication or a
division that is rounded down. The operations that are refused are a division by zero and a shift
by a negative count or one beyond the limit.
-/

namespace GoLowering

/-! ## Sums of bits -/

namespace Bitwise

/-- A bit that two numbers share is counted twice in their sum. -/
theorem nat_and_add_or (m n : Nat) : (m &&& n) + (m ||| n) = m + n := by
  induction m using Nat.binaryRec generalizing n with
  | zero => simp
  | bit b m ih =>
    cases n using Nat.bitCasesOn with
    | bit c n =>
      have hrest := ih n
      rw [Nat.land_bit, Nat.lor_bit]
      cases b <;> cases c <;> simp [Nat.bit] <;> omega

/-- The bits of a union are those that differ and those that are shared. -/
theorem nat_xor_add_and (m n : Nat) : (m ^^^ n) + (m &&& n) = m ||| n := by
  induction m using Nat.binaryRec generalizing n with
  | zero => simp
  | bit b m ih =>
    cases n using Nat.bitCasesOn with
    | bit c n =>
      have hrest := ih n
      rw [Nat.xor_bit, Nat.land_bit, Nat.lor_bit]
      cases b <;> cases c <;> simp [Nat.bit] <;> omega

theorem and_add_or (a b : Int) : and a b + or a b = a + b := by
  have hle (m n : Nat) : m &&& n ≤ m ∧ m &&& n ≤ n := ⟨Nat.and_le_left, Nat.and_le_right⟩
  cases a with
  | ofNat m =>
    cases b with
    | ofNat n =>
      have hsum := nat_and_add_or m n
      simp only [and, or, Int.ofNat_eq_natCast]
      omega
    | negSucc n =>
      have hshared := hle m n
      simp only [and, or, clear, Nat.and_comm n m, Int.ofNat_eq_natCast, Int.negSucc_eq]
      omega
  | negSucc m =>
    cases b with
    | ofNat n =>
      have hshared := hle m n
      simp only [and, or, clear, Nat.and_comm n m, Int.ofNat_eq_natCast, Int.negSucc_eq]
      omega
    | negSucc n =>
      have hsum := nat_and_add_or m n
      simp only [and, or, Int.negSucc_eq]
      omega

theorem or_sub_and (a b : Int) : or a b - and a b = xor a b := by
  have hparts (m n : Nat) : (m &&& n ≤ m ∧ m &&& n ≤ n) ∧ (m &&& n) + (m ||| n) = m + n ∧
      (m ^^^ n) + (m &&& n) = m ||| n :=
    ⟨⟨Nat.and_le_left, Nat.and_le_right⟩, nat_and_add_or m n, nat_xor_add_and m n⟩
  cases a with
  | ofNat m =>
    cases b with
    | ofNat n =>
      have hbits := hparts m n
      simp only [and, or, xor, Int.ofNat_eq_natCast]
      omega
    | negSucc n =>
      have hbits := hparts m n
      simp only [and, or, xor, clear, Nat.and_comm n m, Int.ofNat_eq_natCast, Int.negSucc_eq]
      omega
  | negSucc m =>
    cases b with
    | ofNat n =>
      have hbits := hparts m n
      simp only [and, or, xor, clear, Nat.and_comm n m, Int.ofNat_eq_natCast, Int.negSucc_eq]
      omega
    | negSucc n =>
      have hbits := hparts m n
      simp only [and, or, xor, Int.ofNat_eq_natCast, Int.negSucc_eq]
      omega

theorem shiftRight_shiftLeft (a : Int) (count : Nat) :
    shiftRight (a * 2 ^ count) count = a := by
  have hpower : ((2 ^ count : Nat) : Int) ≠ 0 := by positivity
  have h := Int.mul_fdiv_cancel a hpower
  push_cast at h
  exact h

end Bitwise

namespace Constant

/-! ## Folding of integers -/

/-- An operation on two integers is folded to an integer. -/
def Computes (op : BinaryOp) (a b n : Int) : Prop :=
  foldBinary op (.int a) (.int b) false = .ok (.int n)

def Refuses (op : BinaryOp) (a b : Int) (error : FoldError) : Prop :=
  foldBinary op (.int a) (.int b) false = .error error

variable {op : BinaryOp} {a b : Int}

/-- The operators without a counterpart on fractions are computed on the integers. -/
theorem foldBinary_int (harithmetic : op ∉ [.add, .sub, .mul, .div])
    (hcomparison : op.isComparison = false) :
    foldBinary op (.int a) (.int b) false = (foldInt op a b).map .int := by
  cases op with
  | add | sub | mul | div => exact absurd (by decide) harithmetic
  | equal | notEqual | less | lessEqual | greater | greaterEqual => cases hcomparison
  | _ => rfl

theorem computes_of_ofRat {r : Rat} {n : Int} (h : foldRat op a b false = .ok (ofRat r))
    (hr : r = n) : Computes op a b n := by
  have hrat : foldBinary op (.int a) (.int b) false = foldRat op a b false := rfl
  rw [Computes, hrat, h, hr, ExactNumber.ofRat_intCast]

theorem computes_add (a b : Int) : Computes .add a b (a + b) :=
  computes_of_ofRat rfl (by push_cast; rfl)

theorem computes_sub (a b : Int) : Computes .sub a b (a - b) :=
  computes_of_ofRat rfl (by push_cast; rfl)

theorem computes_mul (a b : Int) : Computes .mul a b (a * b) :=
  computes_of_ofRat rfl (by push_cast; rfl)

theorem computes_div (hb : b ≠ 0) : Computes .div a b (a.tdiv b) := by
  have hrat : foldBinary .div (.int a) (.int b) false = foldRat .div a b false := rfl
  have hzero : (b : Rat) ≠ 0 := by exact_mod_cast hb
  rw [Computes, hrat, foldRat]
  simp [BinaryOp.isComparison, hzero]

theorem computes_mod (hb : b ≠ 0) : Computes .mod a b (a.tmod b) := by
  rw [Computes, foldBinary_int (by decide) rfl, foldInt, if_neg (by simpa using hb)]
  rfl

/-- A shift is carried out for the counts that are allowed. -/
theorem foldBinary_shift {op : BinaryOp} {shift : Int → Nat → Int}
    (hop : (op, shift) ∈ [(BinaryOp.shiftLeft, Bitwise.shiftLeft),
      (BinaryOp.shiftRight, Bitwise.shiftRight)]) :
    foldBinary op (.int a) (.int b) false =
      (shiftCount b).map (fun count => .int (shift a count)) := by
  simp only [List.mem_cons, Prod.mk.injEq, List.not_mem_nil, or_false] at hop
  rcases hop with ⟨rfl, rfl⟩ | ⟨rfl, rfl⟩ <;>
    · rw [foldBinary_int (by decide) rfl, foldInt]
      cases shiftCount b <;> rfl

theorem shiftCount_natCast {count : Nat} (h : count ≤ maxShift) :
    shiftCount count = .ok count := by
  rw [shiftCount, if_neg (by omega), Int.toNat_natCast, if_pos h]

theorem shiftCount_negative (h : b < 0) : shiftCount b = .error .invalid := by
  rw [shiftCount, if_pos h]

theorem shiftCount_large (h : (maxShift : Int) < b) : shiftCount b = .error .overflow := by
  rw [shiftCount, if_neg (by omega), if_neg (by omega)]

/-! ## The laws -/

/-- How the operators on two integers fit together. -/
structure IntegerLaws (a b : Int) : Prop where
  sums : Computes .add a b (a + b) ∧ Computes .sub a b (a - b) ∧ Computes .mul a b (a * b)
  quotient : b ≠ 0 → ∃ quotient remainder, Computes .div a b quotient ∧
    Computes .mod a b remainder ∧ quotient * b + remainder = a ∧ |remainder| < |b| ∧
    (remainder = 0 ∨ remainder.sign = a.sign)
  byZero : b = 0 → Refuses .div a b .divisionByZero ∧ Refuses .mod a b .divisionByZero
  bits : ∃ both either, Computes .bitAnd a b both ∧ Computes .bitOr a b either ∧
    Computes .bitXor a b (either - both) ∧ both + either = a + b ∧
    ∀ i, both.testBit i = (a.testBit i && b.testBit i)
  cleared : ∃ complement rest, foldUnary .bitNot (.int b) = .ok (.int complement) ∧
    Computes .bitAnd a complement rest ∧ Computes .bitClear a b rest ∧
    ∀ i, complement.testBit i = !b.testBit i
  shifts : ∀ count : Nat, b = count → count ≤ 65536 →
    Computes .shiftLeft a b (a * 2 ^ count) ∧
      Computes .shiftRight a b ⌊(a : Rat) / 2 ^ count⌋ ∧
      Computes .shiftRight (a * 2 ^ count) b a
  negativeCount : b < 0 → Refuses .shiftLeft a b .invalid ∧ Refuses .shiftRight a b .invalid
  largeCount : 65536 < b → Refuses .shiftLeft a b .overflow ∧ Refuses .shiftRight a b .overflow

/-- A remainder that is not zero has the sign of its dividend. -/
theorem sign_tmod (a b : Int) : a.tmod b = 0 ∨ (a.tmod b).sign = a.sign := by
  by_cases h : b ∣ a
  · exact .inl (Int.tmod_eq_zero_of_dvd h)
  · exact .inr (by rw [Int.sign_tmod, if_neg h])

theorem abs_tmod_lt (a : Int) (hb : b ≠ 0) : |a.tmod b| < |b| := by
  have hlt := Nat.mod_lt a.natAbs (Int.natAbs_pos.mpr hb)
  rw [Int.abs_eq_natAbs, Int.abs_eq_natAbs, Int.natAbs_tmod]
  exact_mod_cast hlt

/-- The dividend is what its quotient and remainder by a number other than zero make up. -/
theorem computes_quotient (a : Int) (hb : b ≠ 0) :
    ∃ quotient remainder, Computes .div a b quotient ∧ Computes .mod a b remainder ∧
      quotient * b + remainder = a ∧ |remainder| < |b| ∧
      (remainder = 0 ∨ remainder.sign = a.sign) :=
  ⟨a.tdiv b, a.tmod b, computes_div hb, computes_mod hb,
    by rw [mul_comm]; exact Int.mul_tdiv_add_tmod a b, abs_tmod_lt a hb, sign_tmod a b⟩

theorem testBit_not (a : Int) (i : Nat) : (Bitwise.not a).testBit i = !a.testBit i := by
  cases a with
  | ofNat n =>
    rw [Bitwise.not_ofNat]
    exact Int.testBit_lnot (.ofNat n) i
  | negSucc n =>
    rw [Bitwise.not_negSucc]
    exact Int.testBit_lnot (.negSucc n) i

theorem computes_shifts (a : Int) {count : Nat} (h : count ≤ maxShift) :
    Computes .shiftLeft a count (a * 2 ^ count) ∧
      Computes .shiftRight a count ⌊(a : Rat) / 2 ^ count⌋ ∧
      Computes .shiftRight (a * 2 ^ count) count a := by
  refine ⟨?_, ?_, ?_⟩
  · rw [Computes, foldBinary_shift (List.mem_cons_self ..), shiftCount_natCast h]
    simp [Except.map, Bitwise.shiftLeft]
  · rw [Computes, foldBinary_shift (List.mem_cons_of_mem _ (List.mem_cons_self ..)),
      shiftCount_natCast h, ← Bitwise.shiftRight_eq]
    rfl
  · rw [Computes, foldBinary_shift (List.mem_cons_of_mem _ (List.mem_cons_self ..)),
      shiftCount_natCast h]
    exact congrArg (fun n => Except.ok (Constant.int n)) (Bitwise.shiftRight_shiftLeft a count)

/-- A count that is not allowed refuses the shifts in both directions. -/
theorem refuses_shifts (a : Int) {error : FoldError} (h : shiftCount b = .error error) :
    Refuses .shiftLeft a b error ∧ Refuses .shiftRight a b error := by
  constructor
  · rw [Refuses, foldBinary_shift (List.mem_cons_self ..), h]
    rfl
  · rw [Refuses, foldBinary_shift (List.mem_cons_of_mem _ (List.mem_cons_self ..)), h]
    rfl

theorem integer_laws (a b : Int) : IntegerLaws a b where
  sums := ⟨computes_add a b, computes_sub a b, computes_mul a b⟩
  quotient hb := computes_quotient a hb
  byZero := by
    rintro rfl
    exact ⟨rfl, rfl⟩
  bits := ⟨Bitwise.and a b, Bitwise.or a b, rfl, rfl, by
    rw [Bitwise.or_sub_and]; rfl, Bitwise.and_add_or a b, fun i => by
    rw [Bitwise.and_eq_land, Int.testBit_land]⟩
  cleared := ⟨Bitwise.not b, Bitwise.and a (Bitwise.not b), rfl, rfl, rfl, testBit_not b⟩
  shifts := by
    rintro count rfl hcount
    exact computes_shifts a hcount
  negativeCount hb := refuses_shifts a (shiftCount_negative hb)
  largeCount hb := refuses_shifts a (shiftCount_large hb)

end Constant

end GoLowering
