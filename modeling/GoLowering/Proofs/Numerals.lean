import Mathlib.Data.List.Forall2
import Mathlib.Data.List.Induction
import Mathlib.Data.Nat.Digits.Defs
import GoLowering.Constant.Literal

/-!
# Digits and the numbers they write

The digits of a radix of at most sixteen, with letters of either case, and the number that a list of
them writes by position. Digits are read as this number (`Literal.digitsValue?_eq_some_iff`).
-/

namespace GoLowering.Literal

variable {radix n d : Nat} {c : Char} {cs : List Char}

/-- A character is a digit of a radix. -/
def IsDigit (radix : Nat) (c : Char) (d : Nat) : Prop :=
  d < radix ∧ (c = d.digitChar ∨ c = d.digitChar.toUpper)

/-- Digits write a number; the last one is the least significant. -/
def Writes (radix : Nat) (cs : List Char) (n : Nat) : Prop :=
  ∃ ds, List.Forall₂ (IsDigit radix) cs.reverse ds ∧ Nat.ofDigits radix ds = n

/-! ## Single digits -/

theorem digit_codes :
    ∀ d < 16, if d < 10 then d.digitChar.toNat = d + 48 ∧ d.digitChar.toUpper.toNat = d + 48
      else d.digitChar.toNat = d + 87 ∧ d.digitChar.toUpper.toNat = d + 55 := by
  decide

/-- The digits by their codes: `0` to `9`, `a` to `f` and `A` to `F`. -/
theorem isDigit_iff (hradix : radix ≤ 16) :
    IsDigit radix c d ↔ d < radix ∧
      (d < 10 ∧ c.toNat = d + 48 ∨ 10 ≤ d ∧ (c.toNat = d + 87 ∨ c.toNat = d + 55)) := by
  refine and_congr_right fun hd => ?_
  have hcodes := digit_codes d (by omega)
  rw [← Char.toNat_inj, ← Char.toNat_inj]
  split at hcodes <;> omega

theorem IsDigit.isAlphanum (hradix : radix ≤ 16) (h : IsDigit radix c d) : c.isAlphanum = true := by
  have halphanum : ∀ d < 16,
      d.digitChar.isAlphanum = true ∧ d.digitChar.toUpper.isAlphanum = true := by decide
  obtain ⟨hd, rfl | rfl⟩ := h
  · exact (halphanum d (by omega)).1
  · exact (halphanum d (by omega)).2

theorem digit?_eq_some_iff (hradix : radix ≤ 16) : digit? radix c = some d ↔ IsDigit radix c d := by
  have hle (a b : Char) : a ≤ b ↔ a.toNat ≤ b.toNat := UInt32.le_iff_toNat_le
  have hcodes : '0'.toNat = 48 ∧ '9'.toNat = 57 ∧ 'a'.toNat = 97 ∧ 'z'.toNat = 122 ∧
      'A'.toNat = 65 ∧ 'Z'.toNat = 90 := by decide
  obtain ⟨hzero, hnine, ha, hz, hA, hZ⟩ := hcodes
  rw [isDigit_iff hradix, digit?]
  simp only [hle, hzero, hnine, ha, hz, hA, hZ]
  split_ifs <;> simp only [Option.some.injEq, false_iff] <;> omega

/-! ## Lists of digits -/

theorem writes_nil (radix : Nat) : Writes radix [] 0 := ⟨[], .nil, rfl⟩

theorem writes_concat_iff :
    Writes radix (cs ++ [c]) n ↔
      ∃ m d, Writes radix cs m ∧ IsDigit radix c d ∧ n = radix * m + d := by
  unfold Writes
  rw [List.reverse_append, List.reverse_singleton, List.singleton_append]
  constructor
  · rintro ⟨ds, hds, rfl⟩
    cases hds with
    | cons hd hds => exact ⟨_, _, ⟨_, hds, rfl⟩, hd, Nat.ofDigits_cons.trans (Nat.add_comm _ _)⟩
  · rintro ⟨m, d, ⟨ds, hds, rfl⟩, hd, rfl⟩
    exact ⟨d :: ds, .cons hd hds, Nat.ofDigits_cons.trans (Nat.add_comm _ _)⟩

theorem Writes.exists_isDigit (h : Writes radix cs n) : ∀ c ∈ cs, ∃ d, IsDigit radix c d := by
  obtain ⟨ds, hds, -⟩ := h
  have hdigits : List.Forall₂ (fun c d => (∃ d, IsDigit radix c d) ∧ IsDigit radix c d)
      cs.reverse ds := hds.imp fun _ d hd => ⟨⟨d, hd⟩, hd⟩
  exact fun c hc => ((List.forall₂_and_left _ _).mp hdigits).1 c (List.mem_reverse.mpr hc)

theorem Writes.append {m : Nat} {ds : List Char} (hm : Writes radix cs m) (hn : Writes radix ds n) :
    Writes radix (cs ++ ds) (m * radix ^ ds.length + n) := by
  obtain ⟨high, hhigh, rfl⟩ := hm
  obtain ⟨low, hlow, rfl⟩ := hn
  refine ⟨low ++ high, ?_, ?_⟩
  · rw [List.reverse_append]
    exact List.rel_append hlow hhigh
  · rw [Nat.ofDigits_append, ← hlow.length_eq, List.length_reverse, Nat.mul_comm, Nat.add_comm]

theorem Writes.map {f : Char → Char} (h : Writes radix cs n)
    (hf : ∀ c d, IsDigit radix c d → IsDigit radix (f c) d) : Writes radix (cs.map f) n := by
  obtain ⟨ds, hds, rfl⟩ := h
  refine ⟨ds, ?_, rfl⟩
  rw [← List.map_reverse, List.forall₂_map_left_iff]
  exact hds.imp hf

/-- Digits are read as the number that they write. -/
theorem digitsValue?_eq_some_iff (hradix : radix ≤ 16) :
    digitsValue? radix cs = some n ↔ Writes radix cs n := by
  induction cs using List.reverseRecOn generalizing n with
  | nil =>
    constructor
    · intro h
      cases h
      exact writes_nil radix
    · rintro ⟨ds, hds, rfl⟩
      cases hds
      rfl
  | append_singleton cs c ih =>
    rw [writes_concat_iff, digitsValue?, List.foldlM_append]
    simp only [List.foldlM_cons, List.foldlM_nil, bind_pure, Option.bind_eq_bind,
      Option.bind_eq_some_iff, Option.map_eq_some_iff, digit?_eq_some_iff hradix]
    constructor
    · rintro ⟨m, hm, d, hd, rfl⟩
      exact ⟨m, d, ih.mp hm, hd, rfl⟩
    · rintro ⟨m, d, hm, hd, rfl⟩
      exact ⟨m, ih.mpr hm, d, hd, rfl⟩

theorem Writes.unique {m : Nat} (hradix : radix ≤ 16) (hm : Writes radix cs m)
    (hn : Writes radix cs n) : m = n := by
  rw [← digitsValue?_eq_some_iff hradix] at hm hn
  exact Option.some.inj (hm.symm.trans hn)

/-! ## Bounds -/

theorem Writes.lt_pow (hradix : 1 < radix) (h : Writes radix cs n) : n < radix ^ cs.length := by
  obtain ⟨ds, hds, rfl⟩ := h
  have hlt : List.Forall₂ (fun d c => d < radix ∧ IsDigit radix c d) ds cs.reverse :=
    hds.flip.imp fun _ _ h => ⟨h.1, h⟩
  rw [← List.length_reverse, hds.length_eq]
  exact Nat.ofDigits_lt_base_pow_length hradix ((List.forall₂_and_left _ _).mp hlt).1

/-- Zero is written by zeros. -/
theorem Writes.eq_replicate (hradix : 0 < radix) (h : Writes radix cs 0) :
    cs = List.replicate cs.length '0' := by
  induction cs using List.reverseRecOn with
  | nil => rfl
  | append_singleton cs c ih =>
    obtain ⟨m, d, hm, hd, hsum⟩ := writes_concat_iff.mp h
    obtain ⟨hproduct, rfl⟩ := Nat.add_eq_zero_iff.mp hsum.symm
    obtain rfl := (Nat.mul_eq_zero.mp hproduct).resolve_left hradix.ne'
    have hc : c = '0' := hd.2.elim id id
    rw [hc, List.length_append, List.length_singleton, List.replicate_succ', ← ih hm]

end GoLowering.Literal
