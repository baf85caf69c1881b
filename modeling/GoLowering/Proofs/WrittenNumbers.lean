import Mathlib.Data.List.Basic
import Mathlib.Data.List.TakeWhile
import GoLowering.Constant.Literal
import GoLowering.Lowering.Coercion

/-!
# Numbers in texts

What the host reads in the texts that numbers are written as. Integers, as literals or digit by
digit, and fractions are read as the numbers they were written for.
-/

namespace GoLowering

namespace Literal

/-! ## Digits -/

theorem digit?_digitChar {d : Nat} (h : d < 10) : digit? 10 d.digitChar = some d := by
  revert d
  decide

theorem digitsValue?_concat (cs : List Char) (c : Char) :
    digitsValue? 10 (cs ++ [c]) =
      (digitsValue? 10 cs).bind (fun n => (digit? 10 c).map (10 * n + ·)) := by
  simp [digitsValue?, List.foldlM_append]

theorem digitsValue?_toDigits (n : Nat) : digitsValue? 10 (Nat.toDigits 10 n) = some n := by
  induction n using Nat.strongRecOn with
  | ind n ih =>
    have hlast := digit?_digitChar (Nat.mod_lt n (by decide : 0 < 10))
    by_cases hsmall : n < 10
    · have hn : n % 10 = n := Nat.mod_eq_of_lt hsmall
      rw [hn] at hlast
      simp [Nat.toDigits_of_lt_base hsmall, digitsValue?, hlast]
    · have hrest := ih (n / 10) (by omega)
      rw [Nat.toDigits_of_base_le (by decide) (by omega), digitsValue?_concat, hrest]
      simp [hlast, Nat.div_add_mod]

theorem natural?_toDigits (n : Nat) : natural? 10 (Nat.toDigits 10 n) = some n := by
  have hne : (Nat.toDigits 10 n).isEmpty = false := by simp
  rw [natural?, hne]
  exact digitsValue?_toDigits n

/-- No number but zero is written with a zero in front. -/
theorem head?_toDigits_ne {n : Nat} (h : 0 < n) : (Nat.toDigits 10 n).head? ≠ some '0' := by
  induction n using Nat.strongRecOn with
  | ind n ih =>
    by_cases hsmall : n < 10
    · have hne : n ≠ 0 := by omega
      simpa [Nat.toDigits_of_lt_base hsmall] using hne
    · have hrest := ih (n / 10) (by omega) (by omega)
      rw [Nat.toDigits_of_base_le (by decide) (by omega), List.head?_append_of_ne_nil _ (by simp)]
      exact hrest

theorem isDigit_of_mem {n : Nat} {c : Char} (h : c ∈ Nat.toDigits 10 n) : c.isDigit = true :=
  Nat.isDigit_of_mem_toDigits (by decide) (by decide) h

theorem toLower_of_isDigit {c : Char} (h : c.isDigit = true) : c.toLower = c := by
  simp only [Char.isDigit, Bool.and_eq_true, decide_eq_true_eq, UInt32.le_iff_toNat_le] at h
  have hnine : '9'.val.toNat = 57 := rfl
  have hupper : 'A'.val.toNat = 65 := rfl
  unfold Char.toLower
  split
  · rename_i hletter
    have hletter := UInt32.le_iff_toNat_le.mp hletter.1
    omega
  · rfl

/-- Decimal digits are read as the number they were written for. -/
theorem integer?_repr (n : Nat) : integer? n.repr = some (.int n) := by
  have hclean : (withoutSeparators n.repr).map Char.toLower = Nat.toDigits 10 n := by
    have hfilter : withoutSeparators n.repr = Nat.toDigits 10 n := by
      rw [withoutSeparators, Nat.toList_repr, List.filter_eq_self]
      intro c hc
      have : c ≠ '_' := fun he => by
        subst he
        exact absurd (isDigit_of_mem hc) (by decide)
      simpa using this
    rw [hfilter]
    exact (List.map_congr_left (fun c hc => toLower_of_isDigit (isDigit_of_mem hc))).trans
      (List.map_id _)
  have hvalue : (natural? 10 (Nat.toDigits 10 n)).map (fun n => Constant.int n) =
      some (.int n) := by rw [natural?_toDigits]; rfl
  have hzero : ∀ c cs, Nat.toDigits 10 n ≠ '0' :: c :: cs := by
    intro c cs he
    have hn : n = 0 := by
      by_contra hpos
      exact head?_toDigits_ne (Nat.pos_of_ne_zero hpos) (by rw [he]; rfl)
    subst hn
    cases he
  unfold integer?
  rw [hclean]
  revert hvalue hzero
  generalize Nat.toDigits 10 n = cs
  intro hvalue hzero
  dsimp only
  split
  · exact absurd rfl (hzero _ _)
  · exact absurd rfl (hzero _ _)
  · exact absurd rfl (hzero _ _)
  · exact absurd rfl (hzero _ _)
  · exact hvalue

/-! ## Integers and fractions -/

/-- An integer of the host, perhaps with a minus sign before it. -/
def hostInteger? (text : String) : Option Int :=
  match text.toList with
  | '-' :: cs => ((integer? (String.ofList cs)).bind Constant.toInt?).map (-·)
  | _ => (integer? text).bind Constant.toInt?

/-- A fraction, or an integer by itself. -/
def fraction? (cs : List Char) : Option Rat :=
  match splitAt? (· == '/') cs with
  | some (num, den) => do
    let n ← hostInteger? (String.ofList num)
    let d ← (integer? (String.ofList den)).bind Constant.toInt?
    if d == 0 then none else return Rat.divInt n d
  | none => (signed? cs).map (fun n : Int => (n : Rat))

/-- The characters between double quotes, none of which is an escape. -/
def quoted? (text : String) : Option (List Char) :=
  match text.toList with
  | '"' :: rest =>
    if rest.getLast? == some '"' && rest.dropLast.all (fun c => c != '"' && c != '\\') then
      some rest.dropLast
    else none
  | _ => none

/-- An integer is written with digits, and with a minus sign before them if it is negative. -/
theorem toList_toString (n : Int) :
    (toString n).toList =
      if 0 ≤ n then Nat.toDigits 10 n.natAbs else '-' :: Nat.toDigits 10 n.natAbs := by
  rw [Int.toString_eq_repr, Int.repr_eq_if]
  by_cases h : 0 ≤ n
  · have hn : n.toNat = n.natAbs := by omega
    simp [h, hn]
  · have hn : (-n).toNat = n.natAbs := by omega
    simp [h, hn, String.toList_append]

theorem head_digits (n : Nat) : ∃ d ds, Nat.toDigits 10 n = d :: ds ∧ d.isDigit = true := by
  cases h : Nat.toDigits 10 n with
  | nil => exact absurd h Nat.toDigits_ne_nil
  | cons d ds =>
    have hd : d ∈ Nat.toDigits 10 n := by
      rw [h]
      exact List.mem_cons_self
    exact ⟨d, ds, rfl, isDigit_of_mem hd⟩

theorem signed?_toString (n : Int) : signed? (toString n).toList = some n := by
  rw [toList_toString]
  split
  · rename_i h
    have hread := natural?_toDigits n.natAbs
    have hn : (n.natAbs : Int) = n := Int.natAbs_of_nonneg h
    obtain ⟨d, ds, hdigits, hd⟩ := head_digits n.natAbs
    rw [hdigits] at hread ⊢
    unfold signed?
    split
    · rename_i he
      cases he
      exact absurd hd (by decide)
    · rename_i he
      cases he
      exact absurd hd (by decide)
    · rw [hread]
      exact congrArg some hn
  · rename_i h
    have hn : -(n.natAbs : Int) = n := by omega
    rw [signed?, natural?_toDigits]
    exact congrArg some hn

theorem hostInteger?_toString (n : Int) : hostInteger? (toString n) = some n := by
  unfold hostInteger?
  rw [toList_toString]
  by_cases h : 0 ≤ n
  · have htext : toString n = n.natAbs.repr := by
      rw [Int.toString_eq_repr, Int.repr_eq_if, if_pos h]
      exact congrArg Nat.repr (by omega)
    obtain ⟨d, ds, hdigits, hd⟩ := head_digits n.natAbs
    rw [if_pos h, hdigits, htext, integer?_repr]
    split
    · rename_i he
      cases he
      exact absurd hd (by decide)
    · exact congrArg some (by omega)
  · rw [if_neg h]
    simp only [← Nat.repr_eq_ofList_toDigits, integer?_repr, Option.bind_some, Constant.toInt?,
      Option.map_some]
    exact congrArg some (by omega)

theorem mem_toString {n : Int} {c : Char} (h : c ∈ (toString n).toList) :
    c.isDigit = true ∨ c = '-' := by
  rw [toList_toString] at h
  split at h
  · exact .inl (isDigit_of_mem h)
  · rcases List.mem_cons.mp h with he | hmem
    · exact .inr he
    · exact .inl (isDigit_of_mem hmem)

/-- Numbers are written without quotes and escapes. -/
theorem isPlain_toString (n : Int) : ∀ c ∈ (toString n).toList, c ≠ '"' ∧ c ≠ '\\' := by
  intro c hc
  rcases mem_toString hc with hdigit | rfl
  · constructor <;> rintro rfl <;> exact absurd hdigit (by decide)
  · decide

theorem isPlain_fractionText (r : Rat) :
    ∀ c ∈ (Lowering.fractionText r).toList, c ≠ '"' ∧ c ≠ '\\' := by
  have hden : toString r.den = toString (r.den : Int) := by simp [Int.repr_eq_if]
  intro c hc
  unfold Lowering.fractionText at hc
  split at hc
  · exact isPlain_toString r.num c hc
  · rw [hden, String.toList_append, String.toList_append] at hc
    rcases List.mem_append.mp hc with hc | hc
    · rcases List.mem_append.mp hc with hc | hc
      · exact isPlain_toString r.num c hc
      · obtain rfl : c = '/' := by simpa using hc
        decide
    · exact isPlain_toString r.den c hc

theorem splitAt?_of_not_mem {isMark : Char → Bool} {cs : List Char}
    (h : ∀ c ∈ cs, isMark c = false) : splitAt? isMark cs = none := by
  have hall : ∀ c ∈ cs, (!isMark c) = true := fun c hc => by simp [h c hc]
  rw [splitAt?, List.dropWhile_eq_nil_iff.mpr hall]

theorem splitAt?_append {isMark : Char → Bool} {cs after : List Char} {mark : Char}
    (h : ∀ c ∈ cs, isMark c = false) (hmark : isMark mark = true) :
    splitAt? isMark (cs ++ mark :: after) = some (cs, after) := by
  have hall : ∀ c ∈ cs, (!isMark c) = true := fun c hc => by simp [h c hc]
  unfold splitAt?
  rw [List.dropWhile_append_of_pos hall, List.takeWhile_append_of_pos hall]
  simp [hmark]

/-- The text of a fraction is read as the fraction. -/
theorem fraction?_fractionText (r : Rat) :
    fraction? (Lowering.fractionText r).toList = some r := by
  have hmark : ∀ c ∈ (toString r.num).toList, (c == '/') = false := by
    intro c hc
    rcases mem_toString hc with hdigit | rfl
    · refine beq_eq_false_iff_ne.mpr (fun he => ?_)
      subst he
      exact absurd hdigit (by decide)
    · rfl
  unfold Lowering.fractionText
  split
  · rename_i hden
    have hden : r.den = 1 := by simpa using hden
    have hr : ((r.num : Int) : Rat) = r := Rat.ext rfl (by simp [hden])
    rw [fraction?, splitAt?_of_not_mem hmark]
    rw [signed?_toString, Option.map_some, hr]
  · have htext : (toString r.num ++ "/" ++ toString r.den).toList =
        (toString r.num).toList ++ '/' :: (toString r.den).toList := by
      simp [String.toList_append]
    have hden : integer? (toString r.den) = some (.int r.den) := integer?_repr r.den
    have hne : ((r.den : Int) == 0) = false := by
      have := r.den_nz
      exact beq_eq_false_iff_ne.mpr (by omega)
    have hr : Rat.divInt r.num r.den = r := Rat.num_divInt_den r
    rw [htext, fraction?, splitAt?_append hmark rfl]
    simp only [String.ofList_toList, hostInteger?_toString, hden, Option.bind_eq_bind,
      Option.bind_some, Constant.toInt?, hne, hr]
    rfl

/-- A text without quotes and escapes is read back from between its quotes. -/
theorem quoted?_text {text : String} (h : ∀ c ∈ text.toList, c ≠ '"' ∧ c ≠ '\\') :
    quoted? ("\"" ++ text ++ "\"") = some text.toList := by
  have htext : ("\"" ++ text ++ "\"").toList = '"' :: (text.toList ++ ['"']) := by
    simp [String.toList_append]
  have hall : text.toList.all (fun c => c != '"' && c != '\\') = true := by
    simpa using h
  rw [quoted?, htext]
  simp only [List.getLast?_append, List.getLast?_singleton, List.dropLast_concat, hall]
  rfl

end Literal

end GoLowering
