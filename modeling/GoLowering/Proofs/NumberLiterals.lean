import Mathlib.Algebra.Order.Field.Rat
import GoLowering.Proofs.ConstantExpressions
import GoLowering.Proofs.Numerals
import GoLowering.Proofs.WrittenNumbers

/-!
# Number literals

The integer literals of the host, in each radix and with underscores between the digits, and decimal
literals with a fraction and an exponent. All of them are read as the number they spell
(`integer?_of_spells`, `decimal?_of_spells`), decimal ones where the power of ten is written out; so
two spellings of one number are read as the same constant.
-/

namespace GoLowering.Literal

variable {radix n : Nat} {c : Char} {cs ds : List Char}

/-! ## Literals of the host -/

/-- Digits with single underscores between them, and the digits by themselves. -/
inductive Grouped (radix : Nat) : List Char → List Char → Prop
  | last {c : Char} {d : Nat} (h : IsDigit radix c d) : Grouped radix [c] [c]
  | next {c : Char} {d : Nat} {cs ds : List Char} (h : IsDigit radix c d)
    (rest : Grouped radix cs ds) : Grouped radix (c :: cs) (c :: ds)
  | underscore {c : Char} {d : Nat} {cs ds : List Char} (h : IsDigit radix c d)
    (rest : Grouped radix cs ds) : Grouped radix (c :: '_' :: cs) (c :: ds)

/-- The letters that mark a radix, behind a zero. -/
def radixMarks : List (Char × Nat) :=
  [('x', 16), ('X', 16), ('o', 8), ('O', 8), ('b', 2), ('B', 2)]

/-- An integer literal and its value. -/
inductive SpellsInteger : List Char → Nat → Prop
  | zero : SpellsInteger ['0'] 0
  | decimal {cs ds : List Char} {n : Nat} (h : Grouped 10 cs ds) (hfirst : cs.head? ≠ some '0')
    (hn : Writes 10 ds n) : SpellsInteger cs n
  | marked {mark : Char} {radix : Nat} {separator cs ds : List Char} {n : Nat}
    (hmark : (mark, radix) ∈ radixMarks) (hseparator : separator = [] ∨ separator = ['_'])
    (h : Grouped radix cs ds) (hn : Writes radix ds n) :
    SpellsInteger ('0' :: mark :: separator ++ cs) n
  | octal {separator cs ds : List Char} {n : Nat}
    (hseparator : separator = [] ∨ separator = ['_']) (h : Grouped 8 cs ds)
    (hn : Writes 8 ds n) : SpellsInteger ('0' :: separator ++ cs) n

/-- The digits before the point, or none. -/
inductive SpellsWhole : List Char → List Char → Prop
  | none : SpellsWhole [] []
  | digits {cs ds : List Char} (h : Grouped 10 cs ds) : SpellsWhole cs ds

/-- The point and the digits behind it, or none. -/
inductive SpellsFraction : List Char → List Char → Prop
  | none : SpellsFraction [] []
  | bare : SpellsFraction ['.'] []
  | point {cs ds : List Char} (h : Grouped 10 cs ds) : SpellsFraction ('.' :: cs) ds

/-- The exponent with its mark, or none. -/
inductive SpellsExponent : List Char → Int → Prop
  | none : SpellsExponent [] 0
  | plain {mark : Char} {cs ds : List Char} {n : Nat} (hmark : mark = 'e' ∨ mark = 'E')
    (h : Grouped 10 cs ds) (hn : Writes 10 ds n) : SpellsExponent (mark :: cs) n
  | plus {mark : Char} {cs ds : List Char} {n : Nat} (hmark : mark = 'e' ∨ mark = 'E')
    (h : Grouped 10 cs ds) (hn : Writes 10 ds n) : SpellsExponent (mark :: '+' :: cs) n
  | minus {mark : Char} {cs ds : List Char} {n : Nat} (hmark : mark = 'e' ∨ mark = 'E')
    (h : Grouped 10 cs ds) (hn : Writes 10 ds n) : SpellsExponent (mark :: '-' :: cs) (-n)

/-- A decimal literal, its value, and its exponent less the digits behind the point. -/
inductive SpellsDecimal : List Char → Rat → Int → Prop
  | parts {whole fraction exponent ws fs : List Char} {w f : Nat} {e : Int}
    (hwhole : SpellsWhole whole ws) (hfraction : SpellsFraction fraction fs)
    (hsome : ws ≠ [] ∨ fs ≠ []) (hexponent : SpellsExponent exponent e)
    (hw : Writes 10 ws w) (hf : Writes 10 fs f) :
    SpellsDecimal (whole ++ fraction ++ exponent) ((w + f / 10 ^ fs.length) * 10 ^ e)
      (e - fs.length)

/-! ## Underscores and case -/

theorem IsDigit.ne_underscore {d : Nat} (hradix : radix ≤ 16) (h : IsDigit radix c d) : c ≠ '_' := by
  rintro rfl
  exact absurd (h.isAlphanum hradix) (by decide)

theorem Grouped.clean_eq (hradix : radix ≤ 16) (h : Grouped radix cs ds) :
    cs.filter (· != '_') = ds := by
  induction h with
  | last h => simp [h.ne_underscore hradix]
  | next h _ ih => simp [h.ne_underscore hradix, ih]
  | underscore h _ ih => simp [h.ne_underscore hradix, ih]

theorem Grouped.ne_nil (h : Grouped radix cs ds) : ds ≠ [] := by
  cases h <;> exact List.cons_ne_nil _ _

theorem Grouped.head?_eq (h : Grouped radix cs ds) : ds.head? = cs.head? := by
  cases h <;> rfl

theorem toLower_digitChar :
    ∀ d < 16, d.digitChar.toLower = d.digitChar ∧ d.digitChar.toUpper.toLower = d.digitChar := by
  decide

theorem IsDigit.toLower {d : Nat} (hradix : radix ≤ 16) (h : IsDigit radix c d) :
    IsDigit radix c.toLower d := by
  obtain ⟨hd, rfl | rfl⟩ := h
  · exact ⟨hd, .inl (toLower_digitChar d (by omega)).1⟩
  · exact ⟨hd, .inl (toLower_digitChar d (by omega)).2⟩

theorem IsDigit.toLower_eq {d : Nat} (hradix : radix ≤ 10) (h : IsDigit radix c d) :
    c.toLower = c := by
  have hcode := (isDigit_iff (by omega)).mp h
  refine toLower_of_isDigit (Char.isDigit_iff_toNat.mpr ?_)
  rw [show '0'.toNat = 48 from rfl, show '9'.toNat = 57 from rfl]
  omega

theorem Writes.map_toLower (hradix : radix ≤ 10) (h : Writes radix ds n) :
    ds.map Char.toLower = ds := by
  refine (List.map_congr_left fun c hc => ?_).trans (List.map_id _)
  obtain ⟨d, hd⟩ := h.exists_isDigit c hc
  exact hd.toLower_eq hradix

theorem natural?_of_writes (hradix : radix ≤ 16) (hne : ds ≠ []) (h : Writes radix ds n) :
    natural? radix ds = some n := by
  rw [natural?, if_neg (by simpa using hne), (digitsValue?_eq_some_iff hradix).mpr h]

theorem read_of_writes (hradix : radix ≤ 16) (hne : ds ≠ []) (h : Writes radix ds n) :
    (natural? radix ds).map (fun n => Constant.int n) = some (.int n) := by
  rw [natural?_of_writes hradix hne h]
  rfl

/-! ## Integers -/

theorem filter_separator {separator : List Char} (h : separator = [] ∨ separator = ['_']) :
    separator.filter (· != '_') = [] := by
  obtain rfl | rfl := h <;> rfl

theorem integer?_of_marked {text : String} {mark : Char} (hmark : (mark, radix) ∈ radixMarks)
    (hclean : withoutSeparators text = '0' :: mark :: ds) (hradix : radix ≤ 16) (hne : ds ≠ [])
    (hn : Writes radix ds n) : integer? text = some (.int n) := by
  have hlower : Writes radix (ds.map Char.toLower) n := hn.map fun _ _ h => h.toLower hradix
  have hvalue := read_of_writes hradix (by simpa using hne) hlower
  unfold integer?
  rw [hclean]
  simp only [radixMarks, List.mem_cons, Prod.mk.injEq, List.not_mem_nil, or_false] at hmark
  obtain ⟨rfl, rfl⟩ | ⟨rfl, rfl⟩ | ⟨rfl, rfl⟩ | ⟨rfl, rfl⟩ | ⟨rfl, rfl⟩ | ⟨rfl, rfl⟩ := hmark <;>
    exact hvalue

/-- None of the letters that mark a radix is an octal digit. -/
theorem Writes.head?_ne_mark {mark : Char} (h : Writes 8 ds n) (hmark : mark ∈ ['x', 'o', 'b']) :
    ds.head? ≠ some mark := by
  have hcodes : ∀ c ∈ ['x', 'o', 'b'], 97 < c.toNat := by simp
  intro hhead
  obtain ⟨d, hd⟩ := h.exists_isDigit mark (List.mem_of_head? hhead)
  have hcode := (isDigit_iff (by decide)).mp hd
  have hletter := hcodes mark hmark
  omega

theorem integer?_of_octal {text : String} (hclean : withoutSeparators text = '0' :: ds)
    (hne : ds ≠ []) (hn : Writes 8 ds n) : integer? text = some (.int n) := by
  unfold integer?
  rw [hclean, List.map_cons, hn.map_toLower (by decide), show '0'.toLower = '0' from rfl]
  dsimp only
  split
  case h_4 he =>
    cases he
    exact read_of_writes (by decide) hne hn
  case h_5 he =>
    obtain ⟨c, rest, rfl⟩ := List.exists_cons_of_ne_nil hne
    exact absurd rfl (he c rest)
  all_goals
    rename_i he
    cases he
    exact absurd rfl (hn.head?_ne_mark (by decide))

theorem integer?_of_decimal {text : String} (hclean : withoutSeparators text = ds)
    (hfirst : ds.head? ≠ some '0') (hne : ds ≠ []) (hn : Writes 10 ds n) :
    integer? text = some (.int n) := by
  unfold integer?
  rw [hclean, hn.map_toLower (by decide)]
  dsimp only
  split
  case h_5 => exact read_of_writes (by decide) hne hn
  all_goals exact absurd rfl hfirst

/-- Integer literals are read as the number they spell. -/
theorem integer?_of_spells {text : String} (h : SpellsInteger text.toList n) :
    integer? text = some (.int n) := by
  have hclean : withoutSeparators text = text.toList.filter (· != '_') := rfl
  revert hclean
  generalize text.toList = written at h
  intro hclean
  cases h with
  | zero =>
    unfold integer?
    rw [hclean]
    rfl
  | decimal h hfirst hn =>
    rw [h.clean_eq (by decide)] at hclean
    exact integer?_of_decimal hclean (by rwa [h.head?_eq]) h.ne_nil hn
  | @marked mark radix separator cs ds n hmark hseparator h hn =>
    have hradix : radix ≤ 16 ∧ mark ≠ '_' := by
      have hmarks : ∀ p ∈ radixMarks, p.2 ≤ 16 ∧ p.1 ≠ '_' := by decide
      exact hmarks _ hmark
    rw [List.cons_append, List.cons_append, List.filter_cons_of_pos (by decide),
      List.filter_cons_of_pos (by simpa using hradix.2), List.filter_append,
      filter_separator hseparator, h.clean_eq hradix.1, List.nil_append] at hclean
    exact integer?_of_marked hmark hclean hradix.1 h.ne_nil hn
  | octal hseparator h hn =>
    rw [List.cons_append, List.filter_cons_of_pos (by decide), List.filter_append,
      filter_separator hseparator, h.clean_eq (by decide), List.nil_append] at hclean
    exact integer?_of_octal hclean h.ne_nil hn

/-! ## Decimals -/

/-- What a decimal literal has apart from digits is none of them. -/
theorem IsDigit.ne_mark {d : Nat} (h : IsDigit 10 c d) :
    (c == '.') = false ∧ (c == 'e' || c == 'E') = false ∧ c ≠ '+' ∧ c ≠ '-' := by
  have hcode := (isDigit_iff (by decide)).mp h
  have hmarks : ∀ mark ∈ ['.', 'e', 'E', '+', '-'], c ≠ mark := by
    rintro mark hmark rfl
    have hcodes : ∀ c ∈ ['.', 'e', 'E', '+', '-'], c.toNat < 48 ∨ 57 < c.toNat := by simp
    have hmark := hcodes _ hmark
    omega
  simp only [List.forall_mem_cons] at hmarks
  simp [hmarks]

theorem SpellsWhole.clean_eq (h : SpellsWhole cs ds) : cs.filter (· != '_') = ds := by
  cases h with
  | none => rfl
  | digits h => exact h.clean_eq (by decide)

theorem SpellsFraction.clean_eq (h : SpellsFraction cs ds) :
    cs.filter (· != '_') = '.' :: ds ∨ cs.filter (· != '_') = [] ∧ ds = [] := by
  cases h with
  | none => exact .inr ⟨rfl, rfl⟩
  | bare => exact .inl rfl
  | point h =>
    refine .inl ?_
    rw [List.filter_cons_of_pos (by decide), h.clean_eq (by decide)]

theorem signed?_of_writes (hne : ds ≠ []) (h : Writes 10 ds n) :
    signed? ds = some (n : Int) ∧ signed? ('+' :: ds) = some (n : Int) ∧
      signed? ('-' :: ds) = some (-(n : Int)) := by
  have hread : natural? 10 ds = some n := natural?_of_writes (by decide) hne h
  refine ⟨?_, ?_, ?_⟩
  · obtain ⟨c, rest, rfl⟩ := List.exists_cons_of_ne_nil hne
    obtain ⟨d, hd⟩ := h.exists_isDigit c List.mem_cons_self
    unfold signed?
    split
    · rename_i he
      exact absurd (List.cons.inj he).1 hd.ne_mark.2.2.1
    · rename_i he
      exact absurd (List.cons.inj he).1 hd.ne_mark.2.2.2
    · rw [hread]
      rfl
  · rw [signed?, hread]
    rfl
  · rw [signed?, hread]
    rfl

/-- What follows the mark of an exponent is read as it; without a mark the exponent is zero. -/
theorem SpellsExponent.clean_eq {e : Int} (h : SpellsExponent cs e) :
    (∃ mark ds, (mark == 'e' || mark == 'E') = true ∧ cs.filter (· != '_') = mark :: ds ∧
      signed? ds = some e) ∨ cs.filter (· != '_') = [] ∧ e = 0 := by
  have hmarks {mark : Char} (hmark : mark = 'e' ∨ mark = 'E') :
      (mark == 'e' || mark == 'E') = true ∧ mark ≠ '_' := by
    obtain rfl | rfl := hmark <;> decide
  cases h with
  | none => exact .inr ⟨rfl, rfl⟩
  | @plain mark cs ds n hmark h hn =>
    refine .inl ⟨mark, ds, (hmarks hmark).1, ?_, (signed?_of_writes h.ne_nil hn).1⟩
    rw [List.filter_cons_of_pos (by simpa using (hmarks hmark).2), h.clean_eq (by decide)]
  | @plus mark cs ds n hmark h hn =>
    refine .inl ⟨mark, '+' :: ds, (hmarks hmark).1, ?_, (signed?_of_writes h.ne_nil hn).2.1⟩
    rw [List.filter_cons_of_pos (by simpa using (hmarks hmark).2),
      List.filter_cons_of_pos (by decide), h.clean_eq (by decide)]
  | @minus mark cs ds n hmark h hn =>
    refine .inl ⟨mark, '-' :: ds, (hmarks hmark).1, ?_, (signed?_of_writes h.ne_nil hn).2.2⟩
    rw [List.filter_cons_of_pos (by simpa using (hmarks hmark).2),
      List.filter_cons_of_pos (by decide), h.clean_eq (by decide)]

namespace Decimal

/-- A literal is split into its parts, whichever of them are left out. -/
theorem ofList?_append {ws fs point exponent : List Char} {w f : Nat} {e : Int}
    (hw : Writes 10 ws w) (hf : Writes 10 fs f) (hpoint : point = '.' :: fs ∨ point = [] ∧ fs = [])
    (hexponent : (∃ mark ds, (mark == 'e' || mark == 'E') = true ∧ exponent = mark :: ds ∧
      signed? ds = some e) ∨ exponent = [] ∧ e = 0) :
    ofList? (ws ++ point ++ exponent) = some ⟨ws, fs, e⟩ := by
  have hwhole : ∀ c ∈ ws, (c == '.') = false := fun c hc =>
    (hw.exists_isDigit c hc).elim fun _ hd => hd.ne_mark.1
  have hmantissa : ∀ c ∈ ws ++ point, (c == 'e' || c == 'E') = false := by
    intro c hc
    obtain hc | hc := List.mem_append.mp hc
    · exact (hw.exists_isDigit c hc).elim fun _ hd => hd.ne_mark.2.1
    · obtain rfl | ⟨rfl, rfl⟩ := hpoint
      · obtain rfl | hc := List.mem_cons.mp hc
        · rfl
        · exact (hf.exists_isDigit c hc).elim fun _ hd => hd.ne_mark.2.1
      · cases hc
  have hparts : splitAt? (· == '.') (ws ++ point) = some (ws, fs) ∨
      splitAt? (· == '.') (ws ++ point) = none ∧ Decimal.mk (ws ++ point) [] e = ⟨ws, fs, e⟩ := by
    obtain rfl | ⟨rfl, rfl⟩ := hpoint
    · exact .inl (splitAt?_append hwhole rfl)
    · rw [List.append_nil]
      exact .inr ⟨splitAt?_of_not_mem hwhole, rfl⟩
  obtain ⟨mark, ds, hmark, rfl, hread⟩ | ⟨rfl, rfl⟩ := hexponent
  · rw [ofList?, splitAt?_append hmantissa hmark]
    obtain hpoint | ⟨hnone, hall⟩ := hparts
    · simp only [hread, hpoint, Option.map_some, Option.bind_eq_bind, Option.bind_some,
        Option.pure_def]
    · simp only [hread, hnone, hall, Option.map_some, Option.bind_eq_bind, Option.bind_some,
        Option.pure_def]
  · rw [List.append_nil, ofList?, splitAt?_of_not_mem hmantissa]
    obtain hpoint | ⟨hnone, hall⟩ := hparts
    · simp only [hpoint, Option.bind_eq_bind, Option.bind_some, Option.pure_def]
    · simp only [hnone, hall, Option.bind_eq_bind, Option.bind_some, Option.pure_def]

theorem toRat?_eq {d : Decimal} (hdigits : d.digits? = some n)
    (hscale : d.scale.natAbs ≤ maxScale) : d.toRat? = some ((n : Rat) * 10 ^ d.scale) := by
  unfold toRat?
  rw [hdigits]
  simp only [Option.bind_eq_bind, Option.bind_some]
  cases hs : d.scale with
  | ofNat e =>
    have he : e ≤ maxScale := by rwa [hs] at hscale
    rw [Int.ofNat_eq_natCast, zpow_natCast]
    dsimp only
    rw [if_pos he, Nat.pow_eq]
    push_cast
    rfl
  | negSucc e =>
    have he : e + 1 ≤ maxScale := by rwa [hs] at hscale
    rw [zpow_negSucc]
    dsimp only
    rw [if_pos he, Rat.mkRat_eq_div, Nat.pow_eq, div_eq_mul_inv]
    push_cast
    rfl

end Decimal

/-- Decimal literals are read as the number they spell. -/
theorem decimal?_of_spells {text : String} {value : Rat} {scale : Int}
    (h : SpellsDecimal text.toList value scale) (hscale : scale.natAbs ≤ Decimal.maxScale) :
    decimal? text = some (.ofRat value) := by
  have hclean : withoutSeparators text = text.toList.filter (· != '_') := rfl
  revert hclean
  generalize text.toList = written at h
  intro hclean
  cases h with
  | @parts whole fraction exponent ws fs w f e hwhole hfraction hsome hexponent hw hf =>
    rw [List.filter_append, List.filter_append, hwhole.clean_eq] at hclean
    have hparts := Decimal.ofList?_append hw hf hfraction.clean_eq hexponent.clean_eq
    have hdigits : (Decimal.mk ws fs e).digits? = some (w * 10 ^ fs.length + f) :=
      (digitsValue?_eq_some_iff (by decide)).mpr (hw.append hf)
    have hvalue : ((w * 10 ^ fs.length + f : Nat) : Rat) * 10 ^ (e - fs.length : Int) =
        (w + f / 10 ^ fs.length) * 10 ^ e := by
      rw [zpow_sub₀ (by decide), zpow_natCast]
      push_cast
      field_simp
    have hrat := Decimal.toRat?_eq hdigits hscale
    rw [Decimal.scale, hvalue] at hrat
    rw [decimal?, hclean, hparts, Option.bind_some, hrat]

/-! ## Both kinds of literals -/

/-- A number literal, its value and the function that reads literals of its kind. -/
inductive SpellsNumber : (String → Option Constant) → String → Rat → Prop
  | integer {text : String} {n : Nat} (h : SpellsInteger text.toList n) :
    SpellsNumber integer? text n
  | decimal {text : String} {value : Rat} {scale : Int}
    (h : SpellsDecimal text.toList value scale) (hscale : scale.natAbs ≤ Decimal.maxScale) :
    SpellsNumber decimal? text value

theorem SpellsNumber.read_eq {read : String → Option Constant} {text : String} {value : Rat}
    (h : SpellsNumber read text value) : read text = some (.ofRat value) := by
  cases h with
  | @integer _ n h =>
    rw [integer?_of_spells h]
    exact congrArg some (ExactNumber.ofRat_intCast n).symm
  | decimal h hscale => exact decimal?_of_spells h hscale

/-- A literal of a number is read as the number, as an integer if it is one and otherwise as a
fraction in lowest terms, and so is any other literal of the same number. -/
theorem number_literals {read : String → Option Constant} {text : String} {value : Rat}
    (h : SpellsNumber read text value) :
    (∀ n : Int, value = n → read text = some (.int n)) ∧
      ((¬∃ n : Int, value = n) →
        read text = some (.rat value) ∧ value.num.natAbs.Coprime value.den ∧ 1 < value.den) ∧
      ∀ read' text', SpellsNumber read' text' value → read' text' = read text := by
  refine ⟨?_, ?_, ?_⟩
  · rintro n rfl
    rw [h.read_eq, ExactNumber.ofRat_intCast]
  · intro hfraction
    have hden : value.den ≠ 1 := fun hden =>
      hfraction ⟨value.num, (Rat.den_eq_one_iff value).mp hden |>.symm⟩
    have hpos := value.den_pos
    refine ⟨?_, value.reduced, by omega⟩
    rw [h.read_eq, Constant.ofRat_of_den_ne_one hden]
  · intro read' text' h'
    rw [h.read_eq, h'.read_eq]

theorem number_literals_sample :
    integer? "0x_1F" = some (.int 31) ∧ decimal? "3.4" = some (.rat (17 / 5)) ∧
      decimal? ".3_4E1" = decimal? "3.4" := by
  have digit (radix d : Nat) (h : d < radix) : IsDigit radix d.digitChar d := ⟨h, .inl rfl⟩
  have hone : IsDigit 16 '1' 1 := digit 16 1 (by decide)
  have hfifteen : IsDigit 16 'F' 15 := ⟨by decide, .inr rfl⟩
  have hthree : IsDigit 10 '3' 3 := digit 10 3 (by decide)
  have hfour : IsDigit 10 '4' 4 := digit 10 4 (by decide)
  have hinteger : SpellsNumber integer? "0x_1F" (31 : Nat) :=
    .integer (.marked (by decide : ('x', 16) ∈ radixMarks) (.inr rfl) (.next hone (.last hfifteen))
      ⟨[15, 1], .cons hfifteen (.cons hone .nil), rfl⟩)
  have hdecimal : SpellsNumber decimal? "3.4" (17 / 5) := by
    have hvalue : (17 / 5 : Rat) = ((3 : Nat) + (4 : Nat) / 10 ^ 1) * 10 ^ (0 : Int) := by norm_num
    rw [hvalue]
    exact .decimal (.parts (.digits (.last hthree)) (.point (.last hfour)) (by decide) .none
      ⟨[3], .cons hthree .nil, rfl⟩ ⟨[4], .cons hfour .nil, rfl⟩) (by decide)
  have hshifted : SpellsNumber decimal? ".3_4E1" (17 / 5) := by
    have hvalue : (17 / 5 : Rat) = ((0 : Nat) + (34 : Nat) / 10 ^ 2) * 10 ^ ((1 : Nat) : Int) := by
      norm_num
    have hexponent : IsDigit 10 '1' 1 := digit 10 1 (by decide)
    rw [hvalue]
    exact .decimal (.parts .none (.point (.underscore hthree (.last hfour))) (by decide)
      (.plain (.inr rfl) (.last hexponent) ⟨[1], .cons hexponent .nil, rfl⟩)
      (writes_nil 10) ⟨[4, 3], .cons hfour (.cons hthree .nil), rfl⟩) (by decide)
  have hfraction : ¬∃ n : Int, (17 / 5 : Rat) = n := by
    rintro ⟨n, hn⟩
    have hproduct : (17 : Rat) = 5 * n := by
      rw [← hn]
      norm_num
    have hint : (17 : Int) = 5 * n := by exact_mod_cast hproduct
    omega
  exact ⟨(number_literals hinteger).1 31 rfl, ((number_literals hdecimal).2.1 hfraction).1,
    (number_literals hdecimal).2.2 _ _ hshifted⟩

end GoLowering.Literal
