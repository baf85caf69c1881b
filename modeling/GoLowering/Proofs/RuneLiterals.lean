import GoLowering.Host.Printer
import GoLowering.Lowering.Literals
import GoLowering.Proofs.QuotedTexts

/-!
# Rune literals

A rune literal of the host is one character or one escape between single quotes, and stands for its
code (`Quoted.IsRune`). A rune is read by its first character, or by the letter behind a backslash:
what follows a character, a letter or a zero is not looked at, no other octal digit begins an escape,
and the hexadecimal digits behind a mark are not counted. The texts that are not read as the host
reads them are those of `Quoted.Misread`, and no others (`Lowering.rune_literals_iff`).
-/

namespace GoLowering

namespace Literal

variable {n : Nat} {l : Char} {cs inner : List Char}

/-- The code that is read between the quotes. -/
def code? : List Char → Option Nat
  | [] => none
  | '\\' :: rest => escape? rest
  | c :: _ => some c.toNat

theorem code?_cons {c : Char} (h : c ≠ '\\') : code? (c :: cs) = some c.toNat := by
  unfold code?
  split
  · rename_i hnil
    cases hnil
  · rename_i hcons
    exact absurd (List.cons.inj hcons).1 h
  · rename_i hcons
    rw [(List.cons.inj hcons).1]

theorem unquoted?_eq_some_iff : unquoted? cs = some inner ↔ cs = '\'' :: inner ++ ['\''] := by
  unfold unquoted?
  split
  · rename_i rest
    split
    · rename_i hlast
      obtain ⟨body, rfl⟩ := List.getLast?_eq_some_iff.mp (eq_of_beq hlast)
      simp
    · rename_i hlast
      refine iff_of_false (by simp) fun heq => hlast ?_
      rw [(List.cons.inj heq).2]
      simp
  · rename_i hquote
    exact iff_of_false (by simp) fun heq => hquote _ heq

theorem rune?_eq (text : String) :
    rune? text = ((unquoted? text.toList).bind code?).map fun code => .int code := by
  unfold rune?
  cases unquoted? text.toList with
  | none => rfl
  | some inner =>
    dsimp only [Option.bind_eq_bind, Option.bind_some]
    split
    · rfl
    · rename_i rest
      show (escape? rest).bind _ = (escape? rest).map _
      cases escape? rest <;> rfl
    · rename_i hbackslash
      rw [code?_cons hbackslash]
      rfl

theorem rune?_eq_some_iff {text : String} {value : Constant} :
    rune? text = some value ↔
      ∃ inner n, text.toList = '\'' :: inner ++ ['\''] ∧ code? inner = some n ∧ value = .int n := by
  rw [rune?_eq]
  simp only [Option.map_eq_some_iff, Option.bind_eq_some_iff, unquoted?_eq_some_iff]
  constructor
  · rintro ⟨n, ⟨inner, htext, hcode⟩, rfl⟩
    exact ⟨inner, n, htext, hcode, rfl⟩
  · rintro ⟨inner, n, htext, hcode, rfl⟩
    exact ⟨n, ⟨inner, htext, hcode⟩, rfl⟩

/-- All values that are read are codes. -/
theorem rune?_values_iff {text : String} {P : Nat → Prop} :
    (∀ value, rune? text = some value ↔ ∃ n : Nat, P n ∧ value = .int n) ↔
      ∀ n : Nat, rune? text = some (.int n) ↔ P n := by
  constructor
  · intro h n
    rw [h]
    constructor
    · rintro ⟨m, hm, heq⟩
      rwa [Int.ofNat.inj (Constant.int.inj heq)]
    · exact fun hn => ⟨n, hn, rfl⟩
  · intro h value
    constructor
    · intro hread
      obtain ⟨inner, n, -, -, rfl⟩ := rune?_eq_some_iff.mp hread
      exact ⟨n, (h n).mp hread, rfl⟩
    · rintro ⟨n, hn, rfl⟩
      exact (h n).mpr hn

theorem IsDigit.ne_plus {c : Char} {d : Nat} (h : IsDigit 16 c d) : c ≠ '+' := by
  rintro rfl
  exact absurd (h.isAlphanum (by decide)) (by decide)

/-- As many hexadecimal digits as there are, and a plus sign may stand before them. -/
theorem hex32?_eq_some_iff :
    hex32? cs = some n ↔
      ∃ sign ds, (sign = [] ∨ sign = ['+']) ∧ cs = sign ++ ds ∧ ds ≠ [] ∧ Writes 16 ds n ∧
        n < 2 ^ 32 := by
  have hread (ds : List Char) :
      (natural? 16 ds).filter (· < Nat.pow 2 32) = some n ↔
        ds ≠ [] ∧ Writes 16 ds n ∧ n < 2 ^ 32 := by
    rw [Option.filter_eq_some_iff, natural?]
    split
    · rename_i hempty
      simp [List.isEmpty_iff.mp hempty]
    · rename_i hempty
      rw [digitsValue?_eq_some_iff (by decide), decide_eq_true_iff]
      exact (and_iff_right fun hnil => hempty (by rw [hnil]; rfl)).symm
  unfold hex32?
  split
  · rename_i rest
    rw [hread]
    constructor
    · exact fun h => ⟨['+'], rest, .inr rfl, rfl, h⟩
    · rintro ⟨sign, ds, rfl | rfl, hcs, h⟩
      · obtain rfl : ds = '+' :: rest := hcs.symm
        obtain ⟨d, hd⟩ := h.2.1.exists_isDigit _ List.mem_cons_self
        exact absurd rfl hd.ne_plus
      · obtain rfl := (List.cons.inj hcs).2
        exact h
  · rename_i hsign
    rw [hread]
    constructor
    · exact fun h => ⟨[], cs, .inl rfl, rfl, h⟩
    · rintro ⟨sign, ds, rfl | rfl, rfl, h⟩
      · exact h
      · exact absurd rfl (hsign ds)

/-- The code behind a backslash, by the character that stands there. -/
theorem escape?_eq_some_iff :
    escape? (l :: cs) = some n ↔
      (∃ d, Quoted.letter? '\'' l = some d ∧ n = d.toNat) ∨ (l = '0' ∧ n = 0) ∨
        l ∈ ['x', 'u', 'U'] ∧ hex32? cs = some n := by
  constructor
  · intro h
    unfold escape? at h
    split at h
    case h_14 => cases h
    all_goals
      rename_i hcons
      obtain ⟨rfl, rfl⟩ := List.cons.inj hcons
    case h_4 => exact .inr (.inl ⟨rfl, (Option.some.inj h).symm⟩)
    case h_11 | h_12 | h_13 => exact .inr (.inr ⟨by decide, h⟩)
    all_goals exact .inl ⟨_, rfl, (Option.some.inj h).symm⟩
  · rintro (⟨d, hletter, rfl⟩ | ⟨rfl, rfl⟩ | ⟨hmark, hread⟩)
    · unfold Quoted.letter? at hletter
      split at hletter
      case h_9 =>
        split at hletter
        · rename_i hquote
          cases hletter
          rw [hquote]
          rfl
        · cases hletter
      all_goals
        cases hletter
        rfl
    · rfl
    · simp only [List.mem_cons, List.not_mem_nil, or_false] at hmark
      obtain rfl | rfl | rfl := hmark <;> exact hread

end Literal

namespace Quoted

open Literal

variable {n : Nat} {c l : Char} {cs inner : List Char}

/-- The marks of hexadecimal codes, with the number of digits that belong behind each. -/
def hexMarks : List (Char × Nat) := [('x', 2), ('u', 4), ('U', 8)]

def Piece.code : Piece → Nat
  | char c => c.toNat
  | byte b => b.toNat

/-- What stands between the quotes of a rune literal, and its code. -/
def SpellsRune (cs : List Char) (code : Nat) : Prop :=
  ∃ piece, Spells '\'' cs piece ∧ piece.code = code

/-- A text is a rune literal, and stands for a code. -/
def IsRune (literal : String) (code : Nat) : Prop :=
  ∃ body, literal.toList = '\'' :: body ++ ['\''] ∧ SpellsRune body code

theorem not_spellsRune_nil : ¬SpellsRune [] n := by
  rintro ⟨piece, hpiece, -⟩
  cases hpiece

theorem not_spellsRune_backslash : ¬SpellsRune ['\\'] n := by
  rintro ⟨piece, hpiece, -⟩
  cases hpiece <;> contradiction

theorem spellsRune_cons (hbackslash : c ≠ '\\') :
    SpellsRune (c :: cs) n ↔ cs = [] ∧ c ∉ ['\'', '\n'] ∧ n = c.toNat := by
  simp only [List.mem_cons, List.not_mem_nil, or_false, not_or]
  constructor
  · rintro ⟨piece, hpiece, rfl⟩
    cases hpiece with
    | plain hquote _ hline => exact ⟨rfl, ⟨hquote, hline⟩, rfl⟩
    | letter | octal | hex | short | long => exact absurd rfl hbackslash
  · rintro ⟨rfl, ⟨hquote, hline⟩, rfl⟩
    exact ⟨_, .plain hquote hbackslash hline, rfl⟩

/-- The escapes of a rune literal. -/
theorem spellsRune_backslash :
    SpellsRune ('\\' :: l :: cs) n ↔
      (∃ d, letter? '\'' l = some d ∧ cs = [] ∧ n = d.toNat) ∨
        (cs.length = 2 ∧ Writes 8 (l :: cs) n ∧ n < 256) ∨
        (l, cs.length) ∈ hexMarks ∧ Writes 16 cs n ∧ (l ≠ 'x' → n.isValidChar) := by
  constructor
  · rintro ⟨piece, hpiece, rfl⟩
    cases hpiece with
    | letter h => exact .inl ⟨_, h, rfl, rfl⟩
    | octal hlength h hn =>
      refine .inr (.inl ⟨Nat.succ.inj hlength, ?_, UInt8.toNat_lt _⟩)
      rwa [Piece.code, UInt8.toNat_ofNat_of_lt' hn]
    | hex hlength h =>
      have hn := h.lt_pow (by decide)
      rw [hlength] at hn
      refine .inr (.inr ⟨by rw [hlength]; decide, ?_, absurd rfl⟩)
      rwa [Piece.code, UInt8.toNat_ofNat_of_lt' hn]
    | short hlength h => exact .inr (.inr ⟨by rw [hlength]; decide, h, fun _ => Char.valid _⟩)
    | long hlength h => exact .inr (.inr ⟨by rw [hlength]; decide, h, fun _ => Char.valid _⟩)
  · rintro (⟨d, hletter, rfl, rfl⟩ | ⟨hlength, hwrites, hn⟩ | ⟨hmark, hwrites, hvalid⟩)
    · exact ⟨_, .letter hletter, rfl⟩
    · exact ⟨_, .octal (congrArg Nat.succ hlength) hwrites hn, UInt8.toNat_ofNat_of_lt' hn⟩
    · simp only [hexMarks, List.mem_cons, Prod.mk.injEq, List.not_mem_nil, or_false] at hmark
      obtain ⟨rfl, hlength⟩ | ⟨rfl, hlength⟩ | ⟨rfl, hlength⟩ := hmark
      · have hn := hwrites.lt_pow (by decide)
        rw [hlength] at hn
        exact ⟨_, .hex hlength hwrites, UInt8.toNat_ofNat_of_lt' hn⟩
      · exact ⟨.char (Char.ofNatAux n (hvalid (by decide))), .short hlength hwrites, rfl⟩
      · exact ⟨.char (Char.ofNatAux n (hvalid (by decide))), .long hlength hwrites, rfl⟩

/-- An octal digit is no other escape. -/
theorem notOther_of_isOctal {d : Nat} (h : IsDigit 8 l d) :
    letter? '\'' l = none ∧ l ∉ ['x', 'u', 'U'] := by
  have hdigits : ∀ d < 8, letter? '\'' d.digitChar = none ∧ d.digitChar ∉ ['x', 'u', 'U'] ∧
      d.digitChar.toUpper = d.digitChar := by decide
  obtain ⟨hd, hl⟩ := h
  obtain ⟨hletter, hmark, hupper⟩ := hdigits d hd
  rw [hupper, or_self] at hl
  exact hl ▸ ⟨hletter, hmark⟩

theorem letter?_mark (h : l ∈ ['x', 'u', 'U']) : letter? '\'' l = none := by
  simp only [List.mem_cons, List.not_mem_nil, or_false] at h
  obtain rfl | rfl | rfl := h <;> rfl

theorem mem_marks {k : Nat} (h : (l, k) ∈ hexMarks) : l ∈ ['x', 'u', 'U'] :=
  List.mem_map_of_mem (f := Prod.fst) h

/-- Behind a mark stand as many digits as belong there, and they write a code point. -/
theorem SpellsRune.of_mark (h : SpellsRune ('\\' :: l :: cs) n) (hmark : l ∈ ['x', 'u', 'U']) :
    (l, cs.length) ∈ hexMarks ∧ Writes 16 cs n ∧ (l ≠ 'x' → n.isValidChar) := by
  rcases spellsRune_backslash.mp h with ⟨_, hletter, -⟩ | ⟨-, hwrites, -⟩ | h
  · rw [letter?_mark hmark] at hletter
    cases hletter
  · obtain ⟨d, hd⟩ := hwrites.exists_isDigit _ List.mem_cons_self
    exact absurd hmark (notOther_of_isOctal hd).2
  · exact h

/-! ## What is not read as the host reads it -/

/-- What stands between quotes and is read otherwise than by the host. -/
inductive Misread : List Char → Prop
  /-- The host wants these two escaped. -/
  | bare {c : Char} (h : c ∈ ['\'', '\n']) : Misread [c]
  /-- More than one character. -/
  | followed {c d : Char} {rest : List Char} (h : c ≠ '\\') : Misread (c :: d :: rest)
  /-- More than one escape. -/
  | letter {l c d : Char} {rest : List Char} (h : letter? '\'' l = some c) :
    Misread ('\\' :: l :: d :: rest)
  /-- A zero is read as an escape by itself, and only the first of three octal digits. -/
  | zero {rest : List Char} (h : rest ≠ ['0', '0']) : Misread ('\\' :: '0' :: rest)
  /-- No other octal digits are read. -/
  | octal {l : Char} {ds : List Char} {n : Nat} (hzero : l ≠ '0') (hlength : ds.length = 2)
    (h : Writes 8 (l :: ds) n) (hn : n < 256) : Misread ('\\' :: l :: ds)
  /-- A plus sign before the hexadecimal digits. -/
  | signed {l : Char} {ds : List Char} {n : Nat} (hmark : l ∈ ['x', 'u', 'U']) (hsome : ds ≠ [])
    (h : Writes 16 ds n) (hn : n < 2 ^ 32) : Misread ('\\' :: l :: '+' :: ds)
  /-- Too few hexadecimal digits, or too many of them. -/
  | count {l : Char} {ds : List Char} {n : Nat} (hmark : l ∈ ['x', 'u', 'U'])
    (hcount : (l, ds.length) ∉ hexMarks) (hsome : ds ≠ []) (h : Writes 16 ds n)
    (hn : n < 2 ^ 32) : Misread ('\\' :: l :: ds)
  /-- A surrogate, or no code point at all. -/
  | code {l : Char} {ds : List Char} {n : Nat} (hmark : (l, ds.length) ∈ hexMarks) (hx : l ≠ 'x')
    (h : Writes 16 ds n) (hn : ¬n.isValidChar) : Misread ('\\' :: l :: ds)

/-- The digits that belong behind a mark write no more than 32 bits. -/
theorem lt_of_hexMarks (hmark : (l, cs.length) ∈ hexMarks) (h : Writes 16 cs n) :
    cs ≠ [] ∧ n < 2 ^ 32 := by
  have hcount : ∀ mark ∈ hexMarks, 0 < mark.2 ∧ mark.2 ≤ 8 := by simp [hexMarks]
  obtain ⟨hpos, hle⟩ := hcount _ hmark
  refine ⟨List.ne_nil_of_length_pos hpos, (h.lt_pow (by decide)).trans_le ?_⟩
  calc 16 ^ cs.length ≤ 16 ^ 8 := Nat.pow_le_pow_right (by decide) hle
    _ = 2 ^ 32 := by norm_num

theorem hex32?_of_writes (hsome : cs ≠ []) (h : Writes 16 cs n) (hn : n < 2 ^ 32) :
    hex32? cs = some n :=
  hex32?_eq_some_iff.mpr ⟨[], cs, .inl rfl, rfl, hsome, h, hn⟩

/-- An escape that is read as a code is spelled so, or misread. -/
theorem misread_of_escape? (h : escape? (l :: cs) = some n)
    (hspells : ¬SpellsRune ('\\' :: l :: cs) n) : Misread ('\\' :: l :: cs) := by
  rw [spellsRune_backslash] at hspells
  rcases escape?_eq_some_iff.mp h with ⟨d, hletter, rfl⟩ | ⟨rfl, rfl⟩ | ⟨hmark, hread⟩
  · match cs with
    | [] => exact absurd (.inl ⟨d, hletter, rfl, rfl⟩) hspells
    | _ :: _ => exact .letter hletter
  · refine .zero fun hrest => hspells (.inr (.inl ⟨by rw [hrest]; rfl, ?_, by decide⟩))
    rw [hrest]
    exact (digitsValue?_eq_some_iff (by decide)).mp rfl
  · obtain ⟨sign, ds, rfl | rfl, rfl, hsome, hwrites, hn⟩ := hex32?_eq_some_iff.mp hread
    · by_cases hcount : (l, cs.length) ∈ hexMarks
      · refine by_contra fun hmisread => hspells (.inr (.inr ⟨hcount, hwrites, fun hx => ?_⟩))
        exact by_contra fun hn => hmisread (.code hcount hx hwrites hn)
      · exact .count hmark hcount hsome hwrites hn
    · exact .signed hmark hsome hwrites hn

/-- An escape that is spelled as a code is read so, or misread. -/
theorem misread_of_spells_escape (hspells : SpellsRune ('\\' :: l :: cs) n)
    (h : escape? (l :: cs) ≠ some n) : Misread ('\\' :: l :: cs) := by
  rw [ne_eq, escape?_eq_some_iff] at h
  rcases spellsRune_backslash.mp hspells with ⟨d, hletter, -, rfl⟩ | ⟨hlength, hwrites, hn⟩ |
      ⟨hmark, hwrites, -⟩
  · exact absurd (.inl ⟨d, hletter, rfl⟩) h
  · by_cases hzero : l = '0'
    · subst hzero
      refine .zero fun hrest => h (.inr (.inl ⟨rfl, ?_⟩))
      rw [hrest] at hwrites
      exact hwrites.unique (by decide) ((digitsValue?_eq_some_iff (by decide)).mp rfl)
    · exact .octal hzero hlength hwrites hn
  · obtain ⟨hsome, hn⟩ := lt_of_hexMarks hmark hwrites
    exact absurd (.inr (.inr ⟨mem_marks hmark, hex32?_of_writes hsome hwrites hn⟩)) h

/-- What is not misread is read as a code exactly if it is spelled so. -/
theorem code?_iff_of_not_misread (h : ¬Misread inner) :
    code? inner = some n ↔ SpellsRune inner n := by
  match inner with
  | [] => exact iff_of_false nofun not_spellsRune_nil
  | c :: cs =>
    by_cases hc : c = '\\'
    · subst hc
      match cs with
      | [] => exact iff_of_false nofun not_spellsRune_backslash
      | l :: cs =>
        constructor
        · exact fun hread => by_contra fun hspells => h (misread_of_escape? hread hspells)
        · exact fun hspells => by_contra fun hread => h (misread_of_spells_escape hspells hread)
    · rw [code?_cons hc, spellsRune_cons hc, Option.some.injEq, eq_comm]
      match cs with
      | [] => exact ⟨fun hn => ⟨rfl, fun hbare => h (.bare hbare), hn⟩, fun hn => hn.2.2⟩
      | _ :: _ => exact absurd (.followed hc) h

/-- Behind a mark the digits are read. -/
theorem code?_mark (hmark : l ∈ ['x', 'u', 'U']) (h : hex32? cs = some n) :
    code? ('\\' :: l :: cs) = some n :=
  escape?_eq_some_iff.mpr (.inr (.inr ⟨hmark, h⟩))

/-- A misread code is read but not spelled, or spelled but not read. -/
theorem Misread.exists_code (h : Misread inner) :
    (∃ n, code? inner = some n ∧ ¬SpellsRune inner n) ∨
      ∃ n, code? inner ≠ some n ∧ SpellsRune inner n := by
  cases h with
  | @bare c hbare =>
    have hbackslash : c ≠ '\\' := by
      rintro rfl
      exact absurd hbare (by decide)
    exact .inl ⟨_, code?_cons hbackslash,
      fun hspells => ((spellsRune_cons hbackslash).mp hspells).2.1 hbare⟩
  | followed hbackslash =>
    exact .inl ⟨_, code?_cons hbackslash,
      fun hspells => List.cons_ne_nil _ _ ((spellsRune_cons hbackslash).mp hspells).1⟩
  | letter hletter =>
    refine .inl ⟨_, escape?_eq_some_iff.mpr (.inl ⟨_, hletter, rfl⟩), fun hspells => ?_⟩
    rcases spellsRune_backslash.mp hspells with ⟨_, -, hnil, -⟩ | ⟨-, hwrites, -⟩ | ⟨hmark, -⟩
    · cases hnil
    · obtain ⟨d, hd⟩ := hwrites.exists_isDigit _ List.mem_cons_self
      rw [(notOther_of_isOctal hd).1] at hletter
      cases hletter
    · rw [letter?_mark (mem_marks hmark)] at hletter
      cases hletter
  | zero hrest =>
    refine .inl ⟨0, rfl, fun hspells => hrest ?_⟩
    rcases spellsRune_backslash.mp hspells with ⟨_, hletter, -⟩ | ⟨hlength, hwrites, -⟩ | ⟨hmark, -⟩
    · cases hletter
    · have hzeros := hwrites.eq_replicate (by decide)
      rw [List.length_cons, hlength] at hzeros
      exact (List.cons.inj hzeros).2
    · exact absurd (mem_marks hmark) (by decide)
  | octal hzero hlength hwrites hn =>
    refine .inr ⟨_, fun hread => ?_, spellsRune_backslash.mpr (.inr (.inl ⟨hlength, hwrites, hn⟩))⟩
    obtain ⟨d, hd⟩ := hwrites.exists_isDigit _ List.mem_cons_self
    obtain ⟨hnone, hmarks⟩ := notOther_of_isOctal hd
    rcases escape?_eq_some_iff.mp hread with ⟨_, hletter, -⟩ | ⟨hl, -⟩ | ⟨hmark, -⟩
    · rw [hnone] at hletter
      cases hletter
    · exact hzero hl
    · exact hmarks hmark
  | @signed l ds n hmark hsome hwrites hn =>
    have hread : hex32? ('+' :: ds) = some n :=
      hex32?_eq_some_iff.mpr ⟨['+'], ds, .inr rfl, rfl, hsome, hwrites, hn⟩
    refine .inl ⟨n, code?_mark hmark hread, fun hspells => ?_⟩
    obtain ⟨-, hplus, -⟩ := hspells.of_mark hmark
    obtain ⟨d, hd⟩ := hplus.exists_isDigit _ List.mem_cons_self
    exact hd.ne_plus rfl
  | count hmark hcount hsome hwrites hn =>
    have hread := hex32?_of_writes hsome hwrites hn
    exact .inl ⟨_, code?_mark hmark hread, fun hspells => hcount (hspells.of_mark hmark).1⟩
  | code hmark hx hwrites hn =>
    obtain ⟨hsome, hlt⟩ := lt_of_hexMarks hmark hwrites
    have hread := hex32?_of_writes hsome hwrites hlt
    exact .inl ⟨_, code?_mark (mem_marks hmark) hread,
      fun hspells => hn ((hspells.of_mark (mem_marks hmark)).2.2 hx)⟩

/-- Between quotes, the codes that are read are those that are spelled, but for what is misread. -/
theorem code?_iff_spellsRune :
    (∀ n, code? inner = some n ↔ SpellsRune inner n) ↔ ¬Misread inner := by
  constructor
  · rintro h hmisread
    rcases hmisread.exists_code with ⟨n, hread, hspells⟩ | ⟨n, hread, hspells⟩
    · exact hspells ((h n).mp hread)
    · exact hread ((h n).mpr hspells)
  · exact fun h n => code?_iff_of_not_misread h

/-- A text between quotes that is not read as the host reads it. -/
def IsMisread (literal : String) : Prop :=
  ∃ body, literal.toList = '\'' :: body ++ ['\''] ∧ Misread body

/-- A text has one inside only. -/
theorem exists_inner_iff {text : String} {P : List Char → Prop}
    (htext : text.toList = '\'' :: inner ++ ['\'']) :
    (∃ body, text.toList = '\'' :: body ++ ['\''] ∧ P body) ↔ P inner := by
  constructor
  · rintro ⟨body, hbody, h⟩
    rwa [← List.append_cancel_right (List.cons.inj (hbody.symm.trans htext)).2]
  · exact fun h => ⟨inner, htext, h⟩

theorem isRune_iff {text : String} (htext : text.toList = '\'' :: inner ++ ['\'']) :
    IsRune text n ↔ SpellsRune inner n :=
  exists_inner_iff htext

theorem isMisread_iff {text : String} (htext : text.toList = '\'' :: inner ++ ['\'']) :
    IsMisread text ↔ Misread inner :=
  exists_inner_iff htext

/-- The rune literals of the host are read as their codes and nothing else is read, but for what is
misread. -/
theorem rune?_iff_isRune (text : String) :
    (∀ n : Nat, rune? text = some (.int n) ↔ IsRune text n) ↔ ¬IsMisread text := by
  by_cases hquoted : ∃ inner, text.toList = '\'' :: inner ++ ['\'']
  · obtain ⟨inner, htext⟩ := hquoted
    have hread (n : Nat) : rune? text = some (.int n) ↔ code? inner = some n := by
      rw [rune?_eq, unquoted?_eq_some_iff.mpr htext, Option.bind_some, Option.map_eq_some_iff]
      constructor
      · rintro ⟨code, hcode, heq⟩
        rwa [← Int.ofNat.inj (Constant.int.inj heq)]
      · exact fun hcode => ⟨n, hcode, rfl⟩
    rw [isMisread_iff htext, ← code?_iff_spellsRune]
    exact forall_congr' fun n => by rw [hread n, isRune_iff htext]
  · refine iff_of_true (fun n => iff_of_false (fun hread => hquoted ?_) fun hrune => hquoted ?_)
      fun hmisread => hquoted ?_
    · obtain ⟨inner, -, htext, -⟩ := rune?_eq_some_iff.mp hread
      exact ⟨inner, htext⟩
    · exact hrune.imp fun _ h => h.1
    · exact hmisread.imp fun _ h => h.1

end Quoted

namespace Lowering

open Literal Quoted

variable {text : String} {span : Span} {c : Context} {s : State} {n : Nat}

/-- The lowering of a rune literal records a code as its constant and puts the text out as it is. -/
def RecordsCode (text : String) (span : Span) (c : Context) (s : State) (n : Nat) : Prop :=
  ∃ operand s', lowerLiteral .rune text span c s = (.ok operand, s') ∧
    operand.constant = some (.int n) ∧
    ∀ file below header indent,
      Printer.inlineText file below header indent (s'.tree.kind operand.id) = text

theorem lowerLiteral_rune_none (h : rune? text = none) :
    lowerLiteral .rune text span c s = (.error (.found (.constantOverflow text) span), s) := by
  rw [lowerLiteral, literalValue?, h]
  rfl

theorem recordsCode_iff : RecordsCode text span c s n ↔ rune? text = some (.int n) := by
  cases hread : rune? text with
  | none =>
    refine iff_of_false ?_ nofun
    rintro ⟨operand, s', hrun, -⟩
    rw [lowerLiteral_rune_none hread] at hrun
    cases hrun
  | some value =>
    have hrun : ∃ operand s', lowerLiteral .rune text span c s = (.ok operand, s') ∧
        operand.constant = some value ∧ s'.tree.kind operand.id = .literal text := by
      rw [lowerLiteral, literalValue?, hread]
      exact ⟨_, _, rfl, rfl, HostTree.kind_add _ _ _⟩
    obtain ⟨operand, s', hrun, hconstant, hkind⟩ := hrun
    constructor
    · rintro ⟨operand', s'', hrun', hconstant', -⟩
      cases hrun.symm.trans hrun'
      exact hconstant.symm.trans hconstant'
    · intro hvalue
      exact ⟨operand, s', hrun, hconstant.trans hvalue,
        fun file below header indent => by rw [hkind]; rfl⟩

/-- A text is read as a rune exactly if it is a rune literal of the host, and then as its code, just
in case it is not misread; and just then the constant that is recorded for it is the code of the
literal that is put out. What is not read fails to be lowered. -/
theorem rune_literals_iff (text : String) :
    ((∀ value, rune? text = some value ↔ ∃ n : Nat, IsRune text n ∧ value = .int n) ↔
        ¬IsMisread text) ∧
      ∀ span c s,
        ((∀ n, RecordsCode text span c s n ↔ IsRune text n) ↔ ¬IsMisread text) ∧
        ((∃ n, RecordsCode text span c s n) ∨ lowerLiteral .rune text span c s =
          (.error (.found (.constantOverflow text) span), s)) := by
  refine ⟨?_, fun span c s => ⟨?_, ?_⟩⟩
  · rw [rune?_values_iff, rune?_iff_isRune]
  · rw [← rune?_iff_isRune]
    exact forall_congr' fun n => by rw [recordsCode_iff]
  · cases hread : rune? text with
    | none => exact .inr (lowerLiteral_rune_none hread)
    | some value =>
      obtain ⟨inner, n, -, -, rfl⟩ := rune?_eq_some_iff.mp hread
      exact .inl ⟨n, recordsCode_iff.mpr hread⟩

/-- A letter that is written by its code. -/
theorem rune_literals_iff_letter :
    ¬IsMisread "'\\u00e9'" ∧ rune? "'\\u00e9'" = some (.int 233) ∧ IsRune "'\\u00e9'" 233 := by
  have hlist : "'\\u00e9'".toList = '\'' :: ['\\', 'u', '0', '0', 'e', '9'] ++ ['\''] := by
    decide +kernel
  have hwrites : Writes 16 ['0', '0', 'e', '9'] 233 :=
    (digitsValue?_eq_some_iff (by decide)).mp (by decide)
  have hnot : ¬IsMisread "'\\u00e9'" := by
    rw [isMisread_iff hlist]
    intro h
    cases h with
    | followed hbackslash => exact absurd rfl hbackslash
    | letter hletter => cases hletter
    | octal _ hlength => cases hlength
    | count _ hcount => exact hcount (by decide)
    | code _ _ h hn =>
      rw [← hwrites.unique (by decide) h] at hn
      exact hn (by decide)
  have hrune : IsRune "'\\u00e9'" 233 :=
    (isRune_iff hlist).mpr ⟨.char 'é', .short rfl hwrites, rfl⟩
  exact ⟨hnot, ((rune_literals_iff _).1.mpr hnot _).mpr ⟨233, hrune, rfl⟩, hrune⟩

/-- Two characters are read as the first of them, three octal digits as the zero they begin with or
not at all. -/
theorem not_rune_literals :
    (¬∀ text value, rune? text = some value ↔ ∃ n : Nat, IsRune text n ∧ value = .int n) ∧
      (rune? "'ab'" = some (.int 97) ∧ ∀ n, ¬IsRune "'ab'" n) ∧
      (rune? "'\\012'" = some (.int 0) ∧ IsRune "'\\012'" 10) ∧
      rune? "'\\101'" = none ∧ IsRune "'\\101'" 65 := by
  have hpair : rune? "'ab'" = some (.int 97) ∧ ∀ n, ¬IsRune "'ab'" n := by
    have hlist : "'ab'".toList = '\'' :: ['a', 'b'] ++ ['\''] := by decide +kernel
    refine ⟨rune?_eq_some_iff.mpr ⟨_, 97, hlist, rfl, rfl⟩, fun n hrune => ?_⟩
    have hspells := (spellsRune_cons (by decide)).mp ((isRune_iff hlist).mp hrune)
    cases hspells.1
  have hzero : rune? "'\\012'" = some (.int 0) ∧ IsRune "'\\012'" 10 := by
    have hlist : "'\\012'".toList = '\'' :: ['\\', '0', '1', '2'] ++ ['\''] := by decide +kernel
    have hwrites : Writes 8 ['0', '1', '2'] 10 :=
      (digitsValue?_eq_some_iff (by decide)).mp (by decide)
    exact ⟨rune?_eq_some_iff.mpr ⟨_, 0, hlist, rfl, rfl⟩,
      (isRune_iff hlist).mpr ⟨.byte 10, .octal rfl hwrites (by decide), rfl⟩⟩
  have hoctal : rune? "'\\101'" = none ∧ IsRune "'\\101'" 65 := by
    have hlist : "'\\101'".toList = '\'' :: ['\\', '1', '0', '1'] ++ ['\''] := by decide +kernel
    have hwrites : Writes 8 ['1', '0', '1'] 65 :=
      (digitsValue?_eq_some_iff (by decide)).mp (by decide)
    refine ⟨?_, (isRune_iff hlist).mpr ⟨.byte 65, .octal rfl hwrites (by decide), rfl⟩⟩
    rw [rune?_eq, unquoted?_eq_some_iff.mpr hlist]
    rfl
  refine ⟨fun h => ?_, hpair, hzero, hoctal⟩
  obtain ⟨n, hrune, -⟩ := (h _ _).mp hpair.1
  exact hpair.2 n hrune

end Lowering

end GoLowering
