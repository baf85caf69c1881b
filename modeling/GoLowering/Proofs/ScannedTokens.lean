import Mathlib.Data.List.Chain
import GoLowering.Host.Scanner

/-!
# Tokens found in a text

A text that is put together from tokens is scanned into the same tokens again, if each one is found
in its own text and ends where the next one begins (`Laid.tokens?_eq`). Only a number can go on
there, with the point behind it; then a longer number is found in its place (`Laid.words_ne`). So
the names and literals tell whether the tokens are found (`Laid.clean_of_words_eq`).
-/

namespace GoLowering

open Scanner

namespace Token

/-- Whether a token is a comma, a parenthesis or a bracket. -/
def isMark : Token → Bool
  | comma | openParen | closeParen | openBracket | closeBracket => true
  | _ => false

/-- Whether a token can stand right before another one. A literal can stand before a point as far as
this goes. -/
def touches : Token → Token → Bool
  | operator _, u => u.isWord || u.isMark
  | dot, name _ => true
  | dot, u => u.isMark
  | name _, u | literal _, u => u.isMark || u == dot
  | _, _ => true

/-- A text is put together from tokens, with a blank between some of them. -/
inductive Laid : List Token → String → Prop
  | nil : Laid [] ""
  | touching {t : Token} {ts : List Token} {text : String} (h : ∀ u ∈ ts.head?, t.touches u)
    (hts : Laid ts text) : Laid (t :: ts) (t.text ++ text)
  | apart {t u : Token} {ts : List Token} {text : String} (hu : u ≠ .dot)
    (hts : Laid (u :: ts) text) : Laid (t :: u :: ts) (t.text ++ " " ++ text)

end Token

namespace Alphabet

variable {a : Alphabet} {state next : State} {c : Char} {taken cs rest : List Char} {t u : Token}

/-! ## One token -/

theorem scan_step (h : a.step? c state = some next) :
    a.scan (some (state, taken)) (c :: cs) = a.scan (some (next, taken ++ [c])) cs := by
  rw [scan, h]

theorem scan_run (h : cs.foldlM (fun state c => a.step? c state) state = some next) :
    a.scan (some (state, taken)) (cs ++ rest) = a.scan (some (next, taken ++ cs)) rest := by
  induction cs generalizing state taken with
  | nil =>
    obtain rfl : state = next := by simpa using h
    simp
  | cons c cs ih =>
    rw [List.foldlM_cons] at h
    obtain ⟨middle, hstep, h⟩ := Option.bind_eq_some_iff.mp h
    rw [List.cons_append, scan_step hstep, ih h, List.append_assoc, List.singleton_append]

theorem scan_stop (h : ∀ c ∈ rest.head?, a.step? c state = none) :
    a.scan (some (state, taken)) rest =
      (finish? state taken).bind (fun t => (a.scan none rest).map (t :: ·)) := by
  cases rest with
  | nil => cases hfinish : finish? state taken <;> simp [scan, hfinish]
  | cons c cs =>
    have hstep : a.step? c state = none := h c rfl
    cases hfinish : finish? state taken with
    | none => simp [scan, hstep, hfinish]
    | some t =>
      cases hbegin : a.begin? c with
      | none => simp [scan, hstep, hfinish, hbegin]
      | some begun =>
        simp only [scan, hstep, hfinish, hbegin, Option.bind_some]
        exact Option.map_eq_bind.symm

/-- A text that is one token as a whole is read to its end, however the text goes on. -/
theorem scan_token (h : a.run? cs = some state) :
    a.scan none (cs ++ rest) = a.scan (some (state, cs)) rest := by
  cases cs with
  | nil => cases h
  | cons c cs =>
    obtain ⟨first, hstart, h⟩ := Option.bind_eq_some_iff.mp h
    rw [List.cons_append, scan, begin?, hstart]
    exact scan_run h

/-- No token goes on over what comes next. -/
def Stops (a : Alphabet) (cs rest : List Char) : Prop :=
  ∀ state ∈ a.run? cs, ∀ c ∈ rest.head?, a.step? c state = none

theorem scan_append (h : a.token? cs = some t) (hstops : a.Stops cs rest) :
    a.scan none (cs ++ rest) = (a.scan none rest).map (t :: ·) := by
  obtain ⟨state, hrun, hfinish⟩ := Option.bind_eq_some_iff.mp h
  rw [scan_token hrun, scan_stop (hstops state hrun), hfinish, Option.bind_some]

theorem scan_blank (rest : List Char) : a.scan none (' ' :: rest) = a.scan none rest := rfl

/-! ## Where a token ends -/

theorem finish?_name {text : String} (h : finish? state cs = some (.name text)) :
    state = .word ∧ text = String.ofList cs := by
  cases state with
  | word =>
    simp only [finish?] at h
    split at h
    · cases h
    · exact ⟨rfl, (Token.name.inj (Option.some.inj h)).symm⟩
  | symbol symbol =>
    simp only [finish?, symbolToken?] at h
    split at h <;> cases h
  | _ => simp [finish?] at h

theorem finish?_literal {text : String} (h : finish? state cs = some (.literal text)) :
    state.isLiteral = true ∧ text = String.ofList cs := by
  cases state with
  | word =>
    simp only [finish?] at h
    split at h <;> cases h
  | symbol symbol =>
    simp only [finish?, symbolToken?] at h
    split at h <;> cases h
  | _ =>
    simp only [finish?] at h
    split at h
    · exact ⟨‹_›, (Token.literal.inj (Option.some.inj h)).symm⟩
    · cases h

theorem finish?_symbol (h : finish? state cs = some t) (ht : t.isWord = false) :
    state = .symbol t.text := by
  cases state with
  | word =>
    simp only [finish?] at h
    split at h
    · cases h
    · cases h
      cases ht
  | symbol symbol =>
    simp only [finish?, symbolToken?] at h
    split at h <;> cases h <;> rfl
  | _ =>
    simp only [finish?] at h
    split at h <;> cases h
    cases ht

/-- The characters, the point apart, that a symbol may go on with. -/
def joins : List Char := ['+', '-', '*', '/', '&', '|', '^', '<', '>', '=']

theorem mem_joins {text more : String} (h : longer? text c = some more) (hpoint : c ≠ '.') :
    c ∈ joins := by
  unfold longer? at h
  split at h <;> first | decide | exact absurd rfl hpoint | cases h

theorem longer?_point {text more : String} (h : longer? text '.' = some more) :
    text = "." ∨ text = ".." := by
  unfold longer? at h
  split at h <;> simp_all

/-- A symbol stays one, unless it is the point in front of a number. -/
def Symbolic (state : State) : Prop := (∃ text ≠ ".", state = .symbol text) ∨ state = .bad

theorem Symbolic.step? (h : Symbolic state) (hstep : a.step? c state = some next) :
    Symbolic next := by
  rcases h with ⟨text, htext, rfl⟩ | rfl
  · simp only [Alphabet.step?, htext, false_and, if_false] at hstep
    split at hstep
    · cases hstep
      exact .inr rfl
    · obtain ⟨more, hmore, rfl⟩ := Option.map_eq_some_iff.mp hstep
      refine .inl ⟨more, ?_, rfl⟩
      unfold longer? at hmore
      split at hmore <;> cases hmore <;> decide
  · cases hstep
    exact .inr rfl

theorem Symbolic.run (h : Symbolic state)
    (hrun : cs.foldlM (fun state c => a.step? c state) state = some next) : Symbolic next := by
  induction cs generalizing state with
  | nil =>
    obtain rfl : state = next := by simpa using hrun
    exact h
  | cons c cs ih =>
    rw [List.foldlM_cons] at hrun
    obtain ⟨middle, hstep, hrun⟩ := Option.bind_eq_some_iff.mp hrun
    exact ih (h.step? hstep) hrun

theorem Symbolic.not_isWord (h : Symbolic state) (hfinish : finish? state cs = some t) :
    t.isWord = false := by
  rcases h with ⟨text, -, rfl⟩ | rfl
  · simp only [finish?, symbolToken?] at hfinish
    split at hfinish <;> cases hfinish <;> rfl
  · cases hfinish

/-- Neither names nor literals begin with a character that a symbol goes on with. -/
theorem head_not_mem_joins (h : a.token? cs = some t) (ht : t.isWord) :
    ∃ c rest, cs = c :: rest ∧ c ∉ joins := by
  obtain ⟨state, hrun, hfinish⟩ := Option.bind_eq_some_iff.mp h
  cases cs with
  | nil => cases hrun
  | cons c cs =>
    refine ⟨c, cs, rfl, fun hc => ?_⟩
    obtain ⟨first, hstart, hrun⟩ := Option.bind_eq_some_iff.mp hrun
    have hfirst : a.start? c = some (.symbol c.toString) ∧ c.toString ≠ "." := by
      simp only [joins, List.mem_cons, List.not_mem_nil, or_false] at hc
      rcases hc with rfl | rfl | rfl | rfl | rfl | rfl | rfl | rfl | rfl | rfl <;>
        exact ⟨rfl, by decide⟩
    obtain rfl : _ = first := Option.some.inj (hfirst.1.symm.trans hstart)
    have hsymbolic : Symbolic state := Symbolic.run (.inl ⟨_, hfirst.2, rfl⟩) hrun
    rw [hsymbolic.not_isWord hfinish] at ht
    cases ht

/-- Names are made of letters and digits from the first character on. -/
theorem run_word (hrun : cs.foldlM (fun state c => a.step? c state) state = some .word) :
    state = .word := by
  induction cs generalizing state with
  | nil => simpa using hrun
  | cons c cs ih =>
    rw [List.foldlM_cons] at hrun
    obtain ⟨middle, hstep, hrun⟩ := Option.bind_eq_some_iff.mp hrun
    obtain rfl := ih hrun
    cases state with
    | word => rfl
    | symbol text =>
      simp only [step?] at hstep
      split at hstep
      · cases hstep
      · split at hstep <;> simp at hstep
    | _ =>
      revert hstep
      simp only [step?, zeroStep?, wholeStep?, markedStep?, fractionStep?, hexFractionStep?,
        exponentStep?, quotedStep, escapeStep, codeStep, underscore, behindDigit]
      repeat' split
      all_goals simp

theorem head_name {text : String} (h : a.IsIdentifier text) :
    ∃ c rest, text.toList = c :: rest ∧ a.isLetter c := by
  obtain ⟨state, hrun, hfinish⟩ := Option.bind_eq_some_iff.mp h
  obtain ⟨rfl, -⟩ := finish?_name hfinish
  cases hcs : text.toList with
  | nil =>
    rw [hcs] at hrun
    cases hrun
  | cons c cs =>
    rw [hcs] at hrun
    obtain ⟨first, hstart, hrun⟩ := Option.bind_eq_some_iff.mp hrun
    obtain rfl := run_word hrun
    refine ⟨c, cs, rfl, ?_⟩
    unfold start? at hstart
    split at hstart
    · assumption
    · repeat' split at hstart
      all_goals cases hstart

/-! ## Tokens after each other -/

/-- A token is found in its own text, as a whole. -/
def Finds (a : Alphabet) (t : Token) : Prop := a.token? t.text.toList = some t

theorem finds_mark (ht : t.isMark) : a.Finds t := by
  cases t <;> first | rfl | cases ht

theorem finds_dot : a.Finds .dot := rfl

theorem finds_binary (op : BinaryOp) : a.Finds (.binary op) := by
  cases op <;> rfl

theorem finds_unary (op : UnaryOp) : a.Finds (.unary op) := by
  cases op <;> rfl

theorem finds_star : a.Finds .star := rfl

/-- The characters that can only stand behind a token. -/
def follows : List Char := [' ', ',', '(', ')', '[', ']']

theorem not_mem_joins (hc : c ∈ follows) : c ∉ joins := by
  simp only [follows, List.mem_cons, List.not_mem_nil, or_false] at hc
  rcases hc with rfl | rfl | rfl | rfl | rfl | rfl <;> decide

theorem step?_word (hc : c ∈ '.' :: follows) : a.step? c .word = none := by
  simp only [follows, List.mem_cons, List.not_mem_nil, or_false] at hc
  rcases hc with rfl | rfl | rfl | rfl | rfl | rfl | rfl <;> rfl

theorem step?_of_isLiteral (h : state.isLiteral = true) (hc : c ∈ follows) :
    a.step? c state = none := by
  simp only [follows, List.mem_cons, List.not_mem_nil, or_false] at hc
  cases state with
  | zero | imaginary | closed | fraction | exponent =>
    rcases hc with rfl | rfl | rfl | rfl | rfl | rfl <;> rfl
  | whole octal fits last => rcases hc with rfl | rfl | rfl | rfl | rfl | rfl <;> rfl
  | marked radix fits last =>
    rcases hc with rfl | rfl | rfl | rfl | rfl | rfl <;>
      exact if_neg (by simp; exact fun _ => rfl)
  | _ => cases h

theorem step?_mark (ht : t.isMark) (c : Char) : a.step? c (.symbol t.text) = none := by
  have hlonger : longer? t.text c = none := by
    by_contra hne
    obtain ⟨more, hmore⟩ := Option.ne_none_iff_exists'.mp hne
    unfold longer? at hmore
    split at hmore <;> cases t <;> simp_all [Token.isMark, Token.text]
  cases t with
  | comma | openParen | closeParen | openBracket | closeBracket =>
    exact congrArg (Option.map State.symbol) hlonger
  | _ => cases ht

theorem isDigit_eq_false_of_isLetter (h : a.isLetter c) : c.isDigit = false := by
  by_contra hne
  obtain ⟨hlow, hhigh⟩ := Char.isDigit_iff_toNat.mp (by simpa using hne)
  have hlow : 48 ≤ c.toNat := hlow
  have hhigh : c.toNat ≤ 57 := hhigh
  have hval : c.toNat = c.val.toNat := rfl
  have halpha : c.isAlpha = false := by
    change (decide (65 ≤ c.val ∧ c.val ≤ 90) ||
      (decide (97 ≤ c.val) && decide (c.val ≤ 122))) = false
    simp [UInt32.le_iff_toNat_le]
    omega
  have hne : c ≠ '_' := by
    rintro rfl
    cases (by decide : ¬ '_'.toNat ≤ 57) hhigh
  have hascii : c.toNat < 128 := Nat.lt_of_le_of_lt hhigh (by decide)
  simp [isLetter, hascii, halpha, hne] at h

theorem step?_dot (h : a.isLetter c) : a.step? c (.symbol ".") = none := by
  have hpoint : c ≠ '.' := by
    rintro rfl
    cases h
  have hlonger : longer? "." c = none := by
    unfold longer?
    split <;> simp_all
  simp [step?, isDigit_eq_false_of_isLetter h, hlonger]

theorem step?_operator {text : String} (ht : finish? (.symbol text) cs = some (.operator text))
    (hjoins : c ∉ joins) :
    a.step? c (.symbol text) = none := by
  have hlonger : longer? text c = none := by
    by_contra hne
    obtain ⟨more, hmore⟩ := Option.ne_none_iff_exists'.mp hne
    by_cases hc : c = '.'
    · subst hc
      rcases longer?_point hmore with rfl | rfl
      · cases ht
      · cases ht
    · exact hjoins (mem_joins hmore hc)
  have hpoint : text ≠ "." := by
    rintro rfl
    cases ht
  have hcomment : ¬(c = '/' ∨ c = '*') := by
    rintro (rfl | rfl)
    · exact hjoins (by decide)
    · exact hjoins (by decide)
  simp [step?, hpoint, hlonger, hcomment]

/-- What can stand right before a token ends there, unless a number goes on with a point. -/
theorem stops_of_touches (ht : a.Finds t) (hu : a.Finds u) (h : t.touches u)
    (hpoint : ∀ text, t = .literal text → u = .dot → ¬ a.TakesPoint text) (rest : List Char) :
    a.Stops t.text.toList (u.text.toList ++ rest) := by
  intro state hstate c hc
  obtain ⟨_, hrun, hfinish⟩ := Option.bind_eq_some_iff.mp ht
  obtain rfl := Option.some.inj (hstate.symm.trans hrun)
  have hmark (hmark : u.isMark) : c ∈ follows := by
    cases u <;> cases hmark <;> (obtain rfl := Option.some.inj hc; decide)
  cases t with
  | name text =>
    obtain ⟨rfl, -⟩ := finish?_name hfinish
    refine step?_word ?_
    simp only [Token.touches, Bool.or_eq_true, beq_iff_eq] at h
    rcases h with h | rfl
    · exact List.mem_cons_of_mem _ (hmark h)
    · obtain rfl := Option.some.inj hc
      exact List.mem_cons_self
  | literal text =>
    simp only [Token.touches, Bool.or_eq_true, beq_iff_eq] at h
    rcases h with h | rfl
    · exact step?_of_isLiteral (finish?_literal hfinish).1 (hmark h)
    · obtain rfl := Option.some.inj hc
      by_contra hstep
      exact hpoint text rfl rfl ⟨state, hstate, hstep⟩
  | operator text =>
    obtain rfl := finish?_symbol hfinish rfl
    refine step?_operator hfinish ?_
    simp only [Token.touches, Bool.or_eq_true] at h
    rcases h with h | h
    · obtain ⟨d, ds, hds, hd⟩ := head_not_mem_joins hu h
      rw [hds] at hc
      obtain rfl := Option.some.inj hc
      exact hd
    · exact not_mem_joins (hmark h)
  | dot =>
    obtain rfl := finish?_symbol hfinish rfl
    cases u with
    | name text =>
      obtain ⟨d, ds, hds, hd⟩ := head_name hu
      rw [show (Token.name text).text.toList = d :: ds from hds] at hc
      obtain rfl := Option.some.inj hc
      exact step?_dot hd
    | comma | openParen | closeParen | openBracket | closeBracket =>
      obtain rfl := Option.some.inj hc
      rfl
    | literal | operator | dot => cases h
  | comma | openParen | closeParen | openBracket | closeBracket =>
    obtain rfl := finish?_symbol hfinish rfl
    refine step?_mark ?_ c
    rfl

/-- Behind every token a blank can stand. -/
theorem stops_blank (ht : a.Finds t) (rest : List Char) : a.Stops t.text.toList (' ' :: rest) := by
  intro state hstate c hc
  obtain ⟨_, hrun, hfinish⟩ := Option.bind_eq_some_iff.mp ht
  obtain rfl := Option.some.inj (hstate.symm.trans hrun)
  obtain rfl := Option.some.inj hc
  cases t with
  | name text =>
    obtain ⟨rfl, -⟩ := finish?_name hfinish
    rfl
  | literal text => exact step?_of_isLiteral (finish?_literal hfinish).1 (by decide)
  | operator text =>
    obtain rfl := finish?_symbol hfinish rfl
    exact step?_operator hfinish (by decide)
  | dot | comma | openParen | closeParen | openBracket | closeBracket =>
    obtain rfl := finish?_symbol hfinish rfl
    rfl

/-! ## Names and literals in what is scanned -/

theorem run?_append (h : a.run? taken = some state) (hstep : a.step? c state = some next) :
    a.run? (taken ++ [c]) = some next := by
  cases taken with
  | nil => cases h
  | cons first rest =>
    obtain ⟨started, hstart, hrun⟩ := Option.bind_eq_some_iff.mp h
    simp [run?, hstart, List.foldlM_append, hrun, hstep]

theorem finds_of_finish? (hrun : a.run? taken = some state) (h : finish? state taken = some t)
    (ht : t.isWord) : a.Finds t := by
  have htext : t.text = String.ofList taken := by
    cases t with
    | name => exact (finish?_name h).2
    | literal => exact (finish?_literal h).2
    | _ => cases ht
  rw [Finds, token?, htext, String.toList_ofList, hrun, Option.bind_some, h]

/-- The names and the literals in what is scanned are tokens in their own right. -/
theorem finds_of_scan {begun : Option (State × List Char)} {tokens : List Token}
    (hbegun : ∀ p ∈ begun, a.run? p.2 = some p.1) (h : a.scan begun cs = some tokens)
    (hmem : t ∈ tokens) (ht : t.isWord) : a.Finds t := by
  have hbegin {c : Char} {begun : Option (State × List Char)} (h : a.begin? c = some begun) :
      ∀ p ∈ begun, a.run? p.2 = some p.1 := by
    rintro ⟨state, taken⟩ rfl
    unfold begin? at h
    split at h
    · rename_i hstart
      cases h
      simp [run?, hstart]
    · split at h <;> cases h
  induction cs generalizing begun tokens with
  | nil =>
    cases begun with
    | none =>
      cases h
      cases hmem
    | some p =>
      obtain ⟨_, hfinish, rfl⟩ := Option.map_eq_some_iff.mp h
      obtain rfl := List.mem_singleton.mp hmem
      exact finds_of_finish? (hbegun p rfl) hfinish ht
  | cons c cs ih =>
    cases begun with
    | none =>
      obtain ⟨next, hnext, h⟩ := Option.bind_eq_some_iff.mp h
      exact ih (hbegin hnext) h hmem
    | some p =>
      obtain ⟨state, taken⟩ := p
      cases hstep : a.step? c state with
      | some next =>
        rw [scan_step hstep] at h
        refine ih ?_ h hmem
        intro q hq
        obtain rfl := Option.some.inj hq
        exact run?_append (hbegun _ rfl) hstep
      | none =>
        simp only [scan, hstep] at h
        obtain ⟨first, hfinish, h⟩ := Option.bind_eq_some_iff.mp h
        obtain ⟨next, hnext, h⟩ := Option.bind_eq_some_iff.mp h
        obtain ⟨ts, hts, h⟩ := Option.bind_eq_some_iff.mp h
        cases h
        rcases List.mem_cons.mp hmem with rfl | hmem
        · exact finds_of_finish? (hbegun _ rfl) hfinish ht
        · exact ih (hbegin hnext) hts hmem

/-- What is read in a state is a literal if it becomes a token. -/
def Literally : State → Prop
  | .word | .symbol _ => False
  | _ => True

theorem Literally.step? (h : Literally state) (hstep : a.step? c state = some next) :
    Literally next := by
  cases state with
  | word | symbol => cases h
  | _ =>
    revert hstep
    simp only [Alphabet.step?, zeroStep?, wholeStep?, markedStep?, fractionStep?, hexFractionStep?,
      exponentStep?, quotedStep, escapeStep, codeStep, underscore, behindDigit]
    repeat' split
    all_goals first | (rintro ⟨⟩; trivial) | nofun

/-- A literal that is being read becomes a token with what has been taken for it at least. -/
theorem scan_literally {tokens : List Token} (hstate : Literally state)
    (h : a.scan (some (state, taken)) cs = some tokens) :
    ∃ text ts, tokens = .literal text :: ts ∧ taken.length ≤ text.toList.length := by
  have hfinish {state : State} {taken : List Char} {t : Token} (hstate : Literally state)
      (h : finish? state taken = some t) : t = .literal (String.ofList taken) := by
    cases state with
    | word | symbol => cases hstate
    | _ =>
      simp only [finish?] at h
      split at h <;> cases h
      rfl
  induction cs generalizing state taken with
  | nil =>
    obtain ⟨t, ht, rfl⟩ := Option.map_eq_some_iff.mp h
    refine ⟨_, [], congrArg ([·]) (hfinish hstate ht), ?_⟩
    simp
  | cons c cs ih =>
    cases hstep : a.step? c state with
    | some next =>
      rw [scan_step hstep] at h
      obtain ⟨text, ts, rfl, hlength⟩ := ih (hstate.step? hstep) h
      refine ⟨text, ts, rfl, Nat.le_trans ?_ hlength⟩
      simp
    | none =>
      simp only [scan, hstep] at h
      obtain ⟨t, ht, h⟩ := Option.bind_eq_some_iff.mp h
      obtain ⟨begun, -, h⟩ := Option.bind_eq_some_iff.mp h
      obtain ⟨ts, -, h⟩ := Option.bind_eq_some_iff.mp h
      cases h
      obtain rfl := hfinish hstate ht
      refine ⟨_, ts, rfl, ?_⟩
      simp

/-! ## Texts that are put together from tokens -/

/-- No number stands before a point that it would go on with. -/
def Clear (a : Alphabet) (t u : Token) : Prop :=
  ∀ text, t = .literal text → u = .dot → ¬ a.TakesPoint text

theorem clear_of_ne_dot (t : Token) (hu : u ≠ .dot) : a.Clear t u := fun _ _ h => absurd h hu

/-- Tokens that are found each and that do not run together. -/
def Clean (a : Alphabet) (ts : List Token) : Prop := (∀ t ∈ ts, a.Finds t) ∧ ts.IsChain a.Clear

theorem clean_nil : a.Clean [] := ⟨nofun, .nil⟩

theorem clean_singleton : a.Clean [t] ↔ a.Finds t := by
  simp [Clean]

theorem clean_append {ts us : List Token} : a.Clean (ts ++ us) ↔
    a.Clean ts ∧ a.Clean us ∧ ∀ t ∈ ts.getLast?, ∀ u ∈ us.head?, a.Clear t u := by
  simp only [Clean, List.forall_mem_append, List.isChain_append]
  constructor
  · rintro ⟨⟨hts, hus⟩, hts', hus', hclear⟩
    exact ⟨⟨hts, hts'⟩, ⟨hus, hus'⟩, hclear⟩
  · rintro ⟨⟨hts, hts'⟩, ⟨hus, hus'⟩, hclear⟩
    exact ⟨⟨hts, hus⟩, hts', hus', hclear⟩

theorem clean_append_of_ne_dot {ts us : List Token} (h : ∀ u ∈ us.head?, u ≠ .dot) :
    a.Clean (ts ++ us) ↔ a.Clean ts ∧ a.Clean us :=
  clean_append.trans
    ⟨fun hclean => ⟨hclean.1, hclean.2.1⟩,
      fun hclean => ⟨hclean.1, hclean.2, fun t _ u hu => clear_of_ne_dot t (h u hu)⟩⟩

/-- What is no literal can stand before anything. -/
theorem clean_cons {ts : List Token} (ht : ∀ text, t ≠ .literal text) :
    a.Clean (t :: ts) ↔ a.Finds t ∧ a.Clean ts := by
  rw [← List.singleton_append, clean_append, clean_singleton]
  refine and_congr_right (fun _ => and_iff_left (fun u hu _ _ text htext => ?_))
  obtain rfl : t = u := by simpa using hu
  exact absurd htext (ht text)

theorem clean_name_cons {ts : List Token} {text : String} :
    a.Clean (.name text :: ts) ↔ a.IsIdentifier text ∧ a.Clean ts :=
  clean_cons nofun

theorem clean_symbol_cons {ts : List Token} (hfinds : a.Finds t) (ht : t.isWord = false) :
    a.Clean (t :: ts) ↔ a.Clean ts := by
  refine (clean_cons ?_).trans (and_iff_right hfinds)
  rintro text rfl
  cases ht

theorem clean_append_mark {ts : List Token} (ht : t.isMark) :
    a.Clean (ts ++ [t]) ↔ a.Clean ts := by
  refine (clean_append_of_ne_dot ?_).trans (and_iff_left (clean_singleton.mpr (finds_mark ht)))
  rintro _ ⟨⟩ rfl
  cases ht

end Alphabet

namespace Token.Laid

variable {a : Alphabet} {t u : Token} {ts : List Token} {text : String}

theorem toList_cons (h : Laid (t :: ts) text) : ∃ rest, text.toList = t.text.toList ++ rest := by
  cases h with
  | touching => exact ⟨_, String.toList_append⟩
  | apart => exact ⟨_, by rw [String.append_assoc, String.toList_append]⟩

theorem stops (h : Laid ts text) (ht : a.Finds t) (hts : ∀ u ∈ ts, a.Finds u)
    (htouches : ∀ u ∈ ts.head?, t.touches u) (hclear : ∀ u ∈ ts.head?, a.Clear t u) :
    a.Stops t.text.toList text.toList := by
  cases ts with
  | nil =>
    cases h
    exact fun _ _ _ hc => nomatch hc
  | cons u ts =>
    obtain ⟨rest, hrest⟩ := h.toList_cons
    rw [hrest]
    exact Alphabet.stops_of_touches ht (hts u List.mem_cons_self) (htouches u rfl) (hclear u rfl)
      rest

/-- Clean tokens are found again. -/
theorem tokens?_eq (h : Laid ts text) (hclean : a.Clean ts) : a.tokens? text = some ts := by
  obtain ⟨hfinds, hclear⟩ := hclean
  unfold Alphabet.tokens?
  induction h with
  | nil => rfl
  | @touching t ts text htouches hts ih =>
    obtain ⟨ht, hrest⟩ := List.forall_mem_cons.mp hfinds
    obtain ⟨hhead, htail⟩ := List.isChain_cons.mp hclear
    rw [String.toList_append, Alphabet.scan_append ht (hts.stops ht hrest htouches hhead),
      ih hrest htail, Option.map_some]
  | @apart t u ts text hu hts ih =>
    obtain ⟨ht, hrest⟩ := List.forall_mem_cons.mp hfinds
    rw [String.append_assoc, String.toList_append, String.toList_append,
      show (" " : String).toList = [' '] from rfl, List.singleton_append,
      Alphabet.scan_append ht (Alphabet.stops_blank ht _), Alphabet.scan_blank,
      ih hrest (List.isChain_cons_cons.mp hclear).2, Option.map_some]

theorem words_cons_ne {us : List Token} (t : Token)
    (h : us.filter isWord ≠ ts.filter isWord) :
    (t :: us).filter isWord ≠ (t :: ts).filter isWord := by
  rw [List.filter_cons, List.filter_cons]
  split
  · exact fun he => h (List.tail_eq_of_cons_eq he)
  · exact h

/-- A number that goes on with the point behind it is another one. -/
theorem words_ne_of_takesPoint {number text : String} {ts tokens : List Token}
    (hnumber : a.Finds (.literal number)) (hpoint : a.TakesPoint number)
    (h : Laid (.dot :: ts) text) 
    (hscan : a.scan none ((literal number).text.toList ++ text.toList) = some tokens) :
    tokens.filter isWord ≠ (.literal number :: .dot :: ts).filter isWord := by
  obtain ⟨rest, hrest⟩ := h.toList_cons
  obtain ⟨state, hrun, hfinish⟩ := Option.bind_eq_some_iff.mp hnumber
  obtain ⟨_, hrun', hstep⟩ := hpoint
  obtain rfl := Option.some.inj (hrun.symm.trans hrun')
  obtain ⟨next, hnext⟩ := Option.ne_none_iff_exists'.mp hstep
  have hliterally : Alphabet.Literally state := by
    have := (Alphabet.finish?_literal hfinish).1
    cases state with
    | word | symbol => cases this
    | _ => trivial
  rw [hrest, Alphabet.scan_token hrun, show dot.text.toList = ['.'] from rfl,
    List.singleton_append, Alphabet.scan_step hnext] at hscan
  obtain ⟨longer, us, rfl, hlength⟩ := Alphabet.scan_literally (hliterally.step? hnext) hscan
  intro he
  obtain rfl := Token.literal.inj (List.head_eq_of_cons_eq he)
  rw [List.length_append] at hlength
  exact Nat.not_succ_le_self _ hlength

/-- Where a number goes on with the point behind it, other names and literals are found. -/
theorem words_ne {tokens : List Token} (h : Laid ts text) (hfinds : ∀ t ∈ ts, a.Finds t)
    (hclear : ¬ ts.IsChain a.Clear) (hscan : a.tokens? text = some tokens) :
    tokens.filter isWord ≠ ts.filter isWord := by
  unfold Alphabet.tokens? at hscan
  induction h generalizing tokens with
  | nil => exact absurd .nil hclear
  | @touching t ts text htouches hts ih =>
    obtain ⟨ht, hrest⟩ := List.forall_mem_cons.mp hfinds
    rw [String.toList_append] at hscan
    by_cases hhead : ∀ u ∈ ts.head?, a.Clear t u
    · rw [Alphabet.scan_append ht (hts.stops ht hrest htouches hhead)] at hscan
      obtain ⟨us, hus, rfl⟩ := Option.map_eq_some_iff.mp hscan
      exact words_cons_ne t
        (ih hrest (fun htail => hclear (List.isChain_cons.mpr ⟨hhead, htail⟩)) hus)
    · obtain ⟨u, hu, hjoined⟩ := by simpa using hhead
      obtain ⟨ts, rfl⟩ := List.head?_eq_some_iff.mp hu
      obtain ⟨number, rfl, rfl, hpoint⟩ : ∃ number, t = .literal number ∧ u = .dot ∧
          a.TakesPoint number := by simpa [Alphabet.Clear] using hjoined
      exact words_ne_of_takesPoint ht hpoint hts hscan
  | @apart t u ts text hu hts ih =>
    obtain ⟨ht, hrest⟩ := List.forall_mem_cons.mp hfinds
    rw [String.append_assoc, String.toList_append, String.toList_append,
      show (" " : String).toList = [' '] from rfl, List.singleton_append,
      Alphabet.scan_append ht (Alphabet.stops_blank ht _), Alphabet.scan_blank] at hscan
    obtain ⟨us, hus, rfl⟩ := Option.map_eq_some_iff.mp hscan
    exact words_cons_ne t (ih hrest (fun htail =>
      hclear (List.isChain_cons_cons.mpr ⟨Alphabet.clear_of_ne_dot t hu, htail⟩)) hus)

/-- Only clean tokens have all their names and literals found again. -/
theorem clean_of_words_eq {tokens : List Token} (h : Laid ts text)
    (hothers : ∀ t ∈ ts, t.isWord = false → a.Finds t) (hscan : a.tokens? text = some tokens)
    (hwords : tokens.filter isWord = ts.filter isWord) : a.Clean ts := by
  have hfinds : ∀ t ∈ ts, a.Finds t := by
    intro t ht
    by_cases hword : t.isWord
    · have hmem : t ∈ tokens.filter isWord := by
        rw [hwords]
        exact List.mem_filter.mpr ⟨ht, hword⟩
      exact Alphabet.finds_of_scan (by simp) hscan (List.mem_filter.mp hmem).1 hword
    · exact hothers t ht (by simpa using hword)
  refine ⟨hfinds, ?_⟩
  by_contra hclear
  exact h.words_ne hfinds hclear hscan hwords

end Token.Laid

end GoLowering
