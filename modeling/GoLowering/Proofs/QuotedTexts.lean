import Mathlib.Data.List.Basic
import GoLowering.Host.Printer
import GoLowering.Lowering.Literals
import GoLowering.Proofs.Numerals
import GoLowering.Proofs.Runs
import GoLowering.Proofs.TextBytes
import GoLowering.Surface.Draft

/-!
# Quoted texts as host literals

A text that is drafted as a string literal is quoted, and the quoted text goes into the output as it
is. The host reads in it what was quoted just in case all characters show by themselves or are tabs,
carriage returns or newlines (`denotes_quote_iff`). The code that the others are written by is no
escape of the host; neither is the zero after a backslash, which two digits behind it turn into
another character (`not_denotes_quote`).
-/

/-!
## Text literals of the host

What the host reads between quotes. Characters stand for themselves, but for the quote, the
backslash and the newline; a backslash begins an escape, which is a letter, three octal digits, or a
mark with two, four or eight hexadecimal digits behind it. Two or three digits write a byte, more of
them a character. What a literal stands for is the bytes of its pieces (`Denotes`).
-/

namespace GoLowering.Quoted

open Literal Source

/-- A character between quotes, or an escape. -/
inductive Piece where
  | char (c : Char)
  | byte (b : UInt8)

def Piece.bytes : Piece → List UInt8
  | char c => String.utf8EncodeChar c
  | byte b => [b]

/-- The character that a letter after a backslash stands for, between quotes of a kind. -/
def letter? (quote : Char) : Char → Option Char
  | 'a' => some '\x07'
  | 'b' => some '\x08'
  | 'f' => some '\x0c'
  | 'n' => some '\n'
  | 'r' => some '\r'
  | 't' => some '\t'
  | 'v' => some '\x0b'
  | '\\' => some '\\'
  | c => if c = quote then some c else none

/-- How a piece is spelled between quotes of a kind. -/
inductive Spells (quote : Char) : List Char → Piece → Prop
  | plain {c : Char} (hquote : c ≠ quote) (hbackslash : c ≠ '\\') (hline : c ≠ '\n') :
    Spells quote [c] (.char c)
  | letter {c d : Char} (h : letter? quote c = some d) : Spells quote ['\\', c] (.char d)
  | octal {ds : List Char} {n : Nat} (hlength : ds.length = 3) (h : Writes 8 ds n) (hn : n < 256) :
    Spells quote ('\\' :: ds) (.byte (.ofNat n))
  | hex {ds : List Char} {n : Nat} (hlength : ds.length = 2) (h : Writes 16 ds n) :
    Spells quote ('\\' :: 'x' :: ds) (.byte (.ofNat n))
  | short {ds : List Char} {c : Char} (hlength : ds.length = 4) (h : Writes 16 ds c.toNat) :
    Spells quote ('\\' :: 'u' :: ds) (.char c)
  | long {ds : List Char} {c : Char} (hlength : ds.length = 8) (h : Writes 16 ds c.toNat) :
    Spells quote ('\\' :: 'U' :: ds) (.char c)

/-- The bytes that the pieces between two quotes stand for. -/
inductive Reads (quote : Char) : List Char → List UInt8 → Prop
  | nil : Reads quote [] []
  | cons {cs more : List Char} {piece : Piece} {bs : List UInt8} (h : Spells quote cs piece)
    (rest : Reads quote more bs) : Reads quote (cs ++ more) (piece.bytes ++ bs)

/-- A text is an interpreted string literal, and stands for some bytes. -/
def Denotes (literal : String) (bs : List UInt8) : Prop :=
  ∃ body, literal.toList = '"' :: body ++ ['"'] ∧ Reads '"' body bs

variable {quote c : Char} {cs : List Char} {bs : List UInt8}

/-! ## The first piece -/

/-- Where nothing is, nothing is read. -/
theorem Reads.eq_nil (h : Reads quote [] bs) : bs = [] := by
  generalize hbody : [] = body at h
  cases h with
  | nil => rfl
  | cons hpiece rest => cases hpiece <;> cases hbody

/-- A plain character is a piece by itself. -/
theorem Reads.of_plain (h : Reads quote (c :: cs) bs) (hbackslash : c ≠ '\\') :
    ∃ more, bs = String.utf8EncodeChar c ++ more ∧ Reads quote cs more := by
  generalize hbody : c :: cs = body at h
  cases h with
  | nil => cases hbody
  | cons hpiece rest =>
    cases hpiece <;> obtain ⟨rfl, rfl⟩ := List.cons.inj hbody
    · exact ⟨_, rfl, rest⟩
    all_goals exact absurd rfl hbackslash

/-- An escape is a letter, three octal digits, or a mark with hexadecimal digits behind it. -/
theorem Reads.of_backslash (h : Reads quote ('\\' :: c :: cs) bs) :
    (∃ d more, letter? quote c = some d ∧ bs = String.utf8EncodeChar d ++ more ∧
      Reads quote cs more) ∨
    (∃ c' c'' rest n more, cs = c' :: c'' :: rest ∧ Writes 8 [c, c', c''] n ∧
      bs = .ofNat n :: more ∧ Reads quote rest more) ∨
    (c ∈ ['x', 'u', 'U'] ∧ ∃ c' rest d, cs = c' :: rest ∧ IsDigit 16 c' d) := by
  generalize hbody : '\\' :: c :: cs = body at h
  cases h with
  | nil => cases hbody
  | cons hpiece rest =>
    cases hpiece with
    | plain _ hbackslash => exact absurd (List.cons.inj hbody).1.symm hbackslash
    | letter hletter =>
      obtain ⟨-, hbody⟩ := List.cons.inj hbody
      obtain ⟨rfl, rfl⟩ := List.cons.inj hbody
      exact .inl ⟨_, _, hletter, rfl, rest⟩
    | octal hlength hwrites =>
      obtain ⟨-, hbody⟩ := List.cons.inj hbody
      obtain ⟨a, b, d, rfl⟩ := List.length_eq_three.mp hlength
      obtain ⟨rfl, rfl⟩ := List.cons.inj hbody
      exact .inr (.inl ⟨_, _, _, _, _, rfl, hwrites, rfl, rest⟩)
    | @hex ds _ hlength hwrites | @short ds _ hlength hwrites | @long ds _ hlength hwrites =>
      obtain ⟨-, hbody⟩ := List.cons.inj hbody
      obtain ⟨rfl, rfl⟩ := List.cons.inj hbody
      obtain ⟨c', ds, rfl⟩ := List.exists_cons_of_length_pos (by omega : 0 < ds.length)
      obtain ⟨d, hd⟩ := hwrites.exists_isDigit _ List.mem_cons_self
      exact .inr (.inr ⟨by decide, c', _, d, rfl, hd⟩)

end GoLowering.Quoted

namespace GoLowering.Quoted

open Source

variable {c : Char} {cs : List Char} {bs : List UInt8}

/-- A character that is quoted in a way that the host reads. -/
def IsShown (c : Char) : Prop := c ∈ ['\t', '\r', '\n'] ∨ Visible.isVisible c = true

instance : DecidablePred IsShown := fun _ => inferInstanceAs (Decidable (_ ∨ _))

/-- How a character is written inside of quotes. -/
inductive Form (c : Char) : List Char → Prop
  | letter {l : Char} (hmem : l ∈ ['t', 'r', 'n', '\\', '"']) (h : letter? '"' l = some c)
    (hshown : IsShown c) : Form c ['\\', l]
  | plain (hquote : c ≠ '"') (hbackslash : c ≠ '\\') (hline : c ≠ '\n') (hshown : IsShown c) :
    Form c [c]
  | nul (h : c = '\x00') : Form c ['\\', '0']
  | code (hhidden : ¬IsShown c) (rest : List Char) : Form c ('\\' :: 'u' :: '\x7b' :: rest)

theorem form_escape (c : Char) : Form c (escape c) := by
  unfold escape
  split
  · exact .nul rfl
  · exact .letter (by decide) rfl (by decide)
  · exact .letter (by decide) rfl (by decide)
  · exact .letter (by decide) rfl (by decide)
  · exact .letter (by decide) rfl (.inr (by decide +kernel))
  · exact .letter (by decide) rfl (.inr (by decide +kernel))
  · rename_i hnul htab hreturn hline hbackslash hquote
    split
    · rename_i hvisible
      exact .plain hquote hbackslash hline (.inr hvisible)
    · rename_i hvisible
      refine .code (fun hshown => ?_) _
      simp only [IsShown, List.mem_cons, List.not_mem_nil, or_false] at hshown
      rcases hshown with (h | h | h) | h
      · exact htab h
      · exact hreturn h
      · exact hline h
      · exact hvisible h

/-! ## What is read back -/

/-- Characters that are shown are read as themselves. -/
theorem reads_of_isShown (h : ∀ c ∈ cs, IsShown c) :
    Reads '"' (cs.flatMap escape) (bytes cs) := by
  induction cs with
  | nil => exact .nil
  | cons c cs ih =>
    have hrest := ih (fun c hin => h c (List.mem_cons_of_mem _ hin))
    have hshown := h c List.mem_cons_self
    have hspells : Spells '"' (escape c) (.char c) := by
      have hform := form_escape c
      generalize escape c = written at hform
      cases hform with
      | letter _ hletter _ => exact .letter hletter
      | plain hquote hbackslash hline _ => exact .plain hquote hbackslash hline
      | nul hnul => exact absurd (hnul ▸ hshown) (by decide)
      | code hhidden _ => exact absurd hshown hhidden
    rw [List.flatMap_cons, bytes_cons]
    exact .cons hspells hrest

/-- What does not begin with a backslash is written as it is. -/
theorem exists_cons_of_flatMap {rest : List Char} (h : cs.flatMap escape = c :: rest)
    (hc : c ≠ '\\') : ∃ more, cs = c :: more ∧ more.flatMap escape = rest := by
  cases cs with
  | nil => cases h
  | cons d cs =>
    rw [List.flatMap_cons] at h
    have hform := form_escape d
    generalize escape d = written at hform h
    cases hform with
    | plain =>
      obtain ⟨rfl, rfl⟩ := List.cons.inj h
      exact ⟨cs, rfl, rfl⟩
    | letter | nul | code => exact absurd (List.cons.inj h).1.symm hc

theorem toNat_of_isOctal {d : Nat} (h : Literal.IsDigit 8 c d) : 48 ≤ c.toNat ∧ c.toNat ≤ 55 := by
  have hcode := (Literal.isDigit_iff (by decide)).mp h
  omega

theorem letter_notOctal :
    ∀ l ∈ ['t', 'r', 'n', '\\', '"', 'u'], ¬(48 ≤ l.toNat ∧ l.toNat ≤ 55) := by simp

/-- A zero behind a backslash takes two digits that were quoted behind it, and stands for one byte
with them. -/
theorem exists_of_nul (h : Reads '"' ('\\' :: '0' :: cs.flatMap escape) bs) :
    ∃ c c' rest b more, cs = c :: c' :: rest ∧ bs = b :: more ∧
      Reads '"' (rest.flatMap escape) more := by
  rcases h.of_backslash with ⟨d, more, hletter, -⟩ | ⟨c, c', tail, n, more, hcs, hwrites, rfl, hrest⟩ |
      ⟨hmark, -⟩
  · cases hletter
  · have hbackslash {e : Char} (hin : e ∈ ['0', c, c']) : e ≠ '\\' := by
      rintro rfl
      obtain ⟨d, hd⟩ := hwrites.exists_isDigit _ hin
      exact letter_notOctal _ (by decide) (toNat_of_isOctal hd)
    obtain ⟨cs, rfl, htail⟩ := exists_cons_of_flatMap hcs (hbackslash (by simp))
    obtain ⟨rest, rfl, rfl⟩ := exists_cons_of_flatMap htail (hbackslash (by simp))
    exact ⟨c, c', rest, _, more, rfl, rfl, hrest⟩
  · exact absurd hmark (by decide)

theorem Reads.of_letter {l : Char} (h : Reads '"' ('\\' :: l :: cs) bs)
    (hmem : l ∈ ['t', 'r', 'n', '\\', '"']) (hletter : letter? '"' l = some c) :
    ∃ more, bs = String.utf8EncodeChar c ++ more ∧ Reads '"' cs more := by
  rcases h.of_backslash with ⟨d, more, hd, rfl, hmore⟩ | ⟨_, _, _, _, _, _, hwrites, -⟩ | ⟨hmark, -⟩
  · obtain rfl := Option.some.inj (hd.symm.trans hletter)
    exact ⟨more, rfl, hmore⟩
  · obtain ⟨d, hd⟩ := hwrites.exists_isDigit _ List.mem_cons_self
    exact absurd (toNat_of_isOctal hd) (letter_notOctal l (List.mem_append_left ['u'] hmem))
  · have hother : ∀ l ∈ ['t', 'r', 'n', '\\', '"'], l ∉ ['x', 'u', 'U'] := by simp
    exact absurd hmark (hother l hmem)

/-- A code between braces is no escape. -/
theorem not_reads_code : ¬Reads '"' ('\\' :: 'u' :: '\x7b' :: cs) bs := by
  intro h
  rcases h.of_backslash with ⟨d, more, hletter, -⟩ | ⟨_, _, _, _, _, _, hwrites, -⟩ |
      ⟨-, c', rest, d, hcs, hd⟩
  · cases hletter
  · obtain ⟨d, hd⟩ := hwrites.exists_isDigit _ List.mem_cons_self
    exact letter_notOctal _ (by decide) (toNat_of_isOctal hd)
  · obtain ⟨rfl, -⟩ := List.cons.inj hcs
    exact absurd (hd.isAlphanum (by decide)) (by decide)

/-- No more is read than was quoted, and as much only if all characters are shown: two digits behind a
zero are lost, and no other code is read. -/
theorem length_le_of_reads (h : Reads '"' (cs.flatMap escape) bs) :
    bs.length ≤ byteLength cs ∧ (byteLength cs ≤ bs.length → ∀ c ∈ cs, IsShown c) := by
  induction hn : cs.length using Nat.strongRecOn generalizing cs bs with
  | ind n ih =>
    cases cs with
    | nil =>
      obtain rfl : bs = [] := Reads.eq_nil h
      exact ⟨Nat.le_refl _, fun _ c hin => absurd hin List.not_mem_nil⟩
    | cons c cs =>
      rw [List.flatMap_cons] at h
      -- A character that is read as itself leaves what was quoted behind it.
      have hself {more : List UInt8} (hshown : IsShown c)
          (hmore : Reads '"' (cs.flatMap escape) more) :
          (String.utf8EncodeChar c ++ more).length ≤ byteLength (c :: cs) ∧
            (byteLength (c :: cs) ≤ (String.utf8EncodeChar c ++ more).length →
              ∀ d ∈ c :: cs, IsShown d) := by
        obtain ⟨hle, hall⟩ := ih cs.length (by rw [← hn]; exact Nat.lt_succ_self _) hmore rfl
        rw [List.length_append, String.length_utf8EncodeChar, byteLength_cons]
        exact ⟨by omega, fun hge => List.forall_mem_cons.mpr ⟨hshown, hall (by omega)⟩⟩
      have hform := form_escape c
      generalize escape c = written at hform h
      cases hform with
      | letter hmem hletter hshown =>
        obtain ⟨more, rfl, hmore⟩ := Reads.of_letter h hmem hletter
        exact hself hshown hmore
      | plain hquote hbackslash hline hshown =>
        obtain ⟨more, rfl, hmore⟩ := Reads.of_plain h hbackslash
        exact hself hshown hmore
      | nul hnul =>
        obtain ⟨d, d', rest, b, more, rfl, rfl, hrest⟩ := exists_of_nul h
        have hshorter : rest.length < n := by rw [← hn]; simp only [List.length_cons]; omega
        obtain ⟨hle, -⟩ := ih rest.length hshorter hrest rfl
        have hc := c.utf8Size_pos
        have hd := d.utf8Size_pos
        have hd' := d'.utf8Size_pos
        simp only [byteLength_cons, List.length_cons]
        exact ⟨by omega, fun hge => absurd hge (by omega)⟩
      | code hhidden rest => exact absurd h not_reads_code

theorem denotes_quote_iff_reads (text : String) (bs : List UInt8) :
    Denotes (quote text) bs ↔ Reads '"' (text.toList.flatMap escape) bs := by
  have hlist : (quote text).toList = '"' :: text.toList.flatMap escape ++ ['"'] :=
    String.toList_ofList
  constructor
  · rintro ⟨body, hbody, hreads⟩
    rw [hlist] at hbody
    rwa [List.append_cancel_right (List.cons.inj hbody).2]
  · exact fun h => ⟨_, hlist, h⟩

/-- A quoted text stands for itself just in case its characters are shown. -/
theorem denotes_quote_iff (text : String) :
    Denotes (quote text) (bytes text.toList) ↔ ∀ c ∈ text.toList, IsShown c := by
  rw [denotes_quote_iff_reads]
  constructor
  · intro h
    exact (length_le_of_reads h).2 (length_bytes text.toList).ge
  · exact reads_of_isShown

end GoLowering.Quoted

namespace GoLowering.Lowering

open Quoted Source Surface

/-- The text of a string literal is put into the host tree as it is. -/
theorem lowerLiteral_string (text : String) (span : Span) (c : Context) (s : State) :
    ∃ operand s', lowerLiteral .string text span c s = (.ok operand, s') ∧
      s'.tree.kind operand.id = .literal text := by
  refine ⟨_, _, rfl, ?_⟩
  exact HostTree.kind_add _ _ _

theorem expr?_string (d : Draft) (text : String) :
    (d.string text).2.finish.expr? (d.string text).1 = some (.literal .string (quote text)) := by
  simp [Draft.string, Draft.add, Draft.finish, SourceUnit.expr?, SourceUnit.get?]

/-- A drafted string literal comes into the output as the quoted text, which is a literal of the host
that stands for the text just in case all its characters show by themselves or are tabs, carriage
returns or newlines. -/
theorem string_literals_iff (d : Draft) (text : String) :
    (d.string text).2.finish.expr? (d.string text).1 = some (.literal .string (quote text)) ∧
      (∀ span c s, ∃ operand s', lowerLiteral .string (quote text) span c s = (.ok operand, s') ∧
        ∀ file below header indent,
          Printer.inlineText file below header indent (s'.tree.kind operand.id) = quote text) ∧
      (Denotes (quote text) (bytes text.toList) ↔ ∀ c ∈ text.toList, IsShown c) := by
  refine ⟨expr?_string d text, fun span c s => ?_, denotes_quote_iff text⟩
  obtain ⟨operand, s', hrun, hkind⟩ := lowerLiteral_string (quote text) span c s
  exact ⟨operand, s', hrun, fun file below header indent => by rw [hkind]; rfl⟩

/-- Escapes that the host reads, and a character of several bytes. -/
theorem string_literals_iff_shown :
    (∀ c ∈ "a\t\"\\n\nπ".toList, IsShown c) ∧
      Denotes (quote "a\t\"\\n\nπ") (bytes "a\t\"\\n\nπ".toList) := by
  have hall : ("a\t\"\\n\nπ".toList.all fun c => decide (IsShown c)) = true := by decide +kernel
  have hshown : ∀ c ∈ "a\t\"\\n\nπ".toList, IsShown c := by simpa using hall
  exact ⟨hshown, (string_literals_iff default "a\t\"\\n\nπ").2.2.mpr hshown⟩

/-- A zero character with the digits `12` behind it is read as a newline, and a control character not
at all. -/
theorem not_denotes_quote :
    (¬∀ text : String, Denotes (quote text) (bytes text.toList)) ∧
      Denotes (quote "\x0012") [10] ∧ ∀ bs, ¬Denotes (quote "\x7f") bs := by
  refine ⟨fun h => ?_, ?_, fun bs h => ?_⟩
  · have hshown := (denotes_quote_iff "\x0012").mp (h _) '\x00' (by decide)
    exact absurd hshown (by decide)
  · have hwritten : "\x0012".toList.flatMap escape = ['\\', '0', '1', '2'] := by decide +kernel
    have hwrites : Literal.Writes 8 ['0', '1', '2'] 10 :=
      (Literal.digitsValue?_eq_some_iff (by decide)).mp (by decide)
    rw [denotes_quote_iff_reads, hwritten]
    exact .cons (.octal rfl hwrites (by decide)) .nil
  · have hwritten : "\x7f".toList.flatMap escape = ['\\', 'u', '\x7b', '7', 'f', '\x7d'] := by
      decide +kernel
    rw [denotes_quote_iff_reads, hwritten] at h
    exact not_reads_code h

end GoLowering.Lowering
