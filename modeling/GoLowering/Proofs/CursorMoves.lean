import GoLowering.Proofs.LinePositions
import GoLowering.Surface.Moves

/-!
# Moves of a cursor

Wherever the cursor of a draft is moved, it covers a part of the text, from one character boundary
to another (`Draft.isPlacedIn_moveAll`). A search for a snippet starts where the cursor does, so that
the text can be cut there, and comes to the first occurrence from there on or else to the first one
of all (`Draft.seek_of_occurs`). A move to a line covers the line without its indentation and without
the carriage returns in front of the line break (`Draft.line_of_isLine`).

In a text of less than 4 GiB no position leaves a word of 32 bits. The moves in words are then the
moves themselves, and none of them ends the program (`Draft.moveAllInWords_eq`).
`Draft.cursor_follows_moves` puts this together for the draft of a new file.
-/

namespace GoLowering

namespace Source

variable {cs snippet before rest : List Char} {pos : Nat}

/-! ## Places in a text -/

/-- A byte position at one of the ends of a text or between two of its characters. -/
def IsBoundary (cs : List Char) (pos : Nat) : Prop :=
  ∃ before rest, cs = before ++ rest ∧ byteLength before = pos

/-- A snippet stands in a text at a byte position. -/
def OccursAt (cs snippet : List Char) (pos : Nat) : Prop :=
  ∃ before rest, cs = before ++ snippet ++ rest ∧ byteLength before = pos

theorem IsBoundary.le (h : IsBoundary cs pos) : pos ≤ byteLength cs := by
  obtain ⟨before, rest, rfl, rfl⟩ := h
  rw [byteLength_append]
  exact Nat.le_add_right _ _

/-- The first characters of a part of the text that satisfy a test are cut off whole. -/
theorem isBoundary_takeWhile (p : Char → Bool) (before text rest : List Char) :
    IsBoundary (before ++ text ++ rest) (byteLength before + byteLength (text.takeWhile p)) := by
  refine ⟨before ++ text.takeWhile p, text.dropWhile p ++ rest, ?_, byteLength_append _ _⟩
  rw [← List.append_assoc, List.append_assoc before (text.takeWhile p),
    List.takeWhile_append_dropWhile]

theorem occursAt_nil : OccursAt [] snippet pos ↔ snippet = [] ∧ pos = 0 := by
  constructor
  · rintro ⟨before, rest, h, rfl⟩
    have hnil := List.append_eq_nil_iff.mp (List.append_eq_nil_iff.mp h.symm).1
    exact ⟨hnil.2, by rw [hnil.1, byteLength_nil]⟩
  · rintro ⟨rfl, rfl⟩
    exact ⟨[], [], rfl, rfl⟩

/-- A snippet stands at the first character or in the rest. -/
theorem occursAt_cons {c : Char} :
    OccursAt (c :: cs) snippet pos ↔
      (snippet <+: c :: cs ∧ pos = 0) ∨ ∃ n, OccursAt cs snippet n ∧ pos = c.utf8Size + n := by
  constructor
  · rintro ⟨before, rest, h, rfl⟩
    cases before with
    | nil => exact .inl ⟨⟨rest, h.symm⟩, rfl⟩
    | cons b before =>
      simp only [List.cons_append, List.cons.injEq] at h
      obtain ⟨rfl, h⟩ := h
      exact .inr ⟨_, ⟨before, rest, h, rfl⟩, rfl⟩
  · rintro (⟨⟨rest, h⟩, rfl⟩ | ⟨_, ⟨before, rest, rfl, rfl⟩, rfl⟩)
    · exact ⟨[], rest, h.symm, rfl⟩
    · exact ⟨c :: before, rest, rfl, rfl⟩

theorem occursAt_append (before : List Char) :
    OccursAt (before ++ rest) snippet (byteLength before + pos) ↔ OccursAt rest snippet pos := by
  induction before with
  | nil => rw [List.nil_append, byteLength_nil, Nat.zero_add]
  | cons c before ih =>
    have hpos := c.utf8Size_pos
    rw [List.cons_append, byteLength_cons, Nat.add_assoc, occursAt_cons, ← ih]
    constructor
    · rintro (⟨-, hzero⟩ | ⟨n, hn, heq⟩)
      · omega
      · exact Nat.add_left_cancel heq ▸ hn
    · exact fun h => .inr ⟨_, h, rfl⟩

theorem isInfix_iff_occursAt : snippet <:+: cs ↔ ∃ pos, OccursAt cs snippet pos :=
  ⟨fun ⟨before, rest, h⟩ => ⟨_, before, rest, h.symm, rfl⟩,
    fun ⟨_, before, rest, h, _⟩ => ⟨before, rest, h.symm⟩⟩

/-- The place that a search for a snippet from a position comes to. -/
structure IsSought (cs snippet : List Char) (pos found : Nat) : Prop where
  occurs : OccursAt cs snippet found
  /-- The first one at or behind the position, if there is one. -/
  first_later (h : ∃ later, pos ≤ later ∧ OccursAt cs snippet later) :
    pos ≤ found ∧ ∀ later, pos ≤ later → OccursAt cs snippet later → found ≤ later
  /-- The first one of the text otherwise. -/
  first_of_all (h : ¬∃ later, pos ≤ later ∧ OccursAt cs snippet later) :
    ∀ other, OccursAt cs snippet other → found ≤ other

/-! ## Lines of a text -/

/-- A line, its number counted from one, and the text before it and behind it. -/
structure IsLine (cs : List Char) (number : Nat) (before line rest : List Char) : Prop where
  whole : cs = before ++ line ++ rest
  number_eq : before.count '\n' + 1 = number
  begins : before = [] ∨ ∃ earlier, before = earlier ++ ['\n']
  unbroken : '\n' ∉ line
  ends : rest = [] ∨ ∃ later, rest = '\n' :: later

theorem IsLine.partedAt {number : Nat} {line : List Char}
    (h : IsLine cs number before line rest) :
    PartedAt cs (byteLength (before ++ line)) before line rest where
  whole := h.whole
  ended := h.begins
  unbroken := h.unbroken
  reached := Nat.le_refl _
  within := Nat.lt_add_of_pos_right (firstSize_pos rest)

/-- The line that a position lies in goes on to the next newline. -/
theorem PartedAt.isLine {line : List Char} (h : PartedAt cs pos before line rest) :
    IsLine cs (before.count '\n' + 1) before (line ++ rest.takeWhile (· != '\n'))
      (rest.dropWhile (· != '\n')) where
  whole := by
    rw [h.whole, List.append_assoc before, List.append_assoc, List.append_assoc,
      List.takeWhile_append_dropWhile]
  number_eq := rfl
  begins := h.ended
  unbroken hmem := by
    rcases List.mem_append.mp hmem with hline | hrest
    · exact h.unbroken hline
    · simpa using List.mem_takeWhile_imp hrest
  ends := by
    cases hrest : rest.dropWhile (· != '\n') with
    | nil => exact .inl rfl
    | cons c later =>
      have hc := List.head?_dropWhile_not (· != '\n') rest
      rw [hrest] at hc
      simp only [List.head?_cons, bne_eq_false_iff_eq] at hc
      exact .inr ⟨later, by rw [hc]⟩

/-- A line without the newline ends in front of its carriage returns. -/
theorem IsLine.trimEnd_eq {number : Nat} {line : List Char}
    (h : IsLine cs number before line rest) :
    trimEnd SourceFile.isLineBreak (line ++ restOfLine rest) =
      line.rdropWhile SourceFile.isLineBreak := by
  change (line ++ restOfLine rest).rdropWhile SourceFile.isLineBreak = _
  rcases h.ends with rfl | ⟨later, rfl⟩
  · rw [restOfLine, List.append_nil]
  · rw [restOfLine, if_pos (beq_self_eq_true _), List.rdropWhile_concat_pos _ _ _ rfl]

theorem IsLine.exists_behind {number : Nat} {line : List Char}
    (h : IsLine cs number before line rest) (p : Char → Bool) :
    ∃ behind, cs = before ++ line.rdropWhile p ++ behind := by
  refine ⟨line.rtakeWhile p ++ rest, ?_⟩
  rw [h.whole, ← List.append_assoc, List.append_assoc before (line.rdropWhile p),
    List.rdropWhile_append_rtakeWhile]

/-! ## Cuts -/

theorem cut_append (before middle rest : List Char) :
    cut (before ++ middle ++ rest) (byteLength before) (byteLength (before ++ middle)) =
      .ok middle := by
  rw [cut, cut?_append]

end Source

namespace SourceFile

open Source

variable {f : SourceFile} {number : Nat} {before line rest : List Char}

variable (hsize : f.text.utf8ByteSize < UInt32.size)

section

include hsize

/-- There is one line more than there are newlines. -/
theorem exists_isLine (hpos : 0 < number) (hle : number ≤ f.chars.count '\n' + 1) :
    ∃ before line rest, IsLine f.chars number before line rest := by
  have hlength := length_lineStarts_eq f
  have hstart : f.lineStarts[number - 1]? = some f.lineStarts[number - 1] :=
    List.getElem?_eq_getElem (by omega)
  have hwithin := start_le_size hsize hstart
  rw [← byteLength_chars] at hwithin
  obtain ⟨lines, line, rest, h⟩ := PartedAt.exists_of_le hwithin
  have hnumber : lines.count '\n' + 1 = number := by
    rw [← lineIndex_eq hsize h, lineIndex_start hsize hstart, Nat.sub_add_cancel hpos]
  exact ⟨_, _, _, hnumber ▸ h.isLine⟩

theorem lineIndex_of_isLine (h : IsLine f.chars number before line rest) :
    f.lineIndex (byteLength (before ++ line)) + 1 = number := by
  rw [lineIndex_eq hsize h.partedAt, h.number_eq]

theorem line?_of_isLine (h : IsLine f.chars number before line rest) :
    f.line? number = some (byteLength before, line.rdropWhile isLineBreak) := by
  have hline := line?_eq hsize h.partedAt
  rwa [lineIndex_of_isLine hsize h, h.trimEnd_eq] at hline

theorem exists_isLine_iff :
    (∃ before line rest, IsLine f.chars number before line rest) ↔
      0 < number ∧ number ≤ f.lineStarts.length := by
  rw [length_lineStarts_eq]
  constructor
  · rintro ⟨before, line, rest, h⟩
    rw [← h.number_eq, h.whole, List.count_append, List.count_append]
    omega
  · exact fun hin => exists_isLine hsize hin.1 hin.2

theorem line?_of_not_isLine (h : ¬∃ before line rest, IsLine f.chars number before line rest) :
    f.line? number = none := by
  rwa [exists_isLine_iff hsize, ← isSome_lineRange?_iff hsize, Bool.not_eq_true,
    Option.isSome_eq_false_iff, Option.isNone_iff_eq_none, lineRange?, Option.map_eq_none_iff] at h

/-! ## Lines in words -/

theorem toNat_of_isBoundary {pos : Nat} (h : IsBoundary f.chars pos) :
    (UInt32.ofNat pos).toNat = pos :=
  UInt32.toNat_ofNat_of_lt' ((h.le.trans_eq f.byteLength_chars).trans_lt hsize)

theorem nextInWords (n : Nat) :
    (f.startsInWords[n]?.map UInt32.toNat).getD f.text.utf8ByteSize = f.lineEnd n := by
  rw [startsInWords, List.getElem?_map, lineEnd]
  cases hstart : f.lineStarts[n]? with
  | none => rfl
  | some start => exact UInt32.toNat_ofNat_of_lt' ((start_le_size hsize hstart).trans_lt hsize)

theorem lineRangeInWords_of_isLine (h : IsLine f.chars number before line rest) :
    f.lineRangeInWords number =
      .ok (some (UInt32.ofNat (byteLength before),
        UInt32.ofNat (byteLength (before ++ line.rdropWhile isLineBreak)))) := by
  have hstart := start_eq hsize h.partedAt
  have hcut := cut?_line hsize h.partedAt
  obtain rfl := h.number_eq
  rw [Nat.add_right_cancel (lineIndex_of_isLine hsize h)] at hstart hcut
  have hword : (UInt32.ofNat (byteLength before)).toNat = byteLength before :=
    toNat_of_isBoundary hsize ⟨before, line ++ rest, by rw [h.whole, List.append_assoc], rfl⟩
  have hfound : f.startsInWords[before.count '\n']? = some (UInt32.ofNat (byteLength before)) := by
    rw [startsInWords, List.getElem?_map, hstart, Option.map_some]
  have hcut' : cut f.chars (byteLength before) (f.lineEnd (before.count '\n' + 1)) =
      .ok (line ++ restOfLine rest) := by rw [cut, hcut]
  rw [byteLength_append, UInt32.ofNat_add, ← h.trimEnd_eq]
  simp only [lineRangeInWords, hfound, nextInWords hsize, hword, hcut']
  rfl

theorem lineRangeInWords_of_not_isLine
    (h : ¬∃ before line rest, IsLine f.chars number before line rest) :
    f.lineRangeInWords number = .ok none := by
  cases number with
  | zero => rfl
  | succ index =>
    have hnone : f.startsInWords[index]? = none := by
      rw [exists_isLine_iff hsize] at h
      rw [startsInWords, List.getElem?_map, Option.map_eq_none_iff, List.getElem?_eq_none_iff]
      omega
    simp only [lineRangeInWords, hnone]

end

end SourceFile

/-- A span covers a part of a text, whole characters of it. -/
structure Span.IsPlacedIn (span : Span) (cs : List Char) : Prop where
  ordered : span.start ≤ span.stop
  within : span.stop ≤ Source.byteLength cs
  start_boundary : Source.IsBoundary cs span.start
  stop_boundary : Source.IsBoundary cs span.stop

namespace Surface

open Source

variable {cs snippet before rest : List Char} {found : Nat}

theorem isPlacedIn_append (before middle rest : List Char) (file : FileId) :
    Span.IsPlacedIn ⟨byteLength before, byteLength (before ++ middle), file⟩
      (before ++ middle ++ rest) where
  ordered := by simp
  within := by simp
  start_boundary := ⟨before, middle ++ rest, List.append_assoc .., rfl⟩
  stop_boundary := ⟨before ++ middle, rest, rfl, rfl⟩

/-! ## Searches -/

theorem find?_eq_some (h : find? snippet cs = some found) :
    OccursAt cs snippet found ∧ ∀ other, OccursAt cs snippet other → found ≤ other := by
  fun_induction find? snippet cs generalizing found with
  | case1 hempty =>
    cases h
    exact ⟨occursAt_nil.mpr ⟨List.isEmpty_iff.mp hempty, rfl⟩, fun _ _ => Nat.zero_le _⟩
  | case2 => cases h
  | case3 c cs hprefix =>
    cases h
    exact ⟨occursAt_cons.mpr (.inl ⟨List.isPrefixOf_iff_prefix.mp hprefix, rfl⟩),
      fun _ _ => Nat.zero_le _⟩
  | case4 c cs hprefix ih =>
    obtain ⟨n, hn, rfl⟩ := Option.map_eq_some_iff.mp h
    obtain ⟨hoccurs, hfirst⟩ := ih hn
    refine ⟨occursAt_cons.mpr (.inr ⟨n, hoccurs, rfl⟩), fun other hother => ?_⟩
    rcases occursAt_cons.mp hother with ⟨hstart, -⟩ | ⟨m, hm, rfl⟩
    · exact absurd (List.isPrefixOf_iff_prefix.mpr hstart) hprefix
    · exact Nat.add_le_add_left (hfirst m hm) _

theorem find?_eq_none (h : find? snippet cs = none) (pos : Nat) : ¬OccursAt cs snippet pos := by
  fun_induction find? snippet cs generalizing pos with
  | case1 => cases h
  | case2 hempty => exact fun hoccurs => hempty (List.isEmpty_iff.mpr (occursAt_nil.mp hoccurs).1)
  | case3 => cases h
  | case4 c cs hprefix ih =>
    intro hoccurs
    rcases occursAt_cons.mp hoccurs with ⟨hstart, -⟩ | ⟨m, hm, rfl⟩
    · exact hprefix (List.isPrefixOf_iff_prefix.mpr hstart)
    · exact ih (Option.map_eq_none_iff.mp h) m hm

/-! ## What is left of a line -/

/-- A line without white space at its front and without carriage returns at its end. -/
structure IsTrimmed (line indent shown returns : List Char) : Prop where
  whole : line = indent ++ shown ++ returns
  indent_blank : ∀ c ∈ indent, isBlank c = true
  shown_begins : ∀ c, shown.head? = some c → isBlank c = false
  returns_eq : ∀ c ∈ returns, c = '\r'
  /-- No carriage return is left, also where only white space is in front of it. -/
  shown_ends : (indent ++ shown).getLast? ≠ some '\r'

theorem isTrimmed {line : List Char} (h : '\n' ∉ line) :
    IsTrimmed line ((line.rdropWhile SourceFile.isLineBreak).takeWhile isBlank)
      ((line.rdropWhile SourceFile.isLineBreak).dropWhile isBlank)
      (line.rtakeWhile SourceFile.isLineBreak) where
  whole := by rw [List.takeWhile_append_dropWhile, List.rdropWhile_append_rtakeWhile]
  indent_blank c hc := List.mem_takeWhile_imp hc
  shown_begins c hc := by
    have hnot := List.head?_dropWhile_not isBlank (line.rdropWhile SourceFile.isLineBreak)
    rw [hc] at hnot
    simpa using hnot
  returns_eq c hc := by
    have hline : c ∈ line := (List.rtakeWhile_suffix _ line).subset hc
    have hbreak : c = '\r' ∨ c = '\n' := by
      simpa [SourceFile.isLineBreak] using List.mem_rtakeWhile_imp hc
    exact hbreak.resolve_right (fun hn => h (hn ▸ hline))
  shown_ends hlast := by
    rw [List.takeWhile_append_dropWhile] at hlast
    have hne : line.rdropWhile SourceFile.isLineBreak ≠ [] := by
      intro hnil
      rw [hnil] at hlast
      cases hlast
    have hnot := List.rdropWhile_last_not SourceFile.isLineBreak line hne
    rw [List.getLast?_eq_some_getLast hne] at hlast
    exact hnot (Option.some.inj hlast ▸ rfl)

/-- A cursor covers a line but for white space at its front and carriage returns at its end. -/
def CoversLine (cs : List Char) (number : Nat) (cursor : Span) : Prop :=
  ∃ before line rest indent shown returns, IsLine cs number before line rest ∧
    IsTrimmed line indent shown returns ∧ cursor.start = byteLength (before ++ indent) ∧
    cursor.stop = byteLength (before ++ indent ++ shown)

namespace Draft

variable {d : Draft} (hsize : d.source.text.utf8ByteSize < UInt32.size)

theorem findFrom?_append (hwhole : d.source.chars = before ++ rest) (snippet : List Char) :
    d.findFrom? (byteLength before) snippet =
      ((find? snippet rest).map (byteLength before + ·)).or (find? snippet d.source.chars) := by
  rw [findFrom?, hwhole, splitBytes?_byteLength]
  simp only [Option.bind_eq_bind, Option.bind_some]
  cases find? snippet rest <;> rfl

theorem isSought_of_findFrom? (hwhole : d.source.chars = before ++ rest)
    (h : d.findFrom? (byteLength before) snippet = some found) :
    IsSought d.source.chars snippet (byteLength before) found := by
  rw [findFrom?_append hwhole] at h
  cases hlater : find? snippet rest with
  | some n =>
    -- The first one in the rest is the first one at or behind the position.
    rw [hlater, Option.map_some, Option.some_or] at h
    obtain rfl := Option.some.inj h
    obtain ⟨hoccurs, hfirst⟩ := find?_eq_some hlater
    have hfound : OccursAt d.source.chars snippet (byteLength before + n) :=
      hwhole ▸ (occursAt_append before).mpr hoccurs
    refine ⟨hfound, fun _ => ⟨Nat.le_add_right _ _, fun later hle hother => ?_⟩,
      fun hnone => absurd ⟨_, Nat.le_add_right _ _, hfound⟩ hnone⟩
    obtain ⟨k, rfl⟩ := Nat.exists_eq_add_of_le hle
    exact Nat.add_le_add_left (hfirst k ((occursAt_append before).mp (hwhole ▸ hother))) _
  | none =>
    -- There is none at or behind the position, and the search starts over.
    rw [hlater, Option.map_none, Option.none_or] at h
    obtain ⟨hoccurs, hfirst⟩ := find?_eq_some h
    refine ⟨hoccurs, fun hsome => ?_, fun _ => hfirst⟩
    obtain ⟨later, hle, hother⟩ := hsome
    obtain ⟨k, rfl⟩ := Nat.exists_eq_add_of_le hle
    exact absurd ((occursAt_append before).mp (hwhole ▸ hother)) (find?_eq_none hlater k)

theorem not_occursAt_of_findFrom? {pos : Nat} (h : d.findFrom? pos snippet = none) (other : Nat) :
    ¬OccursAt d.source.chars snippet other :=
  find?_eq_none (Option.or_eq_none_iff.mp h).2 other

/-- A search that can start at the cursor moves it to the place it comes to. -/
theorem seek_of_occurs {snippet : String} (hstart : IsBoundary d.source.chars d.cursor.start)
    (hoccurs : snippet.toList <:+: d.source.chars) :
    ∃ found, IsSought d.source.chars snippet.toList d.cursor.start found ∧
      d.seek snippet = { d with cursor := ⟨found, found + snippet.utf8ByteSize, d.file⟩ } := by
  obtain ⟨before, rest, hwhole, hbefore⟩ := hstart
  cases hfound : d.findFrom? d.cursor.start snippet.toList with
  | some found =>
    refine ⟨found, hbefore ▸ isSought_of_findFrom? hwhole (hbefore ▸ hfound), ?_⟩
    simp only [seek, hfound]
  | none =>
    obtain ⟨pos, hpos⟩ := isInfix_iff_occursAt.mp hoccurs
    exact absurd hpos (not_occursAt_of_findFrom? hfound pos)

/-- A snippet that is not in the text leaves the cursor where it is. -/
theorem seek_of_not_occurs {snippet : String} (hstart : IsBoundary d.source.chars d.cursor.start)
    (hnone : ¬snippet.toList <:+: d.source.chars) : d.seek snippet = d := by
  obtain ⟨before, rest, hwhole, hbefore⟩ := hstart
  cases hfound : d.findFrom? d.cursor.start snippet.toList with
  | some found =>
    have hsought := isSought_of_findFrom? hwhole (hbefore ▸ hfound)
    exact absurd (isInfix_iff_occursAt.mpr ⟨found, hsought.occurs⟩) hnone
  | none => simp only [seek, hfound]

include hsize in
/-- A line without its indentation and without the carriage returns at its end is covered. -/
theorem line_of_isLine {number : Nat} {line : List Char}
    (h : IsLine d.source.chars number before line rest) :
    ∃ indent shown returns, IsTrimmed line indent shown returns ∧
      d.line number =
        { d with cursor :=
          ⟨byteLength (before ++ indent), byteLength (before ++ indent ++ shown), d.file⟩ } := by
  refine ⟨_, _, _, isTrimmed h.unbroken, ?_⟩
  simp only [Draft.line, SourceFile.line?_of_isLine hsize h, List.append_assoc,
    List.takeWhile_append_dropWhile, byteLength_append]

include hsize in
/-- Without such a line the cursor stays where it is. -/
theorem line_of_not_isLine {number : Nat}
    (h : ¬∃ before line rest, IsLine d.source.chars number before line rest) :
    d.line number = d := by
  simp only [Draft.line, SourceFile.line?_of_not_isLine hsize h]

/-! ## Sequences of moves -/

@[simp] theorem source_move (d : Draft) (m : Move) : (d.move m).source = d.source := by
  cases m <;> simp only [move, Draft.line, seek] <;> split <;> rfl

@[simp] theorem source_moveAll (d : Draft) (moves : List Move) :
    (d.moveAll moves).source = d.source := by
  induction moves generalizing d with
  | nil => rfl
  | cons m moves ih => exact (ih (d.move m)).trans (source_move d m)

section

include hsize

theorem isPlacedIn_move (h : d.cursor.IsPlacedIn d.source.chars) (m : Move) :
    (d.move m).cursor.IsPlacedIn d.source.chars := by
  cases m with
  | line number =>
    by_cases hline : ∃ before line rest, IsLine d.source.chars number before line rest
    · obtain ⟨before, line, rest, hline⟩ := hline
      obtain ⟨indent, shown, returns, htrimmed, hmoved⟩ := line_of_isLine hsize hline
      have hwhole : d.source.chars = before ++ indent ++ shown ++ (returns ++ rest) := by
        rw [hline.whole, htrimmed.whole]
        simp only [List.append_assoc]
      rw [move, hmoved, hwhole]
      exact isPlacedIn_append (before ++ indent) shown (returns ++ rest) d.file
    · rwa [move, line_of_not_isLine hsize hline]
  | snippet text =>
    by_cases hoccurs : text.toList <:+: d.source.chars
    · obtain ⟨found, hsought, hmoved⟩ := seek_of_occurs h.start_boundary hoccurs
      obtain ⟨before, rest, hwhole, rfl⟩ := hsought.occurs
      rw [move, hmoved, hwhole, ← byteLength_toList, ← byteLength_append]
      exact isPlacedIn_append before text.toList rest d.file
    · rwa [move, seek_of_not_occurs h.start_boundary hoccurs]

theorem isPlacedIn_moveAll (h : d.cursor.IsPlacedIn d.source.chars) (moves : List Move) :
    (d.moveAll moves).cursor.IsPlacedIn d.source.chars := by
  induction moves generalizing d with
  | nil => exact h
  | cons m moves ih =>
    have hrest := ih ((source_move d m).symm ▸ hsize)
      ((source_move d m).symm ▸ isPlacedIn_move hsize h m)
    rwa [source_move] at hrest

/-! ## Moves in words -/

theorem lineInWords_eq (number : Nat) : d.lineInWords number = .ok (d.line number) := by
  by_cases h : ∃ before line rest, IsLine d.source.chars number before line rest
  · obtain ⟨before, line, rest, h⟩ := h
    have hrange := SourceFile.lineRangeInWords_of_isLine hsize h
    have hline := SourceFile.line?_of_isLine hsize h
    obtain ⟨behind, hwhole⟩ := h.exists_behind SourceFile.isLineBreak
    generalize line.rdropWhile SourceFile.isLineBreak = text at hrange hline hwhole
    have hcut : cut d.source.chars (byteLength before) (byteLength (before ++ text)) = .ok text := by
      rw [hwhole, cut_append]
    have hplaced := isPlacedIn_append before text behind d.file
    have hindent := isBoundary_takeWhile isBlank before text behind
    rw [← hwhole] at hplaced hindent
    simp only [lineInWords, hrange, bind, Except.bind, pure, Except.pure,
      SourceFile.toNat_of_isBoundary hsize hplaced.start_boundary,
      SourceFile.toNat_of_isBoundary hsize hplaced.stop_boundary, hcut, ← UInt32.ofNat_add,
      SourceFile.toNat_of_isBoundary hsize hindent, Draft.line, hline]
    rw [byteLength_append]
  · rw [lineInWords, SourceFile.lineRangeInWords_of_not_isLine hsize h, line_of_not_isLine hsize h]
    rfl

theorem seekInWords_eq (hstart : IsBoundary d.source.chars d.cursor.start) (snippet : String) :
    d.seekInWords snippet = .ok (d.seek snippet) := by
  obtain ⟨before, rest, hwhole, hbefore⟩ := hstart
  have hcut : cut d.source.chars d.cursor.start d.source.text.utf8ByteSize = .ok rest := by
    have hrest := cut_append before rest []
    rwa [List.append_nil, ← hwhole, hbefore, SourceFile.byteLength_chars] at hrest
  have hfind := findFrom?_append hwhole snippet.toList
  rw [hbefore] at hfind
  simp only [seekInWords, hcut, bind, Except.bind, ← hfind, seek]
  cases hfound : d.findFrom? d.cursor.start snippet.toList with
  | none => rfl
  | some found =>
    have hsought := isSought_of_findFrom? hwhole (hbefore ▸ hfound)
    obtain ⟨earlier, later, hparts, rfl⟩ := hsought.occurs
    have hplaced := isPlacedIn_append earlier snippet.toList later d.file
    rw [← hparts, byteLength_append, byteLength_toList] at hplaced
    simp only [← UInt32.ofNat_add, pure, Except.pure,
      SourceFile.toNat_of_isBoundary hsize hplaced.start_boundary,
      SourceFile.toNat_of_isBoundary hsize hplaced.stop_boundary]

theorem moveAllInWords_eq (h : d.cursor.IsPlacedIn d.source.chars) (moves : List Move) :
    d.moveAllInWords moves = .ok (d.moveAll moves) := by
  induction moves generalizing d with
  | nil => rfl
  | cons m moves ih =>
    -- A search cuts the text where the moves before it have left the cursor.
    have hmove : d.moveInWords m = .ok (d.move m) := by
      cases m with
      | line number => exact lineInWords_eq hsize number
      | snippet text => exact seekInWords_eq hsize h.start_boundary text
    have hrest := ih ((source_move d m).symm ▸ hsize)
      ((source_move d m).symm ▸ isPlacedIn_move hsize h m)
    rw [moveAllInWords, List.foldlM_cons, hmove]
    exact hrest

end

/-! ## The draft of a new file -/

theorem text_create {sources : Sources} {path : String} (hnew : sources.lookup? path = none)
    (text package : String) : (create sources path text package).1.source.text = text := by
  simp only [create, Sources.add, hnew, start, Sources.get?, Array.getElem?_push_size,
    Option.getD_some]

theorem isPlacedIn_create (sources : Sources) (path text package : String) (cs : List Char) :
    (create sources path text package).1.cursor.IsPlacedIn cs :=
  isPlacedIn_append [] [] cs _

/-- Where the cursor of a draft of a new file is after any moves, and where one more takes it. -/
theorem cursor_follows_moves {sources : Sources} {path text : String}
    (hnew : sources.lookup? path = none) (hsize : text.utf8ByteSize < UInt32.size)
    (package : String) (moves : List Move) :
    let start := (create sources path text package).1
    let d := start.moveAll moves
    let cs := text.toList
    -- nothing is cut out of range on the way, and no position starts over
    (d.source.text = text ∧ start.moveAllInWords moves = .ok d) ∧
    -- where the cursor is
    (d.cursor.start ≤ d.cursor.stop ∧ d.cursor.stop ≤ text.utf8ByteSize ∧
      IsBoundary cs d.cursor.start ∧ IsBoundary cs d.cursor.stop) ∧
    -- where a snippet takes it
    (∀ snippet : String, snippet.toList <:+: cs →
      let moved := (d.move (.snippet snippet)).cursor
      IsSought cs snippet.toList d.cursor.start moved.start ∧
        moved.stop = moved.start + snippet.utf8ByteSize) ∧
    -- where a line takes it
    ∀ number, 0 < number → number ≤ cs.count '\n' + 1 →
      CoversLine cs number (d.move (.line number)).cursor := by
  intro start d cs
  have htext : start.source.text = text := text_create hnew text package
  have hsource : d.source = start.source := source_moveAll start moves
  have hchars : d.source.chars = cs := by rw [SourceFile.chars, hsource, htext]
  have hstart : start.cursor.IsPlacedIn start.source.chars :=
    isPlacedIn_create sources path text package _
  have hplaced : d.cursor.IsPlacedIn cs :=
    hchars ▸ hsource ▸ isPlacedIn_moveAll (htext.symm ▸ hsize) hstart moves
  have hd : d.source.text.utf8ByteSize < UInt32.size := by rwa [hsource, htext]
  have hwithin := hplaced.within
  rw [byteLength_toList] at hwithin
  refine ⟨⟨hsource ▸ htext, moveAllInWords_eq (htext.symm ▸ hsize) hstart moves⟩,
    ⟨hplaced.ordered, hwithin, hplaced.start_boundary, hplaced.stop_boundary⟩,
    fun snippet hoccurs => ?_, fun number hpos hle => ?_⟩
  · obtain ⟨found, hsought, hmoved⟩ :=
      seek_of_occurs (hchars ▸ hplaced.start_boundary) (hchars ▸ hoccurs)
    rw [move, hmoved]
    exact ⟨hchars ▸ hsought, rfl⟩
  · obtain ⟨before, line, rest, hline⟩ := SourceFile.exists_isLine hd hpos (hchars ▸ hle)
    obtain ⟨indent, shown, returns, htrimmed, hmoved⟩ := line_of_isLine hd hline
    rw [move, hmoved]
    exact ⟨before, line, rest, indent, shown, returns, hchars ▸ hline, htrimmed, rfl, rfl⟩

/-- The second line is indented by a character of three bytes and ends with two carriage returns, the
third one has nothing but white space in it. -/
def mixedText : String := "αβ\r\n\u3000\tγα\r\r\n \t\r\nα"

def mixedMoves : List Move := [.line 2, .snippet "α", .line 3]

/-- The cursor is behind the white space of the third line. -/
def mixedDraft : Draft := (create .empty "a" mixedText "main").1.moveAll mixedMoves

/-- A search from there starts over at the front of the text. -/
theorem cursor_follows_moves_mixed :
    Sources.empty.lookup? "a" = none ∧ mixedText.utf8ByteSize < UInt32.size ∧
      (create .empty "a" mixedText "main").1.moveAllInWords mixedMoves = .ok mixedDraft ∧
      mixedDraft.cursor = ⟨19, 19, ⟨0⟩⟩ ∧
      IsSought mixedText.toList "αβ".toList 19 0 ∧
      CoversLine mixedText.toList 2 ⟨10, 14, ⟨0⟩⟩ := by
  have hnew : Sources.empty.lookup? "a" = none := by decide +kernel
  have hsize : mixedText.utf8ByteSize < UInt32.size := by decide +kernel
  have hcursor : mixedDraft.cursor = ⟨19, 19, ⟨0⟩⟩ := by decide +kernel
  have hsnippet : (mixedDraft.move (.snippet "αβ")).cursor = ⟨0, 4, ⟨0⟩⟩ := by decide +kernel
  have hline : (mixedDraft.move (.line 2)).cursor = ⟨10, 14, ⟨0⟩⟩ := by decide +kernel
  obtain ⟨⟨-, hwords⟩, -, hsought, hcovers⟩ := cursor_follows_moves hnew hsize "main" mixedMoves
  have hfound : IsSought mixedText.toList "αβ".toList mixedDraft.cursor.start
      (mixedDraft.move (.snippet "αβ")).cursor.start :=
    (hsought "αβ" ⟨[], mixedText.toList.drop 2, by decide +kernel⟩).1
  have hcovered : CoversLine mixedText.toList 2 (mixedDraft.move (.line 2)).cursor :=
    hcovers 2 (by decide) (by decide +kernel)
  rw [hsnippet, hcursor] at hfound
  rw [hline] at hcovered
  exact ⟨hnew, hsize, hwords, hcursor, hfound, hcovered⟩

end Draft

end Surface

end GoLowering
