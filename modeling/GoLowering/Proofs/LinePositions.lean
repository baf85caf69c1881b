import Mathlib.Data.List.DropRight
import Mathlib.Data.Option.Basic
import GoLowering.Proofs.TextBytes
import GoLowering.Source.Basic

/-!
# Lines and columns

The line of a byte position is found by halving the lines; what the search keeps is that the first
of the lines in question starts at or before the position, and the line behind them after it
(`Source.lineIn_spec`). A text is then taken apart at the position into the lines before, the part
of the line up to the position, and the rest (`Source.PartedAt`), from which the line, its start and
its end are read off.

The line counts the newlines before the position, and the column the characters behind the last of
them. The range of the line goes up to the line's carriage returns and newline: a position that it
does not cover lies behind the first of these.

Byte positions are words of 32 bits, and a text has one for each of its bytes only if it is shorter
than 4 GiB. Then no number starts over (`SourceFile.lineStarts_eq_of_lt`).
-/

namespace GoLowering

namespace Source

variable {cs lines line rest : List Char} {pos : Nat}

/-! ## The starts of lines -/

theorem afterNewlines_append (pos : Nat) (a b : List Char) :
    afterNewlines pos (a ++ b) = afterNewlines pos a ++ afterNewlines (pos + byteLength a) b := by
  induction a generalizing pos with
  | nil => rfl
  | cons c a ih => simp only [List.cons_append, afterNewlines, ih, byteLength_cons,
      Nat.add_assoc]; split <;> rfl

theorem afterNewlines_eq_nil (h : '\n' ∉ cs) (pos : Nat) : afterNewlines pos cs = [] := by
  induction cs generalizing pos with
  | nil => rfl
  | cons c cs ih =>
    obtain ⟨hc, hcs⟩ := not_or.mp (mt List.mem_cons.mpr h)
    have hc : (c == '\n') = false := beq_eq_false_iff_ne.mpr (Ne.symm hc)
    simp [afterNewlines, hc, ih hcs]

/-- How far the first character of a text reaches, or one byte at the end. -/
def firstSize : List Char → Nat
  | [] => 1
  | c :: _ => c.utf8Size

theorem firstSize_pos (cs : List Char) : 0 < firstSize cs := by
  cases cs with
  | nil => exact Nat.one_pos
  | cons c cs => exact c.utf8Size_pos

theorem le_of_mem_afterNewlines {start : Nat} (h : start ∈ afterNewlines pos cs) :
    pos + firstSize cs ≤ start ∧ start ≤ pos + byteLength cs := by
  induction cs generalizing pos with
  | nil => cases h
  | cons c cs ih =>
    have htail (h : start ∈ afterNewlines (pos + c.utf8Size) cs) := ih h
    simp only [afterNewlines] at h
    simp only [firstSize, byteLength_cons]
    split at h
    · rcases List.mem_cons.mp h with rfl | h
      · omega
      · have := htail h
        omega
    · have := htail h
      omega

theorem afterNewlines_lt {start : Nat} (h : start ∈ afterNewlines pos cs) : pos < start := by
  have := (le_of_mem_afterNewlines h).1
  have := firstSize_pos cs
  omega

theorem pairwise_afterNewlines (pos : Nat) (cs : List Char) :
    (afterNewlines pos cs).Pairwise (· < ·) := by
  induction cs generalizing pos with
  | nil => exact .nil
  | cons c cs ih =>
    simp only [afterNewlines]
    split
    · refine .cons (fun start h => ?_) (ih _)
      have := afterNewlines_lt h
      omega
    · exact ih _

theorem pairwise_lineStarts (cs : List Char) : (lineStarts cs).Pairwise (· < ·) :=
  .cons (fun _ h => (by have := afterNewlines_lt h; omega)) (pairwise_afterNewlines 0 cs)

theorem lineStarts_append (a b : List Char) :
    lineStarts (a ++ b) = lineStarts a ++ afterNewlines (byteLength a) b := by
  simp [lineStarts, afterNewlines_append]

theorem length_afterNewlines (pos : Nat) (cs : List Char) :
    (afterNewlines pos cs).length = cs.count '\n' := by
  induction cs generalizing pos with
  | nil => rfl
  | cons c cs ih =>
    simp only [afterNewlines, List.count_cons]
    split <;> simp [ih]

theorem length_lineStarts (cs : List Char) : (lineStarts cs).length = cs.count '\n' + 1 := by
  simp [lineStarts, length_afterNewlines]

/-- Behind whole lines starts the next one. -/
theorem getLast?_lineStarts (h : cs = [] ∨ ∃ before, cs = before ++ ['\n']) :
    (lineStarts cs).getLast? = some (byteLength cs) := by
  rcases h with rfl | ⟨before, rfl⟩
  · rfl
  · simp [lineStarts_append, afterNewlines]

/-! ## The search -/

/-- The line found starts at or before the position, and the one behind it after the position. -/
theorem lineIn_spec {starts : Array Nat} {low high : Nat} (h : high ≤ starts.size)
    (hlow : low < high) (hbefore : starts[low] ≤ pos)
    (hafter : ∀ hlt : high < starts.size, pos < starts[high]) :
    ∃ hline : lineIn starts pos low high h < starts.size,
      starts[lineIn starts pos low high h] ≤ pos ∧
      ∀ hnext : lineIn starts pos low high h + 1 < starts.size,
        pos < starts[lineIn starts pos low high h + 1] := by
  fun_induction lineIn starts pos low high h with
  | case1 low high h hwide hmiddle ih => exact ih (by omega) hmiddle hafter
  | case2 low high h hwide hmiddle ih =>
    exact ih (by omega) hbefore (fun _ => Nat.lt_of_not_le hmiddle)
  | case3 low high h hwide =>
    obtain rfl : high = low + 1 := by omega
    exact ⟨by omega, hbefore, hafter⟩

/-! ## The text at a position -/

/-- A text taken apart at a position: the lines before, the part of the line up to the character
that the position lies at or in, and the rest from this character on. -/
structure PartedAt (cs : List Char) (pos : Nat) (lines line rest : List Char) : Prop where
  whole : cs = lines ++ line ++ rest
  ended : lines = [] ∨ ∃ before, lines = before ++ ['\n']
  unbroken : '\n' ∉ line
  reached : byteLength (lines ++ line) ≤ pos
  within : pos < byteLength (lines ++ line) + firstSize rest

theorem exists_split (h : pos ≤ byteLength cs) :
    ∃ before rest, cs = before ++ rest ∧ byteLength before ≤ pos ∧
      pos < byteLength before + firstSize rest := by
  induction cs generalizing pos with
  | nil => exact ⟨[], [], rfl, Nat.zero_le _, by simpa [firstSize] using h⟩
  | cons c cs ih =>
    by_cases hc : pos < c.utf8Size
    · exact ⟨[], c :: cs, rfl, Nat.zero_le _, by simpa [firstSize] using hc⟩
    · rw [byteLength_cons] at h
      have hrest : pos - c.utf8Size ≤ byteLength cs := by omega
      obtain ⟨before, rest, rfl, hreached, hwithin⟩ := ih hrest
      exact ⟨c :: before, rest, rfl, by rw [byteLength_cons]; omega,
        by rw [byteLength_cons]; omega⟩

namespace PartedAt

/-- The lines before end with the last newline before the position. -/
theorem of_split {before : List Char} (hcs : cs = before ++ rest)
    (hreached : byteLength before ≤ pos) (hwithin : pos < byteLength before + firstSize rest) :
    PartedAt cs pos (before.rdropWhile (· != '\n')) (before.rtakeWhile (· != '\n')) rest where
  whole := by rw [List.rdropWhile_append_rtakeWhile, hcs]
  ended := by
    by_cases hnil : before.rdropWhile (· != '\n') = []
    · exact .inl hnil
    · have hlast := List.rdropWhile_last_not _ before hnil
      simp only [bne_iff_ne, ne_eq, not_not] at hlast
      exact .inr ⟨_, (hlast ▸ List.dropLast_append_getLast hnil).symm⟩
  unbroken h := by simpa using List.mem_rtakeWhile_imp h
  reached := by rwa [List.rdropWhile_append_rtakeWhile]
  within := by rwa [List.rdropWhile_append_rtakeWhile]

theorem exists_of_le (h : pos ≤ byteLength cs) : ∃ lines line rest, PartedAt cs pos lines line rest :=
  have ⟨_, _, hcs, hreached, hwithin⟩ := exists_split h
  ⟨_, _, _, of_split hcs hreached hwithin⟩

variable (h : PartedAt cs pos lines line rest)

include h

theorem lineStarts_eq :
    lineStarts cs = lineStarts lines ++ afterNewlines (byteLength (lines ++ line)) rest := by
  rw [h.whole, lineStarts_append, lineStarts_append, afterNewlines_eq_nil h.unbroken,
    List.append_nil]

/-- The newlines before the position are those of the lines before. -/
theorem count_newline : ((bytes cs).take pos).count 10 = lines.count '\n' := by
  obtain ⟨k, rfl⟩ := Nat.exists_eq_add_of_le h.reached
  have hk : k < firstSize rest := by have := h.within; omega
  have hrest : ((bytes rest).take k).count 10 = 0 := by
    cases rest with
    | nil => simp
    | cons c more =>
      rw [bytes_cons, List.take_append_of_le_length
        (by rw [String.length_utf8EncodeChar]; exact hk.le)]
      by_cases hc : c = '\n'
      · subst hc
        obtain rfl : k = 0 := Nat.lt_one_iff.mp hk
        rfl
      · have hle := (List.take_sublist k (String.utf8EncodeChar c)).count_le 10
        rw [count_newline_encode, if_neg hc] at hle
        exact Nat.le_zero.mp hle
  rw [h.whole, bytes_append, ← length_bytes (lines ++ line), List.take_length_add_append,
    List.count_append, hrest, bytes_append, List.count_append, count_newline_bytes,
    count_newline_bytes, List.count_eq_zero.mpr h.unbroken]
  rfl

theorem le_of_mem_lines {start : Nat} (hstart : start ∈ lineStarts lines) : start ≤ pos := by
  have hreached := h.reached
  rw [byteLength_append] at hreached
  rcases List.mem_cons.mp hstart with rfl | hin
  · exact Nat.zero_le _
  · have := (le_of_mem_afterNewlines hin).2
    omega

theorem lt_of_mem_rest {start : Nat}
    (hstart : start ∈ afterNewlines (byteLength (lines ++ line)) rest) : pos < start := by
  have := (le_of_mem_afterNewlines hstart).1
  have := h.within
  omega

end PartedAt

/-! ## Cuts -/

theorem splitBytes?_byteLength (before rest : List Char) :
    splitBytes? (before ++ rest) (byteLength before) = some (before, rest) := by
  induction before with
  | nil => cases rest <;> rfl
  | cons c before ih =>
    obtain ⟨n, hn⟩ := Nat.exists_eq_add_of_lt c.utf8Size_pos
    have hsize : byteLength (c :: before) = (n + byteLength before) + 1 := by
      rw [byteLength_cons]; omega
    have hrest : n + byteLength before + 1 - c.utf8Size = byteLength before := by omega
    rw [hsize, List.cons_append, splitBytes?, if_pos (by omega), hrest, ih]
    rfl

/-- A text is not cut inside of a character. -/
theorem splitBytes?_inside (before rest : List Char) {c : Char} {k : Nat} (hk : 0 < k)
    (hlt : k < c.utf8Size) : splitBytes? (before ++ c :: rest) (byteLength before + k) = none := by
  induction before with
  | nil =>
    obtain ⟨n, rfl⟩ := Nat.exists_eq_add_of_lt hk
    rw [byteLength_nil, List.nil_append, Nat.zero_add, Nat.zero_add, splitBytes?,
      if_neg (by omega)]
  | cons d before ih =>
    obtain ⟨n, hn⟩ := Nat.exists_eq_add_of_lt d.utf8Size_pos
    have hsize : byteLength (d :: before) + k = (n + byteLength before + k) + 1 := by
      rw [byteLength_cons]; omega
    have hrest : n + byteLength before + k + 1 - d.utf8Size = byteLength before + k := by omega
    rw [hsize, List.cons_append, splitBytes?, if_pos (by omega), hrest, ih]
    rfl

theorem cut?_append (before middle rest : List Char) :
    cut? (before ++ middle ++ rest) (byteLength before) (byteLength (before ++ middle)) =
      some middle := by
  have hmiddle : byteLength (before ++ middle) - byteLength before = byteLength middle := by
    rw [byteLength_append, Nat.add_sub_cancel_left]
  have hle : byteLength before ≤ byteLength (before ++ middle) := by
    rw [byteLength_append]; exact Nat.le_add_right _ _
  rw [List.append_assoc, cut?, guard, if_pos hle, hmiddle]
  simp [splitBytes?_byteLength]

/-- The line is cut at the position, unless this lies inside of a character. -/
theorem PartedAt.cut?_eq (h : PartedAt cs pos lines line rest) :
    cut? cs (byteLength lines) pos =
      if byteLength (lines ++ line) = pos then some line else none := by
  split
  · rename_i hboundary
    rw [← hboundary, h.whole, cut?_append]
  · rename_i hinside
    obtain ⟨k, rfl⟩ := Nat.exists_eq_add_of_le h.reached
    have hk : 0 < k := Nat.pos_of_ne_zero (fun hzero => hinside (by rw [hzero, Nat.add_zero]))
    have hlt : k < firstSize rest := by have := h.within; omega
    cases rest with
    | nil => exact absurd (Nat.lt_one_iff.mp hlt) hk.ne'
    | cons c more =>
      have hline : byteLength (lines ++ line) + k - byteLength lines = byteLength line + k := by
        rw [byteLength_append]; omega
      have hle : byteLength lines ≤ byteLength (lines ++ line) + k := by
        rw [byteLength_append]; omega
      rw [h.whole, List.append_assoc, cut?, guard, if_pos hle, hline]
      simp [splitBytes?_byteLength, splitBytes?_inside line more hk hlt]

/-- What is left of a line, with its newline. -/
def restOfLine : List Char → List Char
  | [] => []
  | c :: cs => if c == '\n' then [c] else c :: restOfLine cs

theorem restOfLine_isPrefix (cs : List Char) : restOfLine cs <+: cs := by
  induction cs with
  | nil => exact List.prefix_rfl
  | cons c cs ih =>
    rw [restOfLine]
    split
    · exact ⟨cs, rfl⟩
    · exact List.cons_prefix_cons.mpr ⟨rfl, ih⟩

/-- The next line starts where this one ends, or there is none. -/
theorem head?_afterNewlines (pos : Nat) (cs : List Char) :
    (afterNewlines pos cs).head?.getD (pos + byteLength cs) = pos + byteLength (restOfLine cs) := by
  induction cs generalizing pos with
  | nil => rfl
  | cons c cs ih =>
    simp only [afterNewlines, restOfLine, byteLength_cons]
    split
    · rfl
    · rw [← Nat.add_assoc, ih, byteLength_cons, Nat.add_assoc]

end Source

namespace SourceFile

open Source

variable {f : SourceFile} {pos : Nat} {lines line rest : List Char}

/-! ## Words -/

theorem word_eq_of_le {n : Nat} (hsize : f.text.utf8ByteSize < UInt32.size)
    (h : n ≤ f.text.utf8ByteSize) : word n = n :=
  Nat.mod_eq_of_lt (Nat.lt_of_le_of_lt h hsize)

theorem byteLength_chars (f : SourceFile) : byteLength f.chars = f.text.utf8ByteSize :=
  byteLength_toList f.text

theorem le_of_mem_lineStarts {start : Nat} (h : start ∈ Source.lineStarts f.chars) :
    start ≤ f.text.utf8ByteSize := by
  rw [← byteLength_chars]
  rcases List.mem_cons.mp h with rfl | hin
  · exact Nat.zero_le _
  · have := (le_of_mem_afterNewlines hin).2
    omega

theorem length_lineStarts_eq (f : SourceFile) :
    f.lineStarts.length = f.chars.count '\n' + 1 := by
  rw [lineStarts, List.length_map, length_lineStarts]

section

variable (hsize : f.text.utf8ByteSize < UInt32.size)

include hsize

theorem size_eq : f.size = f.text.utf8ByteSize := word_eq_of_le hsize (Nat.le_refl _)

theorem lineStarts_eq_of_lt : f.lineStarts = Source.lineStarts f.chars := by
  rw [lineStarts, List.map_congr_left (fun start h => word_eq_of_le hsize (le_of_mem_lineStarts h)),
    List.map_id']

/-- The search finds a line that starts at or before the position and is the last one, or the next
one starts after it. -/
theorem lineIndex_spec (pos : Nat) :
    ∃ hline : f.lineIndex pos < f.lineStarts.length, f.lineStarts[f.lineIndex pos] ≤ pos ∧
      ∀ hnext : f.lineIndex pos + 1 < f.lineStarts.length,
        pos < f.lineStarts[f.lineIndex pos + 1] := by
  have hlow : (0 : Nat) < f.lineStarts.toArray.size := Nat.succ_pos _
  have hfirst : f.lineStarts.toArray[0] ≤ pos := by
    simp [lineStarts_eq_of_lt hsize, Source.lineStarts]
  exact lineIn_spec (Nat.le_refl _) hlow hfirst (fun hlt => absurd hlt (Nat.lt_irrefl _))

theorem lineStarts_eq (h : PartedAt f.chars pos lines line rest) :
    f.lineStarts = Source.lineStarts lines ++ afterNewlines (byteLength (lines ++ line)) rest := by
  rw [lineStarts_eq_of_lt hsize, h.lineStarts_eq]

/-- The line is the one that the text was taken apart at. -/
theorem lineIndex_eq (h : PartedAt f.chars pos lines line rest) :
    f.lineIndex pos = lines.count '\n' := by
  obtain ⟨hline, hbefore, hafter⟩ := lineIndex_spec hsize pos
  have hstarts := lineStarts_eq hsize h
  have hlength := length_lineStarts lines
  apply Nat.le_antisymm
  · by_contra hbehind
    have hmem : f.lineStarts[f.lineIndex pos] ∈ afterNewlines (byteLength (lines ++ line)) rest := by
      simp only [hstarts]
      rw [List.getElem_append_right (by omega)]
      exact List.getElem_mem _
    exact absurd (h.lt_of_mem_rest hmem) (Nat.not_lt.mpr hbefore)
  · by_contra hahead
    have hnext : f.lineIndex pos + 1 < f.lineStarts.length := by
      rw [hstarts, List.length_append]
      omega
    have hmem : f.lineStarts[f.lineIndex pos + 1] ∈ Source.lineStarts lines := by
      simp only [hstarts]
      rw [List.getElem_append_left (by omega)]
      exact List.getElem_mem _
    exact absurd (h.le_of_mem_lines hmem) (Nat.not_le.mpr (hafter hnext))

theorem start_eq (h : PartedAt f.chars pos lines line rest) :
    f.lineStarts[f.lineIndex pos]? = some (byteLength lines) := by
  have hlength := length_lineStarts lines
  rw [lineIndex_eq hsize h, lineStarts_eq hsize h, List.getElem?_append_left (by omega),
    ← getLast?_lineStarts h.ended, List.getLast?_eq_getElem?, hlength, Nat.add_sub_cancel]

end

/-- The end of a line, counted from one, behind its line break. -/
def lineEnd (f : SourceFile) (line : Nat) : Nat :=
  f.lineStarts[line]?.getD f.text.utf8ByteSize

theorem exists_later (h : PartedAt f.chars pos lines line rest) :
    ∃ later, f.chars = lines ++ (line ++ restOfLine rest) ++ later := by
  obtain ⟨later, hlater⟩ := restOfLine_isPrefix rest
  exact ⟨later, by simp only [List.append_assoc, hlater, h.whole]⟩

/-- Nothing but line breaks is trimmed off the end of a line. -/
theorem exists_breaks (cs : List Char) :
    ∃ breaks, cs = trimEnd isLineBreak cs ++ breaks ∧ ∀ c ∈ breaks, c = '\r' ∨ c = '\n' := by
  refine ⟨cs.rtakeWhile isLineBreak, List.rdropWhile_append_rtakeWhile.symm, fun c hc => ?_⟩
  simpa [isLineBreak] using List.mem_rtakeWhile_imp hc

section

variable (hsize : f.text.utf8ByteSize < UInt32.size)

include hsize

theorem lineEnd_eq (h : PartedAt f.chars pos lines line rest) :
    f.lineEnd (f.lineIndex pos + 1) = byteLength (lines ++ line ++ restOfLine rest) := by
  have htext : f.text.utf8ByteSize = byteLength (lines ++ line) + byteLength rest := by
    rw [← byteLength_append, ← h.whole, byteLength_chars]
  rw [lineEnd, lineIndex_eq hsize h, lineStarts_eq hsize h, ← length_lineStarts,
    List.getElem?_append_right (Nat.le_refl _), Nat.sub_self, ← List.head?_eq_getElem?, htext,
    head?_afterNewlines, ← byteLength_append]

/-- The line is cut out whole. -/
theorem cut?_line (h : PartedAt f.chars pos lines line rest) :
    cut? f.chars (byteLength lines) (f.lineEnd (f.lineIndex pos + 1)) =
      some (line ++ restOfLine rest) := by
  obtain ⟨later, hwhole⟩ := exists_later h
  rw [lineEnd_eq hsize h, hwhole, List.append_assoc lines line]
  exact cut?_append lines (line ++ restOfLine rest) later

theorem line?_eq (h : PartedAt f.chars pos lines line rest) :
    f.line? (f.lineIndex pos + 1) =
      some (byteLength lines, trimEnd isLineBreak (line ++ restOfLine rest)) := by
  have hcut := cut?_line hsize h
  rw [lineEnd] at hcut
  rw [line?, guard, if_pos (Nat.succ_pos _), Nat.add_sub_cancel]
  simp [start_eq hsize h, hcut]

/-- The range of a line, its end, and the line breaks between them. -/
theorem lineRange?_eq (h : PartedAt f.chars pos lines line rest) :
    ∃ text breaks, line ++ restOfLine rest = text ++ breaks ∧
      (∀ c ∈ breaks, c = '\r' ∨ c = '\n') ∧
      f.lineRange? (f.lineIndex pos + 1) =
        some (byteLength lines, byteLength (lines ++ text)) ∧
      cut? f.chars (byteLength (lines ++ text)) (f.lineEnd (f.lineIndex pos + 1)) =
        some breaks := by
  obtain ⟨breaks, hparts, hbreaks⟩ := exists_breaks (line ++ restOfLine rest)
  obtain ⟨later, hwhole⟩ := exists_later h
  refine ⟨_, breaks, hparts, hbreaks, ?_, ?_⟩
  · have hle : byteLength (lines ++ trimEnd isLineBreak (line ++ restOfLine rest)) ≤
        f.text.utf8ByteSize := by
      rw [← byteLength_chars, hwhole]
      conv_rhs => rw [hparts]
      simp only [byteLength_append]
      omega
    rw [lineRange?, line?_eq hsize h, Option.map_some]
    dsimp only
    rw [← byteLength_append, word_eq_of_le hsize hle]
  · rw [lineEnd_eq hsize h, List.append_assoc lines line, hwhole]
    generalize trimEnd isLineBreak (line ++ restOfLine rest) = text at hparts
    rw [hparts, ← List.append_assoc lines]
    exact cut?_append _ _ later

/-- The column counts the characters of the line up to the position, or the bytes where the position
lies inside of a character. -/
theorem lineColumn?_eq (h : PartedAt f.chars (min pos f.text.utf8ByteSize) lines line rest) :
    f.lineColumn? pos =
      some (f.lineIndex (min pos f.text.utf8ByteSize) + 1,
        (if byteLength (lines ++ line) = min pos f.text.utf8ByteSize then line.length
          else min pos f.text.utf8ByteSize - byteLength lines) + 1) := by
  have hpos : min pos f.text.utf8ByteSize ≤ f.text.utf8ByteSize := Nat.min_le_right _ _
  have hreached := h.reached
  have hlength := length_le_byteLength line
  have hcount := (List.count_le_length (a := '\n') (l := lines)).trans (length_le_byteLength lines)
  rw [byteLength_append] at hreached
  have hline : word (f.lineIndex (min pos f.text.utf8ByteSize)) =
      f.lineIndex (min pos f.text.utf8ByteSize) := by
    rw [lineIndex_eq hsize h]
    exact word_eq_of_le hsize (by omega)
  have hstart : byteLength lines ≤ min pos f.text.utf8ByteSize ∧
      min pos f.text.utf8ByteSize ≤ f.text.utf8ByteSize := ⟨by omega, hpos⟩
  have hcut := h.cut?_eq
  rw [lineColumn?, size_eq hsize]
  split
  · rename_i hboundary
    have hword : word line.length = line.length := word_eq_of_le hsize (by omega)
    rw [if_pos hboundary] at hcut
    simp only [start_eq hsize h, guard, if_pos hstart, hline, hcut, hword, Option.bind_eq_bind,
      Option.bind_some, Option.pure_def]
  · rename_i hinside
    have hword : word (min pos f.text.utf8ByteSize - byteLength lines) =
        min pos f.text.utf8ByteSize - byteLength lines :=
      word_eq_of_le hsize ((Nat.sub_le _ _).trans hpos)
    rw [if_neg hinside] at hcut
    simp only [start_eq hsize h, guard, if_pos hstart, hline, hcut, hword, Option.bind_eq_bind,
      Option.bind_some, Option.pure_def]

/-- The search finds every line by its start. -/
theorem lineIndex_start {n start : Nat} (h : f.lineStarts[n]? = some start) :
    f.lineIndex start = n := by
  obtain ⟨hn, rfl⟩ := List.getElem?_eq_some_iff.mp h
  obtain ⟨hline, hbefore, hafter⟩ := lineIndex_spec hsize f.lineStarts[n]
  have hpairwise := lineStarts_eq_of_lt hsize ▸ pairwise_lineStarts f.chars
  have hsorted := List.pairwise_iff_getElem.mp hpairwise
  apply Nat.le_antisymm
  · by_contra hbehind
    exact absurd (hsorted n _ hn hline (by omega)) (Nat.not_lt.mpr hbefore)
  · by_contra hahead
    have hnext : f.lineIndex f.lineStarts[n] + 1 < f.lineStarts.length := by omega
    rcases Nat.lt_or_eq_of_le (show f.lineIndex f.lineStarts[n] + 1 ≤ n by omega) with hlt | heq
    · exact absurd (hsorted _ n hnext hn hlt) (Nat.not_lt.mpr (hafter hnext).le)
    · exact absurd (hafter hnext) (by simp only [heq]; exact Nat.lt_irrefl _)

theorem start_le_size {n start : Nat} (h : f.lineStarts[n]? = some start) :
    start ≤ f.text.utf8ByteSize :=
  le_of_mem_lineStarts (lineStarts_eq_of_lt hsize ▸ List.mem_of_getElem? h)

/-- There is a range for every line, so that its text is never cut out of range. -/
theorem isSome_lineRange?_iff (n : Nat) :
    (f.lineRange? n).isSome ↔ 0 < n ∧ n ≤ f.lineStarts.length := by
  constructor
  · intro h
    rw [lineRange?, Option.isSome_map, line?] at h
    by_cases hn : 0 < n
    · refine ⟨hn, ?_⟩
      by_contra hout
      have hnone : f.lineStarts[n - 1]? = none := List.getElem?_eq_none (by omega)
      rw [guard, if_pos hn] at h
      simp [hnone] at h
    · rw [guard, if_neg hn] at h
      cases h
  · rintro ⟨hn, hle⟩
    have hstart : f.lineStarts[n - 1]? = some f.lineStarts[n - 1] :=
      List.getElem?_eq_getElem (by omega)
    have hwithin := start_le_size hsize hstart
    rw [← byteLength_chars] at hwithin
    obtain ⟨lines, line, rest, hparts⟩ := PartedAt.exists_of_le hwithin
    obtain ⟨text, breaks, -, -, hrange, -⟩ := lineRange?_eq hsize hparts
    rw [lineIndex_start hsize hstart, Nat.sub_add_cancel hn] at hrange
    rw [hrange]
    rfl

end

/-- What the line and the column of a byte position are. -/
structure Locates (f : SourceFile) (pos line column : Nat) : Prop where
  /-- The line counts the newline bytes before the position. -/
  line_eq : line = 1 + ((bytes f.chars).take pos).count 10
  /-- Between two characters, the column counts the characters since the last newline. -/
  column_eq (before after : List Char) (hwhole : f.chars = before ++ after)
    (hbefore : byteLength before = pos) :
    column = 1 + (before.rtakeWhile (· != '\n')).length
  /-- The bytes from the start of the line up to the position are there. -/
  sliced : ∃ start, f.lineStarts[line - 1]? = some start ∧ start ≤ pos ∧
    pos ≤ (bytes f.chars).length
  /-- The line has a range, with nothing behind it but line breaks. Either it covers the position, or
  the position falls on these. -/
  range : ∃ start stop breaks, f.lineRange? line = some (start, stop) ∧
    cut? f.chars stop (f.lineEnd line) = some breaks ∧ (∀ c ∈ breaks, c = '\r' ∨ c = '\n') ∧
    start ≤ pos ∧ (pos ≤ stop ∨ stop < pos ∧ pos ≤ f.lineEnd line)

theorem lineColumn?_locates (hsize : f.text.utf8ByteSize < UInt32.size) (pos : Nat) :
    ∃ line column, f.lineColumn? pos = some (line, column) ∧
      f.Locates (min pos f.text.utf8ByteSize) line column := by
  have hlength : (bytes f.chars).length = f.text.utf8ByteSize := by
    rw [length_bytes, byteLength_chars]
  have hwithin : min pos f.text.utf8ByteSize ≤ (bytes f.chars).length :=
    hlength ▸ Nat.min_le_right _ _
  obtain ⟨lines, line, rest, h⟩ := PartedAt.exists_of_le (length_bytes f.chars ▸ hwithin)
  have hreached := h.reached
  rw [byteLength_append] at hreached
  refine ⟨_, _, lineColumn?_eq hsize h, ⟨?_, fun before after hwhole hbefore => ?_,
    ⟨byteLength lines, ?_, by omega, hwithin⟩, ?_⟩⟩
  · rw [lineIndex_eq hsize h, h.count_newline, Nat.add_comm]
  · -- The text is taken apart at the position in one way only if this lies between two characters.
    have hparts : PartedAt f.chars (min pos f.text.utf8ByteSize) _ _ after :=
      .of_split hwhole hbefore.le (hbefore ▸ Nat.lt_add_of_pos_right (firstSize_pos after))
    have hboundary : before.rdropWhile (· != '\n') ++ before.rtakeWhile (· != '\n') = before :=
      List.rdropWhile_append_rtakeWhile
    have hsame := (lineColumn?_eq hsize h).symm.trans (lineColumn?_eq hsize hparts)
    rw [(Prod.mk.inj (Option.some.inj hsame)).2, hboundary, if_pos hbefore]
    exact Nat.add_comm _ _
  · rw [Nat.add_sub_cancel, start_eq hsize h]
  · obtain ⟨text, breaks, hparts, hbreaks, hrange, hcut⟩ := lineRange?_eq hsize h
    refine ⟨_, _, breaks, hrange, hcut, hbreaks, by omega, ?_⟩
    have hend : min pos f.text.utf8ByteSize ≤
        f.lineEnd (f.lineIndex (min pos f.text.utf8ByteSize) + 1) := by
      have hnext := h.within
      rw [lineEnd_eq hsize h, byteLength_append]
      cases rest with
      | nil => exact Nat.le_of_lt_succ hnext
      | cons c more =>
        have hfirst : c.utf8Size ≤ byteLength (restOfLine (c :: more)) := by
          rw [restOfLine]; split <;> simp
        rw [firstSize] at hnext
        omega
    omega

end SourceFile

end GoLowering
