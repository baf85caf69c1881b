import GoLowering.Proofs.PropagatedErrors
import GoLowering.Proofs.QuotedTexts

/-!
# Texts in the frames of errors

The frames of errors hold texts that may have any characters: what is wrapped, as it stands in the
source, the path of its file and the name of the declaration around. Each is put out as an
interpreted string literal. In front of whatever follows in the output, the host reads this literal,
and no other one, and the text in it (`Quoted.denotes_ahead_iff`): the quotes, backslashes and line
breaks of the text are escaped, and no backslash is left to join what is written behind it.

Programs as such may be refused for null characters or byte order marks in them; the literals leave
these as they are.
-/

namespace GoLowering

namespace Quoted

open Source

variable {c : Char} {cs body more rest : List Char} {bs : List UInt8}

/-- A character is written by itself, or as a letter behind a backslash. -/
theorem escapeInterpreted_cases (c : Char) :
    c ≠ '"' ∧ c ≠ '\\' ∧ c ≠ '\n' ∧ c ≠ '\r' ∧ escapeInterpreted c = [c] ∨
      ∃ l ∈ ['t', 'r', 'n', '\\', '"'], letter? '"' l = some c ∧
        escapeInterpreted c = ['\\', l] := by
  unfold escapeInterpreted
  split
  · exact .inr ⟨'\\', by decide, rfl, rfl⟩
  · exact .inr ⟨'"', by decide, rfl, rfl⟩
  · exact .inr ⟨'n', by decide, rfl, rfl⟩
  · exact .inr ⟨'t', by decide, rfl, rfl⟩
  · exact .inr ⟨'r', by decide, rfl, rfl⟩
  · rename_i hbackslash hquote hline _ hreturn
    exact .inl ⟨hquote, hbackslash, hline, hreturn, rfl⟩

theorem reads_flatMap_escapeInterpreted (cs : List Char) :
    Reads '"' (cs.flatMap escapeInterpreted) (bytes cs) := by
  induction cs with
  | nil => exact .nil
  | cons c cs ih =>
    rw [List.flatMap_cons, bytes_cons]
    have hspells : Spells '"' (escapeInterpreted c) (.char c) := by
      rcases escapeInterpreted_cases c with ⟨hquote, hbackslash, hline, -, hwritten⟩ |
          ⟨l, -, hletter, hwritten⟩
      · exact hwritten ▸ .plain hquote hbackslash hline
      · exact hwritten ▸ .letter hletter
    exact .cons hspells ih

/-- Quotes are read behind a backslash only. -/
theorem not_reads_quote : ¬Reads '"' ('"' :: cs) bs := by
  intro h
  generalize hbody : '"' :: cs = body at h
  cases h with
  | nil => cases hbody
  | cons hpiece rest =>
    cases hpiece <;> obtain ⟨hhead, -⟩ := List.cons.inj hbody
    · rename_i hquote _ _
      exact hquote hhead.symm
    all_goals exact absurd hhead (by decide)

theorem not_reads_backslash : ¬Reads '"' ['\\'] bs := by
  intro h
  generalize hbody : ['\\'] = body at h
  cases h with
  | nil => cases hbody
  | cons hpiece rest =>
    cases hpiece <;> have hlength := congrArg List.length hbody <;>
      simp only [List.length_append, List.length_cons, List.length_nil] at hlength
    · rename_i hbackslash _
      exact hbackslash (List.cons.inj hbody).1.symm
    all_goals omega

/-- In front of a quote, what begins with a written character is read as this character first. -/
theorem Reads.of_escapeInterpreted (h : Reads '"' body bs)
    (hahead : body ++ '"' :: more = escapeInterpreted c ++ rest) :
    ∃ body' bs', body = escapeInterpreted c ++ body' ∧ bs = String.utf8EncodeChar c ++ bs' ∧
      Reads '"' body' bs' ∧ body' ++ '"' :: more = rest := by
  rcases escapeInterpreted_cases c with ⟨hquote, hbackslash, -, -, hwritten⟩ |
      ⟨l, hmem, hletter, hwritten⟩ <;> rw [hwritten] at hahead ⊢
  · cases body with
    | nil => exact absurd (List.cons.inj hahead).1.symm hquote
    | cons d body =>
      obtain ⟨rfl, hrest⟩ := List.cons.inj hahead
      obtain ⟨bs, rfl, hbody⟩ := Reads.of_plain h hbackslash
      exact ⟨body, bs, rfl, rfl, hbody, hrest⟩
  · -- A quote that is written behind a backslash does not close the literal.
    match body with
    | [] => exact absurd (List.cons.inj hahead).1 (by decide)
    | [d] =>
      obtain rfl : d = '\\' := (List.cons.inj hahead).1
      exact absurd h not_reads_backslash
    | d :: e :: body =>
      obtain ⟨hd, hahead⟩ := List.cons.inj hahead
      obtain ⟨he, hrest⟩ := List.cons.inj hahead
      rw [hd, he] at h ⊢
      obtain ⟨bs, rfl, hbody⟩ := Reads.of_letter h hmem hletter
      exact ⟨body, bs, rfl, rfl, hbody, hrest⟩

/-- What is read up to a closing quote is what was written up to it. -/
theorem eq_of_reads (h : Reads '"' body bs)
    (hahead : body ++ '"' :: more = cs.flatMap escapeInterpreted ++ '"' :: rest) :
    body = cs.flatMap escapeInterpreted ∧ bs = bytes cs := by
  induction cs generalizing body bs with
  | nil =>
    cases body with
    | nil => exact ⟨rfl, h.eq_nil⟩
    | cons d body =>
      obtain rfl : d = '"' := (List.cons.inj hahead).1
      exact absurd h not_reads_quote
  | cons c cs ih =>
    rw [List.flatMap_cons, List.append_assoc] at hahead
    obtain ⟨body, bs, rfl, rfl, hbody, hahead⟩ := h.of_escapeInterpreted hahead
    obtain ⟨rfl, rfl⟩ := ih hbody hahead
    exact ⟨List.flatMap_cons.symm, (bytes_cons c cs).symm⟩

theorem toList_quoteInterpreted (text : String) :
    (quoteInterpreted text).toList = '"' :: text.toList.flatMap escapeInterpreted ++ ['"'] :=
  String.toList_ofList

/-- In front of anything, the literal that a text is quoted as is the one that the host reads, and
it stands for the text. -/
theorem denotes_ahead_iff {text literal : String} (rest : List Char) :
    Denotes literal bs ∧ literal.toList <+: (quoteInterpreted text).toList ++ rest ↔
      literal = quoteInterpreted text ∧ bs = bytes text.toList := by
  constructor
  · rintro ⟨⟨body, hliteral, hreads⟩, more, hahead⟩
    rw [hliteral, toList_quoteInterpreted, List.cons_append, List.cons_append, List.cons_append,
      List.cons_append, List.cons.injEq, List.append_assoc, List.append_assoc] at hahead
    obtain ⟨rfl, rfl⟩ := eq_of_reads hreads hahead.2
    exact ⟨String.toList_inj.mp (hliteral.trans (toList_quoteInterpreted text).symm), rfl⟩
  · rintro ⟨rfl, rfl⟩
    exact ⟨⟨_, toList_quoteInterpreted text, reads_flatMap_escapeInterpreted _⟩,
      List.prefix_append _ _⟩

/-- A quoted text stands in one line. -/
theorem notMem_quoteInterpreted (text : String) :
    '\n' ∉ (quoteInterpreted text).toList ∧ '\r' ∉ (quoteInterpreted text).toList := by
  have hescaped : ∀ d ∈ text.toList.flatMap escapeInterpreted, d ≠ '\n' ∧ d ≠ '\r' := by
    intro d hd
    obtain ⟨c, -, hd⟩ := List.mem_flatMap.mp hd
    rcases escapeInterpreted_cases c with ⟨-, -, hline, hreturn, hwritten⟩ |
        ⟨l, hmem, -, hwritten⟩ <;> rw [hwritten] at hd
    · rw [List.mem_singleton.mp hd]
      exact ⟨hline, hreturn⟩
    · have hletters : ∀ d ∈ ['\\', 't', 'r', 'n', '\\', '"'], d ≠ '\n' ∧ d ≠ '\r' := by simp
      refine hletters d ?_
      rcases List.mem_cons.mp hd with rfl | hd
      · exact List.mem_cons_self
      · exact List.mem_cons_of_mem _ (List.mem_singleton.mp hd ▸ hmem)
  rw [toList_quoteInterpreted]
  constructor <;> intro h
  · simpa using (hescaped '\n' (by simpa using h)).1
  · simpa using (hescaped '\r' (by simpa using h)).2

end Quoted

/-! ## Frames -/

namespace Printer

open Quoted

/-- The statement that gives an error a frame. -/
def frameText (text path : String) (line : Nat) (function : String) : String :=
  "_gop_err = errors.NewFrame(" ++
    commaSeparated ["_gop_err", quoteInterpreted text, quoteInterpreted path, toString line,
      quoteInterpreted function] ++ ")"

variable {file : HostFile} {id : HostId} {text path function : String} {line : Nat}

theorem lines_frame (h : file.tree.IsFrame id text path line function) (depth indent : Nat) :
    lines file (depth + 3) indent id =
      markerLines file id ++ [Printer.line indent (frameText text path line function)] := by
  obtain ⟨target, call, callee, error, textNode, pathNode, lineNode, functionNode, hassign, htarget,
    hcall, hcallee, herror, htext, hpath, hline, hfunction⟩ := h
  have hcallText : Printer.text file (depth + 2) false indent call =
      "errors.NewFrame(" ++ commaSeparated ["_gop_err", quoteInterpreted text,
        quoteInterpreted path, toString line, quoteInterpreted function] ++ ")" := by
    have hname : packageName framesPath ++ "." ++ "NewFrame" ++ "(" = "errors.NewFrame(" := by
      decide +kernel
    rw [Printer.text, hcall]
    simp only [inlineText, postfixOperand, listText, List.map_cons, List.map_nil, Printer.text]
    simp only [hcallee, herror, htext, hpath, hline, hfunction, Names.err,
      Bool.false_eq_true, if_false, String.append_empty]
    rw [hname]
  have htargetText : Printer.text file (depth + 2) false indent target = "_gop_err" := by
    rw [Printer.text, htarget, inlineText, Names.err]
  have hassigned : "_gop_err" ++ " " ++ "=" ++ " " = "_gop_err = " := by decide +kernel
  have hcode : "_gop_err = " ++ "errors.NewFrame(" = "_gop_err = errors.NewFrame(" := by
    decide +kernel
  rw [lines, hassign]
  simp only [statementLines, inlineText, listText, List.map_cons, List.map_nil, htargetText,
    hcallText, AssignOp.symbol]
  rw [commaSeparated, commaSeparated, String.intercalate_singleton, String.intercalate_singleton,
    hassigned, ← String.append_assoc, ← String.append_assoc, hcode]
  rfl

end Printer

namespace Lowering

open Quoted Source Surface

variable {c : Context} {s s' final : State} {call : HostId} {values : List TypeId}
  {text : String} {span : Span} {r : Operand}

/-- Whether a frame is what an error of a call is given first. -/
def IsFramed (t : HostTree) (call frame : HostId) (text path : String) (line : Nat)
    (function : String) : Prop :=
  t.IsFrame frame text path line function ∧ ∃ targets rest declare assign check,
    t.IsErrorCheck call targets (frame :: rest) declare assign check

theorem wrapRaise_framed (hrun : wrapRaise call values text span c s = (.ok r, s'))
    (hfinal : s'.Precedes final) :
    ∃ frame, IsFramed final.tree call frame text (displayPath c.sources c.settings span.file)
      (c.sources.lineColumn span.file span.start).1 s.frameName := by
  obtain ⟨frame, panic, ⟨_, _, declare, assign, check, _, -, -, -, hcheck, -⟩, hframe, -⟩ :=
    wrapRaise_ok hrun hfinal
  exact ⟨frame, hframe, _, [panic], declare, assign, check, hcheck⟩

theorem wrapPropagate_framed (hrun : wrapPropagate call values text span c s = (.ok r, s'))
    (hfinal : s'.Precedes final) :
    ∃ frame, IsFramed final.tree call frame text (displayPath c.sources c.settings span.file)
      (c.sources.lineColumn span.file span.start).1 s.frameName := by
  obtain ⟨_, _, _, _, _, -, -, -, -, -, hpropagating, -⟩ := wrapPropagate_ok hrun hfinal
  cases hpropagating with
  | nothing h | value _ h =>
    obtain ⟨declare, assign, check, _, _, frame, propagate, _, -, hcheck, hframe, -⟩ := h
    exact ⟨frame, hframe, _, [propagate], declare, assign, check, hcheck⟩

/-- A text is quoted as a literal without line breaks that is read in front of anything as itself
and as no other text. A wrap that raises or returns the error of a call gives it a frame first, which
is put out with literals for the source text of the call, the path of the file and the name of the
declaration around. -/
theorem frames_read_back :
    (∀ text : String, '\n' ∉ (quoteInterpreted text).toList ∧
      '\r' ∉ (quoteInterpreted text).toList ∧
      ∀ (rest : List Char) (literal : String) (bs : List UInt8),
        Quoted.Denotes literal bs ∧ literal.toList <+: (quoteInterpreted text).toList ++ rest ↔
          literal = quoteInterpreted text ∧ bs = bytes text.toList) ∧
    ∀ {depth : Nat} {inner : NodeId} {policy : WrapPolicy} {c : Context} {span : Span}
      {s s' final : State} {r : Operand}, policy = .raise ∨ policy = .propagate →
      lowerErrorWrap (walkWithin depth) inner policy span c s = (.ok r, s') →
      s'.Precedes final →
      ∃ call s₁ frame, lowerWrappedCall (walkWithin depth) inner c s = (.ok call, s₁) ∧
        IsFramed final.tree call.id frame (c.sources.slice (c.unit.span inner))
          (displayPath c.sources c.settings span.file)
          (c.sources.lineColumn span.file span.start).1 s.frameName ∧
        ∀ file : HostFile, file.tree = final.tree → ∀ depth indent,
          Printer.lines file (depth + 3) indent frame = Printer.markerLines file frame ++
            [Printer.line indent (Printer.frameText (c.sources.slice (c.unit.span inner))
              (displayPath c.sources c.settings span.file)
              (c.sources.lineColumn span.file span.start).1 s.frameName)] := by
  refine ⟨fun text => ?_, fun {depth inner policy c span s s' final r} hpolicy hrun hfinal => ?_⟩
  · obtain ⟨hline, hreturn⟩ := notMem_quoteInterpreted text
    exact ⟨hline, hreturn, fun rest _ _ => denotes_ahead_iff rest⟩
  · obtain ⟨call, s₁, values, hcall, -, hwrap⟩ := lowerErrorWrap_ok hrun
    have hframed : ∃ frame, IsFramed final.tree call.id frame (c.sources.slice (c.unit.span inner))
        (displayPath c.sources c.settings span.file)
        (c.sources.lineColumn span.file span.start).1 s₁.frameName := by
      rcases hpolicy with rfl | rfl
      · exact wrapRaise_framed hwrap hfinal
      · exact wrapPropagate_framed hwrap hfinal
    rw [(extends_run hcall).frameName] at hframed
    obtain ⟨frame, hframed⟩ := hframed
    refine ⟨call, s₁, frame, hcall, hframed, fun file hfile depth indent => ?_⟩
    exact Printer.lines_frame (hfile ▸ hframed.1) depth indent

/-- The frame of `g()!` in a unit without a file. -/
theorem frames_read_back_raised :
    ∃ r s' call frame, raisedCall = (.ok r, s') ∧
      IsFramed s'.tree call frame "" "" 0 "main.main" := by
  obtain ⟨r, s', hrun⟩ : ∃ r s', raisedCall = (.ok r, s') := exists_ok (by decide +kernel)
  obtain ⟨call, _, frame, -, hframed, -⟩ := frames_read_back.2 (.inl rfl) hrun (.refl s')
  exact ⟨r, s', call.id, frame, hrun, hframed⟩

end Lowering

end GoLowering
