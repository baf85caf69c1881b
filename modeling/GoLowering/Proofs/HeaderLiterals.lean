import GoLowering.Host.Nesting
import GoLowering.Proofs.PrintedPieces

/-!
# Composite literals in headers

The printer gives a composite literal of a named type parentheses just in case it stands in the
header of a statement, and not in the body of a function literal in that header: the text of a file
is its markup, spelled out with the regions around each literal. The flag that a printer keeps for
this is after each piece of text what it was before, however headers, function literals and bodies
are nested (`HostFile.literals_parenthesized_in_headers`).
-/

namespace GoLowering

open Printer (unlines unlines_nil unlines_cons unlines_append)

namespace Markup

variable (outer : List Region)

@[simp] theorem spell_append (first second : Markup) :
    (first ++ second).spell outer = first.spell outer ++ second.spell outer := rfl

@[simp] theorem spell_header (inner : Markup) :
    (within .header inner).spell outer = inner.spell (.header :: outer) := rfl

@[simp] theorem spell_closure (inner : Markup) :
    (within .closure inner).spell outer = inner.spell (.closure :: outer) := rfl

theorem spell_literal (inner : Markup) :
    (within .literal inner).spell outer =
      if InHeader outer then Printer.parenthesized (inner.spell (.literal :: outer))
      else inner.spell (.literal :: outer) := rfl

/-- The flag of a printer says whether the text in hand is in a header, and it is put back. -/
theorem write_run (m : Markup) :
    m.write.run (InHeader outer) = (m.spell outer, decide (InHeader outer)) := by
  induction m generalizing outer with
  | plain text => rfl
  | beside first second ihfirst ihsecond =>
    change (first.write >>= fun before => second.write >>= fun after =>
      pure (before ++ after)).run _ = _
    rw [StateT.run_bind, ihfirst]
    change (second.write >>= fun after => pure (spell outer first ++ after)).run _ = _
    rw [StateT.run_bind, ihsecond]
    rfl
  | within region inner ih =>
    cases region with
    | header =>
      have hinner := ih (.header :: outer)
      rw [decide_eq_true (inHeader_header outer)] at hinner
      change ((inner.write.run true).1, decide (InHeader outer)) = _
      rw [hinner]
      rfl
    | closure =>
      have hinner := ih (.closure :: outer)
      rw [decide_eq_false (not_inHeader_closure outer)] at hinner
      change ((inner.write.run false).1, decide (InHeader outer)) = _
      rw [hinner]
      rfl
    | literal =>
      have hinner := ih (.literal :: outer)
      simp only [inHeader_literal] at hinner
      change (inner.write >>= fun text => get >>= fun header =>
        if header then pure (Printer.parenthesized text) else pure text).run _ = _
      rw [StateT.run_bind, hinner, spell_literal]
      by_cases hheader : InHeader outer
      · simp only [hheader]
        rfl
      · simp only [hheader]
        rfl

end Markup

namespace Nesting

section

variable (outer : List Region)

@[simp] theorem spell_say (text : String) : (say text).spell outer = text := rfl

@[simp] theorem spell_parenthesized (inner : Markup) :
    (parenthesized inner).spell outer = Printer.parenthesized (inner.spell outer) := rfl

theorem spell_line (indent : Nat) (inner : Markup) :
    (line indent inner).spell outer = unlines [Printer.line indent (inner.spell outer)] := by
  simp [line, Printer.line, unlines_cons, unlines_nil, String.append_assoc]

@[simp] theorem spell_sayLines (lines : List String) :
    (sayLines lines).spell outer = unlines lines := rfl

theorem spell_all (parts : List Markup) :
    (all parts).spell outer = String.join (parts.map (·.spell outer)) := by
  induction parts with
  | nil => rfl
  | cons part parts ih => rw [List.map_cons, String.join_cons, ← ih]; rfl

@[simp] theorem spell_separated (separator : String) (parts : List Markup) :
    (separated separator parts).spell outer =
      String.intercalate separator (parts.map (·.spell outer)) := by
  induction parts with
  | nil => rfl
  | cons part parts ih =>
    cases parts with
    | nil => simp [separated]
    | cons next rest => simp [separated, ih, String.append_assoc]

end

/-- The markup of the nodes below spells what the printer prints of them: text with the flag of the
regions around it, and statements where there is no header around. -/
structure Spells (file : HostFile) (below : Below) (printed : Printer.Below) : Prop where
  text : ∀ outer indent id,
    (below.text indent id).spell outer = printed.text (InHeader outer) indent id
  lines : ∀ outer, ¬InHeader outer → ∀ indent id,
    (below.lines indent id).spell outer = unlines (printed.lines indent id)
  typeText : ∀ header indent id typed, file.tree.kind id = .typeExpression typed →
    printed.text header indent id = printed.text false indent id

namespace Spells

variable {file : HostFile} {below : Below} {printed : Printer.Below} (h : Spells file below printed)
  (outer : List Region)
include h

theorem postfixOperand (indent : Nat) (id : HostId) :
    (postfixOperand file below indent id).spell outer =
      Printer.postfixOperand file printed (InHeader outer) indent id := by
  cases hkind : file.tree.kind id with
  | typeExpression typed =>
    simp only [Nesting.postfixOperand, Printer.postfixOperand, hkind]
    rw [h.text [] indent id, h.typeText _ indent id typed hkind,
      h.typeText (InHeader outer) indent id typed hkind]
    split <;> simp [h.text, h.typeText (InHeader outer) indent id typed hkind]
  | _ => simp [Nesting.postfixOperand, Printer.postfixOperand, hkind, h.text]

theorem binaryOperand (indent : Nat) (parent : BinaryOp) (right : Bool) (id : HostId) :
    (binaryOperand file below indent parent right id).spell outer =
      Printer.binaryOperand file printed (InHeader outer) indent parent right id := by
  cases hkind : file.tree.kind id with
  | binary child left right =>
    simp only [Nesting.binaryOperand, Printer.binaryOperand, hkind]
    split <;> simp [h.text]
  | _ => simp [Nesting.binaryOperand, Printer.binaryOperand, hkind, h.text]

theorem list (indent : Nat) (ids : List HostId) :
    (list below indent ids).spell outer = Printer.listText printed (InHeader outer) indent ids := by
  simp [Nesting.list, Printer.listText, Printer.commaSeparated, Function.comp_def, h.text]

theorem element (indent : Nat) (e : HostElement) :
    (element below indent e).spell outer =
      Printer.elementText printed (InHeader outer) indent e := by
  rcases e with ⟨key, value⟩
  cases key <;> simp [Nesting.element, Printer.elementText, h.text]

theorem optional (indent : Nat) (id : Option HostId) :
    (optional below indent id).spell outer =
      Printer.optionalText printed (InHeader outer) indent id := by
  cases id <;> simp [Nesting.optional, Printer.optionalText, h.text]

theorem values (indent : Nat) (keyword : String) (spec : HostValues) :
    (values file below indent keyword spec).spell outer =
      Printer.valuesText file printed (InHeader outer) indent keyword spec := by
  rcases spec with ⟨names, type, values, doc⟩
  cases values <;> simp [Nesting.values, Printer.valuesText, h.list, String.append_assoc]

theorem each (houter : ¬InHeader outer) (indent : Nat) (ids : List HostId) :
    (all (ids.map (below.lines indent))).spell outer =
      unlines (ids.flatMap (printed.lines indent)) := by
  rw [spell_all, Printer.unlines_flatMap, List.map_map]
  exact congrArg String.join (List.map_congr_left fun id _ => h.lines outer houter indent id)

theorem body (houter : ¬InHeader outer) (indent : Nat) (id : HostId) :
    (body file below indent id).spell outer = unlines (Printer.bodyLines file printed indent id) :=
  h.each outer houter (indent + 1) (file.tree.statements id)

theorem inline (indent : Nat) (kind : HostKind) :
    (inline file below indent kind).spell outer =
      Printer.inlineText file printed (InHeader outer) indent kind := by
  cases kind with
  | composite type elements =>
    -- The elements are in a header just in case the literal is.
    simp only [Nesting.inline, Printer.inlineText]
    by_cases hnamed : type.any file.types.isNamed
    · by_cases hheader : InHeader outer
      · simp [hnamed, hheader, Markup.spell_literal, h.element, inHeader_literal, Function.comp_def,
          Printer.commaSeparated, String.append_assoc]
      · simp [hnamed, hheader, Markup.spell_literal, h.element, inHeader_literal, Function.comp_def,
          Printer.commaSeparated, String.append_assoc]
    · simp [hnamed, h.element, Function.comp_def, Printer.commaSeparated, String.append_assoc]
  | ret results =>
    cases results <;> simp [Nesting.inline, Printer.inlineText, h.list]
  | slice object low high max =>
    cases max <;>
      simp [Nesting.inline, Printer.inlineText, h.postfixOperand, h.optional, String.append_assoc]
  | functionLiteral signature inner =>
    simp [Nesting.inline, Printer.inlineText, h.body _ (not_inHeader_closure outer),
      String.append_assoc]
  | _ =>
    simp [Nesting.inline, Printer.inlineText, h.text, h.postfixOperand, h.binaryOperand, h.list,
      h.values, String.append_assoc]

/-! ## Headers -/

theorem initial (indent : Nat) (init : Option HostId) :
    (initial below indent init).spell (.header :: outer) =
      Printer.initText printed indent init := by
  cases init <;> simp [Nesting.initial, Printer.initText, h.text, inHeader_header]

theorem ifHeader (indent : Nat) (init : Option HostId) (condition : HostId) :
    (ifHeader below indent init condition).spell outer =
      Printer.ifHeader printed indent init condition := by
  simp only [Nesting.ifHeader, Markup.spell_header, Markup.spell_append, h.initial, h.text,
    inHeader_header, decide_true, spell_say]
  rfl

theorem loopHeader (indent : Nat) (init condition post : Option HostId) :
    (loopHeader below indent init condition post).spell outer =
      Printer.loopHeader printed indent init condition post := by
  cases init <;> cases condition <;> cases post <;>
    simp [Nesting.loopHeader, Printer.loopHeader, h.optional, h.text, inHeader_header,
      String.append_assoc]

theorem rangeHeader (houter : ¬InHeader outer) (indent : Nat) (key value : Option HostId)
    (define : Bool) (source : HostId) :
    (rangeHeader below indent key value define source).spell outer =
      Printer.rangeHeader printed indent key value define source := by
  cases key <;> cases value <;>
    simp [Nesting.rangeHeader, Printer.rangeHeader, h.text, houter, inHeader_header,
      ← String.append_assoc]

/-! ## Statements -/

theorem caseLines (houter : ¬InHeader outer) (indent : Nat) (label : Option Markup)
    (body : List HostId) :
    (caseLines below indent label body).spell outer =
      unlines (Printer.caseLines printed indent (label.map (·.spell outer)) body) := by
  cases label <;>
    simp [Nesting.caseLines, Printer.caseLines, spell_line, h.each outer houter, unlines_cons,
      unlines_nil, String.append_assoc]

theorem ifLines (houter : ¬InHeader outer) (opening : String) (indent : Nat) (init : Option HostId)
    (condition thenBranch : HostId) {rest : Markup} {restLines : List String}
    (hrest : rest.spell outer = unlines restLines) :
    (ifLines file below opening indent init condition thenBranch rest).spell outer =
      unlines (Printer.ifLines file printed opening indent init condition thenBranch
        restLines) := by
  simp [Nesting.ifLines, Printer.ifLines, spell_line, h.ifHeader, h.body outer houter, hrest,
    unlines_append, unlines_cons, unlines_nil, String.append_assoc]

theorem function (houter : ¬InHeader outer) (indent : Nat) (decl : HostFunction) :
    (function file below indent decl).spell outer =
      unlines (Printer.functionLines file printed indent decl) := by
  rcases decl with ⟨receiver, name, signature, body, doc⟩
  cases receiver <;>
    simp [Nesting.function, Printer.functionLines, spell_line, h.body outer houter, unlines_append,
      unlines_cons, unlines_nil, String.append_assoc]

theorem statement (houter : ¬InHeader outer) (indent : Nat) (kind : HostKind) {rest : Markup}
    {restLines : List String} (hrest : rest.spell outer = unlines restLines) :
    (statement file below indent kind rest).spell outer =
      unlines (Printer.statementLines file printed indent kind restLines) := by
  cases kind with
  | varDecl spec | constDecl spec =>
    simp [Nesting.statement, Printer.statementLines, spell_line, h.inline, houter, unlines_append]
  | typeDecl name definition isAlias doc => rfl
  | function decl => exact h.function outer houter indent decl
  | block statements =>
    simp [Nesting.statement, Printer.statementLines, spell_line, h.each outer houter,
      unlines_append, unlines_cons, unlines_nil, String.append_assoc]
  | ifElse init condition thenBranch branch =>
    exact h.ifLines outer houter "" indent init condition thenBranch hrest
  | loop init condition post inner =>
    simp [Nesting.statement, Printer.statementLines, spell_line, h.loopHeader, h.body outer houter,
      unlines_append, unlines_cons, unlines_nil, String.append_assoc]
  | range key value define source inner =>
    simp [Nesting.statement, Printer.statementLines, spell_line, h.rangeHeader outer houter,
      h.body outer houter, unlines_append, unlines_cons, unlines_nil, String.append_assoc]
  | switch init tag cases =>
    have htag : ((tag.map (fun t => below.text indent t ++ say " ")).getD (say "")).spell
          (.header :: outer) =
        (tag.map (fun t => printed.text true indent t ++ " ")).getD "" := by
      cases tag <;> simp [h.text, inHeader_header]
    have hvalues (c : HostCase) :
        (c.values.map (Nesting.list below indent)).map (·.spell outer) =
          c.values.map (Printer.listText printed false indent) := by
      simp [Function.comp_def, h.list, houter]
    simp only [Nesting.statement, Printer.statementLines, Markup.spell_append, Markup.spell_header,
      spell_line, spell_say, h.initial, htag, spell_all, List.map_map, Function.comp_def,
      h.caseLines outer houter, hvalues, Printer.unlines_flatMap, unlines_append,
      String.append_assoc]
  | typeSwitch init binding subject cases =>
    have htypes (c : HostTypeCase) :
        (c.types.map (fun types => say (Printer.typeCaseText file types))).map (·.spell outer) =
          c.types.map (Printer.typeCaseText file) := by
      simp [Function.comp_def]
    simp only [Nesting.statement, Printer.statementLines, Markup.spell_append, Markup.spell_header,
      spell_line, spell_say, h.initial, h.postfixOperand, inHeader_header, decide_true, spell_all,
      List.map_map, Function.comp_def, h.caseLines outer houter, htypes, Printer.unlines_flatMap,
      unlines_append, String.append_assoc]
  | select cases =>
    have hcomm (c : HostSelectCase) :
        (c.comm.map (below.text indent)).map (·.spell outer) =
          c.comm.map (printed.text false indent) := by
      simp [Function.comp_def, h.text, houter]
    simp only [Nesting.statement, Printer.statementLines, Markup.spell_append, spell_line,
      spell_say, spell_all, List.map_map, Function.comp_def, h.caseLines outer houter, hcomm,
      Printer.unlines_flatMap, unlines_append]
  | labeled label inner =>
    cases inner <;>
      simp [Nesting.statement, Printer.statementLines, spell_line, h.lines outer houter,
        unlines_cons, unlines_nil]
  | _ =>
    simp only [Nesting.statement, Printer.statementLines, spell_line, h.inline, houter,
      decide_false]

end Spells

/-! ## The whole tree -/

section

variable (file : HostFile) {outer : List Region}

/-- What follows the body of an `if` is set as it is printed, once the nodes below are. -/
theorem spell_elseLines (houter : ¬InHeader outer) (depth : Nat)
    (ih : ∀ d < depth, Spells file ⟨text file d, lines file d⟩
      ⟨Printer.text file d, Printer.lines file d⟩) (indent : Nat) (kind : HostKind) :
    (elseLines file depth indent kind).spell outer =
      unlines (Printer.elseLines file depth indent kind) := by
  induction depth generalizing kind with
  | zero => rfl
  | succ depth ihdepth =>
    have h := ih depth (Nat.lt_succ_self depth)
    have hrest := ihdepth (fun d hd => ih d (Nat.lt_succ_of_lt hd))
    cases kind with
    | ifElse init condition thenBranch branch =>
      cases branch with
      | none => simp only [elseLines, Printer.elseLines, spell_line, spell_say]
      | some branch =>
        cases hkind : file.tree.kind branch with
        | ifElse init condition thenBranch rest =>
          simp only [elseLines, Printer.elseLines, hkind]
          exact h.ifLines outer houter _ indent init condition thenBranch (hrest _)
        | _ =>
          simp only [elseLines, Printer.elseLines, hkind, Markup.spell_append, spell_line,
            spell_say, h.body outer houter, unlines_append]
    | _ => rfl

theorem spells (depth : Nat) :
    Spells file ⟨text file depth, lines file depth⟩
      ⟨Printer.text file depth, Printer.lines file depth⟩ := by
  induction depth using Nat.strongRecOn with
  | ind depth ih =>
    cases depth with
    | zero => exact ⟨fun _ _ _ => rfl, fun _ _ _ _ => rfl, fun _ _ _ _ _ => rfl⟩
    | succ depth =>
      have h := ih depth (Nat.lt_succ_self depth)
      constructor
      · intro outer indent id
        simp only [text, Printer.text]
        exact h.inline outer indent (file.tree.kind id)
      · intro outer houter indent id
        simp only [lines, Printer.lines]
        rw [Markup.spell_append, spell_sayLines, unlines_append]
        have hrest := spell_elseLines file houter depth (fun d hd => ih d (Nat.lt_succ_of_lt hd))
          indent (file.tree.kind id)
        rw [h.statement outer houter indent _ hrest]
      · intro header indent id typed hkind
        simp only [Printer.text, hkind, Printer.inlineText]

theorem spell_group (ids : List HostId) :
    (group file ids).spell [] = unlines (Printer.groupLines file ids) := by
  have hlines := (spells file (Printer.depthBound file)).lines [] not_inHeader_nil 0
  have hseparated (id : HostId) :
      (if Printer.isFunction (file.tree.kind id) then
        say "\n" ++ lines file (Printer.depthBound file) 0 id
      else lines file (Printer.depthBound file) 0 id).spell [] =
      unlines (if Printer.isFunction (file.tree.kind id) then
        "" :: Printer.lines file (Printer.depthBound file) 0 id
      else Printer.lines file (Printer.depthBound file) 0 id) := by
    split <;> simp [hlines, unlines_cons]
  cases ids with
  | nil => rfl
  | cons first rest =>
    simp only [group, Printer.groupLines, Markup.spell_append, spell_all, List.map_map,
      Function.comp_def, unlines_append, Printer.unlines_flatMap, hlines, hseparated]

theorem spell_joinGroups (groups : List (List HostId)) :
    (joinGroups (groups.map (group file))).spell [] =
      unlines (Printer.joinGroups (groups.map (Printer.groupLines file))) := by
  cases groups with
  | nil => rfl
  | cons first rest =>
    simp [joinGroups, Printer.joinGroups, List.flatMap_map, spell_all, Function.comp_def,
      unlines_append, Printer.unlines_flatMap, spell_group, unlines_cons]

end

end Nesting

/-- A file is printed as its markup is spelled out, each literal of a named type in parentheses just
in case it is in a header, and whatever is written leaves the flag for this as it was. -/
theorem HostFile.literals_parenthesized_in_headers (file : HostFile) :
    file.print = file.preamble ++ file.markup.spell [] ∧
      file.markup.write.run false = (file.markup.spell [], false) ∧
      ∀ (m : Markup) (outer : List Region),
        m.write.run (InHeader outer) = (m.spell outer, decide (InHeader outer)) := by
  refine ⟨?_, ?_, fun m outer => m.write_run outer⟩
  · rw [HostFile.markup, Nesting.spell_joinGroups, HostFile.preamble, ← unlines_append]
    rfl
  · have hwrite := file.markup.write_run []
    rwa [decide_eq_false not_inHeader_nil] at hwrite

end GoLowering
