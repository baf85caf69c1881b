import GoLowering.Host.Layout

/-!
# Pieces spelled out

The pieces of a file, spelled with its markers, are the text of the file (`print_eq_spell`). Each
part of the layout spells what the same part of the printer prints, once the nodes below do.
-/

namespace GoLowering

namespace Piece

variable (markers : Markers)

@[simp] theorem spell_nil : spell markers [] = "" := rfl

@[simp] theorem spell_cons (piece : Piece) (rest : List Piece) :
    spell markers (piece :: rest) = piece.text markers ++ spell markers rest := rfl

@[simp] theorem spell_append (xs ys : List Piece) :
    spell markers (xs ++ ys) = spell markers xs ++ spell markers ys := by
  induction xs with
  | nil => simp
  | cons x xs ih => rw [List.cons_append, spell_cons, ih, spell_cons, String.append_assoc]

@[simp] theorem text_plain (text : String) : (plain text).text markers = text := rfl

@[simp] theorem text_package (path : String) :
    (package path).text markers = packageName path := rfl

theorem spell_flatMap {α : Type} (xs : List α) (f : α → List Piece) :
    spell markers (xs.flatMap f) = String.join (xs.map (fun x => spell markers (f x))) := by
  induction xs with
  | nil => rfl
  | cons x xs ih => rw [List.flatMap_cons, spell_append, ih, List.map_cons, String.join_cons]

end Piece

open Piece (spell spell_append spell_flatMap)

namespace Printer

theorem unlines_nil : unlines [] = "" := rfl

theorem unlines_cons (text : String) (rest : List String) :
    unlines (text :: rest) = text ++ "\n" ++ unlines rest := by
  rw [unlines, List.map_cons, String.join_cons, unlines]

theorem unlines_append (xs ys : List String) : unlines (xs ++ ys) = unlines xs ++ unlines ys := by
  induction xs with
  | nil => simp [unlines_nil]
  | cons x xs ih => simp only [List.cons_append, unlines_cons, ih, String.append_assoc]

theorem unlines_flatMap {α : Type} (xs : List α) (f : α → List String) :
    unlines (xs.flatMap f) = String.join (xs.map (fun x => unlines (f x))) := by
  induction xs with
  | nil => rfl
  | cons x xs ih => rw [List.flatMap_cons, unlines_append, ih, List.map_cons, String.join_cons]

end Printer

namespace Layout

open Printer (unlines unlines_nil unlines_cons unlines_append unlines_flatMap)

section

variable (markers : Markers)

@[simp] theorem spell_say (text : String) : spell markers (say text) = text := by
  simp [say]

@[simp] theorem spell_parenthesized (pieces : List Piece) :
    spell markers (parenthesized pieces) = Printer.parenthesized (spell markers pieces) := by
  simp [parenthesized, Printer.parenthesized, String.append_assoc]

theorem spell_line (indent : Nat) (pieces : List Piece) :
    spell markers (line indent pieces) =
      unlines [Printer.line indent (spell markers pieces)] := by
  simp [line, Printer.line, unlines_cons, unlines_nil, String.append_assoc]

theorem spell_eachLine {α : Type} (indent : Nat) (xs : List α) (f : α → List Piece) :
    spell markers (xs.flatMap (fun x => line indent (f x))) =
      unlines (xs.map (fun x => Printer.line indent (spell markers (f x)))) := by
  simp [spell_flatMap, spell_line, unlines, Function.comp_def]

@[simp] theorem spell_separated (separator : String) (parts : List (List Piece)) :
    spell markers (separated separator parts) =
      String.intercalate separator (parts.map (spell markers)) := by
  induction parts with
  | nil => rfl
  | cons part parts ih =>
    cases parts with
    | nil => simp [separated]
    | cons next rest =>
      rw [separated, List.intercalate_cons_cons, spell_append, spell_append, ← separated, ih]
      simp [String.append_assoc]

theorem spell_member (package : Option String) (name : String) :
    spell markers (member package name) = qualifiedName package name := by
  cases package <;> simp [member, qualifiedName, String.append_assoc]

/-! ## Types -/

variable {types : TypeTable} {text : TypeId → List Piece}

theorem spell_basicType (kind : BasicType) : spell markers (basicType kind) = kind.name := by
  by_cases h : kind = .unsafePointer
  · subst h
    rfl
  · simp [basicType, h]

theorem spell_lastType (variadic : Bool) (id : TypeId) :
    spell markers (lastType types text variadic id) =
      match types.get id with
      | .slice element =>
        if variadic then "..." ++ spell markers (text element) else spell markers (text id)
      | _ => spell markers (text id) := by
  cases h : types.get id <;> cases variadic <;> simp [lastType, h]

theorem spell_resultTypes (results : List TypeId) :
    spell markers (resultTypes text results) =
      match results with
      | [] => ""
      | [single] => " " ++ spell markers (text single)
      | several =>
        " (" ++ String.intercalate ", " (several.map (fun id => spell markers (text id))) ++
          ")" := by
  unfold resultTypes
  split
  · rfl
  · simp
  · simp [Printer.parenthesized, Function.comp_def, ← String.append_assoc]

theorem spell_typeSignature (sig : Signature) :
    spell markers (typeSignature types text sig) =
      types.signatureText (fun id => spell markers (text id)) sig := by
  simp only [typeSignature, spell_append, spell_parenthesized, spell_separated, List.map_append,
    List.map_map, Function.comp_def, spell_lastType, spell_resultTypes]
  rfl

theorem spell_fieldPieces (field : Field) :
    spell markers (fieldPieces text field) =
      TypeTable.fieldText (fun id => spell markers (text id)) field := by
  rcases field with ⟨name, type, embedded, tag⟩
  cases embedded <;> cases tag <;> simp [fieldPieces, TypeTable.fieldText, String.append_assoc]

theorem spell_methodPieces (method : InterfaceMethod) :
    spell markers (methodPieces types text method) =
      method.name ++ ((types.signature? method.sig).map
        (types.signatureText (fun id => spell markers (text id)))).getD "" := by
  cases h : types.signature? method.sig <;> simp [methodPieces, h, spell_typeSignature]

theorem spell_typeEntry (entry : Ty) :
    spell markers (typeEntry types text entry) =
      types.entryText (fun id => spell markers (text id)) entry := by
  cases entry with
  | basic kind => exact spell_basicType markers kind
  | named package name => exact spell_member markers package name
  | func sig => simp [typeEntry, TypeTable.entryText, spell_typeSignature]
  | struct fields =>
    cases fields with
    | nil => simp [typeEntry, TypeTable.entryText]
    | cons field fields =>
      simp [typeEntry, TypeTable.entryText, spell_fieldPieces, Function.comp_def,
        String.append_assoc]
  | interface methods =>
    cases methods with
    | nil => simp [typeEntry, TypeTable.entryText]
    | cons method methods =>
      simp [typeEntry, TypeTable.entryText, spell_methodPieces, Function.comp_def,
        String.append_assoc]
  | chan element dir => cases dir <;> simp [typeEntry, TypeTable.entryText]
  | _ =>
    simp [typeEntry, TypeTable.entryText, Printer.parenthesized, Function.comp_def,
      String.append_assoc]

theorem spell_typeWithin (depth : Nat) (id : TypeId) :
    spell markers (typeWithin types depth id) = types.textWithin depth id := by
  induction depth generalizing id with
  | zero => rfl
  | succ depth ih =>
    rw [typeWithin, spell_typeEntry, TypeTable.textWithin]
    congr 1
    funext id
    exact ih id

@[simp] theorem spell_type (id : TypeId) : spell markers (type types id) = types.format id :=
  spell_typeWithin markers types.depthBound id

end

/-! ## Parts of nodes -/

section

variable (file : HostFile)

theorem spell_param (p : HostParam) :
    spell file.markers (param file.types p) = Printer.paramText file p := by
  rcases p with ⟨name, id⟩
  cases name <;> simp [param, Printer.paramText, Printer.typeText]

theorem spell_lastParam (p : HostParam) :
    spell file.markers (lastParam file.types p) = Printer.lastParamText file p := by
  rcases p with ⟨name, id⟩
  cases h : file.types.get id <;> cases name <;>
    simp [lastParam, Printer.lastParamText, Printer.typeText, h]

theorem spell_results (params : List HostParam) :
    spell file.markers (results file.types params) =
      match params with
      | [] => ""
      | [⟨none, single⟩] => " " ++ Printer.typeText file single
      | several =>
        " " ++ Printer.parenthesized
          (Printer.commaSeparated (several.map (Printer.paramText file))) := by
  unfold results
  split
  · rfl
  · simp [Printer.typeText]
  · simp [Printer.commaSeparated, Function.comp_def, spell_param]

theorem spell_signature (sig : HostSignature) :
    spell file.markers (signature file.types sig) = Printer.signatureText file sig := by
  have hlast (p : HostParam) :
      spell file.markers ((if sig.variadic then lastParam file.types else param file.types) p) =
        (if sig.variadic then Printer.lastParamText file else Printer.paramText file) p := by
    cases sig.variadic
    · exact spell_param file p
    · exact spell_lastParam file p
  simp only [signature, spell_append, spell_parenthesized, spell_separated, List.map_append,
    List.map_map, Function.comp_def, spell_param, hlast, spell_results]
  rfl

/-- The nodes below are laid out as they are printed. A type is spelled the same with any markers,
for nothing that has one is inside of it. -/
structure Spells (below : Below) (printed : Printer.Below) : Prop where
  text : ∀ header indent id,
    spell file.markers (below.text header indent id) = printed.text header indent id
  lines : ∀ indent id, spell file.markers (below.lines indent id) = unlines (printed.lines indent id)
  type : ∀ header indent id typed, file.tree.kind id = .typeExpression typed →
    spell [] (below.text header indent id) = printed.text header indent id

namespace Spells

variable {file} {below : Below} {printed : Printer.Below} (h : Spells file below printed)
include h

theorem postfixOperand (header : Bool) (indent : Nat) (id : HostId) :
    spell file.markers (postfixOperand file.tree below header indent id) =
      Printer.postfixOperand file printed header indent id := by
  cases hkind : file.tree.kind id with
  | typeExpression typed =>
    simp only [Layout.postfixOperand, Printer.postfixOperand, hkind, h.type header indent id typed]
    split <;> simp [h.text]
  | _ => simp [Layout.postfixOperand, Printer.postfixOperand, hkind, h.text]

theorem binaryOperand (header : Bool) (indent : Nat) (parent : BinaryOp) (right : Bool)
    (id : HostId) :
    spell file.markers (binaryOperand file.tree below header indent parent right id) =
      Printer.binaryOperand file printed header indent parent right id := by
  cases hkind : file.tree.kind id with
  | binary child left right =>
    simp only [Layout.binaryOperand, Printer.binaryOperand, hkind]
    split <;> simp [h.text]
  | _ => simp [Layout.binaryOperand, Printer.binaryOperand, hkind, h.text]

theorem list (header : Bool) (indent : Nat) (ids : List HostId) :
    spell file.markers (list below header indent ids) =
      Printer.listText printed header indent ids := by
  simp [Layout.list, Printer.listText, Printer.commaSeparated, Function.comp_def, h.text]

theorem element (header : Bool) (indent : Nat) (e : HostElement) :
    spell file.markers (element below header indent e) =
      Printer.elementText printed header indent e := by
  rcases e with ⟨key, value⟩
  cases key <;> simp [Layout.element, Printer.elementText, h.text, String.append_assoc]

theorem optional (header : Bool) (indent : Nat) (id : Option HostId) :
    spell file.markers (optional below header indent id) =
      Printer.optionalText printed header indent id := by
  cases id <;> simp [Layout.optional, Printer.optionalText, h.text]

theorem values (header : Bool) (indent : Nat) (keyword : String) (spec : HostValues) :
    spell file.markers (values file.types below header indent keyword spec) =
      Printer.valuesText file printed header indent keyword spec := by
  rcases spec with ⟨names, type, values, doc⟩
  cases type <;> cases values <;>
    simp [Layout.values, Printer.valuesText, Printer.typeText, h.list, String.append_assoc]

theorem each (indent : Nat) (ids : List HostId) :
    spell file.markers (ids.flatMap (below.lines indent)) =
      unlines (ids.flatMap (printed.lines indent)) := by
  simp only [spell_flatMap, unlines_flatMap, h.lines]

theorem body (indent : Nat) (id : HostId) :
    spell file.markers (body file.tree below indent id) =
      unlines (Printer.bodyLines file printed indent id) :=
  h.each (indent + 1) (file.tree.statements id)

theorem inline (header : Bool) (indent : Nat) (kind : HostKind) :
    spell file.markers (inline file.tree file.types below header indent kind) =
      Printer.inlineText file printed header indent kind := by
  cases kind with
  | composite typed elements =>
    have htyped : spell file.markers ((typed.map (Layout.type file.types)).getD []) =
        (typed.map (Printer.typeText file)).getD "" := by
      cases typed <;> simp [Printer.typeText]
    simp only [Layout.inline, Printer.inlineText]
    split <;>
      simp [htyped, Function.comp_def, h.element, Printer.commaSeparated, String.append_assoc]
  | ret results => 
    cases results <;> simp [Layout.inline, Printer.inlineText, h.list]
  | slice object low high max =>
    cases max <;>
      simp [Layout.inline, Printer.inlineText, h.postfixOperand, h.optional, String.append_assoc]
  | typeAssert object typed =>
    cases typed <;>
      simp [Layout.inline, Printer.inlineText, h.postfixOperand, Printer.typeText,
        String.append_assoc]
  | functionLiteral sig inner =>
    simp [Layout.inline, Printer.inlineText, h.body, spell_signature, String.append_assoc]
  | qualified package name =>
    simp [Layout.inline, Printer.inlineText, spell_member, qualifiedName]
  | _ =>
    simp [Layout.inline, Printer.inlineText, Printer.typeText, h.text, h.postfixOperand,
      h.binaryOperand, h.list, h.values, String.append_assoc]

/-! ## Statements -/

theorem initial (indent : Nat) (init : Option HostId) :
    spell file.markers (initial below indent init) = Printer.initText printed indent init := by
  cases init <;> simp [Layout.initial, Printer.initText, h.text]

theorem ifHeader (indent : Nat) (init : Option HostId) (condition : HostId) :
    spell file.markers (ifHeader below indent init condition) =
      Printer.ifHeader printed indent init condition := by
  cases init <;>
    simp [Layout.ifHeader, Printer.ifHeader, Layout.initial, h.text, String.append_assoc]

theorem loopHeader (indent : Nat) (init condition post : Option HostId) :
    spell file.markers (loopHeader below indent init condition post) =
      Printer.loopHeader printed indent init condition post := by
  cases init <;> cases condition <;> cases post <;>
    simp [Layout.loopHeader, Printer.loopHeader, h.optional, h.text, String.append_assoc]

theorem rangeHeader (indent : Nat) (key value : Option HostId) (define : Bool)
    (source : HostId) :
    spell file.markers (rangeHeader below indent key value define source) =
      Printer.rangeHeader printed indent key value define source := by
  cases key <;> cases value <;>
    simp [Layout.rangeHeader, Printer.rangeHeader, h.text, ← String.append_assoc]

theorem caseLines (indent : Nat) (label : Option (List Piece)) (body : List HostId) :
    spell file.markers (caseLines below indent label body) =
      unlines (Printer.caseLines printed indent (label.map (spell file.markers)) body) := by
  cases label <;>
    simp [Layout.caseLines, Printer.caseLines, spell_line, h.each, unlines_cons, unlines_nil,
      String.append_assoc]

theorem ifLines (opening : String) (indent : Nat) (init : Option HostId)
    (condition thenBranch : HostId) {rest : List Piece} {restLines : List String}
    (hrest : spell file.markers rest = unlines restLines) :
    spell file.markers (ifLines file.tree below opening indent init condition thenBranch rest) =
      unlines (Printer.ifLines file printed opening indent init condition thenBranch
        restLines) := by
  simp [Layout.ifLines, Printer.ifLines, spell_line, h.ifHeader, h.body, hrest, unlines_append,
    unlines_cons, unlines_nil, String.append_assoc]

theorem function (indent : Nat) (decl : HostFunction) :
    spell file.markers (function file.tree file.types below indent decl) =
      unlines (Printer.functionLines file printed indent decl) := by
  rcases decl with ⟨receiver, name, sig, body, doc⟩
  cases receiver <;>
    simp [Layout.function, Printer.functionLines, Layout.doc, spell_line, spell_param,
      spell_signature, h.body, unlines_append, unlines_cons, unlines_nil, String.append_assoc]

end Spells

theorem spell_typeCase (typed : List (Option TypeId)) :
    spell file.markers (typeCase file.types typed) = Printer.typeCaseText file typed := by
  have htype (id : Option TypeId) :
      spell file.markers ((id.map (type file.types)).getD (say "nil")) =
        (id.map (Printer.typeText file)).getD "nil" := by
    cases id <;> simp [Printer.typeText]
  simp [typeCase, Printer.typeCaseText, Printer.commaSeparated, Function.comp_def, htype]

theorem spell_typeDecl (indent : Nat) (name : String) (definition : TypeId) (isAlias : Bool) :
    spell file.markers (typeDecl file.types indent name definition isAlias) =
      unlines (Printer.typeDeclLines file indent name definition isAlias) := by
  have hformat : Printer.typeText file = file.types.format := rfl
  cases h : file.types.get definition with
  | struct fields =>
    cases fields <;>
      simp only [typeDecl, Printer.typeDeclLines, h, spell_append, spell_line, spell_eachLine,
        spell_fieldPieces, spell_say, spell_type, hformat, unlines_append]
  | interface methods =>
    cases methods <;>
      simp only [typeDecl, Printer.typeDeclLines, h, spell_append, spell_line, spell_eachLine,
        spell_methodPieces, spell_say, spell_type, hformat, unlines_append]
    rfl
  | _ => simp [typeDecl, Printer.typeDeclLines, h, spell_line, Printer.typeText]

theorem Spells.statement {below : Below} {printed : Printer.Below} (h : Spells file below printed)
    (indent : Nat) (kind : HostKind) {rest : List Piece} {restLines : List String}
    (hrest : spell file.markers rest = unlines restLines) :
    spell file.markers (statement file.tree file.types below indent kind rest) =
      unlines (Printer.statementLines file printed indent kind restLines) := by
  have hdoc (text : Option String) :
      spell file.markers (doc indent text) = unlines (Printer.docLines indent text) :=
    spell_say file.markers _
  cases kind with
  | varDecl spec | constDecl spec =>
    simp only [Layout.statement, Printer.statementLines, spell_append, hdoc, spell_line, h.inline,
      unlines_append]
  | typeDecl name definition isAlias text =>
    simp only [Layout.statement, Printer.statementLines, spell_append, hdoc, spell_typeDecl,
      unlines_append]
  | function decl => exact h.function indent decl
  | block statements =>
    simp only [Layout.statement, Printer.statementLines, spell_append, spell_line, spell_say,
      h.each, unlines_append]
  | ifElse init condition thenBranch branch => exact h.ifLines "" indent init condition _ hrest
  | loop init condition post body =>
    simp only [Layout.statement, Printer.statementLines, spell_append, spell_line, spell_say,
      h.loopHeader, h.body, unlines_append]
  | range key value define source body =>
    simp only [Layout.statement, Printer.statementLines, spell_append, spell_line, spell_say,
      h.rangeHeader, h.body, unlines_append]
  | switch init tag cases =>
    have htag : spell file.markers
        ((tag.map (fun t => below.text true indent t ++ say " ")).getD []) =
        (tag.map (fun t => printed.text true indent t ++ " ")).getD "" := by
      cases tag <;> simp [h.text]
    have hvalues (c : HostCase) :
        (c.values.map (Layout.list below false indent)).map (spell file.markers) =
          c.values.map (Printer.listText printed false indent) := by
      simp [Function.comp_def, h.list]
    simp only [Layout.statement, Printer.statementLines, spell_append, spell_line, spell_say,
      h.initial, htag, spell_flatMap, unlines_flatMap, h.caseLines, hvalues, unlines_append]
  | typeSwitch init binding subject cases =>
    have htypes (c : HostTypeCase) :
        (c.types.map (typeCase file.types)).map (spell file.markers) =
          c.types.map (Printer.typeCaseText file) := by
      simp [Function.comp_def, spell_typeCase]
    simp only [Layout.statement, Printer.statementLines, spell_append, spell_line, spell_say,
      h.initial, h.postfixOperand, spell_flatMap, unlines_flatMap, h.caseLines, htypes,
      unlines_append]
  | select cases =>
    have hcomm (c : HostSelectCase) :
        (c.comm.map (below.text false indent)).map (spell file.markers) =
          c.comm.map (printed.text false indent) := by
      simp [Function.comp_def, h.text]
    simp only [Layout.statement, Printer.statementLines, spell_append, spell_line, spell_say,
      spell_flatMap, unlines_flatMap, h.caseLines, hcomm, unlines_append]
  | labeled label body =>
    cases body <;>
      simp [Layout.statement, Printer.statementLines, spell_line, h.lines, unlines_cons,
        unlines_nil]
  | _ =>
    simp only [Layout.statement, Printer.statementLines, spell_line, h.inline]

/-! ## The whole tree -/

theorem spell_opening (id : HostId) (rest : List Piece) :
    spell file.markers (.opening id :: rest) =
      unlines (Printer.markerLines file id) ++ spell file.markers rest := by
  cases h : file.markers.lookup id <;>
    simp [Piece.text, Printer.markerLines, h, unlines_cons, unlines_nil]

/-- What follows the body of an `if` is laid out as it is printed, once the nodes below are. -/
theorem spell_elseLines (depth : Nat)
    (ih : ∀ d < depth, Spells file ⟨text file.tree file.types d, lines file.tree file.types d⟩
      ⟨Printer.text file d, Printer.lines file d⟩) (indent : Nat) (kind : HostKind) :
    spell file.markers (elseLines file.tree file.types depth indent kind) =
      unlines (Printer.elseLines file depth indent kind) := by
  induction depth generalizing kind with
  | zero => rfl
  | succ depth ihdepth =>
    have h := ih depth (Nat.lt_succ_self depth)
    have hrest := ihdepth (fun d hd => ih d (Nat.lt_succ_of_lt hd))
    cases kind with
    | ifElse init condition thenBranch branch =>
      cases branch with
      | none => simp only [elseLines, Printer.elseLines, spell_line, spell_say]
      | some branch =>
        cases hkind : file.tree.kind branch with
        | ifElse init condition thenBranch rest =>
          simp only [elseLines, Printer.elseLines, hkind]
          exact h.ifLines _ indent init condition thenBranch (hrest _)
        | _ =>
          simp only [elseLines, Printer.elseLines, hkind, spell_append, spell_line, spell_say,
            h.body, unlines_append]
    | _ => rfl

theorem spells (depth : Nat) :
    Spells file ⟨text file.tree file.types depth, lines file.tree file.types depth⟩
      ⟨Printer.text file depth, Printer.lines file depth⟩ := by
  induction depth using Nat.strongRecOn with
  | ind depth ih =>
    cases depth with
    | zero => exact ⟨fun _ _ _ => rfl, fun _ _ => rfl, fun _ _ _ _ _ => rfl⟩
    | succ depth =>
      have h := ih depth (Nat.lt_succ_self depth)
      constructor
      · intro header indent id
        simp only [text, Printer.text]
        exact h.inline header indent (file.tree.kind id)
      · intro indent id
        simp only [lines, Printer.lines]
        rw [spell_opening, h.statement file indent _ (spell_elseLines file depth
          (fun d hd => ih d (Nat.lt_succ_of_lt hd)) indent _), unlines_append]
      · intro header indent id typed hkind
        simp only [text, Printer.text, hkind, inline, Printer.inlineText]
        exact spell_type [] typed

theorem spell_group (ids : List HostId) :
    spell file.markers (group file.tree file.types (Printer.depthBound file) ids) =
      unlines (Printer.groupLines file ids) := by
  have hlines := (spells file (Printer.depthBound file)).lines 0
  have hseparated (id : HostId) : spell file.markers
      (if Printer.isFunction (file.tree.kind id) then
        say "\n" ++ lines file.tree file.types (Printer.depthBound file) 0 id
      else lines file.tree file.types (Printer.depthBound file) 0 id) =
      unlines (if Printer.isFunction (file.tree.kind id) then
        "" :: Printer.lines file (Printer.depthBound file) 0 id
      else Printer.lines file (Printer.depthBound file) 0 id) := by
    split <;> simp [hlines, unlines_cons]
  cases ids with
  | nil => rfl
  | cons first rest =>
    simp only [group, Printer.groupLines, spell_append, spell_flatMap, unlines_append,
      unlines_flatMap, hlines, hseparated]

theorem spell_joinGroups (groups : List (List HostId)) :
    spell file.markers (joinGroups
      (groups.map (group file.tree file.types (Printer.depthBound file)))) =
      unlines (Printer.joinGroups (groups.map (Printer.groupLines file))) := by
  cases groups with
  | nil => rfl
  | cons first rest =>
    simp [joinGroups, Printer.joinGroups, List.flatMap_map, spell_flatMap, unlines_append,
      unlines_flatMap, spell_group, unlines_cons]

end

end Layout

/-- The text of a file is what stands before its declarations and the pieces of these, spelled
with the markers of the file. -/
theorem HostFile.print_eq_spell (file : HostFile) :
    file.print = file.preamble ++ spell file.markers file.declarationPieces := by
  rw [HostFile.declarationPieces, Layout.spell_joinGroups, HostFile.preamble,
    ← Printer.unlines_append]
  rfl

/-- A file with a variable of type `map[string]unsafe.Pointer` and a function that calls
`fmt.Println` in a function literal, which is called with a `net/http.Client` as its argument. The
statement in the function literal has a marker. -/
def HostFile.callback : HostFile where
  package := "main"
  tree := ⟨#[
    ⟨.varDecl ⟨["cache"], some ⟨33⟩, [], none⟩, none⟩,
    ⟨.qualified "fmt" "Println", none⟩,
    ⟨.call ⟨1⟩ [] false, none⟩,
    ⟨.expression ⟨2⟩, none⟩,
    ⟨.block [⟨3⟩], none⟩,
    ⟨.functionLiteral ⟨[⟨some "c", ⟨32⟩⟩], [], false⟩ ⟨4⟩, none⟩,
    ⟨.composite (some ⟨32⟩) [], none⟩,
    ⟨.call ⟨5⟩ [⟨6⟩] false, none⟩,
    ⟨.expression ⟨7⟩, none⟩,
    ⟨.block [⟨8⟩], none⟩,
    ⟨.function ⟨none, "main", ⟨[], [], false⟩, ⟨9⟩, none⟩, none⟩]⟩
  types := ⟨TypeTable.initial.entries ++
    #[.named (some "net/http") "Client" none,
      .map TypeTable.string (TypeTable.basic .unsafePointer)]⟩
  typeDecls := []
  valueDecls := [⟨0⟩]
  functionDecls := [⟨10⟩]
  markers := [(⟨3⟩, ⟨"/foo/bar.gop", 3, some 1⟩)]

end GoLowering
