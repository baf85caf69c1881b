import GoLowering.Host.Layout
import GoLowering.Host.Rendering

/-!
# What a printed text tells

Of the pieces of a text only those count here that tell something: the packages, and the places
where declarations and statements begin. They depend neither on the indentation nor on whether the
text is in a header (`Layout.agrees`), and come part by part in the order of `HostKind.parts`.
-/

namespace GoLowering

namespace Piece

def isPlain : Piece → Bool
  | plain _ => true
  | _ => false

/-- The pieces that are more than text. -/
def telling (pieces : List Piece) : List Piece := pieces.filter (fun piece => !piece.isPlain)

@[simp] theorem telling_nil : telling [] = [] := rfl

@[simp] theorem telling_append (xs ys : List Piece) :
    telling (xs ++ ys) = telling xs ++ telling ys :=
  List.filter_append ..

@[simp] theorem telling_opening (id : HostId) (rest : List Piece) :
    telling (.opening id :: rest) = .opening id :: telling rest := rfl

theorem telling_flatMap {α : Type} (xs : List α) (f : α → List Piece) :
    telling (xs.flatMap f) = xs.flatMap (fun x => telling (f x)) :=
  List.filter_flatMap ..

theorem package_mem_telling {path : String} {pieces : List Piece} :
    .package path ∈ telling pieces ↔ .package path ∈ pieces := by
  simp [telling, isPlain]

theorem openings_telling (pieces : List Piece) : openings (telling pieces) = openings pieces := by
  induction pieces with
  | nil => rfl
  | cons piece rest ih =>
    cases piece <;> simp_all [telling, openings, isPlain]

end Piece

open Piece (telling telling_append telling_flatMap)

namespace HostTree

/-- What a part of a text tells, given what the nodes below tell, as statements of their own and on
one line. -/
def partTrace (tree : HostTree) (types : TypeTable) (trace : Bool → HostId → List Piece) :
    HostKind.Part → List Piece
  | .package path => [.package path]
  | .type id => telling (Layout.type types id)
  | .inline id => trace false id
  | .statement id => trace true id
  | .body id => (tree.statements id).flatMap (trace true)

def partsTrace (tree : HostTree) (types : TypeTable) (trace : Bool → HostId → List Piece)
    (kind : HostKind) : List Piece :=
  (kind.parts types).flatMap (tree.partTrace types trace)

mutual

/-- What the text of a node tells, at most `depth` levels deep. Only a node on lines of its own
opens anything. -/
def trace (tree : HostTree) (types : TypeTable) : Nat → Bool → HostId → List Piece
  | 0, _, _ => []
  | depth + 1, true, id =>
    .opening id :: (tree.partsTrace types (tree.trace types depth) (tree.kind id) ++
      tree.elseTrace types depth (tree.kind id))
  | depth + 1, false, id =>
    if (tree.kind id).isInline then tree.partsTrace types (tree.trace types depth) (tree.kind id)
    else []

/-- What the text after the body of an `if` tells. -/
def elseTrace (tree : HostTree) (types : TypeTable) : Nat → HostKind → List Piece
  | 0, _ => []
  | depth + 1, kind =>
    match kind.elseBranch? with
    | none => []
    | some branch =>
      if (tree.kind branch).isIf then
        tree.partsTrace types (tree.trace types depth) (tree.kind branch) ++
          tree.elseTrace types depth (tree.kind branch)
      else (tree.statements branch).flatMap (tree.trace types depth true)

end

theorem elseTrace_eq_nil (tree : HostTree) (types : TypeTable) (depth : Nat) {kind : HostKind}
    (h : kind.isIf = false) : tree.elseTrace types depth kind = [] := by
  cases depth with
  | zero => rfl
  | succ depth => cases kind <;> first | rfl | simp [HostKind.isIf] at h

end HostTree

namespace Layout

section

@[simp] theorem telling_say (text : String) : telling (say text) = [] := rfl

@[simp] theorem telling_parenthesized (pieces : List Piece) :
    telling (parenthesized pieces) = telling pieces := by
  simp [parenthesized]

@[simp] theorem telling_line (indent : Nat) (pieces : List Piece) :
    telling (line indent pieces) = telling pieces := by
  simp [line]

@[simp] theorem telling_separated (separator : String) (parts : List (List Piece)) :
    telling (separated separator parts) = parts.flatMap telling := by
  induction parts with
  | nil => rfl
  | cons part parts ih =>
    cases parts with
    | nil => simp [separated]
    | cons next rest =>
      rw [separated, List.intercalate_cons_cons, telling_append, telling_append, ← separated, ih]
      simp

theorem telling_member (package : Option String) (name : String) :
    telling (member package name) = package.toList.map .package := by
  cases package <;> rfl

/-! ## Types -/

variable {types : TypeTable} {text : TypeId → List Piece}

theorem telling_lastType (variadic : Bool) (id : TypeId) :
    telling (lastType types text variadic id) = telling (text (types.lastWritten variadic id)) := by
  cases h : types.get id <;> cases variadic <;> simp [lastType, TypeTable.lastWritten, h]

theorem telling_resultTypes (results : List TypeId) :
    telling (resultTypes text results) = results.flatMap (fun id => telling (text id)) := by
  unfold resultTypes
  split <;> simp [List.flatMap_map]

theorem telling_typeSignature (sig : Signature) :
    telling (typeSignature types text sig) =
      (types.writtenSignature sig).flatMap (fun id => telling (text id)) := by
  simp [typeSignature, TypeTable.writtenSignature, TypeTable.writtenParams, List.flatMap_map,
    telling_lastType, telling_resultTypes, -List.map_dropLast]

theorem telling_fieldPieces (field : Field) :
    telling (fieldPieces text field) = telling (text field.type) := by
  rcases field with ⟨name, type, embedded, tag⟩
  cases embedded <;> cases tag <;> simp [fieldPieces]

theorem telling_methodPieces (method : InterfaceMethod) :
    telling (methodPieces types text method) =
      ((types.signature? method.sig).toList.flatMap types.writtenSignature).flatMap
        (fun id => telling (text id)) := by
  cases h : types.signature? method.sig <;> simp [methodPieces, h, telling_typeSignature]

theorem telling_basicType (kind : BasicType) :
    telling (basicType kind) = (TypeTable.ownPackage? (.basic kind)).toList.map .package := by
  cases kind <;> rfl

/-- An entry tells its own package, and what the types tell that it shows. -/
theorem telling_typeEntry (entry : Ty) :
    telling (typeEntry types text entry) =
      (TypeTable.ownPackage? entry).toList.map .package ++
        (types.written entry).flatMap (fun id => telling (text id)) := by
  cases entry with
  | basic kind => simp [typeEntry, telling_basicType, TypeTable.written, TypeTable.mentioned]
  | named package name definition =>
    simp [typeEntry, telling_member, TypeTable.ownPackage?, TypeTable.written,
      TypeTable.mentioned]
  | struct fields =>
    cases fields <;>
      simp [typeEntry, TypeTable.ownPackage?, TypeTable.written, TypeTable.mentioned,
        List.flatMap_map, telling_fieldPieces]
  | interface methods =>
    cases methods <;>
      simp [typeEntry, TypeTable.ownPackage?, TypeTable.written, List.flatMap_map,
        telling_methodPieces, List.flatMap_assoc]
  | func sig => simp [typeEntry, TypeTable.ownPackage?, TypeTable.written, telling_typeSignature]
  | _ =>
    simp [typeEntry, TypeTable.ownPackage?, TypeTable.written, TypeTable.mentioned,
      List.flatMap_map]

/-- Nothing begins in a type. -/
theorem opening_notMem_typeWithin (depth : Nat) (id : TypeId) (node : HostId) :
    .opening node ∉ telling (typeWithin types depth id) := by
  induction depth generalizing id with
  | zero => simp [typeWithin]
  | succ depth ih => simp [typeWithin, telling_typeEntry, ih]

theorem opening_notMem_types (ids : List TypeId) (node : HostId) :
    .opening node ∉ ids.flatMap (fun id => telling (type types id)) := by
  simp [type, opening_notMem_typeWithin]

/-- What the declaration of a type tells. -/
theorem telling_typeDecl (indent : Nat) (name : String) (definition : TypeId) (isAlias : Bool) :
    telling (typeDecl types indent name definition isAlias) =
      (types.declared definition).flatMap (fun id => telling (type types id)) := by
  cases h : types.get definition with
  | struct fields =>
    cases fields <;>
      simp [typeDecl, TypeTable.declared, TypeTable.written, TypeTable.mentioned, h,
        telling_flatMap, telling_fieldPieces, List.flatMap_map]
  | interface methods =>
    cases methods <;>
      simp [typeDecl, TypeTable.declared, TypeTable.written, h, telling_flatMap,
        telling_methodPieces, List.flatMap_assoc]
  | _ => simp [typeDecl, TypeTable.declared, h]

/-! ## Parts of nodes -/

theorem telling_param (p : HostParam) :
    telling (param types p) = telling (type types p.type) := by
  rcases p with ⟨name, id⟩
  cases name <;> simp [param]

theorem telling_lastParam (p : HostParam) :
    telling (lastParam types p) = telling (type types (types.lastWritten true p.type)) := by
  rcases p with ⟨name, id⟩
  cases h : types.get id <;> cases name <;> simp [lastParam, TypeTable.lastWritten, h]

theorem lastWritten_false (id : TypeId) : types.lastWritten false id = id := by
  cases h : types.get id <;> simp [TypeTable.lastWritten, h]

theorem telling_results (params : List HostParam) :
    telling (results types params) =
      (params.map (·.type)).flatMap (fun id => telling (type types id)) := by
  unfold results
  split <;> simp [List.flatMap_map, telling_param]

theorem telling_signature (sig : HostSignature) :
    telling (signature types sig) =
      (sig.written types).flatMap (fun id => telling (type types id)) := by
  have hlast (p : HostParam) :
      telling ((if sig.variadic then lastParam types else param types) p) =
        telling (type types (types.lastWritten sig.variadic p.type)) := by
    cases sig.variadic
    · rw [lastWritten_false]
      exact telling_param p
    · exact telling_lastParam p
  have hdrop : (sig.params.map (·.type)).dropLast = sig.params.dropLast.map (·.type) :=
    List.map_dropLast.symm
  simp [signature, HostSignature.written, TypeTable.writtenParams, List.flatMap_map,
    telling_param, hlast, telling_results, hdrop, Option.toList_map, -List.map_dropLast]

end

/-! ## Nodes -/

section

variable (tree : HostTree) (types : TypeTable)

/-- What the nodes below tell depends only on whether they stand on lines of their own. -/
structure Agrees (below : Below) (trace : Bool → HostId → List Piece) : Prop where
  text : ∀ header indent id, telling (below.text header indent id) = trace false id
  lines : ∀ indent id, telling (below.lines indent id) = trace true id

namespace Agrees

variable {tree types} {below : Below} {trace : Bool → HostId → List Piece}
  (h : Agrees below trace)
include h

theorem postfixOperand (header : Bool) (indent : Nat) (id : HostId) :
    telling (postfixOperand tree below header indent id) = trace false id := by
  cases hkind : tree.kind id with
  | typeExpression typed =>
    simp only [Layout.postfixOperand, hkind]
    split <;> simp [h.text]
  | _ => simp [Layout.postfixOperand, hkind, h.text]

theorem binaryOperand (header : Bool) (indent : Nat) (parent : BinaryOp) (right : Bool)
    (id : HostId) :
    telling (binaryOperand tree below header indent parent right id) = trace false id := by
  cases hkind : tree.kind id with
  | binary child left right =>
    simp only [Layout.binaryOperand, hkind]
    split <;> simp [h.text]
  | _ => simp [Layout.binaryOperand, hkind, h.text]

theorem list (header : Bool) (indent : Nat) (ids : List HostId) :
    telling (list below header indent ids) = ids.flatMap (trace false) := by
  simp [Layout.list, List.flatMap_map, h.text]

theorem element (header : Bool) (indent : Nat) (e : HostElement) :
    telling (element below header indent e) =
      e.key.toList.flatMap (trace false) ++ trace false e.value := by
  rcases e with ⟨key, value⟩
  cases key <;> simp [Layout.element, h.text]

theorem optional (header : Bool) (indent : Nat) (id : Option HostId) :
    telling (optional below header indent id) = id.toList.flatMap (trace false) := by
  cases id <;> simp [Layout.optional, h.text]

theorem values (header : Bool) (indent : Nat) (keyword : String) (spec : HostValues) :
    telling (values types below header indent keyword spec) =
      spec.type.toList.flatMap (fun id => telling (type types id)) ++
        spec.values.flatMap (trace false) := by
  rcases spec with ⟨names, type, values, doc⟩
  cases type <;> cases values <;> simp [Layout.values, h.list]

theorem each (indent : Nat) (ids : List HostId) :
    telling (ids.flatMap (below.lines indent)) = ids.flatMap (trace true) := by
  simp [telling_flatMap, h.lines]

theorem body (indent : Nat) (id : HostId) :
    telling (body tree below indent id) = (tree.statements id).flatMap (trace true) :=
  h.each (indent + 1) (tree.statements id)

/-- What is printed on one line tells what its parts tell. -/
theorem inline (header : Bool) (indent : Nat) {kind : HostKind} (hkind : kind.isInline) :
    telling (inline tree types below header indent kind) = tree.partsTrace types trace kind := by
  cases kind with
  | composite typed elements =>
    have htyped : telling ((typed.map (type types)).getD []) =
        typed.toList.flatMap (fun id => telling (type types id)) := by
      cases typed <;> simp
    simp only [Layout.inline]
    split <;>
      simp [htyped, HostTree.partsTrace, HostKind.parts, HostTree.partTrace, List.flatMap_map,
        List.flatMap_assoc, h.element]
  | functionLiteral sig inner =>
    simp [Layout.inline, HostTree.partsTrace, HostKind.parts, HostTree.partTrace,
      List.flatMap_map, telling_signature, h.body]
  | slice object low high max =>
    cases max <;>
      simp [Layout.inline, HostTree.partsTrace, HostKind.parts, HostTree.partTrace,
        List.flatMap_map, h.postfixOperand, h.optional]
  | typeAssert object typed =>
    cases typed <;>
      simp [Layout.inline, HostTree.partsTrace, HostKind.parts, HostTree.partTrace,
        h.postfixOperand]
  | ret results =>
    cases results <;>
      simp [Layout.inline, HostTree.partsTrace, HostKind.parts, HostTree.partTrace,
        List.flatMap_map, h.list]
  | typeDecl | block | ifElse | loop | range | switch | typeSwitch | select | labeled
  | function => simp [HostKind.isInline] at hkind
  | _ =>
    simp [Layout.inline, HostTree.partsTrace, HostKind.parts, HostTree.partTrace,
      List.flatMap_map, telling_member, h.text, h.postfixOperand, h.binaryOperand, h.list,
      h.values]

omit h in
theorem inline_eq_nil (header : Bool) (indent : Nat) {kind : HostKind}
    (hkind : kind.isInline = false) : Layout.inline tree types below header indent kind = [] := by
  cases kind <;> first | rfl | simp [HostKind.isInline] at hkind

theorem initial (indent : Nat) (init : Option HostId) :
    telling (initial below indent init) = init.toList.flatMap (trace false) := by
  cases init <;> simp [Layout.initial, h.text]

theorem loopHeader (indent : Nat) (init condition post : Option HostId) :
    telling (loopHeader below indent init condition post) =
      (init.toList ++ condition.toList ++ post.toList).flatMap (trace false) := by
  cases init <;> cases condition <;> cases post <;>
    simp [Layout.loopHeader, h.optional, h.text]

theorem rangeHeader (indent : Nat) (key value : Option HostId) (define : Bool)
    (source : HostId) :
    telling (rangeHeader below indent key value define source) =
      (key.toList ++ value.toList ++ [source]).flatMap (trace false) := by
  cases key <;> cases value <;> simp [Layout.rangeHeader, h.text]

theorem caseLines (indent : Nat) (label : Option (List Piece)) (body : List HostId) :
    telling (caseLines below indent label body) =
      telling (label.getD []) ++ body.flatMap (trace true) := by
  cases label <;> simp [Layout.caseLines, h.each]

theorem ifLines (opening : String) (indent : Nat) (init : Option HostId)
    (condition thenBranch : HostId) (elseBranch : Option HostId) (rest : List Piece) :
    telling (ifLines tree below opening indent init condition thenBranch rest) =
      tree.partsTrace types trace (.ifElse init condition thenBranch elseBranch) ++
        telling rest := by
  simp [Layout.ifLines, Layout.ifHeader, h.initial, h.text, h.body, HostTree.partsTrace,
    HostKind.parts, HostTree.partTrace, List.flatMap_map]

/-- A statement tells what its parts tell, and then what follows the body of an `if`. -/
theorem statement (indent : Nat) (kind : HostKind) (rest : List Piece) :
    telling (statement tree types below indent kind rest) =
      tree.partsTrace types trace kind ++ if kind.isIf then telling rest else [] := by
  have hdoc (text : Option String) : telling (doc indent text) = [] := rfl
  cases kind with
  | varDecl spec | constDecl spec =>
    simp only [Layout.statement, telling_append, hdoc, telling_line, HostKind.isIf,
      Bool.false_eq_true, if_false, List.nil_append, List.append_nil]
    exact h.inline false indent rfl
  | typeDecl name definition isAlias text =>
    simp [Layout.statement, hdoc, telling_typeDecl, HostTree.partsTrace, HostKind.parts,
      HostTree.partTrace, List.flatMap_map, HostKind.isIf]
  | function decl =>
    rcases decl with ⟨receiver, name, sig, body, text⟩
    cases receiver <;>
      simp [Layout.statement, Layout.function, hdoc, telling_param, telling_signature, h.body,
        HostTree.partsTrace, HostKind.parts, HostTree.partTrace, List.flatMap_map,
        HostKind.isIf]
  | block statements =>
    simp [Layout.statement, h.each, HostTree.partsTrace, HostKind.parts, HostTree.partTrace,
      List.flatMap_map, HostKind.isIf]
  | ifElse init condition thenBranch branch =>
    exact h.ifLines "" indent init condition thenBranch branch rest
  | loop init condition post body =>
    simp [Layout.statement, h.loopHeader, h.body, HostTree.partsTrace, HostKind.parts,
      HostTree.partTrace, List.flatMap_map, HostKind.isIf]
  | range key value define source body =>
    simp [Layout.statement, h.rangeHeader, h.body, HostTree.partsTrace, HostKind.parts,
      HostTree.partTrace, List.flatMap_map, HostKind.isIf]
  | switch init tag cases =>
    have htag : telling ((tag.map (fun t => below.text true indent t ++ say " ")).getD []) =
        tag.toList.flatMap (trace false) := by
      cases tag <;> simp [h.text]
    have hvalues (c : HostCase) :
        telling ((c.values.map (Layout.list below false indent)).getD []) =
          (c.values.getD []).flatMap (trace false) := by
      cases c.values <;> simp [h.list]
    simp [Layout.statement, h.initial, htag, telling_flatMap, h.caseLines, hvalues,
      HostTree.partsTrace, HostKind.parts, HostTree.partTrace, List.flatMap_map,
      List.flatMap_assoc, HostKind.isIf]
  | typeSwitch init binding subject cases =>
    have htypes (c : HostTypeCase) :
        telling ((c.types.map (typeCase types)).getD []) =
          ((c.types.getD []).filterMap id).flatMap (fun t => telling (type types t)) := by
      cases c.types with
      | none => rfl
      | some typed =>
        simp only [Option.map_some, Option.getD_some, typeCase, telling_separated,
          List.flatMap_map]
        induction typed with
        | nil => rfl
        | cons first rest ihrest => cases first <;> simp [ihrest]
    simp [Layout.statement, h.initial, h.postfixOperand, telling_flatMap, h.caseLines, htypes,
      HostTree.partsTrace, HostKind.parts, HostTree.partTrace, List.flatMap_map,
      List.flatMap_assoc, HostKind.isIf]
  | select cases =>
    have hcomm (c : HostSelectCase) :
        telling ((c.comm.map (below.text false indent)).getD []) =
          c.comm.toList.flatMap (trace false) := by
      cases c.comm <;> simp [h.text]
    simp [Layout.statement, telling_flatMap, h.caseLines, hcomm, HostTree.partsTrace,
      HostKind.parts, HostTree.partTrace, List.flatMap_map, List.flatMap_assoc, HostKind.isIf]
  | labeled label body =>
    cases body <;>
      simp [Layout.statement, h.lines, HostTree.partsTrace, HostKind.parts, HostTree.partTrace,
        HostKind.isIf]
  | _ =>
    simp only [Layout.statement, telling_line, HostKind.isIf, Bool.false_eq_true, if_false,
      List.append_nil]
    exact h.inline false indent rfl

end Agrees

/-! ## The whole tree -/

/-- What follows the body of an `if` tells the same at any indentation. -/
theorem telling_elseLines (depth : Nat)
    (ih : ∀ d < depth, Agrees ⟨text tree types d, lines tree types d⟩
      (tree.trace types d)) (indent : Nat) (kind : HostKind) :
    telling (elseLines tree types depth indent kind) = tree.elseTrace types depth kind := by
  induction depth generalizing kind with
  | zero => rfl
  | succ depth ihdepth =>
    have h := ih depth (Nat.lt_succ_self depth)
    have hrest := ihdepth (fun d hd => ih d (Nat.lt_succ_of_lt hd))
    cases kind with
    | ifElse init condition thenBranch branch =>
      cases branch with
      | none => rfl
      | some branch =>
        cases hkind : tree.kind branch with
        | ifElse init condition thenBranch rest =>
          simp only [elseLines, HostTree.elseTrace, HostKind.elseBranch?, hkind]
          exact (h.ifLines _ indent init condition thenBranch rest _).trans (by rw [hrest]; rfl)
        | _ =>
          simp [elseLines, HostTree.elseTrace, HostKind.elseBranch?, hkind, h.body,
            HostKind.isIf]
    | _ => rfl

/-- The text of a node tells what its trace tells. -/
theorem agrees (depth : Nat) :
    Agrees ⟨text tree types depth, lines tree types depth⟩
      (tree.trace types depth) := by
  induction depth using Nat.strongRecOn with
  | ind depth ih =>
    cases depth with
    | zero => exact ⟨fun _ _ _ => rfl, fun _ _ => rfl⟩
    | succ depth =>
      have h := ih depth (Nat.lt_succ_self depth)
      constructor
      · intro header indent id
        simp only [text, HostTree.trace]
        split
        · rename_i hinline
          exact h.inline header indent hinline
        · rename_i hinline
          rw [Agrees.inline_eq_nil header indent (Bool.eq_false_iff.mpr hinline)]
          rfl
      · intro indent id
        have helse := telling_elseLines tree types depth
          (fun d hd => ih d (Nat.lt_succ_of_lt hd)) indent (tree.kind id)
        simp only [lines, HostTree.trace, Piece.telling_opening, h.statement, helse]
        split
        · rfl
        · rename_i hif
          rw [HostTree.elseTrace_eq_nil tree types depth (Bool.eq_false_iff.mpr hif)]

theorem telling_group (depth : Nat) (ids : List HostId) :
    telling (group tree types depth ids) = ids.flatMap (tree.trace types depth true) := by
  have hlines := (agrees tree types depth).lines 0
  have hseparated (id : HostId) : telling
      (if Printer.isFunction (tree.kind id) then say "\n" ++ lines tree types depth 0 id
      else lines tree types depth 0 id) = tree.trace types depth true id := by
    split <;> simp [hlines]
  cases ids with
  | nil => rfl
  | cons first rest =>
    simp only [group, telling_append, telling_flatMap, hlines, hseparated, List.flatMap_cons]

theorem telling_joinGroups (groups : List (List Piece)) :
    telling (joinGroups groups) = groups.flatMap telling := by
  cases groups <;> simp [joinGroups, telling_flatMap]

end

end Layout

/-! ## Depth -/

namespace HostTree

/-- A node that has a text within some levels. -/
abbrev RendersWithin (tree : HostTree) (types : TypeTable) : Nat → HostId → Prop :=
  SettlesWithin (tree.printed types) (tree.IsPrintable types)

theorem RendersWithin.shown {tree : HostTree} {types : TypeTable} {level : Nat}
    {id : HostId} (h : tree.RendersWithin types (level + 1) id) {part : HostKind.Part}
    (hpart : part ∈ (tree.kind id).parts types) {y : HostId} (hy : y ∈ tree.shown part) :
    tree.RendersWithin types level y :=
  h.2 y (List.mem_append_left _ (List.mem_flatMap.mpr ⟨part, hpart, hy⟩))

theorem RendersWithin.branch {tree : HostTree} {types : TypeTable} {level : Nat}
    {id branch : HostId} (h : tree.RendersWithin types (level + 1) id)
    (hbranch : (tree.kind id).elseBranch? = some branch) {y : HostId}
    (hy : y ∈ tree.statements branch) : tree.RendersWithin types level y :=
  h.2 y (List.mem_append_right _ (by simpa [hbranch] using hy))

section

variable {tree : HostTree} {types : TypeTable}

/-- A trace that goes as deep as a node needs is the whole trace. -/
def TracesWithin (tree : HostTree) (types : TypeTable) (level : Nat) : Prop :=
  ∀ id depth depth' (opens : Bool), tree.RendersWithin types level id → 2 * level ≤ depth →
    2 * level ≤ depth' → tree.trace types depth opens id = tree.trace types depth' opens id

theorem partTrace_eq {level depth depth' : Nat} (h : TracesWithin tree types level)
    (hdepth : 2 * level ≤ depth) (hdepth' : 2 * level ≤ depth') {part : HostKind.Part}
    (hshown : ∀ y ∈ tree.shown part, tree.RendersWithin types level y) :
    tree.partTrace types (tree.trace types depth) part =
      tree.partTrace types (tree.trace types depth') part := by
  cases part with
  | package | type => rfl
  | inline id => exact h id _ _ _ (hshown id (List.mem_singleton_self id)) hdepth hdepth'
  | statement id => exact h id _ _ _ (hshown id (List.mem_singleton_self id)) hdepth hdepth'
  | body id => exact List.flatMap_congr (fun y hy => h y _ _ _ (hshown y hy) hdepth hdepth')

theorem partsTrace_eq {level depth depth' : Nat} (h : TracesWithin tree types level)
    (hdepth : 2 * level ≤ depth) (hdepth' : 2 * level ≤ depth') {id : HostId}
    (hid : tree.RendersWithin types (level + 1) id) :
    tree.partsTrace types (tree.trace types depth) (tree.kind id) =
      tree.partsTrace types (tree.trace types depth') (tree.kind id) :=
  List.flatMap_congr (fun _ hpart =>
    partTrace_eq h hdepth hdepth' (fun _ hy => hid.shown hpart hy))

/-- An `if` is its own only statement. -/
theorem mem_statements_of_isIf {id : HostId} (h : (tree.kind id).isIf) :
    id ∈ tree.statements id := by
  cases hkind : tree.kind id <;> simp_all [statements, HostKind.isIf]

theorem elseTrace_eq {level : Nat} (h : ∀ l ≤ level, TracesWithin tree types l)
    {depth depth' : Nat} (hdepth : 2 * level + 1 ≤ depth) (hdepth' : 2 * level + 1 ≤ depth')
    {kind : HostKind} (hbranch : ∀ branch ∈ kind.elseBranch?, ∀ y ∈ tree.statements branch,
      tree.RendersWithin types level y) :
    tree.elseTrace types depth kind = tree.elseTrace types depth' kind := by
  induction level using Nat.strongRecOn generalizing depth depth' kind with
  | ind level ih =>
    obtain ⟨depth, rfl⟩ := Nat.exists_eq_add_of_le' (Nat.le_of_add_left_le hdepth)
    obtain ⟨depth', rfl⟩ := Nat.exists_eq_add_of_le' (Nat.le_of_add_left_le hdepth')
    cases hkind : kind.elseBranch? with
    | none => simp [elseTrace, hkind]
    | some branch =>
      simp only [hkind, Option.mem_some_iff, forall_eq'] at hbranch
      simp only [elseTrace, hkind]
      split
      · rename_i hif
        have hself : tree.RendersWithin types level branch :=
          hbranch branch (mem_statements_of_isIf hif)
        cases level with
        | zero => exact hself.elim
        | succ level =>
          have hrest := ih level (Nat.lt_succ_self level) (fun l hl => h l (Nat.le_succ_of_le hl))
            (show 2 * level + 1 ≤ depth by omega) (show 2 * level + 1 ≤ depth' by omega)
            (fun b hb y hy => hself.branch hb hy)
          rw [hrest, partsTrace_eq (h level (Nat.le_succ level))
            (show 2 * level ≤ depth by omega) (show 2 * level ≤ depth' by omega) hself]
      · exact List.flatMap_congr (fun y hy =>
          h level (Nat.le_refl level) y _ _ _ (hbranch y hy) (by omega) (by omega))

theorem tracesWithin (tree : HostTree) (types : TypeTable) (level : Nat) :
    TracesWithin tree types level := by
  induction level using Nat.strongRecOn with
  | ind level ih =>
    intro id depth depth' opens hid hdepth hdepth'
    cases level with
    | zero => exact hid.elim
    | succ level =>
      obtain ⟨depth, rfl⟩ := Nat.exists_eq_add_of_le' (show 1 ≤ depth by omega)
      obtain ⟨depth', rfl⟩ := Nat.exists_eq_add_of_le' (show 1 ≤ depth' by omega)
      have hparts := partsTrace_eq (ih level (Nat.lt_succ_self level))
        (show 2 * level ≤ depth by omega) (show 2 * level ≤ depth' by omega) hid
      have helse := elseTrace_eq (fun l hl => ih l (Nat.lt_succ_of_le hl))
        (show 2 * level + 1 ≤ depth by omega) (show 2 * level + 1 ≤ depth' by omega)
        (fun b hb y hy => hid.branch hb hy)
      cases opens <;> simp only [trace, hparts, helse]

end

end HostTree

/-! ## Files -/

/-- What the declarations of a file tell. -/
theorem HostFile.telling_declarationPieces (file : HostFile) :
    telling file.declarationPieces =
      file.declarations.flatMap
        (file.tree.trace file.types (Printer.depthBound file) true) := by
  rw [HostFile.declarationPieces, Layout.telling_joinGroups, List.flatMap_map]
  simp only [Layout.telling_group]
  have hgroups (groups : List (List HostId)) (f : HostId → List Piece) :
      (groups.filter (!·.isEmpty)).flatMap (·.flatMap f) = groups.flatten.flatMap f := by
    induction groups with
    | nil => rfl
    | cons group groups ih => cases group <;> simp_all
  exact hgroups file.groups _

end GoLowering
