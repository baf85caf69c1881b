import GoLowering.Lowering.Unit
import GoLowering.Proofs.PrintedPieces
import GoLowering.Proofs.PrintedTraces
import GoLowering.Proofs.Situations

/-!
# Markers on lines of their own

Declarations and statements begin at the begin of a line, also those in function literals, wherever
these stand (`Layout.placed`). So a marker is a line of its own, and a text with markers differs
from the text without them in these lines only (`print_differs_in_markers_only`).
-/

namespace GoLowering

/-! ## Lines that are markers -/

/-- What every marker begins with. -/
def markerHead : String := "//line "

/-- Whether a line is no marker. -/
def isKept (line : List Char) : Bool := !markerHead.toList.isPrefixOf line

/-- The lines of a text that are no markers. -/
def keptLines (text : List Char) : List (List Char) :=
  (Source.fields '\n' text).filter isKept

/-- A text less the lines that are markers. -/
def withoutMarkers (text : String) : String :=
  String.ofList (List.intercalate ['\n'] (keptLines text.toList))

theorem fields_line {separator : Char} {line rest : List Char} (h : separator ∉ line) :
    Source.fields separator (line ++ separator :: rest) =
      line :: Source.fields separator rest := by
  induction line with
  | nil => simp [Source.fields]
  | cons c line ih =>
    simp only [List.mem_cons, not_or] at h
    have hc : (c == separator) = false := by simpa using Ne.symm h.1
    simp [Source.fields, hc, ih h.2]

theorem keptLines_line {line rest : List Char} (h : '\n' ∉ line) :
    keptLines (line ++ '\n' :: rest) = [line].filter isKept ++ keptLines rest := by
  rw [keptLines, fields_line h, ← List.singleton_append, List.filter_append]
  rfl

theorem keptLines_marker {line rest : List Char} (h : '\n' ∉ line)
    (hmarker : markerHead.toList <+: line) : keptLines (line ++ '\n' :: rest) = keptLines rest := by
  rw [keptLines_line h, List.filter_cons_of_neg (by simpa [isKept] using hmarker)]
  rfl

theorem newline_notMem_toString (n : Nat) : '\n' ∉ (toString n).toList := by
  intro h
  rw [Nat.toString_eq_repr, Nat.toList_repr] at h
  exact absurd (Nat.isDigit_of_mem_toDigits (by decide) (by decide) h) (by decide)

theorem LineMarker.newline_notMem_text {marker : LineMarker} (h : '\n' ∉ marker.path.toList) :
    '\n' ∉ marker.text.toList := by
  rcases marker with ⟨path, line, column⟩
  have hline := newline_notMem_toString line
  cases column with
  | none => simp_all [LineMarker.text]
  | some column =>
    have hcolumn := newline_notMem_toString column
    simp_all [LineMarker.text]

theorem LineMarker.markerHead_prefix_text (marker : LineMarker) :
    markerHead.toList <+: marker.text.toList := by
  simp [LineMarker.text, markerHead, String.toList_append]

/-! ## Where declarations and statements begin -/

/-- Whether a line begins after a text, given whether one begins before it. -/
def endsLine (start : Bool) (text : List Char) : Bool :=
  match text.getLast? with
  | none => start
  | some c => c == '\n'

@[simp] theorem endsLine_nil (start : Bool) : endsLine start [] = start := rfl

theorem endsLine_cons (start : Bool) (c : Char) (text : List Char) :
    endsLine start (c :: text) = endsLine (c == '\n') text := by
  cases h : text.getLast? <;> simp [endsLine, List.getLast?_cons, h]

theorem endsLine_append (start : Bool) (a b : List Char) :
    endsLine start (a ++ b) = endsLine (endsLine start a) b := by
  induction a generalizing start with
  | nil => rfl
  | cons c a ih => rw [List.cons_append, endsLine_cons, ih, endsLine_cons]

theorem Printer.endsLine_unlines (lines : List String) :
    endsLine true (unlines lines).toList = true := by
  induction lines with
  | nil => rfl
  | cons line lines ih =>
    rw [unlines_cons, String.toList_append, String.toList_append, endsLine_append,
      endsLine_append]
    exact ih

namespace Piece

/-- Whether a line begins after some pieces. Markers are lines and change nothing about it. -/
def endsLine (start : Bool) (pieces : List Piece) : Bool :=
  GoLowering.endsLine start (spell [] pieces).toList

/-- Every declaration and statement begins where a line does. -/
def Placed : Bool → List Piece → Prop
  | _, [] => True
  | start, piece :: rest =>
    (∀ id, piece = .opening id → start) ∧ Placed (endsLine start [piece]) rest

theorem endsLine_append (start : Bool) (xs ys : List Piece) :
    endsLine start (xs ++ ys) = endsLine (endsLine start xs) ys := by
  simp [endsLine, GoLowering.endsLine_append]

theorem placed_append {start : Bool} {xs ys : List Piece} :
    Placed start (xs ++ ys) ↔ Placed start xs ∧ Placed (endsLine start xs) ys := by
  induction xs generalizing start with
  | nil => simp [Placed, endsLine]
  | cons x xs ih =>
    have hends : endsLine start (x :: xs) = endsLine (endsLine start [x]) xs :=
      endsLine_append start [x] xs
    rw [List.cons_append, Placed, Placed, ih, hends, and_assoc]

/-- Pieces that can stand anywhere: what begins in them begins on a line of their own. -/
def Inline (pieces : List Piece) : Prop := ∀ start, Placed start pieces

/-- Pieces that are whole lines. -/
structure Whole (pieces : List Piece) : Prop where
  placed : Placed true pieces
  ends : endsLine true pieces = true

namespace Inline

variable {xs ys : List Piece}

@[simp] theorem nil : Inline [] := fun _ => trivial

@[simp] theorem append (hx : Inline xs) (hy : Inline ys) : Inline (xs ++ ys) :=
  fun start => placed_append.mpr ⟨hx start, hy _⟩

theorem of_telling (h : ∀ id, .opening id ∉ telling xs) : Inline xs := by
  induction xs with
  | nil => exact nil
  | cons x xs ih =>
    have hx : ∀ id, x ≠ .opening id := fun id hid => h id (by simp [hid])
    have hxs : Inline xs := ih (fun id hid => h id (by
      simp only [telling, List.mem_filter] at hid ⊢
      exact ⟨List.mem_cons_of_mem x hid.1, hid.2⟩))
    exact fun start => ⟨fun id hid => absurd hid (hx id), hxs _⟩

@[simp] theorem say (text : String) : Inline (Layout.say text) := of_telling (by simp)

@[simp] theorem parenthesized (h : Inline xs) : Inline (Layout.parenthesized xs) := by
  simp [Layout.parenthesized, h]

theorem separated {separator : String} {parts : List (List Piece)}
    (h : ∀ part ∈ parts, Inline part) : Inline (Layout.separated separator parts) := by
  induction parts with
  | nil => exact nil
  | cons part parts ih =>
    have hpart := h part List.mem_cons_self
    have hparts := ih (fun p hp => h p (List.mem_cons_of_mem part hp))
    cases parts with
    | nil => simpa [Layout.separated] using hpart
    | cons next rest =>
      rw [Layout.separated, List.intercalate_cons_cons, ← Layout.separated]
      exact (hpart.append (say separator)).append hparts

end Inline

namespace Whole

variable {xs ys : List Piece}

theorem nil : Whole [] := ⟨trivial, rfl⟩

theorem append (hx : Whole xs) (hy : Whole ys) : Whole (xs ++ ys) := by
  constructor
  · rw [placed_append, hx.ends]
    exact ⟨hx.placed, hy.placed⟩
  · rw [endsLine_append, hx.ends]
    exact hy.ends

theorem flatMap {α : Type} {items : List α} {f : α → List Piece} (h : ∀ x ∈ items, Whole (f x)) :
    Whole (items.flatMap f) := by
  induction items with
  | nil => exact nil
  | cons x items ih =>
    rw [List.flatMap_cons]
    exact (h x List.mem_cons_self).append (ih (fun y hy => h y (List.mem_cons_of_mem x hy)))

theorem line (indent : Nat) (h : Inline xs) : Whole (Layout.line indent xs) := by
  constructor
  · exact (((Inline.say _).append h).append (Inline.say _)) true
  · rw [Layout.line, endsLine_append]
    simp [endsLine, GoLowering.endsLine]

theorem opening (id : HostId) (h : Whole xs) : Whole (.opening id :: xs) :=
  ⟨⟨fun _ _ => rfl, h.placed⟩, h.ends⟩

/-- Whole lines stand within a line after the text that ends the line above them. -/
theorem inline_between {before after : List Piece} (hbefore : Inline before)
    (hends : ∀ start, endsLine start before = true) (h : Whole xs) (hafter : Inline after) :
    Inline (before ++ xs ++ after) := by
  intro start
  rw [placed_append, placed_append, hends]
  exact ⟨⟨hbefore start, h.placed⟩, hafter _⟩

end Whole

end Piece

/-! ## Layout -/

namespace Layout

open Piece (Inline Whole telling)

section

variable {tree : HostTree} {types : TypeTable}

@[simp] theorem inline_type (id : TypeId) : Inline (type types id) :=
  .of_telling (opening_notMem_typeWithin types.depthBound id)

theorem inline_param (p : HostParam) : Inline (param types p) :=
  .of_telling (fun node => by
    rw [telling_param]
    exact opening_notMem_typeWithin _ _ node)

@[simp] theorem inline_signature (sig : HostSignature) : Inline (signature types sig) :=
  .of_telling (fun node => by
    rw [telling_signature]
    exact opening_notMem_types _ node)

/-- The nodes below are laid out within a line, or as whole lines. -/
structure Sets (below : Below) : Prop where
  text : ∀ header indent id, Inline (below.text header indent id)
  lines : ∀ indent id, Whole (below.lines indent id)

namespace Sets

variable {below : Below} (h : Sets below)
include h

theorem postfixOperand (header : Bool) (indent : Nat) (id : HostId) :
    Inline (postfixOperand tree below header indent id) := by
  have htext := h.text header indent id
  cases hkind : tree.kind id with
  | typeExpression typed =>
    simp only [Layout.postfixOperand, hkind]
    split <;> simp [htext]
  | _ => simp [Layout.postfixOperand, hkind, htext]

theorem binaryOperand (header : Bool) (indent : Nat) (parent : BinaryOp) (right : Bool)
    (id : HostId) : Inline (binaryOperand tree below header indent parent right id) := by
  have htext := h.text header indent id
  cases hkind : tree.kind id with
  | binary child left right =>
    simp only [Layout.binaryOperand, hkind]
    split <;> simp [htext]
  | _ => simp [Layout.binaryOperand, hkind, htext]

theorem list (header : Bool) (indent : Nat) (ids : List HostId) :
    Inline (list below header indent ids) :=
  .separated (by simp [h.text])

theorem element (header : Bool) (indent : Nat) (e : HostElement) :
    Inline (element below header indent e) := by
  rcases e with ⟨key, value⟩
  cases key <;> simp [Layout.element, h.text]

theorem optional (header : Bool) (indent : Nat) (id : Option HostId) :
    Inline (optional below header indent id) := by
  cases id <;> simp [Layout.optional, h.text]

theorem values (header : Bool) (indent : Nat) (keyword : String) (spec : HostValues) :
    Inline (values types below header indent keyword spec) := by
  rcases spec with ⟨names, type, values, doc⟩
  cases type <;> cases values <;> simp only [Layout.values] <;>
    apply_rules [Inline.append, Inline.say, Inline.nil, inline_type, h.list]

theorem each (indent : Nat) (ids : List HostId) : Whole (ids.flatMap (below.lines indent)) :=
  .flatMap (fun id _ => h.lines indent id)

theorem body (indent : Nat) (id : HostId) : Whole (body tree below indent id) :=
  h.each (indent + 1) (tree.statements id)

theorem functionLiteral (header : Bool) (indent : Nat) (sig : HostSignature) (inner : HostId) :
    Inline (inline tree types below header indent (.functionLiteral sig inner)) := by
  -- The statements of the body come after the line break of the opening brace.
  refine Whole.inline_between (by simp) (fun start => ?_) (h.body indent inner) (.say _)
  rw [Piece.endsLine_append]
  simp [Piece.endsLine, endsLine]

theorem inline (header : Bool) (indent : Nat) (kind : HostKind) :
    Inline (inline tree types below header indent kind) := by
  cases kind with
  | functionLiteral sig inner => exact h.functionLiteral header indent sig inner
  | composite typed elements =>
    have helements : Inline (separated ", " (elements.map (Layout.element below header indent))) :=
      .separated (by simp [h.element])
    have htyped : Inline ((typed.map (type types)).getD []) := by
      cases typed <;> simp
    simp only [Layout.inline]
    split <;> apply_rules [Inline.append, Inline.say, Inline.parenthesized]
  | slice object low high max =>
    cases max <;> simp only [Layout.inline] <;>
      apply_rules [Inline.append, Inline.say, Inline.nil, h.postfixOperand, h.optional]
  | typeAssert object typed =>
    cases typed <;> apply_rules [Inline.append, Inline.say, Inline.parenthesized,
      h.postfixOperand, inline_type]
  | ret results => cases results <;> simp [Layout.inline, h.list]
  | qualified package name => exact .of_telling (by simp [Layout.inline, telling_member])
  | varDecl spec | constDecl spec => exact h.values header indent _ spec
  | _ =>
    simp only [Layout.inline]
    apply_rules [Inline.append, Inline.say, Inline.nil, Inline.parenthesized, inline_type,
      h.text, h.postfixOperand, h.binaryOperand, h.list]

/-! ## Statements -/

omit h in
theorem doc (indent : Nat) (text : Option String) : Whole (doc indent text) := by
  refine ⟨Inline.say _ true, ?_⟩
  simpa [Layout.doc, Piece.endsLine] using
    Printer.endsLine_unlines (Printer.docLines indent text)

omit h in
theorem typeDecl (indent : Nat) (name : String) (definition : TypeId) (isAlias : Bool) :
    Whole (typeDecl types indent name definition isAlias) := by
  have hfield (field : Field) : Inline (fieldPieces (type types) field) :=
    .of_telling (fun node => by
      rw [telling_fieldPieces]
      exact opening_notMem_typeWithin _ _ node)
  have hmethod (method : InterfaceMethod) : Inline (methodPieces types (type types) method) :=
    .of_telling (fun node => by
      rw [telling_methodPieces]
      exact opening_notMem_types _ node)
  have hopening (text : String) : Inline (say ("type " ++ name ++
      (if isAlias then " = " else " ")) ++ say text) :=
    (Inline.say _).append (.say _)
  cases hkind : types.get definition with
  | struct fields =>
    cases fields with
    | nil => simpa [Layout.typeDecl, hkind] using Whole.line indent (.append (.say _) (by simp))
    | cons first fields =>
      simp only [Layout.typeDecl, hkind]
      exact ((Whole.line _ (hopening _)).append
        (.flatMap fun field _ => .line _ (hfield field))).append (.line _ (.say _))
  | interface methods =>
    cases methods with
    | nil => simpa [Layout.typeDecl, hkind] using Whole.line indent (.append (.say _) (by simp))
    | cons first methods =>
      simp only [Layout.typeDecl, hkind]
      exact ((Whole.line _ (hopening _)).append
        (.flatMap fun method _ => .line _ (hmethod method))).append (.line _ (.say _))
  | _ =>
    simp only [Layout.typeDecl, hkind]
    exact .line _ ((Inline.say _).append (inline_type definition))

theorem initial (indent : Nat) (init : Option HostId) : Inline (initial below indent init) := by
  cases init <;> simp [Layout.initial, h.text]

theorem ifLines (opening : String) (indent : Nat) (init : Option HostId)
    (condition thenBranch : HostId) {rest : List Piece} (hrest : Whole rest) :
    Whole (ifLines tree below opening indent init condition thenBranch rest) := by
  refine ((Whole.line _ ?_).append (h.body indent thenBranch)).append hrest
  unfold Layout.ifHeader
  apply_rules [Inline.append, Inline.say, h.initial, h.text]

theorem loopHeader (indent : Nat) (init condition post : Option HostId) :
    Inline (loopHeader below indent init condition post) := by
  cases init <;> cases condition <;> cases post <;> simp only [Layout.loopHeader] <;>
    apply_rules [Inline.append, Inline.say, h.text, h.optional, Inline.nil]

theorem rangeHeader (indent : Nat) (key value : Option HostId) (define : Bool)
    (source : HostId) : Inline (rangeHeader below indent key value define source) := by
  cases key <;> cases value <;> simp only [Layout.rangeHeader] <;>
    apply_rules [Inline.append, Inline.say, h.text]

theorem caseLines (indent : Nat) {label : Option (List Piece)} (hlabel : Inline (label.getD []))
    (body : List HostId) : Whole (caseLines below indent label body) := by
  refine (Whole.line _ ?_).append (h.each _ body)
  cases label with
  | none => simp
  | some text => exact ((Inline.say _).append hlabel).append (.say _)

/-- A statement consists of whole lines. -/
theorem statement (indent : Nat) (kind : HostKind) {rest : List Piece} (hrest : Whole rest) :
    Whole (statement tree types below indent kind rest) := by
  cases kind with
  | varDecl spec | constDecl spec =>
    exact (doc indent spec.doc).append (.line _ (h.inline false indent _))
  | typeDecl name definition isAlias text =>
    exact (doc indent text).append (typeDecl indent name definition isAlias)
  | function decl =>
    refine (((doc indent decl.doc).append (.line _ ?_)).append (h.body indent decl.body)).append
      (.line _ (.say _))
    refine ((((Inline.say _).append ?_).append (.say _)).append (inline_signature _)).append (.say _)
    cases decl.receiver with
    | none => exact Inline.nil
    | some receiver => simp [inline_param]
  | block statements =>
    exact ((Whole.line _ (.say _)).append (h.each _ statements)).append (.line _ (.say _))
  | ifElse init condition thenBranch branch =>
    exact h.ifLines "" indent init condition thenBranch hrest
  | loop init condition post body =>
    exact ((Whole.line _ (h.loopHeader indent init condition post)).append
      (h.body indent body)).append (.line _ (.say _))
  | range key value define source body =>
    exact ((Whole.line _ (h.rangeHeader indent key value define source)).append
      (h.body indent body)).append (.line _ (.say _))
  | switch init tag cases =>
    have htag : Inline ((tag.map (fun t => below.text true indent t ++ say " ")).getD []) := by
      cases tag <;> simp [h.text]
    have hvalues (c : HostCase) :
        Inline ((c.values.map (Layout.list below false indent)).getD []) := by
      cases c.values <;> simp [h.list]
    exact ((Whole.line _ ((((Inline.say _).append (h.initial indent init)).append htag).append
      (.say _))).append (.flatMap fun c _ => h.caseLines indent (hvalues c) c.body)).append
      (.line _ (.say _))
  | typeSwitch init binding subject cases =>
    have htypes (c : HostTypeCase) : Inline ((c.types.map (typeCase types)).getD []) := by
      cases c.types with
      | none => exact Inline.nil
      | some typed =>
        refine .separated (fun part hpart => ?_)
        obtain ⟨id, -, rfl⟩ := List.mem_map.mp hpart
        cases id <;> simp
    exact ((Whole.line _ ((((Inline.say _).append (h.initial indent init)).append (.say _)).append
      (h.postfixOperand true indent subject) |>.append (.say _))).append
      (.flatMap fun c _ => h.caseLines indent (htypes c) c.body)).append (.line _ (.say _))
  | select cases =>
    have hcomm (c : HostSelectCase) :
        Inline ((c.comm.map (below.text false indent)).getD []) := by
      cases c.comm <;> simp [h.text]
    exact ((Whole.line _ (.say _)).append
      (.flatMap fun c _ => h.caseLines indent (hcomm c) c.body)).append (.line _ (.say _))
  | labeled label body =>
    refine (Whole.line _ (.say _)).append ?_
    cases body with
    | none => exact Whole.nil
    | some body => exact h.lines indent body
  | _ => exact .line _ (h.inline false indent _)

end Sets

/-! ## The whole tree -/

variable (tree types)

theorem whole_elseLines (depth : Nat)
    (ih : ∀ d < depth, Sets ⟨text tree types d, lines tree types d⟩) (indent : Nat)
    (kind : HostKind) : Whole (elseLines tree types depth indent kind) := by
  induction depth generalizing kind with
  | zero => exact Whole.nil
  | succ depth ihdepth =>
    have h := ih depth (Nat.lt_succ_self depth)
    have hrest := ihdepth (fun d hd => ih d (Nat.lt_succ_of_lt hd))
    cases kind with
    | ifElse init condition thenBranch branch =>
      cases branch with
      | none => exact .line _ (.say _)
      | some branch =>
        cases hkind : tree.kind branch with
        | ifElse init condition thenBranch rest =>
          simp only [elseLines, hkind]
          exact h.ifLines _ indent init condition thenBranch (hrest _)
        | _ =>
          simp only [elseLines, hkind]
          exact ((Whole.line _ (.say _)).append (h.body indent branch)).append (.line _ (.say _))
    | _ => exact Whole.nil

theorem sets (depth : Nat) : Sets ⟨text tree types depth, lines tree types depth⟩ := by
  induction depth using Nat.strongRecOn with
  | ind depth ih =>
    cases depth with
    | zero => exact ⟨fun _ _ _ => Inline.nil, fun _ _ => Whole.nil⟩
    | succ depth =>
      have h := ih depth (Nat.lt_succ_self depth)
      constructor
      · intro header indent id
        exact h.inline header indent (tree.kind id)
      · intro indent id
        exact .opening id (h.statement indent (tree.kind id) (whole_elseLines tree types depth
          (fun d hd => ih d (Nat.lt_succ_of_lt hd)) indent (tree.kind id)))

theorem whole_say_newline : Whole (say "\n") := ⟨Inline.say _ true, rfl⟩

theorem whole_group (depth : Nat) (ids : List HostId) : Whole (group tree types depth ids) := by
  have hlines := (sets tree types depth).lines 0
  cases ids with
  | nil => exact Whole.nil
  | cons first rest =>
    refine (hlines first).append (.flatMap fun id _ => ?_)
    split
    · exact whole_say_newline.append (hlines id)
    · exact hlines id

end

end Layout

/-- The declarations of a file consist of whole lines, and each declaration and statement in them
begins where a line does. -/
theorem HostFile.whole_declarationPieces (file : HostFile) :
    Piece.Whole file.declarationPieces := by
  have hgroup (ids : List HostId) := Layout.whole_group file.tree file.types
    (Printer.depthBound file) ids
  unfold HostFile.declarationPieces
  cases file.groups.filter (!·.isEmpty) with
  | nil => exact Piece.Whole.nil
  | cons first rest =>
    simp only [List.map_cons, Layout.joinGroups]
    refine (hgroup first).append (.flatMap fun pieces hpieces => ?_)
    obtain ⟨ids, -, rfl⟩ := List.mem_map.mp hpieces
    exact Layout.whole_say_newline.append (hgroup ids)

/-! ## Texts with and without markers -/

/-- A text that goes on after a line that has begun. -/
theorem keptLines_append {rest rest' : List Char} (text : List Char) {begun : List Char}
    (hbegun : '\n' ∉ begun) {start : Bool} (hstart : start → begun = [])
    (h : ∀ begun', '\n' ∉ begun' → (endsLine start text → begun' = []) →
      keptLines (begun' ++ rest) = keptLines (begun' ++ rest')) :
    keptLines (begun ++ (text ++ rest)) = keptLines (begun ++ (text ++ rest')) := by
  induction text generalizing begun start with
  | nil => exact h begun hbegun hstart
  | cons c text ih =>
    by_cases hc : c = '\n'
    · subst hc
      rw [List.cons_append, List.cons_append, keptLines_line hbegun, keptLines_line hbegun]
      have hempty : true = true → ([] : List Char) = [] := fun _ => rfl
      have hrest := ih (by simp) hempty (by simpa [endsLine_cons] using h)
      rw [List.nil_append, List.nil_append] at hrest
      rw [hrest]
    · have hbegun' : '\n' ∉ begun ++ [c] := by simp [hbegun, Ne.symm hc]
      have hstart' : false = true → begun ++ [c] = [] := by simp
      have hc' : (c == '\n') = false := by simpa using hc
      have hrest := ih hbegun' hstart' (by simpa [endsLine_cons, hc'] using h)
      simpa using hrest

/-- Markers on lines of their own leave the other lines of a text as they are. -/
theorem keptLines_spell {markers : Markers}
    (hpaths : ∀ entry ∈ markers, '\n' ∉ entry.2.path.toList) {pieces : List Piece} {start : Bool}
    (hplaced : Piece.Placed start pieces) {begun : List Char} (hbegun : '\n' ∉ begun)
    (hstart : start → begun = []) :
    keptLines (begun ++ (Piece.spell markers pieces).toList) =
      keptLines (begun ++ (Piece.spell [] pieces).toList) := by
  induction pieces generalizing start begun with
  | nil => rfl
  | cons piece rest ih =>
    obtain ⟨hopening, hrest⟩ := hplaced
    have hplain (text : String) (hends : Piece.endsLine start [piece] = endsLine start text.toList) :
        keptLines (begun ++ (text.toList ++ (Piece.spell markers rest).toList)) =
          keptLines (begun ++ (text.toList ++ (Piece.spell [] rest).toList)) :=
      keptLines_append text.toList hbegun hstart (fun begun' hbegun' hstart' =>
        ih hrest hbegun' (by rwa [hends]))
    cases piece with
    | plain text => simpa using hplain text (by simp [Piece.endsLine])
    | package path => simpa using hplain (packageName path) (by simp [Piece.endsLine])
    | opening id =>
      have hbegin : start = true := hopening id rfl
      have hempty := hstart hbegin
      subst hbegin hempty
      have hbelow : keptLines ([] ++ (Piece.spell markers rest).toList) =
          keptLines ([] ++ (Piece.spell [] rest).toList) := ih hrest (by simp) (fun _ => rfl)
      cases hlookup : markers.lookup id with
      | none => simpa [Piece.text, hlookup] using hbelow
      | some marker =>
        have hentry : (id, marker) ∈ markers := by
          obtain ⟨before, after, rfl, -⟩ := List.lookup_eq_some_iff.mp hlookup
          simp
        have hnewline := LineMarker.newline_notMem_text (hpaths _ hentry)
        have hmarker : keptLines (marker.text.toList ++ '\n' :: (Piece.spell markers rest).toList) =
            keptLines (Piece.spell markers rest).toList :=
          keptLines_marker hnewline marker.markerHead_prefix_text
        simpa [Piece.text, hlookup, hmarker] using hbelow

/-- A file with its markers left out. -/
def HostFile.unmarked (file : HostFile) : HostFile := { file with markers := [] }

theorem packagesWithin_unmarked (file : HostFile) (depth : Nat) :
    file.unmarked.packagesWithin depth = file.packagesWithin depth := by
  induction depth with
  | zero => rfl
  | succ depth ih =>
    funext id
    simp only [HostFile.packagesWithin, ih]
    rfl

/-- Markers make no difference to what a file imports. -/
theorem imports_unmarked (file : HostFile) : file.unmarked.imports = file.imports :=
  congrArg (fun packages => (file.declarations.flatMap packages).foldl
    (fun paths path => HostFile.insertSorted path paths) [])
    (packagesWithin_unmarked file (file.tree.size + 1))

theorem print_unmarked (file : HostFile) :
    file.unmarked.print = file.preamble ++ Piece.spell [] file.declarationPieces := by
  have hpreamble : file.unmarked.preamble = file.preamble := by
    rw [HostFile.preamble, HostFile.preamble, imports_unmarked]
    rfl
  rw [HostFile.print_eq_spell, hpreamble]
  rfl

/-- A file prints the same lines with its markers as without any, markers apart. -/
theorem withoutMarkers_unmarked (file : HostFile)
    (hpaths : ∀ entry ∈ file.markers, '\n' ∉ entry.2.path.toList) :
    withoutMarkers file.print = withoutMarkers file.unmarked.print := by
  have hends : endsLine true file.preamble.toList = true := Printer.endsLine_unlines _
  have hkept : keptLines ([] ++ (file.preamble.toList ++
        (Piece.spell file.markers file.declarationPieces).toList)) =
      keptLines ([] ++ (file.preamble.toList ++
        (Piece.spell [] file.declarationPieces).toList)) :=
    keptLines_append file.preamble.toList (by simp) (fun _ : true = true => rfl)
      (fun begun hbegun hstart =>
        keptLines_spell hpaths file.whole_declarationPieces.placed hbegun (fun _ => hstart hends))
  rw [List.nil_append, List.nil_append, ← String.toList_append, ← String.toList_append,
    ← HostFile.print_eq_spell, ← print_unmarked] at hkept
  rw [withoutMarkers, withoutMarkers, hkept]

/-! ## Units with and without markers -/

/-- A context with markers left out, or not. -/
def Lowering.Context.suppressing (context : Context) (suppressed : Bool) : Context :=
  { context with
    settings := { context.settings with suppressPositionMarkers := suppressed } }

theorem Keyed.mem_of_mem_set {κ α : Type} [BEq κ] {entries : Keyed κ α} {key : κ} {value : α}
    {entry : κ × α} (h : entry ∈ entries.set key value) :
    entry = (key, value) ∨ entry ∈ entries := by
  induction entries with
  | nil => exact .inl (by simpa [Keyed.set] using h)
  | cons first rest ih =>
    simp only [Keyed.set] at h
    split at h
    · rcases List.mem_cons.mp h with h | h
      · exact .inl h
      · exact .inr (List.mem_cons_of_mem first h)
    · rcases List.mem_cons.mp h with h | h
      · exact .inr (h ▸ List.mem_cons_self)
      · exact (ih h).imp_right (List.mem_cons_of_mem first)

/-- Puts markers one after the other. -/
def Markers.put (markers : Markers) (found : List (HostId × LineMarker)) : Markers :=
  found.foldl (fun markers (id, marker) => markers.set id marker) markers

theorem Markers.mem_of_mem_put {found : List (HostId × LineMarker)} {markers : Markers}
    {entry : HostId × LineMarker} (h : entry ∈ markers.put found) :
    entry ∈ found ∨ entry ∈ markers := by
  induction found generalizing markers with
  | nil => exact .inr h
  | cons first rest ih =>
    rcases ih h with h | h
    · exact .inl (List.mem_cons_of_mem first h)
    · rcases Keyed.mem_of_mem_set h with rfl | h
      · exact .inl List.mem_cons_self
      · exact .inr h

namespace Marking

variable {sources : Sources} {settings : Settings} {tree : HostTree}

theorem path_of_marker? {stop : Stop} {marker : LineMarker}
    (h : marker? sources settings tree stop = some marker) :
    ∃ id, marker.path = displayPath sources settings id := by
  simp only [marker?, Option.bind_eq_bind, Option.bind_eq_some_iff, Option.pure_def,
    Option.some.injEq] at h
  obtain ⟨origin, -, f, -, rfl⟩ := h
  exact ⟨origin.file, rfl⟩

/-- The markers of a unit show source files. -/
theorem path_of_mem_collect {last : Option LineMarker} {stops : List Stop}
    {entry : HostId × LineMarker} (h : entry ∈ collect sources settings tree last stops) :
    ∃ id, entry.2.path = displayPath sources settings id := by
  induction stops generalizing last with
  | nil => cases h
  | cons stop rest ih =>
    simp only [collect] at h
    split at h
    · exact ih h
    · rename_i marker hmarker
      split at h
      · exact ih h
      · rcases List.mem_cons.mp h with rfl | h
        · exact path_of_marker? hmarker
        · exact ih h

end Marking

/-- Markers are lines of their own. A file prints the same lines with them as without, the lines
that begin like markers apart, unless a path in them contains a line break. A unit is the same with
markers as without them but for the markers of its file, and so prints the same other lines. -/
theorem print_differs_in_markers_only :
    (∀ file : HostFile, (∀ entry ∈ file.markers, '\n' ∉ entry.2.path.toList) →
      withoutMarkers file.print = withoutMarkers file.unmarked.print) ∧
    ∀ (context : Lowering.Context) (s : Lowering.State),
      LoweredUnit.ofState (context.suppressing true) s =
        { LoweredUnit.ofState (context.suppressing false) s with
          file := (LoweredUnit.ofState (context.suppressing false) s).file.unmarked } ∧
      ((∀ id, '\n' ∉ (displayPath context.sources context.settings id).toList) →
        withoutMarkers (LoweredUnit.ofState (context.suppressing false) s).file.print =
          withoutMarkers (LoweredUnit.ofState (context.suppressing true) s).file.print) := by
  refine ⟨withoutMarkers_unmarked, fun context s => ⟨rfl, fun hpaths => ?_⟩⟩
  refine withoutMarkers_unmarked _ (fun entry hentry => ?_)
  rcases Markers.mem_of_mem_put hentry with hfound | hnone
  · obtain ⟨id, hpath⟩ := Marking.path_of_mem_collect hfound
    rw [hpath]
    exact hpaths id
  · cases hnone

theorem displayPath_empty (settings : Settings) (id : FileId) :
    displayPath .empty settings id = "" := by
  simp [displayPath, Sources.file?, Sources.get?, Sources.empty]

theorem callback_differs_in_markers_only :
    HostFile.callback.print ≠ HostFile.callback.unmarked.print ∧
      withoutMarkers HostFile.callback.print =
        withoutMarkers HostFile.callback.unmarked.print ∧
      withoutMarkers (LoweredUnit.ofState ((Lowering.Context.bare []).suppressing false)
        (Lowering.State.inside .initial [] [])).file.print =
        withoutMarkers (LoweredUnit.ofState ((Lowering.Context.bare []).suppressing true)
          (Lowering.State.inside .initial [] [])).file.print :=
  ⟨by decide +kernel, print_differs_in_markers_only.1 _ (by decide),
    (print_differs_in_markers_only.2 _ _).2 (fun id => by
      simp [Lowering.Context.bare, displayPath_empty])⟩

end GoLowering
