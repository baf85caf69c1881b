import GoLowering.Host.Marking
import GoLowering.Proofs.MarkerLines
import GoLowering.Proofs.Phases

/-!
# Markers in the order of the text

A marker that is equal to the one before it is left out, which loses nothing as long as the nodes
are visited in the order in which they begin in the text. The visit follows the text through every
node but a range, of which it passes over the targets: so it meets some of what begins in the text,
in the same order (`Follows.sublist`), and all of it just in case nothing begins in a target
(`Follows.eq_iff`). This is proved by levels, the parts of a node being one level below
(`followsWithin`).
-/

namespace GoLowering

open Piece (openings telling)

namespace Piece

@[simp] theorem openings_nil : openings [] = [] := rfl

@[simp] theorem openings_append (xs ys : List Piece) :
    openings (xs ++ ys) = openings xs ++ openings ys :=
  List.flatMap_append ..

@[simp] theorem openings_cons_opening (id : HostId) (rest : List Piece) :
    openings (.opening id :: rest) = id :: openings rest := rfl

theorem openings_eq_nil_iff {pieces : List Piece} :
    openings pieces = [] ↔ ∀ id, .opening id ∉ pieces := by
  constructor
  · intro h id hid
    have hmem : id ∈ openings pieces := List.mem_flatMap.mpr ⟨_, hid, List.mem_singleton_self id⟩
    simp [h] at hmem
  · intro h
    refine List.flatMap_eq_nil_iff.mpr (fun piece hpiece => ?_)
    cases piece with
    | opening id => exact absurd hpiece (h id)
    | _ => rfl

theorem openings_flatMap {α : Type} (xs : List α) (f : α → List Piece) :
    openings (xs.flatMap f) = xs.flatMap (fun x => openings (f x)) :=
  List.flatMap_assoc ..

end Piece

/-! ## Lists with gaps -/

/-- Some nodes are among others in the same order, and they are all of them just in case something
holds. -/
structure Follows (stops printed : List HostId) (P : Prop) : Prop where
  sublist : stops.Sublist printed
  eq_iff : stops = printed ↔ P

namespace Follows

variable {stops stops' printed printed' : List HostId} {P Q : Prop}

theorem nil : Follows [] [] True := ⟨.slnil, by simp⟩

theorem congr (h : Follows stops printed P) (hPQ : P ↔ Q) : Follows stops printed Q :=
  ⟨h.sublist, h.eq_iff.trans hPQ⟩

theorem cons (h : Follows stops printed P) (id : HostId) :
    Follows (id :: stops) (id :: printed) P :=
  ⟨h.sublist.cons_cons id, by simp [h.eq_iff]⟩

theorem append (h : Follows stops printed P) (h' : Follows stops' printed' Q) :
    Follows (stops ++ stops') (printed ++ printed') (P ∧ Q) := by
  refine ⟨h.sublist.append h'.sublist, ?_⟩
  rw [← h.eq_iff, ← h'.eq_iff]
  constructor
  · intro heq
    have hlength := congrArg List.length heq
    have hle := h.sublist.length_le
    have hle' := h'.sublist.length_le
    simp only [List.length_append] at hlength
    exact List.append_inj heq (by omega)
  · rintro ⟨rfl, rfl⟩
    rfl

theorem flatMap {α : Type} {xs : List α} {f g : α → List HostId} {R : α → Prop}
    (h : ∀ x ∈ xs, Follows (f x) (g x) (R x)) :
    Follows (xs.flatMap f) (xs.flatMap g) (∀ x ∈ xs, R x) := by
  induction xs with
  | nil => exact nil.congr (by simp)
  | cons x xs ih =>
    simp only [List.flatMap_cons, List.forall_mem_cons]
    exact (h x List.mem_cons_self).append (ih (fun y hy => h y (List.mem_cons_of_mem x hy)))

/-- Nodes in front that are left out. -/
theorem skip (h : Follows stops printed P) (skipped : List HostId) :
    Follows stops (skipped ++ printed) (skipped = [] ∧ P) := by
  have hnil : Follows [] skipped (skipped = []) := ⟨List.nil_sublist skipped, eq_comm⟩
  simpa using hnil.append h

end Follows

/-! ## Parts that are marked -/

namespace HostKind

/-- What a range assigns to, or defines. -/
def targets : HostKind → List HostId
  | range key value _ _ _ => key.toList ++ value.toList
  | _ => []

/-- The parts of a node less the targets of a range. -/
def markedParts (types : TypeTable) : HostKind → List Part
  | range _ _ _ source body => [.inline source, .body body]
  | kind => kind.parts types

theorem parts_eq (types : TypeTable) (kind : HostKind) :
    kind.parts types = kind.targets.map .inline ++ kind.markedParts types := by
  cases kind <;> simp [parts, targets, markedParts]

def isFunction : HostKind → Bool
  | function _ => true
  | _ => false

theorem exists_of_isIf : {kind : HostKind} → kind.isIf = true →
    ∃ init condition thenBranch elseBranch, kind = ifElse init condition thenBranch elseBranch
  | ifElse init condition thenBranch elseBranch, _ => ⟨init, condition, thenBranch, elseBranch, rfl⟩

theorem isIf_of_isInline {kind : HostKind} (h : kind.isInline) : kind.isIf = false := by
  cases kind <;> first | rfl | cases h

theorem elseBranch?_eq_none {kind : HostKind} (h : kind.isIf = false) : kind.elseBranch? = none := by
  cases kind <;> first | rfl | cases h

end HostKind

/-- The declarations and statements of a part, given those of the nodes below. -/
def HostTree.partStops (tree : HostTree) (inline inner : HostId → List HostId) :
    HostKind.Part → List HostId
  | .package _ | .type _ => []
  | .inline id => inline id
  | .statement id => inner id
  | .body id => (tree.statements id).flatMap inner

section

variable {tree : HostTree} {types : TypeTable}

theorem openings_partTrace (trace : Bool → HostId → List Piece) (part : HostKind.Part) :
    openings (tree.partTrace types trace part) =
      tree.partStops (fun id => openings (trace false id)) (fun id => openings (trace true id))
        part := by
  cases part with
  | type id =>
    exact Piece.openings_eq_nil_iff.mpr (Layout.opening_notMem_typeWithin types.depthBound id)
  | body id => simp [HostTree.partTrace, HostTree.partStops, Piece.openings_flatMap]
  | _ => rfl

namespace Marking

/-- A node on one line has the stops of its parts. -/
theorem inlineStops_succ (types : TypeTable) (depth : Nat) {id : HostId} (h : (tree.kind id).isInline) :
    inlineStops tree (depth + 1) id =
      ((tree.kind id).markedParts types).flatMap
        (tree.partStops (inlineStops tree depth) (statementStops tree depth)) := by
  cases hkind : tree.kind id with
  | composite typed elements =>
    cases typed <;>
      simp [inlineStops, hkind, inlineChildren, HostKind.children, HostKind.markedParts,
        HostKind.parts, HostTree.partStops, List.flatMap_assoc, List.flatMap_map]
  | _ =>
    simp_all [inlineStops, inlineChildren, HostKind.children, HostKind.markedParts,
      HostKind.parts, HostKind.isInline, HostTree.partStops, List.flatMap_map]

theorem flatMap_nothing {α β : Type} (l : List α) : l.flatMap (fun _ => ([] : List β)) = [] :=
  List.flatMap_eq_nil_iff.mpr (fun _ _ => rfl)

/-- A statement is a stop, and so are the statements of its parts. -/
theorem statementStops_succ (types : TypeTable) (depth : Nat) {id : HostId}
    (hinline : (tree.kind id).isInline = false)
    (hif : (tree.kind id).isIf = false) (hfunction : (tree.kind id).isFunction = false) :
    statementStops tree (depth + 1) id =
      id :: ((tree.kind id).markedParts types).flatMap
        (tree.partStops (inlineStops tree depth) (statementStops tree depth)) := by
  cases hkind : tree.kind id with
  | switch init tag cases =>
    simp [statementStops, hkind, HostKind.markedParts, HostKind.parts, HostTree.partStops,
      List.flatMap_assoc, List.flatMap_map]
  | typeSwitch init binding subject cases =>
    simp [statementStops, hkind, HostKind.markedParts, HostKind.parts, HostTree.partStops,
      List.flatMap_assoc, List.flatMap_map, flatMap_nothing]
  | select cases =>
    simp [statementStops, hkind, HostKind.markedParts, HostKind.parts, HostTree.partStops,
      List.flatMap_assoc, List.flatMap_map]
  | labeled label body =>
    cases body <;> cases depth <;>
      simp [statementStops, hkind, inlineStops, inlineChildren, HostKind.markedParts,
        HostKind.parts, HostTree.partStops]
  | typeDecl name definition isAlias doc =>
    cases depth <;>
      simp [statementStops, hkind, inlineStops, inlineChildren, HostKind.children,
        HostKind.markedParts, HostKind.parts, HostTree.partStops, List.flatMap_map]
  | _ =>
    simp_all [statementStops, HostKind.markedParts, HostKind.parts, HostKind.isInline,
      HostKind.isIf, HostKind.isFunction, HostTree.partStops, List.flatMap_map]

end Marking

end

/-! ## Stops and openings -/

section

variable {file : HostFile}

/-- A node has a text, and no function is declared inside of it. -/
structure HostTree.IsPlain (tree : HostTree) (types : TypeTable) (id : HostId) : Prop
    extends tree.IsPrintable types id where
  functions : ∀ y ∈ tree.printed types id, (tree.kind y).isFunction = false

abbrev HostTree.PlainWithin (tree : HostTree) (types : TypeTable) : Nat → HostId → Prop :=
  SettlesWithin (tree.printed types) (tree.IsPlain types)

/-- Nothing begins in what a range assigns to. -/
def HostFile.TargetsSilent (file : HostFile) (id : HostId) : Prop :=
  ∀ target ∈ (file.tree.kind id).targets,
    openings (Layout.text file.tree file.types (Printer.depthBound file) false 0 target) = []

/-- Nothing begins in the targets of any range in a node. -/
def HostFile.Silent (file : HostFile) : HostId → Prop :=
  Settles (file.tree.printed file.types) file.TargetsSilent

theorem HostTree.PlainWithin.renders {tree : HostTree} {types : TypeTable} {level : Nat}
    {id : HostId} (h : tree.PlainWithin types level id) : tree.RendersWithin types level id :=
  h.imp (fun _ hid => hid.toIsPrintable)

/-- Up to some levels, the stops of a node are among what begins in its text, and are all of it
where the targets of ranges are silent. -/
def FollowsWithin (file : HostFile) (level : Nat) : Prop :=
  ∀ id depth depth', file.tree.PlainWithin file.types level id → 2 * level ≤ depth →
    3 * level ≤ depth' →
    ((file.tree.kind id).isFunction = false →
      Follows (Marking.statementStops file.tree depth' id)
        (openings (file.tree.trace file.types depth true id)) (file.Silent id)) ∧
    ((file.tree.kind id).isInline →
      Follows (Marking.inlineStops file.tree depth' id)
        (openings (file.tree.trace file.types depth false id)) (file.Silent id))

theorem follows_part {level depth depth' : Nat} (h : FollowsWithin file level)
    (hdepth : 2 * level ≤ depth) (hdepth' : 3 * level ≤ depth') {part : HostKind.Part}
    (hsuits : file.tree.Suits file.types part)
    (hshown : ∀ y ∈ file.tree.shown part, file.tree.PlainWithin file.types level y ∧
      (file.tree.kind y).isFunction = false) :
    Follows
      (file.tree.partStops (Marking.inlineStops file.tree depth')
        (Marking.statementStops file.tree depth') part)
      (openings (file.tree.partTrace file.types (file.tree.trace file.types depth) part))
      (∀ y ∈ file.tree.shown part, file.Silent y) := by
  rw [openings_partTrace]
  cases part with
  | package | type => exact Follows.nil.congr (by simp [HostTree.shown])
  | inline id =>
    have hid := hshown id (List.mem_singleton_self id)
    exact ((h id depth depth' hid.1 hdepth hdepth').2 hsuits).congr (by simp [HostTree.shown])
  | statement id =>
    have hid := hshown id (List.mem_singleton_self id)
    exact ((h id depth depth' hid.1 hdepth hdepth').1 hid.2).congr (by simp [HostTree.shown])
  | body id =>
    exact Follows.flatMap (fun y hy =>
      (h y depth depth' (hshown y hy).1 hdepth hdepth').1 (hshown y hy).2)

theorem shown_plain {tree : HostTree} {types : TypeTable} {level : Nat} {id : HostId}
    (hid : tree.PlainWithin types (level + 1) id) {part : HostKind.Part}
    (hpart : part ∈ (tree.kind id).parts types) :
    ∀ y ∈ tree.shown part, tree.PlainWithin types level y ∧
      (tree.kind y).isFunction = false := fun y hy =>
  have hprinted : y ∈ tree.printed types id :=
    List.mem_append_left _ (List.mem_flatMap.mpr ⟨part, hpart, hy⟩)
  ⟨hid.2 y hprinted, hid.1.functions y hprinted⟩

theorem openings_text {level depth : Nat} {id : HostId}
    (hid : file.tree.RendersWithin file.types level id) (hdepth : 2 * level ≤ depth) :
    openings (Layout.text file.tree file.types (Printer.depthBound file) false 0 id) =
      openings (file.tree.trace file.types depth false id) := by
  have hsize : file.tree.RendersWithin file.types file.tree.size id :=
    HostTree.renders_iff_within.mp hid.settles
  have hbound : Printer.depthBound file = 2 * file.tree.size + 2 := rfl
  have hdeep := HostTree.tracesWithin file.tree file.types level id depth
    (depth + Printer.depthBound file) false hid hdepth (by omega)
  have hdeep' := HostTree.tracesWithin file.tree file.types file.tree.size id
    (depth + Printer.depthBound file) (Printer.depthBound file) false hsize (by omega) (by omega)
  rw [hdeep, hdeep', ← Piece.openings_telling,
    (Layout.agrees file.tree file.types (Printer.depthBound file)).text]

/-- The stops of the parts of a node leave out what begins in the targets of a range. -/
theorem follows_parts {level depth depth' : Nat} (h : FollowsWithin file level)
    (hdepth : 2 * level ≤ depth) (hdepth' : 3 * level ≤ depth') {id : HostId}
    (hid : file.tree.PlainWithin file.types (level + 1) id) :
    Follows
      (((file.tree.kind id).markedParts file.types).flatMap
        (file.tree.partStops (Marking.inlineStops file.tree depth')
          (Marking.statementStops file.tree depth')))
      (openings (file.tree.partsTrace file.types (file.tree.trace file.types depth)
        (file.tree.kind id)))
      (file.TargetsSilent id ∧ ∀ part ∈ (file.tree.kind id).parts file.types,
        ∀ y ∈ file.tree.shown part, file.Silent y) := by
  have hparts := HostKind.parts_eq file.types (file.tree.kind id)
  have hpart (part : HostKind.Part) (hmem : part ∈ (file.tree.kind id).parts file.types) :=
    follows_part h hdepth hdepth' (hid.1.suits part hmem) (shown_plain hid hmem)
  have htargetPart (target : HostId) (htarget : target ∈ (file.tree.kind id).targets) :
      .inline target ∈ (file.tree.kind id).parts file.types := by
    rw [hparts]
    exact List.mem_append_left _ (List.mem_map.mpr ⟨target, htarget, rfl⟩)
  have hmarked := Follows.flatMap (fun part hmem => hpart part (by
    rw [hparts]
    exact List.mem_append_right ((file.tree.kind id).targets.map .inline) hmem))
  have hprinted : openings (file.tree.partsTrace file.types (file.tree.trace file.types depth)
      (file.tree.kind id)) =
      (file.tree.kind id).targets.flatMap (fun target =>
        openings (file.tree.trace file.types depth false target)) ++
      ((file.tree.kind id).markedParts file.types).flatMap (fun part =>
        openings (file.tree.partTrace file.types (file.tree.trace file.types depth) part)) := by
    rw [HostTree.partsTrace, hparts, Piece.openings_flatMap, List.flatMap_append,
      List.flatMap_map]
    rfl
  have htargets : (file.tree.kind id).targets.flatMap (fun target =>
      openings (file.tree.trace file.types depth false target)) = [] ↔ file.TargetsSilent id := by
    rw [List.flatMap_eq_nil_iff]
    refine forall_congr' fun target => forall_congr' fun htarget => ?_
    rw [openings_text (hid.renders.shown (htargetPart target htarget)
      (List.mem_singleton_self target)) hdepth]
  rw [hprinted]
  refine (hmarked.skip _).congr ?_
  rw [htargets]
  refine and_congr_right fun hsilent => ?_
  -- A target in which nothing begins has no stops, so it is silent itself.
  have htargetSilent (target : HostId) (htarget : target ∈ (file.tree.kind id).targets) :
      file.Silent target := by
    have hfollows := hpart _ (htargetPart target htarget)
    have hnil : openings (file.tree.partTrace file.types (file.tree.trace file.types depth)
        (.inline target)) = [] := List.flatMap_eq_nil_iff.mp (htargets.mpr hsilent) target htarget
    have hstops := List.sublist_nil.mp (hnil ▸ hfollows.sublist)
    exact hfollows.eq_iff.mp (hstops.trans hnil.symm) target (List.mem_singleton_self target)
  rw [hparts]
  constructor
  · intro hall part hmem
    rcases List.mem_append.mp hmem with hmem | hmem
    · obtain ⟨target, htarget, rfl⟩ := List.mem_map.mp hmem
      intro y hy
      obtain rfl : y = target := List.mem_singleton.mp hy
      exact htargetSilent y htarget
    · exact hall part hmem
  · exact fun hall part hmem => hall part (List.mem_append_right _ hmem)

/-- What follows an `else` has the stops of the branch. -/
def Marking.elseStops (tree : HostTree) (depth : Nat) (kind : HostKind) : List HostId :=
  match kind.elseBranch? with
  | none => []
  | some branch =>
    match tree.kind branch with
    | .ifElse init condition thenBranch elseBranch =>
      ifStops tree depth init condition thenBranch elseBranch
    | _ => (tree.statements branch).flatMap (statementStops tree depth)

theorem Marking.elseStops_if {tree : HostTree} {depth : Nat} {kind : HostKind} {branch : HostId}
    (hbranch : kind.elseBranch? = some branch) {init : Option HostId} {condition thenBranch : HostId}
    {elseBranch : Option HostId}
    (hif : tree.kind branch = .ifElse init condition thenBranch elseBranch) :
    elseStops tree depth kind = ifStops tree depth init condition thenBranch elseBranch := by
  simp only [elseStops, hbranch, hif]

theorem Marking.elseStops_of_not_isIf {tree : HostTree} {depth : Nat} {kind : HostKind}
    {branch : HostId} (hbranch : kind.elseBranch? = some branch)
    (hif : (tree.kind branch).isIf = false) :
    elseStops tree depth kind = (tree.statements branch).flatMap (statementStops tree depth) := by
  simp only [elseStops, hbranch]
  split
  · rename_i hkind
    rw [hkind] at hif
    cases hif
  · rfl

theorem Marking.ifStops_succ {tree : HostTree} (types : TypeTable) (depth : Nat)
    (init : Option HostId) (condition thenBranch : HostId) (elseBranch : Option HostId) :
    ifStops tree (depth + 1) init condition thenBranch elseBranch =
      ((HostKind.ifElse init condition thenBranch elseBranch).markedParts types).flatMap
        (tree.partStops (inlineStops tree depth) (statementStops tree depth)) ++
      elseStops tree depth (.ifElse init condition thenBranch elseBranch) := by
  cases elseBranch with
  | none =>
    simp [ifStops, elseStops, HostKind.elseBranch?, HostKind.markedParts, HostKind.parts,
      HostTree.partStops, List.flatMap_map]
  | some branch =>
    cases hkind : tree.kind branch <;>
      simp [ifStops, elseStops, HostKind.elseBranch?, HostKind.markedParts, HostKind.parts,
        HostTree.partStops, List.flatMap_map, hkind]

theorem Marking.statementStops_inline {tree : HostTree} (depth : Nat) {id : HostId}
    (h : (tree.kind id).isInline) :
    statementStops tree (depth + 1) id = id :: inlineStops tree depth id := by
  cases hkind : tree.kind id <;> simp_all [statementStops, HostKind.isInline]

theorem silent_iff {id : HostId} :
    file.Silent id ↔
      (file.TargetsSilent id ∧ ∀ part ∈ (file.tree.kind id).parts file.types,
        ∀ y ∈ file.tree.shown part, file.Silent y) ∧
      ∀ branch ∈ (file.tree.kind id).elseBranch?, ∀ y ∈ file.tree.statements branch,
        file.Silent y := by
  rw [HostFile.Silent, settles_iff, and_assoc]
  refine and_congr_right fun _ => ?_
  simp only [HostTree.printed, List.forall_mem_append, List.forall_mem_flatMap,
    Option.mem_toList, Option.mem_def]

theorem silent_iff_of_not_isIf {id : HostId} (h : (file.tree.kind id).isIf = false) :
    file.Silent id ↔
      file.TargetsSilent id ∧ ∀ part ∈ (file.tree.kind id).parts file.types,
        ∀ y ∈ file.tree.shown part, file.Silent y := by
  rw [silent_iff, HostKind.elseBranch?_eq_none h]
  simp

theorem statements_plain {level : Nat} {id branch : HostId}
    (hid : file.tree.PlainWithin file.types (level + 1) id)
    (hbranch : (file.tree.kind id).elseBranch? = some branch) :
    ∀ y ∈ file.tree.statements branch, file.tree.PlainWithin file.types level y ∧
      (file.tree.kind y).isFunction = false := fun y hy =>
  have hprinted : y ∈ file.tree.printed file.types id :=
    List.mem_append_right _ (by simpa [hbranch] using hy)
  ⟨hid.2 y hprinted, hid.1.functions y hprinted⟩

/-- An `if` and the chain of its branches have the stops of their parts. -/
theorem follows_if {level : Nat} (h : ∀ l ≤ level, FollowsWithin file l) {depth depth' : Nat}
    (hdepth : 2 * level + 1 ≤ depth) (hdepth' : 3 * level + 1 ≤ depth') {id : HostId}
    {init : Option HostId} {condition thenBranch : HostId} {elseBranch : Option HostId}
    (hkind : file.tree.kind id = .ifElse init condition thenBranch elseBranch)
    (hid : file.tree.PlainWithin file.types (level + 1) id) :
    Follows (Marking.ifStops file.tree depth' init condition thenBranch elseBranch)
      (openings (file.tree.partsTrace file.types (file.tree.trace file.types depth)
        (file.tree.kind id) ++ file.tree.elseTrace file.types depth (file.tree.kind id)))
      (file.Silent id) := by
  induction level using Nat.strongRecOn generalizing depth depth' id init condition thenBranch
    elseBranch with
  | ind level ih =>
    obtain ⟨depth, rfl⟩ := Nat.exists_eq_add_of_le' (Nat.le_of_add_left_le hdepth)
    obtain ⟨depth', rfl⟩ := Nat.exists_eq_add_of_le' (Nat.le_of_add_left_le hdepth')
    have hparts := follows_parts (h level (Nat.le_refl level))
      (show 2 * level ≤ depth + 1 by omega) (show 3 * level ≤ depth' by omega) hid
    have helse : Follows (Marking.elseStops file.tree depth' (file.tree.kind id))
        (openings (file.tree.elseTrace file.types (depth + 1) (file.tree.kind id)))
        (∀ branch ∈ (file.tree.kind id).elseBranch?, ∀ y ∈ file.tree.statements branch,
          file.Silent y) := by
      cases hbranch : (file.tree.kind id).elseBranch? with
      | none => simpa [Marking.elseStops, HostTree.elseTrace, hbranch] using Follows.nil
      | some branch =>
        have hplain := statements_plain hid hbranch
        simp only [HostTree.elseTrace, hbranch, Option.mem_some_iff, forall_eq']
        cases hif : (file.tree.kind branch).isIf with
        | true =>
          obtain ⟨init, condition, thenBranch, elseBranch, hif'⟩ := HostKind.exists_of_isIf hif
          have hstatements : file.tree.statements branch = [branch] := by
            rw [HostTree.statements, hif']
          have hself := (hplain branch (by rw [hstatements]; exact List.mem_singleton_self _)).1
          rw [Marking.elseStops_if hbranch hif', if_pos rfl, hstatements]
          cases level with
          | zero => exact hself.elim
          | succ level =>
            exact (ih level (Nat.lt_succ_self level) (fun l hl => h l (Nat.le_succ_of_le hl))
              (by omega) (by omega) hif' hself).congr (by simp)
        | false =>
          rw [Marking.elseStops_of_not_isIf hbranch hif, if_neg Bool.false_ne_true,
            Piece.openings_flatMap]
          exact Follows.flatMap (fun y hy => (h level (Nat.le_refl level) y depth depth'
            (hplain y hy).1 (by omega) (by omega)).1 (hplain y hy).2)
    rw [Marking.ifStops_succ file.types, ← hkind, Piece.openings_append]
    exact (hparts.append helse).congr silent_iff.symm

theorem followsWithin (file : HostFile) (level : Nat) : FollowsWithin file level := by
  induction level using Nat.strongRecOn with
  | ind level ih =>
    intro id depth depth' hid hdepth hdepth'
    cases level with
    | zero => exact hid.elim
    | succ level =>
      obtain ⟨depth, rfl⟩ := Nat.exists_eq_add_of_le' (show 1 ≤ depth by omega)
      obtain ⟨depth', rfl⟩ := Nat.exists_eq_add_of_le' (show 1 ≤ depth' by omega)
      have hlevel := ih level (Nat.lt_succ_self level)
      constructor
      · intro hfunction
        simp only [HostTree.trace, Piece.openings_cons_opening]
        cases hif : (file.tree.kind id).isIf with
        | true =>
          obtain ⟨init, condition, thenBranch, elseBranch, hkind⟩ := HostKind.exists_of_isIf hif
          have hstops : Marking.statementStops file.tree (depth' + 1) id =
              id :: Marking.ifStops file.tree depth' init condition thenBranch elseBranch := by
            simp [Marking.statementStops, hkind]
          rw [hstops]
          exact (follows_if (fun l hl => ih l (Nat.lt_succ_of_le hl)) (by omega) (by omega) hkind
            hid).cons id
        | false =>
          rw [HostTree.elseTrace_eq_nil _ _ _ hif, List.append_nil]
          cases hinline : (file.tree.kind id).isInline with
          | true =>
            obtain ⟨depth', rfl⟩ := Nat.exists_eq_add_of_le' (show 1 ≤ depth' by omega)
            rw [Marking.statementStops_inline _ hinline,
              Marking.inlineStops_succ file.types _ hinline]
            exact ((follows_parts hlevel (by omega) (by omega) hid).congr
              (silent_iff_of_not_isIf hif).symm).cons id
          | false =>
            rw [Marking.statementStops_succ file.types _ hinline hif hfunction]
            exact ((follows_parts hlevel (by omega) (by omega) hid).congr
              (silent_iff_of_not_isIf hif).symm).cons id
      · intro hinline
        have hif := HostKind.isIf_of_isInline hinline
        rw [Marking.inlineStops_succ file.types _ hinline, HostTree.trace,
          if_pos hinline]
        exact (follows_parts hlevel (by omega) (by omega) hid).congr
          (silent_iff_of_not_isIf hif).symm

/-! ## Declarations -/

/-- Whether a node is a top-level declaration. -/
def HostKind.isDeclaration : HostKind → Bool
  | function _ | typeDecl .. | varDecl _ | constDecl _ => true
  | _ => false

/-- A file of declarations that have a text, with functions at the top level only. -/
structure HostFile.IsPlain (file : HostFile) : Prop where
  declares : ∀ id ∈ file.declarations, (file.tree.kind id).isDeclaration
  plain : ∀ id ∈ file.declarations,
    Settles (file.tree.printed file.types) (file.tree.IsPlain file.types) id

instance (tree : HostTree) (types : TypeTable) : DecidablePred (tree.IsPlain types) := fun id =>
  decidable_of_iff
    (tree.IsPrintable types id ∧ ∀ y ∈ tree.printed types id, (tree.kind y).isFunction = false)
    ⟨fun h => ⟨h.1, h.2⟩, fun h => ⟨h.toIsPrintable, h.functions⟩⟩

instance (file : HostFile) : DecidablePred file.TargetsSilent := fun id =>
  inferInstanceAs (Decidable (∀ target ∈ (file.tree.kind id).targets,
    openings (Layout.text file.tree file.types (Printer.depthBound file) false 0 target) = []))

theorem plainWithin_size {id : HostId}
    (h : Settles (file.tree.printed file.types) (file.tree.IsPlain file.types) id) :
    file.tree.PlainWithin file.types file.tree.size id := by
  have hwithin := (settles_iff_within (fun _ hid => HostTree.mem_ids hid.isNode)).mp h
  rwa [HostTree.length_ids] at hwithin

instance (file : HostFile) : Decidable file.IsPlain :=
  decidable_of_iff
    (∀ id ∈ file.declarations, (file.tree.kind id).isDeclaration ∧
      file.tree.PlainWithin file.types file.tree.size id)
    ⟨fun h => ⟨fun id hid => (h id hid).1, fun id hid => (h id hid).2.settles⟩,
      fun h id hid => ⟨h.declares id hid, plainWithin_size (h.plain id hid)⟩⟩

/-- The stops of a declaration follow what begins in its text. -/
theorem follows_declaration (entry : Option HostId) {id : HostId}
    (hdeclares : (file.tree.kind id).isDeclaration)
    (hplain : Settles (file.tree.printed file.types) (file.tree.IsPlain file.types) id) :
    Follows ((Marking.declarationStops file.tree entry id).map (·.node))
      (openings (file.tree.trace file.types (Printer.depthBound file) true id))
      (file.Silent id) := by
  have hid := plainWithin_size hplain
  cases hkind : file.tree.kind id with
  | function decl =>
    obtain ⟨level, hlevel⟩ : ∃ level, file.tree.size = level + 1 :=
      Nat.exists_eq_add_of_le' (Nat.one_le_of_lt hplain.isGood.isNode)
    rw [hlevel] at hid
    have hif : (file.tree.kind id).isIf = false := by rw [hkind]; rfl
    have hparts := follows_parts (followsWithin file level)
      (show 2 * level ≤ 2 * file.tree.size + 1 by omega)
      (show 3 * level ≤ Marking.depthBound file.tree by rw [Marking.depthBound]; omega) hid
    have hstops : (Marking.declarationStops file.tree entry id).map (·.node) =
        id :: ((file.tree.kind id).markedParts file.types).flatMap
          (file.tree.partStops (Marking.inlineStops file.tree (Marking.depthBound file.tree))
            (Marking.statementStops file.tree (Marking.depthBound file.tree))) := by
      cases hreceiver : decl.receiver <;>
        simp [Marking.declarationStops, hkind, HostKind.markedParts, HostKind.parts,
          HostTree.partStops, hreceiver, List.flatMap_map, Function.comp_def, Marking.flatMap_nothing]
    rw [hstops, Printer.depthBound, HostTree.trace, HostTree.elseTrace_eq_nil _ _ _ hif,
      List.append_nil]
    exact (hparts.congr (silent_iff_of_not_isIf hif).symm).cons id
  | typeDecl | varDecl | constDecl =>
    have hfollows := (followsWithin file file.tree.size id (Printer.depthBound file)
      (Marking.depthBound file.tree + 1) hid (by rw [Printer.depthBound]; omega)
      (by rw [Marking.depthBound]; omega)).1 (by rw [hkind]; rfl)
    simpa [Marking.declarationStops, hkind, Marking.statementStops, Function.comp_def]
      using hfollows
  | _ => simp [hkind, HostKind.isDeclaration] at hdeclares

theorem openings_declarationPieces (file : HostFile) :
    openings file.declarationPieces = file.declarations.flatMap (fun id =>
      openings (file.tree.trace file.types (Printer.depthBound file) true id)) := by
  rw [← Piece.openings_telling, file.telling_declarationPieces, Piece.openings_flatMap]

theorem follows_declarations (hplain : file.IsPlain) (entry : Option HostId) :
    Follows ((Marking.stops file entry).map (·.node)) (openings file.declarationPieces)
      (∀ id ∈ file.declarations, file.Silent id) := by
  rw [openings_declarationPieces, Marking.stops, List.map_flatMap]
  exact Follows.flatMap (fun id hid =>
    follows_declaration entry (hplain.declares id hid) (hplain.plain id hid))

/-! ## Functions are at the top -/

theorem notFunction_of_mem_parts {trace : Bool → HostId → List Piece} {id y : HostId}
    (hfunctions : ∀ z ∈ file.tree.printed file.types id, (file.tree.kind z).isFunction = false)
    (htrace : ∀ z ∈ file.tree.printed file.types id, ∀ opens, ∀ y ∈ openings (trace opens z),
      y = z ∨ (file.tree.kind y).isFunction = false)
    (hy : y ∈ openings (file.tree.partsTrace file.types trace (file.tree.kind id))) :
    (file.tree.kind y).isFunction = false := by
  rw [HostTree.partsTrace, Piece.openings_flatMap] at hy
  obtain ⟨part, hpart, hy⟩ := List.mem_flatMap.mp hy
  have hprinted (z : HostId) (hz : z ∈ file.tree.shown part) :
      z ∈ file.tree.printed file.types id :=
    List.mem_append_left _ (List.mem_flatMap.mpr ⟨part, hpart, hz⟩)
  have hshown (z : HostId) (hz : z ∈ file.tree.shown part) (opens : Bool)
      (hy : y ∈ openings (trace opens z)) : (file.tree.kind y).isFunction = false := by
    rcases htrace z (hprinted z hz) opens y hy with rfl | hy
    · exact hfunctions y (hprinted y hz)
    · exact hy
  rw [openings_partTrace] at hy
  cases part with
  | package | type => cases hy
  | inline z => exact hshown z (List.mem_singleton_self z) false hy
  | statement z => exact hshown z (List.mem_singleton_self z) true hy
  | body b =>
    obtain ⟨z, hz, hy⟩ := List.mem_flatMap.mp hy
    exact hshown z hz true hy

/-- Nothing that begins inside of a node is a function. -/
theorem notFunction_of_mem (depth : Nat) :
    ∀ id, Settles (file.tree.printed file.types) (file.tree.IsPlain file.types) id →
      (∀ opens, ∀ y ∈ openings (file.tree.trace file.types depth opens id),
        y = id ∨ (file.tree.kind y).isFunction = false) ∧
      ∀ y ∈ openings (file.tree.elseTrace file.types depth (file.tree.kind id)),
        (file.tree.kind y).isFunction = false := by
  induction depth with
  | zero => exact fun id _ => by simp [HostTree.trace, HostTree.elseTrace]
  | succ depth ih =>
    intro id hid
    have hparts (id : HostId)
        (hid : Settles (file.tree.printed file.types) (file.tree.IsPlain file.types) id)
        (y : HostId) (hy : y ∈ openings (file.tree.partsTrace file.types
          (file.tree.trace file.types depth) (file.tree.kind id))) :
        (file.tree.kind y).isFunction = false :=
      notFunction_of_mem_parts hid.isGood.functions (fun z hz => (ih z (hid.of_mem hz)).1) hy
    have hbranch {branch : HostId} (hb : (file.tree.kind id).elseBranch? = some branch)
        {z : HostId} (hz : z ∈ file.tree.statements branch) :
        z ∈ file.tree.printed file.types id :=
      List.mem_append_right _ (by simpa [hb] using hz)
    constructor
    · intro opens y hy
      cases opens with
      | true =>
        simp only [HostTree.trace, Piece.openings_cons_opening, Piece.openings_append,
          List.mem_cons, List.mem_append] at hy
        rcases hy with rfl | hy | hy
        · exact .inl rfl
        · exact .inr (hparts id hid y hy)
        · exact .inr ((ih id hid).2 y hy)
      | false =>
        rw [HostTree.trace] at hy
        split at hy
        · exact .inr (hparts id hid y hy)
        · cases hy
    · intro y hy
      cases hb : (file.tree.kind id).elseBranch? with
      | none => simp [HostTree.elseTrace, hb] at hy
      | some branch =>
        simp only [HostTree.elseTrace, hb] at hy
        split at hy
        · rename_i hif
          have hself := hid.of_mem (hbranch hb (HostTree.mem_statements_of_isIf hif))
          rcases List.mem_append.mp (Piece.openings_append _ _ ▸ hy) with hy | hy
          · exact hparts branch hself y hy
          · exact (ih branch hself).2 y hy
        · rw [Piece.openings_flatMap] at hy
          obtain ⟨z, hz, hy⟩ := List.mem_flatMap.mp hy
          rcases (ih z (hid.of_mem (hbranch hb hz))).1 true y hy with rfl | hy
          · exact hid.isGood.functions y (hbranch hb hz)
          · exact hy

/-- The stop of a node. Only the entry function has none of the columns. -/
def Marking.stopOf (tree : HostTree) (entry : Option HostId) (id : HostId) : Stop :=
  ⟨id, if (tree.kind id).isFunction && entry == some id then none else some 1⟩

theorem stopOf_of_not_isFunction {tree : HostTree} {entry : Option HostId} {id : HostId}
    (h : (tree.kind id).isFunction = false) : Marking.stopOf tree entry id = ⟨id, some 1⟩ := by
  simp [Marking.stopOf, h]

theorem declarationStops_eq (tree : HostTree) (entry : Option HostId) (id : HostId) :
    ∃ rest : List HostId, Marking.declarationStops tree entry id =
      Marking.stopOf tree entry id :: rest.map (fun node => ⟨node, some 1⟩) := by
  cases hkind : tree.kind id with
  | function decl =>
    exact ⟨(tree.statements decl.body).flatMap
      (Marking.statementStops tree (Marking.depthBound tree)), by
      simp [Marking.declarationStops, Marking.stopOf, hkind, HostKind.isFunction]⟩
  | _ =>
    exact ⟨Marking.inlineStops tree (Marking.depthBound tree) id, by
      simp [Marking.declarationStops, Marking.stopOf, hkind, HostKind.isFunction]⟩

theorem stop_of_mem_declarationStops {entry : Option HostId} {id : HostId}
    (hdeclares : (file.tree.kind id).isDeclaration)
    (hplain : Settles (file.tree.printed file.types) (file.tree.IsPlain file.types) id)
    {stop : Marking.Stop} (hstop : stop ∈ Marking.declarationStops file.tree entry id) :
    stop = Marking.stopOf file.tree entry stop.node := by
  obtain ⟨rest, hrest⟩ := declarationStops_eq file.tree entry id
  have hsublist := (follows_declaration entry hdeclares hplain).sublist
  rw [hrest] at hstop hsublist
  rcases List.mem_cons.mp hstop with rfl | hstop
  · rfl
  · obtain ⟨y, hy, rfl⟩ := List.mem_map.mp hstop
    -- The declaration itself comes first, and what begins inside of it is no function.
    simp only [Printer.depthBound, HostTree.trace, Piece.openings_cons_opening, List.map_cons,
      List.map_map, Function.comp_def, List.map_id'] at hsublist
    have hbelow : y ∈ openings (file.tree.partsTrace file.types
        (file.tree.trace file.types (2 * file.tree.size + 1)) (file.tree.kind id) ++
        file.tree.elseTrace file.types (2 * file.tree.size + 1) (file.tree.kind id)) :=
      (List.cons_sublist_cons.mp hsublist).subset hy
    rw [Piece.openings_append] at hbelow
    refine (stopOf_of_not_isFunction ?_).symm
    rcases List.mem_append.mp hbelow with hbelow | hbelow
    · exact notFunction_of_mem_parts hplain.isGood.functions
        (fun z hz => (notFunction_of_mem _ z (hplain.of_mem hz)).1) hbelow
    · exact (notFunction_of_mem _ id hplain).2 y hbelow

/-- The stops of a file are those of its nodes. -/
theorem stops_eq_map (hplain : file.IsPlain) (entry : Option HostId) :
    Marking.stops file entry =
      ((Marking.stops file entry).map (·.node)).map (Marking.stopOf file.tree entry) := by
  rw [List.map_map]
  refine (List.map_id'' (fun stop => rfl) _).symm.trans (List.map_congr_left fun stop hstop => ?_)
  obtain ⟨id, hid, hstop⟩ := List.mem_flatMap.mp hstop
  exact stop_of_mem_declarationStops (hplain.declares id hid) (hplain.plain id hid) hstop

end

/-! ## Markers in the text -/

/-- The last marker of some pieces. -/
def Piece.lastMarker (markers : Markers) (pieces : List Piece) : Option LineMarker :=
  ((openings pieces).filterMap (fun id => markers.lookup id)).getLast?

theorem getLast?_cons_or {α : Type} (a : α) (l : List α) (last : Option α) :
    (a :: l).getLast?.or last = l.getLast?.or (some a) := by
  cases h : l.getLast? <;> simp [List.getLast?_cons, h]

namespace Marking

variable {sources : Sources} {settings : Settings} {tree : HostTree} {entry : Option HostId}

/-- The marker that a node has a right to. -/
def own? (sources : Sources) (settings : Settings) (tree : HostTree) (entry : Option HostId)
    (id : HostId) : Option LineMarker :=
  marker? sources settings tree (stopOf tree entry id)

theorem own?_of_mem_collect {last : Option LineMarker} {ids : List HostId}
    {found : HostId × LineMarker}
    (h : found ∈ collect sources settings tree last (ids.map (stopOf tree entry))) :
    own? sources settings tree entry found.1 = some found.2 := by
  induction ids generalizing last with
  | nil => cases h
  | cons id ids ih =>
    simp only [List.map_cons, collect] at h
    split at h
    · exact ih h
    · rename_i marker hmarker
      split at h
      · exact ih h
      · rcases List.mem_cons.mp h with rfl | h
        · exact hmarker
        · exact ih h

/-- After each node, the last marker in the text is the one of the last node that has a right to
one, though markers that repeat the one before are left out. -/
theorem lastMarker_collect {markers : Markers}
    (hown : ∀ id marker, markers.lookup id = some marker →
      own? sources settings tree entry id = some marker) {seen rest : List HostId}
    {last : Option LineMarker}
    (hcollected : ∀ found ∈ collect sources settings tree last
      ((seen ++ rest).map (stopOf tree entry)), markers.lookup found.1 = some found.2) :
    (seen.filterMap (fun id => markers.lookup id)).getLast?.or last =
      (seen.filterMap (own? sources settings tree entry)).getLast?.or last := by
  induction seen generalizing last with
  | nil => rfl
  | cons id seen ih =>
    simp only [List.cons_append, List.map_cons, collect] at hcollected
    cases hmarker : own? sources settings tree entry id with
    | none =>
      have hlookup : markers.lookup id = none := by
        cases hlookup : markers.lookup id with
        | none => rfl
        | some marker => simp [hown id marker hlookup] at hmarker
      rw [own?] at hmarker
      rw [hmarker] at hcollected
      simpa [hlookup, own?, hmarker] using ih hcollected
    | some marker =>
      have hmarker' : marker? sources settings tree (stopOf tree entry id) = some marker := hmarker
      rw [hmarker'] at hcollected
      -- Whether the marker is put or repeats the one before, it is the last one afterwards.
      obtain ⟨hlookup, hrest⟩ : (markers.lookup id = some marker ∨
          markers.lookup id = none ∧ last = some marker) ∧
          (seen.filterMap (fun id => markers.lookup id)).getLast?.or (some marker) =
            (seen.filterMap (own? sources settings tree entry)).getLast?.or (some marker) := by
        by_cases hlast : last = some marker
        · simp only [hlast, if_true] at hcollected
          refine ⟨?_, ih hcollected⟩
          cases hlookup : markers.lookup id with
          | none => exact .inr ⟨rfl, hlast⟩
          | some other => exact .inl ((hown id other hlookup).symm.trans hmarker)
        · simp only [if_neg hlast, List.forall_mem_cons] at hcollected
          exact ⟨.inl hcollected.1, ih hcollected.2⟩
      rw [List.filterMap_cons, List.filterMap_cons, hmarker, getLast?_cons_or]
      rcases hlookup with hlookup | ⟨hlookup, hlast⟩
      · rw [hlookup, getLast?_cons_or]
        exact hrest
      · rw [hlookup, hlast]
        exact hrest

end Marking

theorem Markers.lookup_put_ne_none {found : List (HostId × LineMarker)} {markers : Markers}
    {id : HostId} (h : id ∈ found.map (·.1) ∨ markers.lookup id ≠ none) :
    (markers.put found).lookup id ≠ none := by
  induction found generalizing markers with
  | nil => simpa [put] using h
  | cons first found ih =>
    refine ih ?_
    rw [List.map_cons, List.mem_cons] at h
    by_cases hid : id = first.1
    · exact .inr (by simp [hid])
    · rcases h with (h | h) | h
      · exact absurd h hid
      · exact .inl h
      · exact .inr (by rwa [Keyed.lookup_set_of_ne hid])

section

variable {file : HostFile} (sources : Sources) (settings : Settings) (entry : Option HostId)

/-- The markers of a file that had none. -/
theorem annotate_markers (hbare : file.markers = []) (hplain : file.IsPlain) :
    (file.annotate sources settings entry).markers =
      Markers.put [] (Marking.collect sources settings file.tree none
        (((Marking.stops file entry).map (·.node)).map
          (Marking.stopOf file.tree entry))) := by
  rw [← stops_eq_map hplain, HostFile.annotate, hbare]
  rfl

theorem own?_of_lookup (hbare : file.markers = []) (hplain : file.IsPlain) (id : HostId)
    (marker : LineMarker)
    (h : (file.annotate sources settings entry).markers.lookup id = some marker) :
    Marking.own? sources settings file.tree entry id = some marker := by
  rw [annotate_markers sources settings entry hbare hplain] at h
  obtain ⟨before, after, heq, -⟩ := List.lookup_eq_some_iff.mp h
  have hmem : (id, marker) ∈ before ++ (id, marker) :: after := by simp
  rw [← heq] at hmem
  rcases Markers.mem_of_mem_put hmem with hfound | hnone
  · exact Marking.own?_of_mem_collect hfound
  · cases hnone

/-- Every marker that is found is put. -/
theorem lookup_of_mem_collect (hbare : file.markers = []) (hplain : file.IsPlain)
    {found : HostId × LineMarker}
    (h : found ∈ Marking.collect sources settings file.tree none
      (((Marking.stops file entry).map (·.node)).map (Marking.stopOf file.tree entry))) :
    (file.annotate sources settings entry).markers.lookup found.1 = some found.2 := by
  have hne : (file.annotate sources settings entry).markers.lookup found.1 ≠ none := by
    rw [annotate_markers sources settings entry hbare hplain]
    exact Markers.lookup_put_ne_none (.inl (List.mem_map_of_mem h))
  obtain ⟨marker, hmarker⟩ := Option.ne_none_iff_exists'.mp hne
  have hown := own?_of_lookup sources settings entry hbare hplain found.1 marker hmarker
  rw [hmarker, ← hown, Marking.own?_of_mem_collect h]

/-- Where nothing begins in what a range assigns to, the last marker of the text up to where a node
with a place in a known file begins is its own. -/
theorem lastMarker_of_silent (hbare : file.markers = []) (hplain : file.IsPlain)
    (hsilent : ∀ id ∈ file.declarations, file.Silent id) {before after : List Piece} {id : HostId}
    {marker : LineMarker} (hpieces : file.declarationPieces = before ++ .opening id :: after)
    (hown : Marking.own? sources settings file.tree entry id = some marker) :
    Piece.lastMarker (file.annotate sources settings entry).markers (before ++ [.opening id]) =
      some marker := by
  have hvisited : (Marking.stops file entry).map (·.node) =
      (openings before ++ [id]) ++ openings after := by
    rw [(follows_declarations hplain entry).eq_iff.mpr hsilent, hpieces]
    simp
  have hlast := Marking.lastMarker_collect (own?_of_lookup sources settings entry hbare hplain)
    (fun found hfound => lookup_of_mem_collect sources settings entry hbare hplain
      (by rwa [hvisited]))
  rw [Option.or_none, Option.or_none] at hlast
  rw [Piece.lastMarker, Piece.openings_append, Piece.openings_cons_opening, Piece.openings_nil,
    hlast, List.filterMap_append]
  simp [hown]

end

namespace Lowering

/-- The file of a unit that is lowered with markers is marked once. -/
theorem file_eq_annotate {c : Context} {types : TypeTable} {out : LoweredUnit}
    (h : lowerUnitWith c.unit c.sources ⟨types, c.env⟩ c.settings c.registry = .ok out)
    (hmarkers : c.settings.suppressPositionMarkers = false) :
    ∃ file : HostFile, file.markers = [] ∧
      out.file = file.annotate c.sources c.settings (State.final c types).outline.entry := by
  obtain rfl := (lowerUnitWith_ok.mp h).2
  generalize State.final c types = s
  refine ⟨_, ?_, by simp only [LoweredUnit.ofState, hmarkers, Bool.false_eq_true, if_false]; rfl⟩
  rfl

/-- In a lowered unit whose output has a text, declarations and statements are visited in the order
in which they begin in the text, all of them, just in case nothing begins in what a range assigns
to. Then wherever one with a place in a known file begins, the last marker of the text up to there
is its own. -/
theorem visited_as_printed_iff {c : Context} {types : TypeTable} {out : LoweredUnit}
    (h : lowerUnitWith c.unit c.sources ⟨types, c.env⟩ c.settings c.registry = .ok out)
    (hmarkers : c.settings.suppressPositionMarkers = false) (hplain : out.file.IsPlain) :
    let entry := (State.final c types).outline.entry
    ((Marking.stops out.file entry).map (·.node) = openings out.file.declarationPieces ↔
      ∀ id ∈ out.file.declarations, out.file.Silent id) ∧
    ((∀ id ∈ out.file.declarations, out.file.Silent id) → ∀ before id after marker,
      out.file.declarationPieces = before ++ .opening id :: after →
      Marking.own? c.sources c.settings out.file.tree entry id = some marker →
      Piece.lastMarker out.file.markers (before ++ [.opening id]) = some marker) := by
  intro entry
  refine ⟨(follows_declarations hplain entry).eq_iff, fun hsilent before id after marker => ?_⟩
  obtain ⟨file, hbare, hfile⟩ := file_eq_annotate h hmarkers
  rw [hfile] at hplain hsilent ⊢
  exact lastMarker_of_silent _ _ entry hbare ⟨hplain.declares, hplain.plain⟩ hsilent

/-- A function on line 1 with a `for range` on line 2. A function literal, `func() int { return 1 }`
with its `return` on line 3, is called in the index of `m[..]` and in the bound of `xs[..:]`. -/
def rangeSample (key source : Surface.NodeId) : Context :=
  let nodes : List (Surface.NodeKind × Nat) :=
    [(.type (.named none "int"), 0), (.type (.map ⟨0⟩ ⟨0⟩), 0), (.type (.slice ⟨0⟩), 0),
      (.type (.func [⟨some "m", ⟨1⟩⟩, ⟨some "xs", ⟨2⟩⟩] [] false), 0),
      (.type (.func [] [⟨none, ⟨0⟩⟩] false), 2), (.expr (.literal .int "1"), 4),
      (.stmt (.ret [⟨5⟩]), 4), (.stmt (.block [⟨6⟩]), 2), (.expr (.functionLiteral ⟨4⟩ ⟨7⟩), 2),
      (.expr (.call ⟨8⟩ [] false), 2), (.expr (.identifier "m"), 2),
      (.expr (.identifier "xs"), 2), (.expr (.index ⟨10⟩ ⟨5⟩), 2), (.expr (.index ⟨10⟩ ⟨9⟩), 2),
      (.expr (.slice ⟨11⟩ (some ⟨9⟩) none none), 2), (.stmt (.block []), 2),
      (.stmt (.range (some key) none false source ⟨15⟩), 2), (.stmt (.block [⟨16⟩]), 0),
      (.stmt (.function ⟨none, "f", ⟨3⟩, some ⟨17⟩, none⟩), 0)]
  { Context.sample [] [] with
    unit :=
      { nodes := (nodes.map (fun (kind, start) => ⟨kind, start, start, ⟨0⟩⟩)).toArray
        roots := [⟨18⟩]
        file := ⟨0⟩
        package := "main" }
    sources := (Sources.empty.add "/foo/bar.gop" "1\n2\n3\n").2 }

/-- What a sample lowers to. -/
def rangeUnit (key source : Surface.NodeId) : LoweredUnit :=
  .ofState (rangeSample key source) (.final (rangeSample key source) .initial)

/-- In `for m[1] = range xs[..:] {}` the `return` stands below a marker of line 3. -/
theorem visited_as_printed_in_source :
    let c := rangeSample ⟨12⟩ ⟨14⟩
    let out := rangeUnit ⟨12⟩ ⟨14⟩
    lowerUnitWith c.unit c.sources ⟨.initial, c.env⟩ c.settings c.registry = .ok out ∧
      out.file.IsPlain ∧ (∀ id ∈ out.file.declarations, out.file.Silent id) ∧
      ∃ before id after,
        out.file.declarationPieces = before ++ .opening id :: after ∧
        Marking.own? c.sources c.settings out.file.tree (State.final c .initial).outline.entry id =
          some ⟨"/foo/bar.gop", 3, some 1⟩ ∧
        Piece.lastMarker out.file.markers (before ++ [.opening id]) =
          some ⟨"/foo/bar.gop", 3, some 1⟩ := by
  intro c out
  have h : lowerUnitWith c.unit c.sources ⟨.initial, c.env⟩ c.settings c.registry = .ok out :=
    lowerUnitWith_ok.mpr ⟨by decide +kernel, rfl⟩
  have hplain : out.file.IsPlain := by decide +kernel
  have hwithin : ∀ id ∈ out.file.declarations,
      SettlesWithin (out.file.tree.printed out.file.types) out.file.TargetsSilent 20 id := by
    decide +kernel
  have hsilent : ∀ id ∈ out.file.declarations, out.file.Silent id := fun id hid =>
    (hwithin id hid).settles
  have hpieces : out.file.declarationPieces =
      out.file.declarationPieces.take 35 ++ .opening ⟨2⟩ :: out.file.declarationPieces.drop 36 := by
    decide +kernel
  have hown : Marking.own? c.sources c.settings out.file.tree
      (State.final c .initial).outline.entry ⟨2⟩ = some ⟨"/foo/bar.gop", 3, some 1⟩ := by
    decide +kernel
  exact ⟨h, hplain, hsilent, _, _, _, hpieces, hown,
    (visited_as_printed_iff h rfl hplain).2 hsilent _ _ _ _ hpieces hown⟩

/-- In `for m[..] = range xs {}` the `return` stands below the marker of line 2. -/
theorem range_target_unmarked :
    let c := rangeSample ⟨13⟩ ⟨11⟩
    let out := rangeUnit ⟨13⟩ ⟨11⟩
    lowerUnitWith c.unit c.sources ⟨.initial, c.env⟩ c.settings c.registry = .ok out ∧
      ∃ before id after,
        out.file.declarationPieces = before ++ .opening id :: after ∧
        Marking.own? c.sources c.settings out.file.tree (State.final c .initial).outline.entry id =
          some ⟨"/foo/bar.gop", 3, some 1⟩ ∧
        Piece.lastMarker out.file.markers (before ++ [.opening id]) =
          some ⟨"/foo/bar.gop", 2, some 1⟩ := by
  intro c out
  have hpieces : out.file.declarationPieces =
      out.file.declarationPieces.take 29 ++ .opening ⟨3⟩ :: out.file.declarationPieces.drop 30 := by
    decide +kernel
  exact ⟨lowerUnitWith_ok.mpr ⟨by decide +kernel, rfl⟩, _, _, _, hpieces, by decide +kernel,
    by decide +kernel⟩

end Lowering

end GoLowering
