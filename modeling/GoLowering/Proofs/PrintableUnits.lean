import GoLowering.Proofs.FormedDeclarations
import GoLowering.Proofs.HoistedStatements
import GoLowering.Proofs.PrintedImports

/-!
# Units that have a text

Where the text of a unit shows something on one line there is an expression or a simple statement,
but for the block that a `?` makes of a call without values. Such a block gets into the text among
the arguments of a call, in a header, and where values are given to nothing. The text of a unit ends
just in case there is none in these places and the types that it shows can be written out
(`wellSorted_iff`).
-/

namespace GoLowering

/-- A node of a file. -/
def HostFile.Contains (file : HostFile) (id : HostId) : Prop :=
  ∃ root ∈ file.declarations, file.tree.Reaches root id

/-- Where the text of a file shows something on one line there is an expression or a simple
statement. -/
def HostFile.IsWellSorted (file : HostFile) : Prop :=
  ∀ id, file.Contains id → ∀ part, .inline part ∈ (file.tree.kind id).parts file.types →
    (file.tree.kind part).isInline

/-- A block stands among the arguments of a call, in a header, or where values are given to
nothing. -/
def HostFile.HasLooseBlock (file : HostFile) : Prop :=
  ∃ id, file.Contains id ∧ ∃ part ∈ (file.tree.kind id).looseParts, ∃ statements,
    file.tree.kind part = .block statements

/-- The types that a file shows can be written out. -/
def HostFile.TypesRender (file : HostFile) : Prop :=
  ∀ id, file.Contains id → ∀ type, .type type ∈ (file.tree.kind id).parts file.types →
    file.types.Renders type

theorem HostKind.mem_parts_of_mem_looseParts (types : TypeTable) {kind : HostKind} {id : HostId}
    (h : id ∈ kind.looseParts) : .inline id ∈ kind.parts types := by
  unfold looseParts at h
  split at h <;> simp only [parts] <;> grind

/-- The parts of a node are nodes that it refers to. -/
theorem HostKind.mem_children_of_mem_parts {types : TypeTable} {kind : HostKind} {id : HostId}
    (h : .inline id ∈ kind.parts types ∨ .statement id ∈ kind.parts types ∨
      .body id ∈ kind.parts types) : id ∈ kind.children := by
  cases kind <;> simp_all [children, parts, and_or_left, exists_or, or_assoc]
  tauto

theorem HostKind.mem_children_of_branch {kind : HostKind} {branch : HostId}
    (h : kind.elseBranch? = some branch) : branch ∈ kind.children := by
  cases kind <;> simp_all [elseBranch?, children]

theorem HostTree.reaches_statements {tree : HostTree} {id statement : HostId}
    (h : statement ∈ tree.statements id) : tree.Reaches id statement := by
  unfold statements at h
  split at h
  · rename_i hkind
    exact reaches_child (by rw [hkind]; exact h)
  · obtain rfl := List.mem_singleton.mp h
    exact .refl

namespace Lowering.Context.Formed

variable {c : Context} {tree : HostTree} {types : TypeTable} {id child : HostId}
  (hformed : c.Formed tree) (hid : id.index < tree.size)
include hformed hid

/-- What a node refers to is older. -/
theorem child_lt (h : child ∈ (tree.kind id).children) : child.index < id.index := by
  have hfits := hformed id hid
  rcases mem_parts_of_mem_children .initial h with h | h | h | h
  · exact (hfits.suits _ _ h).1
  · exact hfits.suits _ _ h
  · exact hfits.suits _ _ h
  · exact hfits.branch child h

theorem reaches_le (h : tree.Reaches id child) : child.index ≤ id.index := by
  induction h with
  | refl => exact Nat.le_refl _
  | tail _ hchild ih =>
    exact (hformed.child_lt (Nat.lt_of_le_of_lt ih hid) hchild).le.trans ih

end Lowering.Context.Formed

namespace HostTree

variable {tree : HostTree} {types : TypeTable} {id x : HostId}

/-- What a part of a node shows is below the node. -/
theorem reaches_shown {part : HostKind.Part} (hpart : part ∈ (tree.kind id).parts types)
    (hx : x ∈ tree.shown part) : ∃ child ∈ (tree.kind id).children, tree.Reaches child x := by
  cases part with
  | package path => cases hx
  | type type => cases hx
  | inline child =>
    obtain rfl := List.mem_singleton.mp hx
    exact ⟨_, HostKind.mem_children_of_mem_parts (.inl hpart), .refl⟩
  | statement child =>
    obtain rfl := List.mem_singleton.mp hx
    exact ⟨_, HostKind.mem_children_of_mem_parts (.inr (.inl hpart)), .refl⟩
  | body child =>
    exact ⟨child, HostKind.mem_children_of_mem_parts (.inr (.inr hpart)), reaches_statements hx⟩

/-- Where a node has a text, so has all that is below it. -/
theorem Renders.suits_below (h : tree.Renders types id) (hx : tree.Reaches id x) :
    ∀ part ∈ (tree.kind x).parts types, tree.Suits types part := by
  induction h with
  | @intro id hgood hnext ih =>
    have hstatements {child : HostId}
        (hchild : ∀ y ∈ tree.statements child, y ∈ tree.printed types id)
        (hx : tree.Reaches child x) :
        ∀ part ∈ (tree.kind x).parts types, tree.Suits types part := by
      cases hkind : tree.kind child with
      | block entries =>
        rcases reaches_iff.mp hx with rfl | ⟨statement, hstatement, hx⟩
        · rw [hkind]
          intro part hpart
          obtain ⟨statement, -, rfl⟩ := List.mem_map.mp hpart
          trivial
        · refine ih statement (hchild statement ?_) hx
          rw [hkind] at hstatement
          simpa [statements, hkind] using hstatement
      | _ => exact ih child (hchild child (by simp [statements, hkind])) hx
    have hshown {part : HostKind.Part} (hpart : part ∈ (tree.kind id).parts types) :
        ∀ y ∈ tree.shown part, y ∈ tree.printed types id := fun y hy =>
      List.mem_append_left _ (List.mem_flatMap.mpr ⟨part, hpart, hy⟩)
    rcases reaches_iff.mp hx with rfl | ⟨child, hchild, hx⟩
    · exact hgood.suits
    · rcases mem_parts_of_mem_children types hchild with hpart | hpart | hpart | hbranch
      · exact ih child (hshown hpart child (List.mem_singleton_self child)) hx
      · exact ih child (hshown hpart child (List.mem_singleton_self child)) hx
      · exact hstatements (hshown hpart) hx
      · exact hstatements (fun y hy => List.mem_append_right _ (List.mem_flatMap.mpr
          ⟨child, Option.mem_toList.mpr hbranch, hy⟩)) hx

end HostTree

/-- A node of a lowering has a text just in case all that is below it can be shown. -/
theorem Lowering.Context.Formed.renders_iff {c : Context} {tree : HostTree} {types : TypeTable}
    {id : HostId} (hformed : c.Formed tree) (hid : id.index < tree.size) :
    tree.Renders types id ↔ ∀ x, tree.Reaches id x → ∀ part ∈ (tree.kind x).parts types,
      tree.Suits types part := by
  refine ⟨fun h x hx => h.suits_below hx, fun h => ?_⟩
  induction hn : id.index using Nat.strong_induction_on generalizing id with
  | _ n ih =>
    subst hn
    refine settles_iff.mpr ⟨⟨hid, h id .refl, fun branch hbranch =>
      ((hformed id hid).branch branch hbranch).trans hid⟩, fun y hy => ?_⟩
    obtain ⟨child, hchild, hy⟩ : ∃ child ∈ (tree.kind id).children, tree.Reaches child y := by
      rcases List.mem_append.mp hy with hy | hy
      · obtain ⟨part, hpart, hy⟩ := List.mem_flatMap.mp hy
        exact HostTree.reaches_shown hpart hy
      · obtain ⟨branch, hbranch, hy⟩ := List.mem_flatMap.mp hy
        refine ⟨branch, ?_, HostTree.reaches_statements hy⟩
        exact HostKind.mem_children_of_branch (Option.mem_toList.mp hbranch)
    have hlt := hformed.child_lt hid hchild
    have hle := hformed.reaches_le (hlt.trans hid) hy
    exact ih y.index (hle.trans_lt hlt) (hle.trans_lt (hlt.trans hid))
      (fun x hx => h x (.head hchild (hy.trans hx))) rfl

namespace Lowering

open Surface

/-- What is put out by a unit that lowers is there and fits. -/
theorem formed_file {c : Context} {types : TypeTable} {out : LoweredUnit}
    (h : lowerUnitWith c.unit c.sources ⟨types, c.env⟩ c.settings c.registry = .ok out) :
    c.Formed out.file.tree ∧ ∀ id, out.file.Contains id → id.index < out.file.tree.size := by
  obtain ⟨-, rfl⟩ := lowerUnitWith_ok.mp h
  obtain ⟨hformed, -, houtput⟩ := sound_final c types
  have htree := (outputs_ofState c (.final c types)).2.2
  have hdeclarations : (LoweredUnit.ofState c (.final c types)).file.declarations =
      (State.final c types).output := by
    rw [← output_ofState c]
    simp [HostFile.declarations, HostFile.groups]
  rw [htree]
  refine ⟨hformed, fun id hid => ?_⟩
  obtain ⟨root, hroot, hreaches⟩ := hid
  have hin := houtput root (hdeclarations ▸ hroot)
  exact (hformed.reaches_le hin (htree ▸ hreaches)).trans_lt hin

/-- The text of a unit whose headers consist of statements that can stand there. Only a block can
stand where an expression or a simple statement is shown, a `?` has made it, and it stands among the
arguments of a call, in a header, or where values are given to nothing. So there is an expression or
a simple statement everywhere just in case no block stands in these places, and the text ends just
in case this is so and the types that it shows can be written out. -/
theorem wellSorted_iff {c : Context} {types : TypeTable} {out : LoweredUnit}
    (h : lowerUnitWith c.unit c.sources ⟨types, c.env⟩ c.settings c.registry = .ok out)
    (hshort : c.unit.ShortHeaders) :
    (∀ id, id.index < out.file.tree.size →
      ∀ part, .inline part ∈ (out.file.tree.kind id).parts out.file.types →
        (out.file.tree.kind part).isInline ∨
          part ∈ (out.file.tree.kind id).looseParts ∧ c.IsBlock out.file.tree part) ∧
    (out.file.IsWellSorted ↔ ¬ out.file.HasLooseBlock) ∧
    (out.file.Renders ↔ out.file.IsWellSorted ∧ out.file.TypesRender) := by
  obtain ⟨hformed, hin⟩ := formed_file h
  have hparts : ∀ id, id.index < out.file.tree.size →
      ∀ part, .inline part ∈ (out.file.tree.kind id).parts out.file.types →
        (out.file.tree.kind part).isInline ∨
          part ∈ (out.file.tree.kind id).looseParts ∧ c.IsBlock out.file.tree part :=
    fun id hid part hpart => ((hformed id hid).suits _ _ hpart).2.imp_right
      (fun hloose => ⟨hloose.1, hloose.2 hshort⟩)
  refine ⟨hparts, ⟨fun hsorted => ?_, fun hnone id hid part hpart => ?_⟩, ?_⟩
  · rintro ⟨id, hid, part, hpart, entries, hkind⟩
    have hinline := hsorted id hid part (HostKind.mem_parts_of_mem_looseParts _ hpart)
    rw [hkind] at hinline
    cases hinline
  · rcases hparts id (hin id hid) part hpart with hinline | ⟨hloose, hblock⟩
    · exact hinline
    · exact absurd ⟨id, hid, part, hloose, hblock.kind⟩ hnone
  · have hrenders : out.file.Renders ↔ ∀ id, out.file.Contains id →
        ∀ part ∈ (out.file.tree.kind id).parts out.file.types,
          out.file.tree.Suits out.file.types part := by
      refine ⟨?_, fun hsuits root hroot => ?_⟩
      · rintro hrenders id ⟨root, hroot, hid⟩
        exact (hrenders root hroot).suits_below hid
      · exact (hformed.renders_iff (hin root ⟨root, hroot, .refl⟩)).mpr
          (fun id hid => hsuits id ⟨root, hroot, hid⟩)
    rw [hrenders]
    refine ⟨fun hsuits => ⟨fun id hid part => hsuits id hid (.inline part),
      fun id hid type => hsuits id hid (.type type)⟩, fun ⟨hsorted, htypes⟩ id hid part hpart => ?_⟩
    have hfits := (hformed id (hin id hid)).suits _ part hpart
    cases part with
    | package path => trivial
    | type type => exact htypes id hid type hpart
    | inline part => exact hsorted id hid part hpart
    | statement part => trivial
    | body part => exact Nat.lt_trans hfits (hin id hid)

/-- `func g() error { return g() }` and `func f() error { g()?; return g() }`. -/
def propagatingSample : Context :=
  .sample
    [.type (.named none "error"), .type (.func [] [⟨none, ⟨0⟩⟩] false), .expr (.identifier "g"),
      .expr (.call ⟨2⟩ [] false), .stmt (.ret [⟨3⟩]), .stmt (.block [⟨4⟩]),
      .stmt (.function ⟨none, "g", ⟨1⟩, some ⟨5⟩, none⟩), .expr (.errorWrap ⟨3⟩ .propagate),
      .stmt (.expression ⟨7⟩), .stmt (.block [⟨8⟩, ⟨4⟩]),
      .stmt (.function ⟨none, "f", ⟨1⟩, some ⟨9⟩, none⟩)]
    [⟨6⟩, ⟨10⟩]

theorem wellSorted_iff_statement : propagatingSample.unit.ShortHeaders ∧ ∃ out,
    lowerUnitWith propagatingSample.unit propagatingSample.sources
      ⟨.initial, propagatingSample.env⟩ propagatingSample.settings propagatingSample.registry =
        .ok out ∧
    out.file.Renders ∧ out.file.IsWellSorted ∧ ¬ out.file.HasLooseBlock := by
  have hshort : propagatingSample.unit.ShortHeaders := by decide +kernel
  have hclean : (State.final propagatingSample .initial).diagnostics = [] := by decide +kernel
  have h := lowerUnitWith_ok.mpr ⟨hclean, rfl⟩
  have hrenders : (LoweredUnit.ofState propagatingSample
    (.final propagatingSample .initial)).file.Renders := by decide +kernel
  obtain ⟨-, hblocks, htext⟩ := wellSorted_iff h hshort
  have hsorted := (htext.mp hrenders).1
  exact ⟨hshort, _, h, hrenders, hsorted, hblocks.mp hsorted⟩

/-- `func g() error { return g() }`, `func p(xs ...error) {}` and
`func f() error { p(g()?); return g() }`. -/
def spreadingSample : Context :=
  .sample
    [.type (.named none "error"), .type (.func [] [⟨none, ⟨0⟩⟩] false), .expr (.identifier "g"),
      .expr (.call ⟨2⟩ [] false), .stmt (.ret [⟨3⟩]), .stmt (.block [⟨4⟩]),
      .stmt (.function ⟨none, "g", ⟨1⟩, some ⟨5⟩, none⟩), .expr (.errorWrap ⟨3⟩ .propagate),
      .type (.func [⟨some "xs", ⟨0⟩⟩] [] true), .stmt (.block []),
      .stmt (.function ⟨none, "p", ⟨8⟩, some ⟨9⟩, none⟩), .expr (.identifier "p"),
      .expr (.call ⟨11⟩ [⟨7⟩] false), .stmt (.expression ⟨12⟩), .stmt (.block [⟨13⟩, ⟨4⟩]),
      .stmt (.function ⟨none, "f", ⟨1⟩, some ⟨14⟩, none⟩)]
    [⟨6⟩, ⟨10⟩, ⟨15⟩]

/-- The block of `g()?` is the argument of `p`, and the text does not end. -/
theorem block_among_arguments : spreadingSample.unit.ShortHeaders ∧ ∃ out,
    lowerUnitWith spreadingSample.unit spreadingSample.sources
      ⟨.initial, spreadingSample.env⟩ spreadingSample.settings spreadingSample.registry =
        .ok out ∧
    ¬ out.file.IsWellSorted ∧ ¬ out.file.Renders := by
  have hclean : (State.final spreadingSample .initial).diagnostics = [] := by decide +kernel
  refine ⟨by decide +kernel, _, lowerUnitWith_ok.mpr ⟨hclean, rfl⟩, fun hsorted => ?_,
    by decide +kernel⟩
  have hbody : (LoweredUnit.ofState spreadingSample
      (.final spreadingSample .initial)).file.tree.Reaches ⟨38⟩ ⟨32⟩ :=
    .head (b := ⟨37⟩) (by decide +kernel) (.head (b := ⟨33⟩) (by decide +kernel)
      (HostTree.reaches_child (by decide +kernel)))
  have hinline := hsorted ⟨32⟩ ⟨⟨38⟩, by decide +kernel, hbody⟩ ⟨31⟩ (by decide +kernel)
  exact absurd hinline (by decide +kernel)

end Lowering

end GoLowering
