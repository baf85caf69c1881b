import GoLowering.Proofs.PrintableUnits
import GoLowering.Proofs.PropagatedErrors

/-!
# References of generated code

Generated code refers to packages by the last segments of their paths, and to a few predeclared
names. Nothing is declared in the text of a unit but names of the source and names of generated
code, so that such a reference is to what is meant where the source keeps away from its spelling
(`references_resolve`).
-/

namespace GoLowering

/-- What generated code refers to that is predeclared. -/
def Names.predeclared : List String := ["append", "panic", "new", "nil", "true", "false"]

/-- The names that generated code declares, but for those that are numbered. -/
def Names.generated : List String :=
  [err, ok, iterator, blank, "v", EntryRole.executable.functionName,
    EntryRole.libraryInit.functionName]

namespace HostFile

variable (file : HostFile)

/-- A name is declared somewhere in a file. -/
def Declares (name : String) : Prop :=
  ∃ id, file.Contains id ∧ name ∈ file.tree.declaredAt id

/-- The last segment of a path stands for the package of the path, wherever it is written. -/
structure MeansPackage (path : String) : Prop where
  imported : path ∈ file.imports
  undeclared : ¬ file.Declares (packageName path)
  unique : ∀ other ∈ file.imports, packageName other = packageName path → other = path

/-- A name stands for what is predeclared, wherever it is written. -/
structure MeansPredeclared (name : String) : Prop where
  undeclared : ¬ file.Declares name
  unimported : ∀ path ∈ file.imports, packageName path ≠ name

/-- The references of a file to packages and to what is predeclared are to what is meant. -/
structure Resolves : Prop where
  qualified : ∀ id, file.Contains id → ∀ path name, file.tree.kind id = .qualified path name →
    file.MeansPackage path
  predeclared : ∀ id, file.Contains id → ∀ name ∈ Names.predeclared,
    file.tree.kind id = .identifier name → file.MeansPredeclared name

end HostFile

namespace Lowering

open Surface

/-- The spellings of the references in a file are not declared, and the packages that it imports
have different last segments. -/
structure Context.LeavesFree (c : Context) (file : HostFile) : Prop where
  predeclared : ∀ name ∈ Names.predeclared, ¬ c.Declares name
  packages : ∀ path ∈ file.imports, ¬ c.Declares (packageName path)
  apart : ∀ path ∈ file.imports, packageName path ∉ Names.predeclared
  unique : ∀ path ∈ file.imports, ∀ other ∈ file.imports,
    packageName other = packageName path → other = path

variable {c : Context} {tree : HostTree} {id : HostId}

/-- A name that is not one of generated code is declared only by the source. -/
theorem Context.declares_iff {name : String}
    (hresult : name.toList.take 6 ≠ ['_', 'g', 'o', 'p', '_', 'r'])
    (htemporary : name.toList.take 2 ≠ ['_', 'a']) (hnot : name ∉ Names.generated) :
    c.Declares name ↔ ∃ id, name ∈ c.unit.namesAt id := by
  refine ⟨fun hdeclares => ?_, fun ⟨id, hid⟩ => .source id hid⟩
  cases hdeclares with
  | source id h => exact ⟨id, h⟩
  | reserved hreserved =>
    exact absurd hreserved (Names.not_isReserved hresult (fun he =>
      hnot (by simp [he, Names.generated])))
  | temporary _ h => exact absurd h.symm (Names.temporary_ne htemporary)
  | entry h =>
    refine absurd ?_ hnot
    rw [h]
    cases c.settings.entryRole <;> simp [Names.generated]
  | found h | iterator h | blank h | parsed h =>
    exact absurd (by simp [h, Names.generated]) hnot

/-- Generated code does not declare what is predeclared. -/
theorem Context.declares_predeclared_iff {name : String} (h : name ∈ Names.predeclared) :
    c.Declares name ↔ ∃ id, name ∈ c.unit.namesAt id := by
  have hall : ∀ name ∈ Names.predeclared, name.toList.take 6 ≠ ['_', 'g', 'o', 'p', '_', 'r'] ∧
      name.toList.take 2 ≠ ['_', 'a'] ∧ name ∉ Names.generated := by
    decide
  obtain ⟨hresult, htemporary, hnot⟩ := hall name h
  exact Context.declares_iff hresult htemporary hnot

/-! ## Packages -/

/-- What is below a node comes to an end. -/
theorem Context.Formed.ends (hformed : c.Formed tree) (hid : id.index < tree.size) :
    tree.Ends id := by
  induction hn : id.index using Nat.strong_induction_on generalizing id with
  | _ n ih =>
    subst hn
    refine .intro hid (fun child hchild => ?_)
    have hlt := hformed.child_lt hid hchild
    exact ih child.index hlt (hlt.trans hid) rfl

/-- A file imports what a node of it mentions. -/
theorem mem_imports_of_mem_packagesOf {file : HostFile} {path : String}
    (hformed : c.Formed file.tree) (hin : ∀ id, file.Contains id → id.index < file.tree.size)
    (hid : file.Contains id) (hpath : path ∈ file.packagesOf id) : path ∈ file.imports := by
  obtain ⟨root, hroot, hreaches⟩ := hid
  refine mem_imports_iff.mpr ⟨root, hroot, ?_⟩
  have hends {x : HostId} (hx : file.tree.Reaches root x) : file.tree.Ends x :=
    hformed.ends (hin x ⟨root, hroot, hx⟩)
  induction hreaches with
  | refl => exact hpath
  | tail hx hchild ih =>
    exact ih ((mem_packagesOf_iff (hends hx)).mpr (.inr (.inr ⟨_, hchild, hpath⟩)))

/-- The names that are declared in the text of a unit are those that its source declares and those
of generated code, and of what is predeclared generated code declares nothing. Where none of the
spellings that its references have is declared, and no two packages that the text imports have the
same last segment, each of these references is to what is meant. -/
theorem references_resolve {types : TypeTable} {out : LoweredUnit}
    (h : lowerUnitWith c.unit c.sources ⟨types, c.env⟩ c.settings c.registry = .ok out) :
    (∀ name, out.file.Declares name → c.Declares name) ∧
    (∀ name ∈ Names.predeclared, (c.Declares name ↔ ∃ id, name ∈ c.unit.namesAt id)) ∧
    (c.LeavesFree out.file → out.file.Resolves) := by
  obtain ⟨hformed, hin⟩ := formed_file h
  have hdeclares (name : String) : out.file.Declares name → c.Declares name := by
    rintro ⟨id, hid, hname⟩
    have hfits := hformed id (hin id hid)
    rcases List.mem_append.mp hname with hname | hname
    · exact hfits.names name hname
    · obtain ⟨part, hpart, hname⟩ := List.mem_filterMap.mp hname
      obtain ⟨-, found, hkind, hfound⟩ := hfits.defined part hpart
      unfold HostTree.name? at hname
      rw [hkind] at hname
      exact Option.some.inj hname ▸ hfound
  refine ⟨hdeclares, fun name => Context.declares_predeclared_iff, fun hfree => ⟨?_, ?_⟩⟩
  · intro id hid path name hkind
    have hpath : path ∈ out.file.imports :=
      mem_imports_of_mem_packagesOf hformed hin hid
        ((mem_packagesOf_iff (hformed.ends (hin id hid))).mpr (.inl (by rw [hkind]; rfl)))
    exact ⟨hpath, mt (hdeclares _) (hfree.packages path hpath), hfree.unique path hpath⟩
  · intro id hid name hname hkind
    exact ⟨mt (hdeclares _) (hfree.predeclared name hname), fun path hpath he =>
      hfree.apart path hpath (he ▸ hname)⟩

/-- `func name() (int, error) { return name() }` and `func f() int { return name()! }`. -/
def raisingSample (name : String) : Context :=
  .sample
    [.type (.named none "int"), .type (.named none "error"),
      .type (.func [] [⟨none, ⟨0⟩⟩, ⟨none, ⟨1⟩⟩] false), .expr (.identifier name),
      .expr (.call ⟨3⟩ [] false), .stmt (.ret [⟨4⟩]), .stmt (.block [⟨5⟩]),
      .stmt (.function ⟨none, name, ⟨2⟩, some ⟨6⟩, none⟩),
      .type (.func [] [⟨none, ⟨0⟩⟩] false), .expr (.errorWrap ⟨4⟩ .raise), .stmt (.ret [⟨9⟩]),
      .stmt (.block [⟨10⟩]), .stmt (.function ⟨none, "f", ⟨8⟩, some ⟨11⟩, none⟩)]
    [⟨7⟩, ⟨12⟩]

theorem references_resolve_raise : ∃ out,
    lowerUnitWith (raisingSample "g").unit (raisingSample "g").sources
      ⟨.initial, (raisingSample "g").env⟩ (raisingSample "g").settings
      (raisingSample "g").registry = .ok out ∧
    (raisingSample "g").LeavesFree out.file ∧ out.file.Resolves := by
  have hclean : (State.final (raisingSample "g") .initial).diagnostics = [] := by decide +kernel
  have h := lowerUnitWith_ok.mpr ⟨hclean, rfl⟩
  have himports : (LoweredUnit.ofState (raisingSample "g")
      (.final (raisingSample "g") .initial)).file.imports = ["github.com/qiniu/x/errors"] := by
    decide +kernel
  have hfree : (raisingSample "g").LeavesFree
      (LoweredUnit.ofState (raisingSample "g") (.final (raisingSample "g") .initial)).file := by
    refine ⟨fun name hname => ?_, ?_, ?_, ?_⟩
    · rw [Context.declares_predeclared_iff hname]
      revert name
      decide +kernel
    · rw [himports, List.forall_mem_singleton,
        Context.declares_iff (by decide +kernel) (by decide +kernel) (by decide +kernel)]
      decide +kernel
    · rw [himports]
      decide +kernel
    · rw [himports]
      decide +kernel
  exact ⟨_, h, hfree, (references_resolve h).2.2 hfree⟩

/-- Generated code panics where a function of the unit is named `panic`. -/
theorem raise_calls_declared_panic : ∃ out,
    lowerUnitWith (raisingSample "panic").unit (raisingSample "panic").sources
      ⟨.initial, (raisingSample "panic").env⟩ (raisingSample "panic").settings
      (raisingSample "panic").registry = .ok out ∧
    (∃ id, out.file.Contains id ∧ out.file.tree.IsPanic id) ∧
    "panic" ∈ out.file.declarationNames := by
  have hclean : (State.final (raisingSample "panic") .initial).diagnostics = [] := by
    decide +kernel
  refine ⟨_, lowerUnitWith_ok.mpr ⟨hclean, rfl⟩, ⟨⟨23⟩, ⟨⟨35⟩, by decide +kernel, ?_⟩,
    ⟨22⟩, ⟨20⟩, ⟨21⟩, by decide +kernel⟩, by decide +kernel⟩
  -- From the function down to the handler of the function literal that is called.
  exact .head (b := ⟨34⟩) (by decide +kernel) (.head (b := ⟨33⟩) (by decide +kernel)
    (.head (b := ⟨32⟩) (by decide +kernel) (.head (b := ⟨31⟩) (by decide +kernel)
    (.head (b := ⟨30⟩) (by decide +kernel) (.head (b := ⟨28⟩) (by decide +kernel)
    (.head (b := ⟨27⟩) (by decide +kernel) (HostTree.reaches_child (by decide +kernel))))))))

end Lowering

end GoLowering
