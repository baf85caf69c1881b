import GoLowering.Proofs.PrintedPieces
import GoLowering.Proofs.PrintedTraces

/-!
# Imports of printed files

A file imports the packages that its declarations show, and no others (`mem_imports_iff_printed`).
The import collector and the printer go through a file each in its own way. For types, the one looks
at all that an entry mentions and the other at what it writes (`mem_packages_iff_written`); for
nodes, the one goes through the children and the other through the parts (`exists_part_iff`).
-/

namespace GoLowering

open Piece (telling)

/-! ## Types -/

namespace TypeTable

variable {types : TypeTable} {path : String}

/-- All that a type mentions comes to an end. -/
def Ends (types : TypeTable) : TypeId → Prop :=
  Settles (fun id => mentioned (types.get id)) (fun id => id.index < types.size)

theorem packagesWithin_eq {depth depth' : Nat} {id : TypeId} (hle : depth ≤ depth')
    (h : SettlesWithin (fun id => mentioned (types.get id)) (fun id => id.index < types.size)
      depth id) : types.packagesWithin depth' id = types.packagesWithin depth id := by
  induction depth generalizing depth' id with
  | zero => exact h.elim
  | succ depth ih =>
    obtain ⟨depth', rfl⟩ := Nat.exists_eq_add_of_le' (Nat.le_of_add_left_le hle)
    simp only [packagesWithin]
    congr 1
    exact List.flatMap_congr (fun u hu => ih (by omega) (h.2 u hu))

/-- The packages of a type are its own and those of the types that it mentions. -/
theorem mem_packages_iff {id : TypeId} (h : types.Ends id) :
    path ∈ types.packages id ↔
      ownPackage? (types.get id) = some path ∨
        ∃ u ∈ mentioned (types.get id), path ∈ types.packages u := by
  have hbelow (u : TypeId) (hu : u ∈ mentioned (types.get id)) :
      types.packagesWithin types.size u = types.packages u := by
    have hwithin := (settles_iff_within (fun _ => mem_ids)).mp (h.of_mem hu)
    rw [length_ids] at hwithin
    exact (packagesWithin_eq (Nat.le_succ types.size) hwithin).symm
  rw [packages, packagesWithin]
  simp only [List.mem_append, Option.mem_toList, List.mem_flatMap]
  constructor
  · rintro (hown | ⟨u, hu, hpath⟩)
    · exact .inl hown
    · exact .inr ⟨u, hu, by rwa [hbelow u hu] at hpath⟩
  · rintro (hown | ⟨u, hu, hpath⟩)
    · exact .inl hown
    · exact .inr ⟨u, hu, by rwa [hbelow u hu]⟩

theorem index_lt_size {id : TypeId} (h : types.get id ≠ .invalid) : id.index < types.size := by
  by_contra hge
  exact h (by simp [get, Array.getD, show ¬ id.index < types.entries.size from hge])

theorem lastWritten_cases (types : TypeTable) (variadic : Bool) (id : TypeId) :
    types.lastWritten variadic id = id ∨
      types.get id = .slice (types.lastWritten variadic id) := by
  unfold lastWritten
  split
  · rename_i element hslice
    split
    · exact .inr hslice
    · exact .inl rfl
  · exact .inl rfl

theorem ends_of_slice {id element : TypeId} (hslice : types.get id = .slice element)
    (h : types.Ends element) : types.Ends id := by
  refine .intro (index_lt_size (by simp [hslice])) ?_
  intro u hu
  obtain rfl : u = element := by simpa [hslice, mentioned] using hu
  exact h

/-- The last parameter of a signature relies on the packages of what is written of it. -/
theorem mem_packages_lastWritten {variadic : Bool} {id : TypeId}
    (h : types.Ends (types.lastWritten variadic id)) :
    path ∈ types.packages (types.lastWritten variadic id) ↔ path ∈ types.packages id := by
  rcases types.lastWritten_cases variadic id with heq | hslice
  · rw [heq]
  · rw [mem_packages_iff (ends_of_slice hslice h)]
    simp [hslice, mentioned, ownPackage?]

/-- The parameters of a signature, as far as they are written. -/
theorem forall_mem_params {variadic : Bool} {params : List TypeId} {p : TypeId → Prop}
    (hlast : ∀ id, p (types.lastWritten variadic id) → p id)
    (h : ∀ id ∈ types.writtenParams variadic params, p id) : ∀ id ∈ params, p id := by
  rcases List.eq_nil_or_concat' params with rfl | ⟨init, last, rfl⟩
  · simp
  · intro id hid
    simp only [writtenParams, List.dropLast_concat, List.getLast?_concat, Option.toList_some,
      List.map_cons, List.map_nil, List.mem_append, List.mem_singleton] at h hid
    rcases hid with hid | rfl
    · exact h id (.inl hid)
    · exact hlast id (h _ (.inr rfl))

theorem exists_mem_params {variadic : Bool} {params : List TypeId} {p : TypeId → Prop}
    (hlast : ∀ id, types.lastWritten variadic id ∈ types.writtenParams variadic params →
      (p (types.lastWritten variadic id) ↔ p id)) :
    (∃ id ∈ types.writtenParams variadic params, p id) ↔ ∃ id ∈ params, p id := by
  rcases List.eq_nil_or_concat' params with rfl | ⟨init, last, rfl⟩
  · simp [writtenParams]
  · have hp := hlast last (by simp [writtenParams])
    simp [writtenParams, or_and_right, exists_or, hp]

theorem ends_of_params {variadic : Bool} {params : List TypeId}
    (h : ∀ id ∈ types.writtenParams variadic params, types.Ends id) :
    ∀ id ∈ params, types.Ends id := by
  refine forall_mem_params (fun id hid => ?_) h
  rcases types.lastWritten_cases variadic id with heq | hslice
  · rwa [heq] at hid
  · exact ends_of_slice hslice hid

theorem ends_of_signature {id : TypeId} {sig : Signature} (hsig : types.get id = .func sig)
    (h : ∀ u ∈ types.writtenSignature sig, types.Ends u) : types.Ends id := by
  refine .intro (index_lt_size (by simp [hsig])) ?_
  intro u hu
  simp only [hsig, mentioned, List.mem_append] at hu
  rcases hu with hu | hu
  · exact ends_of_params (fun v hv => h v (List.mem_append_left _ hv)) u hu
  · exact h u (List.mem_append_right _ hu)

theorem signature?_of_get {id : TypeId} {sig : Signature} (hsig : types.get id = .func sig) :
    types.signature? id = some sig := by
  simp [signature?, shape, underlying, resolve, hsig]

theorem MethodsAreFunctions.exists_signature (hm : types.MethodsAreFunctions) {id : TypeId}
    {methods : List InterfaceMethod} (hid : types.get id = .interface methods)
    {method : InterfaceMethod} (hmethod : method ∈ methods) :
    ∃ sig, types.get method.sig = .func sig := by
  have hlt : id.index < types.size := index_lt_size (by simp [hid])
  have hentry : Ty.interface methods ∈ types.entries := by
    rw [← hid]
    exact get_mem hlt
  have hfunction := hm _ hentry method hmethod
  cases hsig : types.get method.sig with
  | func sig => exact ⟨sig, rfl⟩
  | _ => simp [isFunction, hsig] at hfunction

/-- What can be written out comes to an end. -/
theorem Renders.ends (hm : types.MethodsAreFunctions) {id : TypeId} (h : types.Renders id) :
    types.Ends id := by
  induction h with
  | @intro id hgood hnext ih =>
    refine .intro hgood (fun u hu => ?_)
    cases hid : types.get id with
    | func sig =>
      simp only [hid, mentioned, written] at hu ih
      rcases List.mem_append.mp hu with hu | hu
      · exact ends_of_params (fun v hv => ih v (List.mem_append_left _ hv)) u hu
      · exact ih u (List.mem_append_right _ hu)
    | interface methods =>
      simp only [hid, mentioned, written, List.mem_map] at hu ih
      obtain ⟨method, hmethod, rfl⟩ := hu
      obtain ⟨sig, hsig⟩ := hm.exists_signature hid hmethod
      refine ends_of_signature hsig (fun v hv => ih v ?_)
      exact List.mem_flatMap.mpr ⟨method, hmethod, by simpa [signature?_of_get hsig] using hv⟩
    | _ =>
      rw [hid] at hu
      exact ih u (by rw [hid]; exact hu)

theorem exists_mem_writtenParams {variadic : Bool} {params : List TypeId}
    (h : ∀ id ∈ types.writtenParams variadic params, types.Ends id) :
    (∃ id ∈ types.writtenParams variadic params, path ∈ types.packages id) ↔
      ∃ id ∈ params, path ∈ types.packages id :=
  exists_mem_params (fun _ hid => mem_packages_lastWritten (h _ hid))

theorem exists_mem_writtenSignature {sig : Signature}
    (h : ∀ id ∈ types.writtenSignature sig, types.Ends id) :
    (∃ id ∈ types.writtenSignature sig, path ∈ types.packages id) ↔
      ∃ id ∈ sig.params ++ sig.results, path ∈ types.packages id := by
  have hparams : (∃ id ∈ types.writtenParams sig.variadic sig.params, path ∈ types.packages id) ↔
      ∃ id ∈ sig.params, path ∈ types.packages id :=
    exists_mem_writtenParams (fun id hid => h id (List.mem_append_left sig.results hid))
  simp only [writtenSignature, List.mem_append, or_and_right, exists_or, hparams]

/-- The packages of a type are its own and those of the types that it shows. -/
theorem mem_packages_iff_written (hm : types.MethodsAreFunctions) {id : TypeId}
    (h : types.Renders id) :
    path ∈ types.packages id ↔
      ownPackage? (types.get id) = some path ∨
        ∃ u ∈ types.written (types.get id), path ∈ types.packages u := by
  have hends (u : TypeId) (hu : u ∈ types.written (types.get id)) : types.Ends u :=
    Renders.ends hm (h.of_mem hu)
  rw [mem_packages_iff (Renders.ends hm h)]
  refine or_congr_right ?_
  cases hid : types.get id with
  | func sig =>
    simp only [hid, written] at hends
    exact (exists_mem_writtenSignature hends).symm
  | interface methods =>
    simp only [hid, written] at hends
    -- A method mentions its signature, which relies on what the signature shows.
    have hmethod (method : InterfaceMethod) (hmethod : method ∈ methods) :
        path ∈ types.packages method.sig ↔
          ∃ u ∈ (types.signature? method.sig).toList.flatMap types.writtenSignature,
            path ∈ types.packages u := by
      obtain ⟨sig, hsig⟩ := hm.exists_signature hid hmethod
      have hsigends : ∀ u ∈ types.writtenSignature sig, types.Ends u := fun u hu =>
        hends u (List.mem_flatMap.mpr
          ⟨method, hmethod, by simpa [signature?_of_get hsig] using hu⟩)
      rw [mem_packages_iff (ends_of_signature hsig hsigends), signature?_of_get hsig]
      simpa [hsig, ownPackage?, mentioned] using (exists_mem_writtenSignature hsigends).symm
    simp only [mentioned, written, List.mem_map, List.mem_flatMap]
    constructor
    · rintro ⟨_, ⟨method, hmem, rfl⟩, hpath⟩
      obtain ⟨u, hu, hpath⟩ := (hmethod method hmem).mp hpath
      exact ⟨u, ⟨method, hmem, List.mem_flatMap.mp hu⟩, hpath⟩
    · rintro ⟨u, ⟨method, hmem, hu⟩, hpath⟩
      exact ⟨_, ⟨method, hmem, rfl⟩,
        (hmethod method hmem).mpr ⟨u, List.mem_flatMap.mpr hu, hpath⟩⟩
  | _ => rfl

theorem package_mem_typeWithin (hm : types.MethodsAreFunctions) {depth depth' : Nat} {id : TypeId}
    (hle : depth ≤ depth')
    (h : SettlesWithin (fun id => types.written (types.get id)) (fun id => id.index < types.size)
      depth id) :
    .package path ∈ telling (Layout.typeWithin types depth' id) ↔ path ∈ types.packages id := by
  induction depth generalizing depth' id with
  | zero => exact h.elim
  | succ depth ih =>
    obtain ⟨depth', rfl⟩ := Nat.exists_eq_add_of_le' (Nat.le_of_add_left_le hle)
    rw [mem_packages_iff_written hm h.settles, Layout.typeWithin, Layout.telling_typeEntry]
    simp only [List.mem_append, List.mem_map, Option.mem_toList, Piece.package.injEq,
      exists_eq_right, List.mem_flatMap]
    refine or_congr_right (exists_congr fun u => and_congr_right fun hu => ?_)
    exact ih (by omega) (h.2 u hu)

/-- The text of a type shows the packages of the type. -/
theorem package_mem_type (hm : types.MethodsAreFunctions) {id : TypeId} (h : types.Renders id) :
    .package path ∈ telling (Layout.type types id) ↔ path ∈ types.packages id := by
  have hwithin := (settles_iff_within (fun _ => mem_ids)).mp h
  rw [length_ids] at hwithin
  exact package_mem_typeWithin hm (by rw [depthBound]; omega) hwithin

/-- The declaration of a type shows the packages of the type. -/
theorem exists_mem_declared (hm : types.MethodsAreFunctions) {definition : TypeId}
    (h : ∀ id ∈ types.declared definition, types.Renders id) :
    (∃ id ∈ types.declared definition, path ∈ types.packages id) ↔
      path ∈ types.packages definition := by
  by_cases hself : types.declared definition = [definition]
  · simp [hself]
  · obtain ⟨hwritten, hown, hget⟩ : types.declared definition = types.written
        (types.get definition) ∧ ownPackage? (types.get definition) = none ∧
        types.get definition ≠ .invalid := by
      unfold declared at hself ⊢
      split <;> simp_all [ownPackage?]
    rw [hwritten] at h
    rw [mem_packages_iff_written hm (.intro (index_lt_size hget) h), hwritten, hown]
    simp

theorem exists_mem_signature {sig : HostSignature}
    (h : ∀ id ∈ sig.written types, types.Ends id) :
    (∃ id ∈ sig.written types, path ∈ types.packages id) ↔
      ∃ id ∈ sig.types, path ∈ types.packages id := by
  have hparams : (∃ id ∈ types.writtenParams sig.variadic (sig.params.map (·.type)),
      path ∈ types.packages id) ↔ ∃ id ∈ sig.params.map (·.type), path ∈ types.packages id :=
    exists_mem_writtenParams (fun id hid => h id (List.mem_append_left _ hid))
  simp only [HostSignature.written, HostSignature.types, List.map_append, List.mem_append,
    or_and_right, exists_or, hparams]

end TypeTable

/-! ## Nodes -/

theorem exists_mem_flatMap {α β : Type} {xs : List α} {f : α → List β} {p : β → Prop} :
    (∃ y ∈ xs.flatMap f, p y) ↔ ∃ x ∈ xs, ∃ y ∈ f x, p y := by
  constructor
  · rintro ⟨y, hy, hp⟩
    obtain ⟨x, hx, hyx⟩ := List.mem_flatMap.mp hy
    exact ⟨x, hx, y, hyx, hp⟩
  · rintro ⟨x, hx, y, hyx, hp⟩
    exact ⟨y, List.mem_flatMap.mpr ⟨x, hx, hyx⟩, hp⟩

/-- A part mentions a package, given which nodes do. -/
def HostKind.Part.Mentions (types : TypeTable) (path : String) (M : HostId → Prop) :
    HostKind.Part → Prop
  | .package owner => owner = path
  | .type id => path ∈ types.packages id
  | .inline id | .statement id | .body id => M id

section

variable {file : HostFile} {path : String}

/-- The collector looks at the same packages, types and nodes that the printer shows. -/
theorem exists_part_iff {tree : HostTree} {types : TypeTable} (hm : types.MethodsAreFunctions)
    {kind : HostKind} (hsuits : ∀ part ∈ kind.parts types, tree.Suits types part)
    (M : HostId → Prop) :
    ((∃ part ∈ kind.parts types, part.Mentions types path M) ∨ ∃ id ∈ kind.elseBranch?, M id) ↔
      kind.ownPackage? = some path ∨ (∃ id ∈ kind.ownTypes, path ∈ types.packages id) ∨
        ∃ id ∈ kind.children, M id := by
  cases kind with
  | functionLiteral sig body =>
    have htypes : (∃ id ∈ sig.written types, path ∈ types.packages id) ↔
        ∃ id ∈ sig.types, path ∈ types.packages id :=
      TypeTable.exists_mem_signature (fun id hid => TypeTable.Renders.ends hm
        (hsuits (.type id) (by simp [HostKind.parts, hid])))
    simp [HostKind.parts, HostKind.elseBranch?, HostKind.ownPackage?, HostKind.ownTypes,
      HostKind.children, HostKind.Part.Mentions, or_and_right, exists_or, htypes]
  | typeDecl name definition isAlias doc =>
    have htypes : (∃ id ∈ types.declared definition, path ∈ types.packages id) ↔
        path ∈ types.packages definition :=
      TypeTable.exists_mem_declared hm
        (fun id hid => hsuits (.type id) (by simp [HostKind.parts, hid]))
    simpa [HostKind.parts, HostKind.elseBranch?, HostKind.ownPackage?, HostKind.ownTypes,
      HostKind.children, HostKind.Part.Mentions] using htypes
  | function decl =>
    have htypes : (∃ id ∈ decl.signature.written types, path ∈ types.packages id) ↔
        ∃ id ∈ decl.signature.types, path ∈ types.packages id :=
      TypeTable.exists_mem_signature (fun id hid => TypeTable.Renders.ends hm
        (hsuits (.type id) (by simp [HostKind.parts, hid])))
    simp [HostKind.parts, HostKind.elseBranch?, HostKind.ownPackage?, HostKind.ownTypes,
      HostKind.children, HostKind.Part.Mentions, or_and_right, exists_or, htypes, or_assoc]
  | composite | typeAssert | switch | typeSwitch | select =>
    simp [HostKind.parts, HostKind.elseBranch?, HostKind.ownPackage?, HostKind.ownTypes,
      HostKind.children, HostKind.Part.Mentions, or_and_right, and_or_left, exists_or,
      exists_mem_flatMap, or_assoc, or_comm, or_left_comm, -List.mem_flatMap]
  | _ =>
    simp [HostKind.parts, HostKind.elseBranch?, HostKind.ownPackage?, HostKind.ownTypes,
      HostKind.children, HostKind.Part.Mentions, or_and_right, exists_or, or_assoc]

/-- Every child of a node is shown, as a node or as a body. -/
theorem mem_parts_of_mem_children (types : TypeTable) {kind : HostKind} {id : HostId}
    (h : id ∈ kind.children) :
    .inline id ∈ kind.parts types ∨ .statement id ∈ kind.parts types ∨
      .body id ∈ kind.parts types ∨ kind.elseBranch? = some id := by
  cases kind <;>
    simp_all [HostKind.children, HostKind.parts, HostKind.elseBranch?, and_or_left, exists_or,
      or_assoc]

/-- All that is below a node comes to an end. -/
def HostTree.Ends (tree : HostTree) : HostId → Prop :=
  Settles (fun id => (tree.kind id).children) (fun id => id.index < tree.size)

theorem HostTree.ends_of_statements {tree : HostTree} {id : HostId} (hlt : id.index < tree.size)
    (h : ∀ statement ∈ tree.statements id, tree.Ends statement) : tree.Ends id := by
  cases hkind : tree.kind id with
  | block statements =>
    refine .intro hlt (fun c hc => h c ?_)
    simpa [hkind, HostKind.children, HostTree.statements] using hc
  | _ => exact h id (by simp [HostTree.statements, hkind])

theorem HostTree.Renders.ends {tree : HostTree} {types : TypeTable} {id : HostId}
    (h : tree.Renders types id) : tree.Ends id := by
  induction h with
  | @intro id hgood hnext ih =>
    have hpart (part : HostKind.Part) (hpart : part ∈ (tree.kind id).parts types) :
        ∀ y ∈ tree.shown part, tree.Ends y := fun y hy =>
      ih y (List.mem_append_left _ (List.mem_flatMap.mpr ⟨part, hpart, hy⟩))
    refine .intro hgood.isNode (fun c hc => ?_)
    rcases mem_parts_of_mem_children types hc with hc | hc | hc | hc
    · exact hpart _ hc c (List.mem_singleton_self c)
    · exact hpart _ hc c (List.mem_singleton_self c)
    · exact ends_of_statements (hgood.suits _ hc) (hpart _ hc)
    · refine ends_of_statements (hgood.branch c hc) (fun y hy => ih y (List.mem_append_right _ ?_))
      simpa [hc] using hy

/-- The packages that a node mentions. -/
def HostFile.packagesOf (file : HostFile) (id : HostId) : List String :=
  file.packagesWithin (file.tree.size + 1) id

theorem packagesWithin_eq {depth depth' : Nat} {id : HostId} (hle : depth ≤ depth')
    (h : SettlesWithin (fun id => (file.tree.kind id).children)
      (fun id => id.index < file.tree.size) depth id) :
    file.packagesWithin depth' id = file.packagesWithin depth id := by
  induction depth generalizing depth' id with
  | zero => exact h.elim
  | succ depth ih =>
    obtain ⟨depth', rfl⟩ := Nat.exists_eq_add_of_le' (Nat.le_of_add_left_le hle)
    simp only [HostFile.packagesWithin]
    congr 1
    exact List.flatMap_congr (fun c hc => ih (by omega) (h.2 c hc))

/-- The packages of a node are its own, those of its types and those of its children. -/
theorem mem_packagesOf_iff {id : HostId} (h : file.tree.Ends id) :
    path ∈ file.packagesOf id ↔
      (file.tree.kind id).ownPackage? = some path ∨
        (∃ t ∈ (file.tree.kind id).ownTypes, path ∈ file.types.packages t) ∨
        ∃ c ∈ (file.tree.kind id).children, path ∈ file.packagesOf c := by
  have hbelow (c : HostId) (hc : c ∈ (file.tree.kind id).children) :
      file.packagesWithin file.tree.size c = file.packagesOf c := by
    have hwithin := (settles_iff_within (fun _ => HostTree.mem_ids)).mp (h.of_mem hc)
    rw [HostTree.length_ids] at hwithin
    exact (packagesWithin_eq (Nat.le_succ file.tree.size) hwithin).symm
  rw [HostFile.packagesOf, HostFile.packagesWithin, List.flatMap_congr hbelow]
  simp only [List.mem_append, Option.mem_toList, List.mem_flatMap, or_assoc]

theorem mem_packagesOf_statements {id : HostId} (h : file.tree.Ends id) :
    path ∈ file.packagesOf id ↔
      ∃ statement ∈ file.tree.statements id, path ∈ file.packagesOf statement := by
  cases hkind : file.tree.kind id with
  | block statements =>
    rw [mem_packagesOf_iff h]
    simp [hkind, HostKind.ownPackage?, HostKind.ownTypes, HostKind.children,
      HostTree.statements]
  | _ => simp [HostTree.statements, hkind]

/-! ## Traces -/

/-- Of nodes with so many levels, the text shows the packages that they mention. -/
def ShowsWithin (file : HostFile) (path : String) (level : Nat) : Prop :=
  ∀ id depth (opens : Bool), file.tree.RendersWithin file.types level id → 2 * level ≤ depth →
    (opens ∨ (file.tree.kind id).isInline) →
    (.package path ∈ file.tree.trace file.types depth opens id ↔ path ∈ file.packagesOf id)

theorem package_mem_partTrace (hm : file.types.MethodsAreFunctions) {level depth : Nat}
    (h : ShowsWithin file path level) (hdepth : 2 * level ≤ depth) {part : HostKind.Part}
    (hsuits : file.tree.Suits file.types part)
    (hshown : ∀ y ∈ file.tree.shown part, file.tree.RendersWithin file.types level y) :
    .package path ∈ file.tree.partTrace file.types (file.tree.trace file.types depth) part ↔
      part.Mentions file.types path (fun id => path ∈ file.packagesOf id) := by
  cases part with
  | package owner => simp [HostTree.partTrace, HostKind.Part.Mentions, eq_comm]
  | type id => exact TypeTable.package_mem_type hm hsuits
  | inline id => exact h id depth false (hshown id (List.mem_singleton_self id)) hdepth (.inr hsuits)
  | statement id => exact h id depth true (hshown id (List.mem_singleton_self id)) hdepth (.inl rfl)
  | body id =>
    have hends : file.tree.Ends id := HostTree.ends_of_statements hsuits
      (fun y hy => HostTree.Renders.ends (hshown y hy).settles)
    simp only [HostTree.partTrace, HostKind.Part.Mentions, List.mem_flatMap]
    rw [mem_packagesOf_statements hends]
    exact exists_congr fun y => and_congr_right fun hy =>
      h y depth true (hshown y hy) hdepth (.inl rfl)

theorem package_mem_partsTrace (hm : file.types.MethodsAreFunctions) {level depth : Nat}
    (h : ShowsWithin file path level) (hdepth : 2 * level ≤ depth) {id : HostId}
    (hid : file.tree.RendersWithin file.types (level + 1) id) :
    .package path ∈ file.tree.partsTrace file.types (file.tree.trace file.types depth)
      (file.tree.kind id) ↔
      ∃ part ∈ (file.tree.kind id).parts file.types,
        part.Mentions file.types path (fun id => path ∈ file.packagesOf id) := by
  rw [HostTree.partsTrace, List.mem_flatMap]
  exact exists_congr fun part => and_congr_right fun hpart =>
    package_mem_partTrace hm h hdepth (hid.1.suits part hpart) (fun _ hy => hid.shown hpart hy)

/-- A node mentions the packages of its parts and of what follows its `else`. -/
theorem mem_packagesOf_iff_parts (hm : file.types.MethodsAreFunctions) {level : Nat} {id : HostId}
    (hid : file.tree.RendersWithin file.types level id) :
    path ∈ file.packagesOf id ↔
      (∃ part ∈ (file.tree.kind id).parts file.types,
        part.Mentions file.types path (fun id => path ∈ file.packagesOf id)) ∨
        ∃ branch ∈ (file.tree.kind id).elseBranch?, path ∈ file.packagesOf branch := by
  have hrenders : file.tree.Renders file.types id := hid.settles
  rw [mem_packagesOf_iff (HostTree.Renders.ends hrenders)]
  exact (exists_part_iff hm hrenders.isGood.suits _).symm

/-- What follows an `else` shows the packages that the branch mentions. -/
theorem package_mem_elseTrace (hm : file.types.MethodsAreFunctions) {level : Nat}
    (h : ∀ l ≤ level, ShowsWithin file path l) {depth : Nat} (hdepth : 2 * level + 1 ≤ depth)
    {kind : HostKind} (hlt : ∀ branch ∈ kind.elseBranch?, branch.index < file.tree.size)
    (hbranch : ∀ branch ∈ kind.elseBranch?, ∀ y ∈ file.tree.statements branch,
      file.tree.RendersWithin file.types level y) :
    .package path ∈ file.tree.elseTrace file.types depth kind ↔
      ∃ branch ∈ kind.elseBranch?, path ∈ file.packagesOf branch := by
  induction level using Nat.strongRecOn generalizing depth kind with
  | ind level ih =>
    obtain ⟨depth, rfl⟩ := Nat.exists_eq_add_of_le' (Nat.le_of_add_left_le hdepth)
    cases hkind : kind.elseBranch? with
    | none => simp [HostTree.elseTrace, hkind]
    | some branch =>
      simp only [hkind, Option.mem_some_iff, forall_eq'] at hlt hbranch
      simp only [HostTree.elseTrace, hkind, Option.mem_some_iff, exists_eq_left']
      split
      · rename_i hif
        -- An `if` is its own only statement, and has a text within the same levels.
        have hself : file.tree.RendersWithin file.types level branch :=
          hbranch branch (HostTree.mem_statements_of_isIf hif)
        cases level with
        | zero => exact hself.elim
        | succ level =>
          have hrest := ih level (Nat.lt_succ_self level) (fun l hl => h l (Nat.le_succ_of_le hl))
            (show 2 * level + 1 ≤ depth by omega) hself.1.branch
            (fun b hb y hy => hself.branch hb hy)
          rw [List.mem_append, hrest, mem_packagesOf_iff_parts hm hself,
            package_mem_partsTrace hm (h level (Nat.le_succ level)) (by omega) hself]
      · have hends : file.tree.Ends branch := HostTree.ends_of_statements hlt
          (fun y hy => HostTree.Renders.ends (hbranch y hy).settles)
        rw [List.mem_flatMap, mem_packagesOf_statements hends]
        exact exists_congr fun y => and_congr_right fun hy =>
          h level (Nat.le_refl level) y depth true (hbranch y hy) (by omega) (.inl rfl)

theorem showsWithin (hm : file.types.MethodsAreFunctions) (level : Nat) :
    ShowsWithin file path level := by
  induction level using Nat.strongRecOn with
  | ind level ih =>
    intro id depth opens hid hdepth hopens
    cases level with
    | zero => exact hid.elim
    | succ level =>
      obtain ⟨depth, rfl⟩ := Nat.exists_eq_add_of_le' (show 1 ≤ depth by omega)
      have hparts := package_mem_partsTrace hm (ih level (Nat.lt_succ_self level))
        (show 2 * level ≤ depth by omega) hid
      have helse := package_mem_elseTrace hm (fun l hl => ih l (Nat.lt_succ_of_le hl))
        (show 2 * level + 1 ≤ depth by omega) hid.1.branch (fun b hb y hy => hid.branch hb hy)
      rw [mem_packagesOf_iff_parts hm hid]
      cases opens with
      | true => simp [HostTree.trace, hparts, helse]
      | false =>
        have hinline : (file.tree.kind id).isInline = true := by simpa using hopens
        have hnone : (file.tree.kind id).elseBranch? = none := by
          cases hkind : file.tree.kind id <;> simp_all [HostKind.isInline, HostKind.elseBranch?]
        simp [HostTree.trace, hinline, hparts, hnone]

/-! ## Files -/

theorem mem_insertSorted {text : String} {texts : List String} :
    path ∈ HostFile.insertSorted text texts ↔ path = text ∨ path ∈ texts := by
  induction texts with
  | nil => simp [HostFile.insertSorted]
  | cons t rest ih =>
    simp only [HostFile.insertSorted]
    split
    · rename_i heq
      obtain rfl : text = t := by simpa using heq
      simp
    · split
      · simp
      · simp [ih, or_left_comm]

theorem mem_imports_iff :
    path ∈ file.imports ↔ ∃ id ∈ file.declarations, path ∈ file.packagesOf id := by
  have hfold (found texts : List String) :
      path ∈ found.foldl (fun paths path => HostFile.insertSorted path paths) texts ↔
        path ∈ texts ∨ path ∈ found := by
    induction found generalizing texts with
    | nil => simp
    | cons first rest ih => simp [ih, mem_insertSorted, or_assoc, or_left_comm]
  simp [HostFile.imports, HostFile.packagesOf, hfold]

/-- The text of a file consists of what stands before its declarations and of their pieces, and
where all declarations have a text and all methods have function types, the file imports exactly
the packages that these pieces show, by a qualified name, a named type or `unsafe.Pointer`. -/
theorem mem_imports_iff_printed (file : HostFile) (hm : file.types.MethodsAreFunctions)
    (hrenders : file.Renders) :
    file.print = file.preamble ++ Piece.spell file.markers file.declarationPieces ∧
      ∀ path, path ∈ file.imports ↔ .package path ∈ file.declarationPieces := by
  refine ⟨file.print_eq_spell, fun path => ?_⟩
  rw [mem_imports_iff, ← Piece.package_mem_telling, file.telling_declarationPieces,
    List.mem_flatMap]
  refine exists_congr fun id => and_congr_right fun hid => ?_
  have hwithin : file.tree.RendersWithin file.types file.tree.size id :=
    HostTree.renders_iff_within.mp (hrenders id hid)
  exact (showsWithin hm file.tree.size id _ true hwithin (by rw [Printer.depthBound]; omega)
    (.inl rfl)).symm

theorem imports_callback :
    HostFile.callback.types.MethodsAreFunctions ∧ HostFile.callback.Renders ∧
      HostFile.callback.imports = ["fmt", "net/http", "unsafe"] ∧
      .package "net/http" ∈ HostFile.callback.declarationPieces ∧
      .package "os" ∉ HostFile.callback.declarationPieces :=
  have hm : HostFile.callback.types.MethodsAreFunctions := by decide
  have hrenders : HostFile.callback.Renders := by decide
  have hprinted := (mem_imports_iff_printed HostFile.callback hm hrenders).2
  ⟨hm, hrenders, by decide, (hprinted "net/http").mp (by decide),
    fun h => absurd ((hprinted "os").mpr h) (by decide)⟩

end

end GoLowering
