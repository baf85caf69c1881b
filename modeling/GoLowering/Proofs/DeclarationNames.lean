import Mathlib.Algebra.Order.BigOperators.Group.List
import Mathlib.Algebra.Order.Group.Nat
import Mathlib.Tactic.Choose
import GoLowering.Proofs.Phases
import GoLowering.Proofs.Situations

/-!
# Names of the output

The names that the output of a unit declares are those of its declarations, in the same order:
types, values, functions and the entry, each by first appearance, in whatever order they have
been lowered. Constants without a type whose value is an untyped number of unbounded size are
left out, and nothing else is, just in case no two types are declared with a blank name
(`declarationNames_iff`).

Each blank type takes the name over from the one before, and only the last one of them is put out
(`declarationNames_blank_types`).
-/

namespace GoLowering.Lowering

open Surface

/-! ## What is put out for each statement -/

/-- The declarations of a statement that have a spelling, given which constants of the unit have
one. -/
def spelledDeclarations (c : Context) (spelled : NodeId → List Bool) (root : NodeId) :
    List Declaration :=
  match c.unit.stmt? root with
  | some (.constDecl _) =>
    ((declarationsOf c root).zip (spelled root)).filterMap
      (fun (d, spelled) => if spelled then some d else none)
  | _ => declarationsOf c root

/-- The name of a type that a statement declares. -/
def typeName? (c : Context) (root : NodeId) : Option String :=
  match c.unit.stmt? root with
  | some (.typeDecl name _ _ _) => some name
  | _ => none

/-- Which constants of a unit have a spelling. -/
def UnitSpelling (c : Context) (s : State) (roots : List NodeId) (spelled : NodeId → List Bool) :
    Prop :=
  ∀ root ∈ roots, ∀ spec, c.unit.stmt? root = some (.constDecl spec) → spec.names ≠ [] →
    SpecSpelling c s spec (spelled root)

section

variable {c : Context} {roots : List NodeId} {s s' : State}

theorem names_flatMap (t : HostTree) (xs : List NodeId) (f : NodeId → List HostId) :
    t.names (xs.flatMap f) = xs.flatMap (fun x => t.names (f x)) := by
  simp [HostTree.names, List.flatMap_assoc]

theorem names_append (t : HostTree) (ids ids' : List HostId) :
    t.names (ids ++ ids') = t.names ids ++ t.names ids' := List.flatMap_append

theorem ranked_nodup (rank : Nat) (hroots : roots.Nodup) : (ranked c rank roots).Nodup :=
  hroots.filter _

/-- What a kind of places put out, statement by statement. -/
theorem names_values {places : Places NodeId HostId} {rank : Nat} (hroots : roots.Nodup)
    (hkeys : places.keys = ranked c rank roots) :
    s.tree.names places.values =
      (ranked c rank roots).flatMap (fun root => s.tree.names (places.filled root)) := by
  rw [Places.values_eq (hkeys ▸ ranked_nodup rank hroots), hkeys, names_flatMap]

/-- The declarations of a statement are all of its rank. -/
theorem rank_declarationsOf {root : NodeId} {d : Declaration} (h : d ∈ declarationsOf c root) :
    rankOf? c root = some d.kind.rank := by
  unfold declarationsOf at h
  unfold rankOf?
  split at h
  · rw [List.mem_singleton.mp h]
    rfl
  · obtain ⟨name, -, rfl⟩ := List.mem_map.mp h
    rfl
  · obtain ⟨name, -, rfl⟩ := List.mem_map.mp h
    rfl
  · split at h <;> rw [List.mem_singleton.mp h] <;> rfl
  · exact absurd h List.not_mem_nil

theorem rankOf?_lt {root : NodeId} {rank : Nat} (h : rankOf? c root = some rank) : rank < 3 := by
  unfold rankOf? at h
  split at h <;> cases h <;> decide

theorem spelledDeclarations_subset {spelled : NodeId → List Bool} {root : NodeId} :
    spelledDeclarations c spelled root ⊆ declarationsOf c root := by
  unfold spelledDeclarations
  split
  · intro d hd
    obtain ⟨⟨d', spelled⟩, hmem, hd⟩ := List.mem_filterMap.mp hd
    dsimp only at hd
    split at hd
    · obtain rfl := Option.some.inj hd
      exact (List.of_mem_zip hmem).1
    · cases hd
  · exact List.Subset.refl _

/-- Declarations of a rank are those of the statements of that rank. -/
theorem filter_flatMap_rank {f : NodeId → List Declaration} {rank : Nat}
    (h : ∀ root, f root ⊆ declarationsOf c root) :
    (roots.flatMap f).filter (fun d => d.kind.rank = rank) = (ranked c rank roots).flatMap f := by
  induction roots with
  | nil => rfl
  | cons root rest ih =>
    rw [List.flatMap_cons, List.filter_append, ih]
    unfold ranked
    by_cases hrank : rankOf? c root = some rank
    · rw [List.filter_cons_of_pos (by simpa using hrank), List.flatMap_cons]
      congr 1
      refine List.filter_eq_self.mpr (fun d hd => ?_)
      have := rank_declarationsOf (h root hd)
      simpa using Option.some.inj (this.symm.trans hrank)
    · rw [List.filter_cons_of_neg (by simpa using hrank)]
      rw [List.filter_eq_nil_iff.mpr (fun d hd => ?_), List.nil_append]
      have := rank_declarationsOf (h root hd)
      simp only [decide_eq_true_eq]
      rintro rfl
      exact hrank this

/-- The order of the output: types, values, functions, and the entry. -/
theorem byRank_declarations {f : NodeId → List Declaration} {entry : Option Declaration}
    (h : ∀ root, f root ⊆ declarationsOf c root) (hentry : ∀ d ∈ entry, d.kind = .entry) :
    byRank (·.kind.rank) 4 (roots.flatMap f ++ entry.toList) =
      (ranked c 0 roots).flatMap f ++ (ranked c 1 roots).flatMap f ++
        (ranked c 2 roots).flatMap f ++ entry.toList := by
  have hlast : ranked c 3 roots = [] := by
    refine List.filter_eq_nil_iff.mpr (fun root _ => ?_)
    simp only [decide_eq_true_eq]
    exact fun hrank => absurd (rankOf?_lt hrank) (by decide)
  have hrank (rank : Nat) :
      entry.toList.filter (fun d => d.kind.rank = rank) = if rank = 3 then entry.toList else [] := by
    cases entry with
    | none => simp
    | some d =>
      have hd : d.kind = .entry := hentry d rfl
      by_cases he : rank = 3
      · simp [hd, he, DeclKind.rank]
      · simp [hd, he, DeclKind.rank, Ne.symm he]
  simp only [byRank, List.range_succ, List.range_zero, List.nil_append, List.flatMap_append,
    List.flatMap_singleton, List.filter_append, filter_flatMap_rank h, hrank, hlast]
  simp

/-! ## Types -/

/-- Whether the name that a statement declares a type with stands for that type. -/
def isOwner (c : Context) (roots : List NodeId) (root : NodeId) : Bool :=
  (typeName? c root).any (fun name => (typesNamed c name roots).getLast? = some root)

theorem mem_ranked_types {root : NodeId} (h : root ∈ ranked c 0 roots) :
    root ∈ roots ∧ ∃ name type isAlias doc,
      c.unit.stmt? root = some (.typeDecl name type isAlias doc) := by
  obtain ⟨hroot, hrank⟩ := List.mem_filter.mp h
  refine ⟨hroot, ?_⟩
  unfold rankOf? at hrank
  split at hrank
  · rename_i hstmt
    exact ⟨_, _, _, _, hstmt⟩
  all_goals simp at hrank

theorem names_type (hs : Lowered c roots roots roots roots s) {root : NodeId}
    (hroot : root ∈ ranked c 0 roots) (spelled : NodeId → List Bool) :
    s.tree.names (s.outline.types.filled root) =
      if isOwner c roots root then (spelledDeclarations c spelled root).map (·.name) else [] := by
  obtain ⟨hmem, name, type, isAlias, doc, hstmt⟩ := mem_ranked_types hroot
  have htype := hs.types root hmem
  unfold TypeHolds at htype
  simp only [hstmt] at htype
  have howner : isOwner c roots root ↔ OwnsName c roots name root := by
    simp [isOwner, typeName?, hstmt, OwnsName]
  rcases htype with ⟨howns, id, hfilled, -, hkind⟩ | ⟨howns, hempty⟩
  · rw [if_pos (howner.mpr howns), hfilled]
    simp [HostTree.names, hkind, spelledDeclarations, declarationsOf, hstmt, Declaration.plain]
  · rw [if_neg (fun h => howns (howner.mp h)), hempty]
    rfl

/-- A name that is not blank is declared as a type only once. -/
theorem typesNamed_length_le (hs : Underway c roots s) {name : String} (hname : name ≠ "_") :
    (typesNamed c name roots).length ≤ 1 := by
  have hdistinct := hs.sound.distinct
  rw [hs.sound.taken, hs.declared, List.pairwise_filter, List.pairwise_flatMap] at hdistinct
  have hnone : (typesNamed c name roots).Pairwise (fun _ _ => False) := by
    refine List.pairwise_filter.mpr (hdistinct.2.imp (fun {r₁ r₂} hclash h₁ h₂ => ?_))
    obtain ⟨type₁, isAlias₁, doc₁, hstmt₁⟩ := declaresType_iff.mp h₁
    obtain ⟨type₂, isAlias₂, doc₂, hstmt₂⟩ := declaresType_iff.mp h₂
    have hkept (span : Span) : (!(Declaration.plain name .type span).isRepeatable) := by
      simp [Declaration.isRepeatable, Declaration.plain, hname]
    exact hclash (.plain name .type (c.unit.span r₁)) (by simp [declarationsOf, hstmt₁])
      (.plain name .type (c.unit.span r₂)) (by simp [declarationsOf, hstmt₂])
      (hkept _) (hkept _) ⟨rfl, rfl⟩
  rcases htypes : typesNamed c name roots with _ | ⟨root, _ | ⟨other, rest⟩⟩
  · exact Nat.zero_le 1
  · exact Nat.le_refl 1
  · rw [htypes] at hnone
    exact (List.rel_of_pairwise_cons hnone List.mem_cons_self).elim

/-- The only type of a name owns it. -/
theorem isOwner_of_length_le {root type : NodeId} {name : String} {isAlias : Bool}
    {doc : Option String} (hroot : root ∈ roots)
    (hstmt : c.unit.stmt? root = some (.typeDecl name type isAlias doc))
    (hlength : (typesNamed c name roots).length ≤ 1) : isOwner c roots root := by
  have hmem : root ∈ typesNamed c name roots :=
    List.mem_filter.mpr ⟨hroot, by simp [declaresType, hstmt]⟩
  have hsingle : typesNamed c name roots = [root] := by
    obtain ⟨other, hother⟩ :=
      List.length_eq_one_iff.mp (Nat.le_antisymm hlength (List.length_pos_of_mem hmem))
    rw [hother] at hmem ⊢
    rw [List.mem_singleton.mp hmem]
  simp [isOwner, typeName?, hstmt, hsingle]

/-- Every name stands for every type that is declared with it just in case there are no two blank
ones. -/
theorem owners_iff (hs : Underway c roots s) (hroots : roots.Nodup) :
    (∀ root ∈ ranked c 0 roots, isOwner c roots root) ↔
      (typesNamed c "_" roots).length ≤ 1 := by
  constructor
  · intro h
    have hlast : ∀ root ∈ typesNamed c "_" roots,
        (typesNamed c "_" roots).getLast? = some root := by
      intro root hroot
      obtain ⟨hmem, hdeclares⟩ := List.mem_filter.mp hroot
      obtain ⟨type, isAlias, doc, hstmt⟩ := declaresType_iff.mp hdeclares
      have howner := h root (List.mem_filter.mpr ⟨hmem, by simp [rankOf?, hstmt]⟩)
      simpa [isOwner, typeName?, hstmt] using howner
    have hnodup : (typesNamed c "_" roots).Nodup := hroots.filter _
    rcases htypes : typesNamed c "_" roots with _ | ⟨r₁, _ | ⟨r₂, rest⟩⟩
    · exact Nat.zero_le 1
    · exact Nat.le_refl 1
    · rw [htypes] at hnodup hlast
      have h₁ := hlast r₁ List.mem_cons_self
      have h₂ := hlast r₂ (List.mem_cons_of_mem _ List.mem_cons_self)
      obtain rfl := Option.some.inj (h₁.symm.trans h₂)
      exact absurd List.mem_cons_self (List.nodup_cons.mp hnodup).1
  · intro hblank root hroot
    obtain ⟨hmem, name, type, isAlias, doc, hstmt⟩ := mem_ranked_types hroot
    have hlength : (typesNamed c name roots).length ≤ 1 := by
      by_cases hname : name = "_"
      · exact hname ▸ hblank
      · exact typesNamed_length_le hs hname
    exact isOwner_of_length_le hmem hstmt hlength

/-! ## Values -/

theorem spelledDeclarations_const {root : NodeId} {spec : ValueSpec}
    (hstmt : c.unit.stmt? root = some (.constDecl spec)) (spelled : NodeId → List Bool) :
    (spelledDeclarations c spelled root).map (·.name) = spelledNames spec.names (spelled root) := by
  unfold spelledDeclarations spelledNames
  simp only [hstmt, declarationsOf, List.zip_map_left, List.filterMap_map, List.map_filterMap]
  congr 1
  funext entry
  rcases entry with ⟨name, _ | _⟩ <;> rfl

theorem names_value (hs : Lowered c roots roots roots roots s) {root : NodeId}
    (hroot : root ∈ ranked c 1 roots) :
    ∃ flags, (∀ spec, c.unit.stmt? root = some (.constDecl spec) → spec.names ≠ [] →
        SpecSpelling c s spec flags) ∧
      s.tree.names (s.outline.constants.filled root) =
        (spelledDeclarations c (fun _ => flags) root).map (·.name) := by
  obtain ⟨hmem, hrank⟩ := List.mem_filter.mp hroot
  have hheld := hs.underway.values root
  have hnone (spec : ValueSpec)
      (hstmt : c.unit.stmt? root = some (.varDecl spec) ∨ c.unit.stmt? root = some (.constDecl spec))
      (h : s.progress.lookup root = none) : spec.names = [] := by
    by_contra hne
    have := hs.values root hmem ⟨spec, hstmt, hne⟩
    rw [h] at this
    cases this
  unfold rankOf? at hrank
  split at hrank
  · simp at hrank
  · rename_i spec hstmt
    refine ⟨[], fun other hother => by simp [hstmt] at hother, ?_⟩
    have hdecl : (spelledDeclarations c (fun _ => []) root).map (·.name) = spec.names := by
      simp [spelledDeclarations, declarationsOf, hstmt, Declaration.plain, Function.comp_def]
    rw [hdecl]
    rcases hheld with ⟨hprogress, hempty⟩ | ⟨-, -, hnames⟩
    · rw [hempty, hnone spec (.inl hstmt) hprogress]
      rfl
    · simpa only [hstmt] using hnames
  · rename_i spec hstmt
    rcases hheld with ⟨hprogress, hempty⟩ | ⟨-, -, hnames⟩
    · have hnames := hnone spec (.inr hstmt) hprogress
      refine ⟨[], fun other hother hne => ?_, ?_⟩
      · rw [hstmt] at hother
        obtain rfl := Stmt.constDecl.inj (Option.some.inj hother)
        exact absurd hnames hne
      · rw [hempty, spelledDeclarations_const hstmt, hnames]
        rfl
    · simp only [hstmt] at hnames
      obtain ⟨flags, hflags, hnames⟩ := hnames
      refine ⟨flags, fun other hother _ => ?_, ?_⟩
      · rw [hstmt] at hother
        obtain rfl := Stmt.constDecl.inj (Option.some.inj hother)
        exact hflags
      · rw [hnames, spelledDeclarations_const hstmt]
  · simp at hrank
  · simp at hrank

/-! ## Functions -/

theorem names_function (hs : Lowered c roots roots roots roots s) {root : NodeId}
    (hroot : root ∈ ranked c 2 roots) (spelled : NodeId → List Bool) :
    s.tree.names (s.outline.functions.filled root) =
      (spelledDeclarations c spelled root).map (·.name) := by
  obtain ⟨hmem, hrank⟩ := List.mem_filter.mp hroot
  unfold rankOf? at hrank
  split at hrank
  · simp at hrank
  · simp at hrank
  · simp at hrank
  · rename_i decl hstmt
    obtain ⟨id, hfilled, -, function, hkind, hname, -⟩ := hs.functions root hmem decl hstmt
    have hdecl : (spelledDeclarations c spelled root).map (·.name) = [decl.name] := by
      simp only [spelledDeclarations, declarationsOf, hstmt]
      cases decl.receiver <;> rfl
    rw [hdecl, hfilled]
    simp [HostTree.names, hkind, HostFile.namesOf, hname]
  · simp at hrank

/-! ## The whole output -/

/-- Names that are left out of a list of single names are missed. -/
theorem flatMap_filter_eq_iff {xs : List NodeId} {p : NodeId → Bool} {f : NodeId → List String}
    (h : ∀ x ∈ xs, (f x).length = 1) :
    xs.flatMap (fun x => if p x then f x else []) = xs.flatMap f ↔ ∀ x ∈ xs, p x := by
  refine ⟨fun he => ?_, fun hp => List.flatMap_congr (fun x hx => if_pos (hp x hx))⟩
  induction xs with
  | nil => exact fun x hx => absurd hx List.not_mem_nil
  | cons x xs ih =>
    obtain ⟨hx, hxs⟩ := List.forall_mem_cons.mp h
    simp only [List.flatMap_cons] at he
    by_cases hp : p x
    · rw [if_pos hp] at he
      exact List.forall_mem_cons.mpr ⟨hp, ih hxs (List.append_cancel_left he)⟩
    · rw [if_neg hp, List.nil_append] at he
      have hlength := congrArg List.length he
      have hle : (xs.flatMap (fun x => if p x then f x else [])).length ≤ (xs.flatMap f).length := by
        rw [List.length_flatMap, List.length_flatMap]
        exact List.sum_le_sum (fun y _ => by split <;> simp)
      rw [List.length_append, hx] at hlength
      omega

/-- The names that a lowering has put out before the entry, rank by rank. -/
theorem names_output (hroots : roots.Nodup) (hs : Lowered c roots roots roots roots s) :
    ∃ spelled, UnitSpelling c s roots spelled ∧
      s.tree.names s.outline.typeOutput = (ranked c 0 roots).flatMap (fun root =>
        if isOwner c roots root then (spelledDeclarations c spelled root).map (·.name) else []) ∧
      s.tree.names s.outline.constantOutput = (ranked c 1 roots).flatMap (fun root =>
        (spelledDeclarations c spelled root).map (·.name)) ∧
      s.tree.names s.outline.functions.values = (ranked c 2 roots).flatMap (fun root =>
        (spelledDeclarations c spelled root).map (·.name)) := by
  have hvalue (root : NodeId) (hroot : root ∈ ranked c 1 roots) := names_value hs hroot
  choose! spelled hspelled hnames using hvalue
  refine ⟨spelled, fun root hroot spec hstmt hne => ?_, ?_, ?_, ?_⟩
  · have hrank : root ∈ ranked c 1 roots :=
      List.mem_filter.mpr ⟨hroot, by simp [rankOf?, hstmt]⟩
    exact hspelled root hrank spec hstmt hne
  · exact (names_values hroots hs.underway.types).trans
      (List.flatMap_congr (fun root hroot => names_type hs hroot spelled))
  · refine (names_values hroots hs.underway.constants).trans
      (List.flatMap_congr (fun root hroot => (hnames root hroot).trans ?_))
    rfl
  · exact (names_values hroots hs.underway.functions).trans
      (List.flatMap_congr (fun root hroot => names_function hs hroot spelled))

/-- What making the entry adds. -/
theorem entryMade_names (h : EntryMade c s s') (hs : s.outline.entry = none) :
    ∃ entry : Option Declaration, (∀ d ∈ entry, d.kind = .entry) ∧ Later s s' ∧
      s'.outline.declared = s.outline.declared ++ entry.toList ∧
      s'.tree.names s'.outline.typeOutput = s.tree.names s.outline.typeOutput ∧
      s'.tree.names s'.outline.constantOutput = s.tree.names s.outline.constantOutput ∧
      s'.tree.names s'.outline.functionOutput =
        s.tree.names s.outline.functions.values ++ entry.toList.map (·.name) := by
  rcases h with rfl | ⟨-, origin, id, body, rfl, -, hkind⟩
  · exact ⟨none, by simp, .of_globals_eq (.refl _) (.refl _) rfl, by simp, rfl, rfl, by
      simp [Outline.functionOutput, hs]⟩
  · refine ⟨some (entryDeclaration c origin), by simp [entryDeclaration],
      .of_globals_eq (.refl _) (.refl _) rfl, rfl, rfl, rfl, ?_⟩
    simp [Outline.functionOutput, Outline.setEntry, HostTree.names, hkind, HostFile.namesOf,
      entryDeclaration]

theorem declarationNames_ofState (c : Context) (s : State) :
    (LoweredUnit.ofState c s).file.declarationNames =
      s.tree.names s.outline.typeOutput ++ s.tree.names s.outline.constantOutput ++
        s.tree.names s.outline.functionOutput := by
  have hfile : (LoweredUnit.ofState c s).file.declarationNames =
      s.tree.names (s.outline.typeOutput ++ (s.outline.constantOutput ++
        (s.outline.functionOutput ++ []))) := by
    unfold LoweredUnit.ofState
    dsimp only
    split <;> rfl
  rw [hfile, List.append_nil, names_append, names_append, List.append_assoc]

theorem declarations_ofState (c : Context) (s : State) :
    (LoweredUnit.ofState c s).declarations = byRank (·.kind.rank) 4 s.outline.declared :=
  s.outline.declarations_eq

end

/-- The names of the output are those of the declarations, in the same order and less those of
constants without a spelling, just in case no two types have blank names. -/
theorem declarationNames_iff {c : Context} {types : TypeTable} {out : LoweredUnit}
    (hroots : c.unit.roots.Nodup)
    (h : lowerUnitWith c.unit c.sources ⟨types, c.env⟩ c.settings c.registry = .ok out) :
    ∃ (entry : Option Declaration) (spelled : NodeId → List Bool),
      (∀ d ∈ entry, d.kind = .entry) ∧
      UnitSpelling c (.final c types) c.unit.roots spelled ∧
      out.declarations =
        byRank (·.kind.rank) 4 (c.unit.roots.flatMap (declarationsOf c) ++ entry.toList) ∧
      (out.file.declarationNames = (byRank (·.kind.rank) 4
          (c.unit.roots.flatMap (spelledDeclarations c spelled) ++ entry.toList)).map (·.name) ↔
        (typesNamed c "_" c.unit.roots).length ≤ 1) := by
  obtain ⟨s, hs, hmade⟩ := finished_final hroots h
  obtain rfl := (lowerUnitWith_ok.mp h).2
  obtain ⟨spelled, hspelled, htypes, hvalues, hfunctions⟩ := names_output hroots hs
  obtain ⟨entry, hentry, hlater, hdeclared, htypes', hvalues', hfunctions'⟩ :=
    entryMade_names hmade hs.underway.entry
  refine ⟨entry, spelled, hentry, ?_, ?_, ?_⟩
  · exact fun root hroot spec hstmt hne => (hspelled root hroot spec hstmt hne).mono hlater
  · rw [← hs.underway.declared, ← hdeclared]
    exact declarations_ofState c _
  · rw [declarationNames_ofState, htypes', hvalues', hfunctions', htypes, hvalues, hfunctions,
      byRank_declarations (fun _ => spelledDeclarations_subset) hentry,
      ← owners_iff hs.underway hroots]
    simp only [List.map_append, List.map_flatMap, ← List.append_assoc, List.append_left_inj]
    refine flatMap_filter_eq_iff (fun root hroot => ?_)
    obtain ⟨-, name, type, isAlias, doc, hstmt⟩ := mem_ranked_types hroot
    simp [spelledDeclarations, declarationsOf, hstmt]

/-- `func f() {}`, `const b, c = 1r, 2` and `type T int`, in this order. -/
def orderSample : Context :=
  .sample
    [.type (.func [] [] false), .stmt (.block []),
      .stmt (.function ⟨none, "f", ⟨0⟩, some ⟨1⟩, none⟩),
      .expr (.literal .bigInt "1"), .expr (.literal .int "2"),
      .stmt (.constDecl ⟨["b", "c"], none, [⟨3⟩, ⟨4⟩], none⟩),
      .type (.named none "int"), .stmt (.typeDecl "T" ⟨6⟩ false none)]
    [⟨2⟩, ⟨5⟩, ⟨7⟩]

theorem declarationNames_iff_sample :
    orderSample.unit.roots.Nodup ∧ ∃ out,
      lowerUnitWith orderSample.unit orderSample.sources ⟨.initial, orderSample.env⟩
        orderSample.settings orderSample.registry = .ok out ∧
      out.file.declarationNames = ["T", "c", "f", "main"] ∧
      ∃ (entry : Option Declaration) (spelled : NodeId → List Bool),
        (∀ d ∈ entry, d.kind = .entry) ∧
        UnitSpelling orderSample (.final orderSample .initial) orderSample.unit.roots spelled ∧
        out.declarations = byRank (·.kind.rank) 4
          (orderSample.unit.roots.flatMap (declarationsOf orderSample) ++ entry.toList) ∧
        (out.file.declarationNames = (byRank (·.kind.rank) 4 (orderSample.unit.roots.flatMap
            (spelledDeclarations orderSample spelled) ++ entry.toList)).map (·.name) ↔
          (typesNamed orderSample "_" orderSample.unit.roots).length ≤ 1) :=
  have hroots : orderSample.unit.roots.Nodup := by decide
  have h := lowerUnitWith_ok.mpr ⟨by decide +kernel, rfl⟩
  ⟨hroots, _, h, by decide +kernel, declarationNames_iff hroots h⟩

/-- `type _ int` and `type _ string`. -/
def blankSample : Context :=
  .sample
    [.type (.named none "int"), .stmt (.typeDecl "_" ⟨0⟩ false none),
      .type (.named none "string"), .stmt (.typeDecl "_" ⟨2⟩ false none)]
    [⟨1⟩, ⟨3⟩]

/-- Both types are declared, and the second one is put out alone. -/
theorem declarationNames_blank_types :
    blankSample.unit.roots.Nodup ∧ ∃ out,
      lowerUnitWith blankSample.unit blankSample.sources ⟨.initial, blankSample.env⟩
        blankSample.settings blankSample.registry = .ok out ∧
      out.declarations.map (·.name) = ["_", "_", "main"] ∧
      out.file.declarationNames = ["_", "main"] :=
  ⟨by decide, _, lowerUnitWith_ok.mpr ⟨by decide +kernel, rfl⟩,
    by rw [declarations_ofState]; decide +kernel, by decide +kernel⟩

end GoLowering.Lowering
