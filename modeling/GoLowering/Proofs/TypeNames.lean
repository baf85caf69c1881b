import GoLowering.Proofs.Phases
import GoLowering.Proofs.Situations

/-!
# Named types and the declarations that share them

A type that a unit declares is known by its name alone: every declaration of a name denotes the
first type of the table that has it and gives that type a definition, in whatever scope the
declaration stands.

Whatever part is lowered, the types known before keep their definitions, except those of which a
declaration is put out in between (`Redeclares`). So a declaration inside of a function leaves
the types of all other names alone, but it takes over a type of its own name that is known
already.
-/

namespace GoLowering

namespace TypeTable

theorem get_eq_getElem {t : TypeTable} {id : TypeId} (h : id.index < t.entries.size) :
    t.get id = t.entries[id.index] := by
  simp [get, h]

theorem isNamedAs_iff {entry : Ty} {package : Option String} {name : String} :
    entry.isNamedAs package name = true ↔ ∃ before, entry = .named package name before := by
  cases entry <;> simp [Ty.isNamedAs]

theorem index_lt_of_named {t : TypeTable} {id : TypeId} {package : Option String}
    {name : String} {before : Option TypeId} (h : t.get id = .named package name before) :
    id.index < t.size := by
  by_contra hle
  have hle : ¬ id.index < t.entries.size := hle
  simp [get, hle] at h

theorem size_define (t : TypeTable) (named definition : TypeId) :
    (t.define named definition).size = t.size := by
  unfold define
  split <;> simp [size]

theorem get_define_of_ne (t : TypeTable) {named id : TypeId} (definition : TypeId)
    (h : id ≠ named) : (t.define named definition).get id = t.get id := by
  have hne : named.index ≠ id.index := fun he => h (by cases named; cases id; simp_all)
  unfold define
  split
  · simp [get, hne]
  · rfl

theorem get_define_self {t : TypeTable} {named definition : TypeId} {package : Option String}
    {name : String} {before : Option TypeId} (h : t.get named = .named package name before) :
    (t.define named definition).get named = .named package name (some definition) := by
  have hlt : named.index < t.entries.size := index_lt_of_named h
  unfold define
  rw [h]
  simp [get, hlt]

/-- Types are looked up by their names to be the first ones that have them. -/
theorem lookupNamed?_eq_some {t : TypeTable} {package : Option String} {name : String}
    {id : TypeId} :
    t.lookupNamed? package name = some id ↔ id.index < t.size ∧
      (t.get id).isNamedAs package name = true ∧
        ∀ earlier : TypeId, earlier.index < id.index →
          (t.get earlier).isNamedAs package name = false := by
  obtain ⟨i⟩ := id
  simp only [lookupNamed?, Option.map_eq_some_iff, Array.findIdx?_eq_some_iff_getElem, size]
  constructor
  · rintro ⟨j, ⟨hj, hname, hfirst⟩, ⟨⟩⟩
    refine ⟨hj, by rwa [get_eq_getElem hj], fun earlier hk => ?_⟩
    rw [get_eq_getElem (Nat.lt_trans hk hj)]
    exact Bool.eq_false_iff.mpr (hfirst earlier.index hk)
  · rintro ⟨hi, hname, hfirst⟩
    refine ⟨i, ⟨hi, by rwa [get_eq_getElem hi] at hname, fun k hk => ?_⟩, rfl⟩
    have hearlier := hfirst ⟨k⟩ hk
    rw [get_eq_getElem (Nat.lt_trans hk hi)] at hearlier
    exact Bool.eq_false_iff.mp hearlier

theorem get_of_lookupNamed? {t : TypeTable} {package : Option String} {name : String}
    {id : TypeId} (h : t.lookupNamed? package name = some id) :
    ∃ before, t.get id = .named package name before :=
  isNamedAs_iff.mp (lookupNamed?_eq_some.mp h).2.1

/-- A declared type is one of those that are known already just in case its name is. -/
theorem declareNamed_lt_iff (t : TypeTable) (package : Option String) (name : String) :
    (t.declareNamed package name).1.index < t.size ↔ (t.lookupNamed? package name).isSome := by
  unfold declareNamed
  cases h : t.lookupNamed? package name with
  | none => simp [push, size]
  | some id => simpa using (lookupNamed?_eq_some.mp h).1

end TypeTable

namespace Lowering

open Surface

/-! ## Types that are declared again -/

/-- A type is given a definition by a declaration that is put out between two states. -/
def Redeclared (s s' : State) (id : TypeId) (node : HostId) : Prop :=
  MadeBetween s s' node ∧ ∃ name before definition doc,
    s.types.get id = .named none name before ∧
      s'.types.get id = .named none name (some definition) ∧
      s'.tree.kind node = .typeDecl name definition false doc

/-- The second state comes after the first one, and the types of the first one keep their
definitions unless they are declared again in between. -/
structure Redeclares (s s' : State) : Prop where
  tree : s.tree.Grows s'.tree
  size_le : s.types.size ≤ s'.types.size
  types : ∀ id, id.index < s.types.size →
    s'.types.get id = s.types.get id ∨ ∃ node, Redeclared s s' id node

theorem Redeclared.mono {s s₁ s₂ : State} {id : TypeId} {node : HostId}
    (h : Redeclared s s₁ id node) (htree : s₁.tree.Grows s₂.tree)
    (hget : s₂.types.get id = s₁.types.get id) : Redeclared s s₂ id node := by
  obtain ⟨hmade, name, before, definition, doc, hbefore, hafter, hkind⟩ := h
  exact ⟨hmade.mono (.refl _) htree, name, before, definition, doc, hbefore,
    hget.trans hafter, (htree.kind_eq hmade.2).trans hkind⟩

namespace Redeclares

variable {s s₁ s₂ s₃ : State}

theorem of_begins (htree : s.tree.Grows s₁.tree) (h : s.types.Begins s₁.types) :
    Redeclares s s₁ :=
  ⟨htree, h.size_le, fun _ hid => .inl (h.get_eq hid)⟩

/-- A type keeps its name. -/
theorem get_named (h : Redeclares s s₁) {id : TypeId} {name : String} {before : Option TypeId}
    (hget : s.types.get id = .named none name before) :
    ∃ after, s₁.types.get id = .named none name after := by
  have hid : id.index < s.types.size := TypeTable.index_lt_of_named hget
  rcases h.types id hid with he | ⟨node, -, _, _, definition, _, hbefore, hafter, -⟩
  · exact ⟨before, he.trans hget⟩
  · obtain ⟨-, rfl, -⟩ := Ty.named.inj (hget.symm.trans hbefore)
    exact ⟨some definition, hafter⟩

theorem lookupNamed?_eq (h : Redeclares s s₁) {name : String} {named : TypeId}
    (found : s.types.lookupNamed? none name = some named) :
    s₁.types.lookupNamed? none name = some named := by
  obtain ⟨hid, hnamed, hfirst⟩ := TypeTable.lookupNamed?_eq_some.mp found
  obtain ⟨before, hbefore⟩ := TypeTable.isNamedAs_iff.mp hnamed
  obtain ⟨after, hafter⟩ := h.get_named hbefore
  refine TypeTable.lookupNamed?_eq_some.mpr ⟨Nat.lt_of_lt_of_le hid h.size_le,
    TypeTable.isNamedAs_iff.mpr ⟨after, hafter⟩, fun earlier hearlier => ?_⟩
  have hother := hfirst earlier hearlier
  rcases h.types earlier (Nat.lt_trans hearlier hid) with he | ⟨_, -, _, _, _, _, hfrom, hto, -⟩
  · rwa [he]
  · rw [hfrom] at hother
    rw [hto]
    exact hother

theorem trans (h₁ : Redeclares s₁ s₂) (h₂ : Redeclares s₂ s₃) : Redeclares s₁ s₃ where
  tree := h₁.tree.trans h₂.tree
  size_le := Nat.le_trans h₁.size_le h₂.size_le
  types id hid := by
    rcases h₂.types id (Nat.lt_of_lt_of_le hid h₁.size_le) with he₂ | ⟨node, hnode⟩
    · rcases h₁.types id hid with he₁ | ⟨node, hnode⟩
      · exact .inl (he₂.trans he₁)
      · exact .inr ⟨node, hnode.mono h₂.tree he₂⟩
    · obtain ⟨hmade, name, before, definition, doc, hbefore, hafter, hkind⟩ := hnode
      refine .inr ⟨node, hmade.mono h₁.tree (.refl _), ?_⟩
      rcases h₁.types id hid with he₁ | ⟨_, -, _, first, _, _, hfirst, hsecond, -⟩
      · exact ⟨name, before, definition, doc, he₁.symm.trans hbefore, hafter, hkind⟩
      · obtain ⟨-, rfl, -⟩ := Ty.named.inj (hsecond.symm.trans hbefore)
        exact ⟨_, first, definition, doc, hfirst, hafter, hkind⟩

/-- A declaration of a type gives it a definition and leaves all others alone. -/
theorem declareType {name : String} {named definition : TypeId} {doc : Option String}
    {origin : Option Span} (h : Redeclares s s₁)
    (found : s.types.lookupNamed? none name = some named) :
    Redeclares s { s₁ with
      types := s₁.types.define named definition
      tree := (s₁.tree.add (.typeDecl name definition false doc) origin).2 } := by
  have htree : s₁.tree.Grows (s₁.tree.add (.typeDecl name definition false doc) origin).2 :=
    HostTree.grows_add _ _ _
  refine ⟨h.tree.trans htree, ?_, fun id hid => ?_⟩
  · rw [TypeTable.size_define]
    exact h.size_le
  by_cases he : id = named
  · subst he
    obtain ⟨before, hbefore⟩ := TypeTable.get_of_lookupNamed? found
    obtain ⟨after, hafter⟩ := h.get_named hbefore
    refine .inr ⟨⟨s₁.tree.size⟩, ⟨h.tree.size_le, by simp⟩, name, before, definition, doc,
      hbefore, TypeTable.get_define_self hafter, ?_⟩
    exact HostTree.kind_add s₁.tree _ _
  · have hget := s₁.types.get_define_of_ne definition he
    refine (h.types id hid).imp hget.trans ?_
    rintro ⟨node, hnode⟩
    exact ⟨node, hnode.mono htree hget⟩

end Redeclares

/-- What becomes of the types that are known, at every level of care. -/
def Redeclaring (_ : Care) (_ : Context) (s s' : State) : Prop := Redeclares s s'

instance : Frame Redeclaring where
  refl _ _ _ := .of_begins (.refl _) (.refl _)
  trans h₁ h₂ := Redeclares.trans h₁ h₂
  still h := .of_begins h.tree h.begins
  quiet h := h
  additive h := h
  steady h := h
  inScope _ h := ⟨h.tree, h.size_le, h.types⟩
  inFunction _ _ h := ⟨h.tree, h.size_le, h.types⟩
  inFrame _ h := ⟨h.tree, h.size_le, h.types⟩
  atPackageLevel h := ⟨h.tree, h.size_le, h.types⟩
  hoisting h := ⟨h.tree, h.size_le, h.types⟩
  takeHoisted _ _ := .of_begins (.refl _) (.refl _)
  hoist h _ _ := ⟨h.tree, h.size_le, h.types⟩
  declareType found h := Redeclares.declareType h found
  noteLiteral _ _ _ _ := .of_begins (.refl _) (.refl _)
  needAlias _ _ _ _ _ := .of_begins (.refl _) (.refl _)
  openAlias _ h := ⟨h.tree, h.size_le, h.types⟩
  setAlias _ _ h := ⟨h.tree, h.size_le, h.types⟩

instance : Notes Redeclaring where
  note h := .of_begins (h.tree ▸ .refl _) (h.types ▸ .refl _)

/-- That types keep their definitions unless they are declared again. -/
abbrev redeclaring : Regime := .ofFrame Redeclaring

/-! ## Declarations inside of a function -/

/-- A type declared inside of a function is named before its definition is looked for, and the
declaration is put out when the type has got it. -/
theorem lowerLocalType_ok {walk : Walk} {name : String} {type : NodeId} {doc : Option String}
    {span : Span} {c : Context} {s s' : State} {host : HostId}
    (h : lowerLocalType walk name type false doc span c s = (.ok host, s')) :
    ∃ definition s₁ s₂ origin, s₁.tree = s.tree ∧
      s₁.types = (s.types.declareNamed none name).2 ∧
      walk.type type c s₁ = (.ok definition, s₂) ∧ host = ⟨s₂.tree.size⟩ ∧
      s' = { s₂ with
        types := s₂.types.define (s.types.declareNamed none name).1 definition
        tree := (s₂.tree.add (.typeDecl name definition false doc) origin).2 } := by
  unfold lowerLocalType lowerLocalDefinition at h
  rw [if_neg (by simp)] at h
  obtain ⟨_, s₃, hdefinition, hplace⟩ := bind_ok.mp h
  obtain ⟨_, _, hnamed, hdefinition⟩ := bind_ok.mp hdefinition
  obtain ⟨hid, rfl⟩ := Prod.mk.inj hnamed
  obtain rfl := Except.ok.inj hid
  obtain ⟨_, _, hbind, hdefinition⟩ := bind_ok.mp hdefinition
  obtain ⟨-, rfl⟩ := Prod.mk.inj hbind
  obtain ⟨definition, s₂, htype, hdefinition⟩ := bind_ok.mp hdefinition
  obtain ⟨_, s₄, hdefine, hdefinition⟩ := bind_ok.mp hdefinition
  obtain ⟨-, rfl⟩ := Prod.mk.inj hdefine
  obtain ⟨rfl, rfl⟩ := pure_ok.mp hdefinition
  obtain ⟨hhost, rfl⟩ := Prod.mk.inj hplace
  refine ⟨definition, _, s₂, _, ?_, ?_, htype, (Except.ok.inj hhost).symm, rfl⟩ <;> rfl

/-- A declaration inside of a function denotes a type that is known already just in case its name
is the name of one, and it leaves the types that are known as they are just in case there is no
such type or that type is defined in the same way; what is declared again inside of the type
expression is set aside. -/
theorem local_type_kept_iff {depth : Nat} {c : Context} {s s' : State} {id type : NodeId}
    {name : String} {doc : Option String} {node : Option HostId}
    (declared : c.unit.stmt? id = some (.typeDecl name type false doc))
    (run : lowerStmt (walkWithin depth) id c s = (.ok node, s')) :
    ∃ host named definition, node = some host ∧
      s'.tree.kind host = .typeDecl name definition false doc ∧
      s'.types.lookupNamed? none name = some named ∧
      s'.types.get named = .named none name (some definition) ∧
      (named.index < s.types.size ↔ (s.types.lookupNamed? none name).isSome) ∧
      ((∀ old, old.index < s.types.size → (∀ inner ≠ host, ¬ Redeclared s s' old inner) →
          s'.types.get old = s.types.get old) ↔
        ∀ old, s.types.lookupNamed? none name = some old →
          (∀ inner ≠ host, ¬ Redeclared s s' old inner) →
          s.types.get old = .named none name (some definition)) := by
  unfold lowerStmt at run
  obtain ⟨_, _, hread, run⟩ := bind_ok.mp run
  obtain ⟨hc, rfl⟩ := Prod.mk.inj hread
  obtain rfl := Except.ok.inj hc
  rw [declared] at run
  obtain ⟨span, _, hspan, run⟩ := bind_ok.mp run
  obtain ⟨-, rfl⟩ := Prod.mk.inj hspan
  obtain ⟨host, _, hlocal, hsome⟩ := bind_ok.mp run
  obtain ⟨rfl, rfl⟩ := pure_ok.mp hsome
  obtain ⟨definition, s₁, s₂, origin, htree, htypes, htype, rfl, rfl⟩ := lowerLocalType_ok hlocal
  set named := (s.types.declareNamed none name).1 with hnamed
  have hstart : Redeclares s s₁ :=
    .of_begins (htree ▸ .refl _) (htypes ▸ s.types.begins_declareNamed none name)
  have hinside : Redeclares s₁ s₂ := by
    have hwalk : Additive redeclaring ((walkWithin depth).type type) := Walk.Keeps.type type
    have h : Redeclares s₁ ((walkWithin depth).type type c s₁).2 := Keeps.run hwalk c s₁
    rwa [htype] at h
  have found : s₁.types.lookupNamed? none name = some named :=
    htypes ▸ lookupNamed?_declareNamed s.types none name
  have hdeclared : Redeclares s₁ { s₂ with
      types := s₂.types.define named definition
      tree := (s₂.tree.add (.typeDecl name definition false doc) origin).2 } :=
    hinside.declareType found
  obtain ⟨before, hbefore⟩ := TypeTable.get_of_lookupNamed? found
  obtain ⟨after, hafter⟩ := hinside.get_named hbefore
  have hdefined : (s₂.types.define named definition).get named =
      .named none name (some definition) := TypeTable.get_define_self hafter
  refine ⟨⟨s₂.tree.size⟩, named, definition, rfl, HostTree.kind_add _ _ _,
    hdeclared.lookupNamed?_eq found, hdefined, s.types.declareNamed_lt_iff none name, ?_⟩
  constructor
  · intro hkept old hold hinner
    obtain rfl : named = old := by
      rw [hnamed, TypeTable.declareNamed, hold]
    exact (hkept named (TypeTable.lookupNamed?_eq_some.mp hold).1 hinner).symm.trans hdefined
  · intro hsame old hold hinner
    by_cases he : old = named
    · subst he
      have hknown := (s.types.declareNamed_lt_iff none name).mp hold
      obtain ⟨old, hlookup⟩ := Option.isSome_iff_exists.mp hknown
      have hold : named = old := by
        rw [hnamed, TypeTable.declareNamed, hlookup]
      exact hdefined.trans (hsame named (hold ▸ hlookup) hinner).symm
    · have hget := s₂.types.get_define_of_ne definition he
      refine hget.trans (((hstart.trans hinside).types old hold).resolve_right ?_)
      rintro ⟨inner, hredeclared⟩
      refine hinner inner ?_ (hredeclared.mono (HostTree.grows_add _ _ _) hget)
      rintro rfl
      exact absurd hredeclared.1.2 (Nat.lt_irrefl _)

/-- `type T int`, `func f() { type T string }` and `func g() T { return 1 }`. -/
def localTypeSample : Context :=
  .sample
    [.type (.named none "int"), .stmt (.typeDecl "T" ⟨0⟩ false none),
      .type (.func [] [] false), .type (.named none "string"),
      .stmt (.typeDecl "T" ⟨3⟩ false none), .stmt (.block [⟨4⟩]),
      .stmt (.function ⟨none, "f", ⟨2⟩, some ⟨5⟩, none⟩), .type (.named none "T"),
      .type (.func [] [⟨none, ⟨7⟩⟩] false), .expr (.literal .int "1"), .stmt (.ret [⟨9⟩]),
      .stmt (.block [⟨10⟩]), .stmt (.function ⟨none, "g", ⟨8⟩, some ⟨11⟩, none⟩)]
    [⟨1⟩, ⟨6⟩, ⟨12⟩]

theorem local_type_kept_iff_sample :
    localTypeSample.unit.stmt? ⟨4⟩ = some (.typeDecl "T" ⟨3⟩ false none) ∧ ∃ s',
      lowerStmt (walkWithin 1) ⟨4⟩ localTypeSample (.inside .initial [] []) =
        (.ok (some ⟨0⟩), s') ∧
      s'.tree.kind ⟨0⟩ = .typeDecl "T" TypeTable.string false none ∧
      ∃ host named definition, some (⟨0⟩ : HostId) = some host ∧
        s'.tree.kind host = .typeDecl "T" definition false none ∧
        s'.types.lookupNamed? none "T" = some named ∧
        s'.types.get named = .named none "T" (some definition) ∧
        (named.index < TypeTable.initial.size ↔
          (TypeTable.initial.lookupNamed? none "T").isSome) ∧
        ((∀ old, old.index < TypeTable.initial.size →
            (∀ inner ≠ host, ¬ Redeclared (.inside .initial [] []) s' old inner) →
            s'.types.get old = TypeTable.initial.get old) ↔
          ∀ old, TypeTable.initial.lookupNamed? none "T" = some old →
            (∀ inner ≠ host, ¬ Redeclared (.inside .initial [] []) s' old inner) →
            TypeTable.initial.get old = .named none "T" (some definition)) :=
  have declared : localTypeSample.unit.stmt? ⟨4⟩ = some (.typeDecl "T" ⟨3⟩ false none) := rfl
  have run : lowerStmt (walkWithin 1) ⟨4⟩ localTypeSample (.inside .initial [] []) =
      (.ok (some ⟨0⟩), _) :=
    Prod.ext (by decide +kernel) rfl
  ⟨declared, _, run, by decide +kernel, local_type_kept_iff declared run⟩

/-- A type declared inside of one function takes over the type of its name that the package
declares, so that another function is no longer taken. -/
theorem local_type_redefines_package_type : ∃ reports,
    lowerUnitWith localTypeSample.unit localTypeSample.sources ⟨.initial, localTypeSample.env⟩
      localTypeSample.settings localTypeSample.registry = .error reports ∧
    reports.map (·.message) = ["cannot use value of type untyped int as T"] ∧
    (State.final localTypeSample .initial).outline.typeOutput.map
        (State.final localTypeSample .initial).tree.kind =
      [.typeDecl "T" (TypeTable.basic .int) false none] ∧
    ((State.final localTypeSample .initial).types.lookupNamed? none "T").map
        (State.final localTypeSample .initial).types.get =
      some (.named none "T" (some TypeTable.string)) :=
  ⟨_, lowerUnitWith_error.mpr ⟨by decide +kernel, rfl⟩, by decide +kernel, by decide +kernel,
    by decide +kernel⟩

end Lowering

end GoLowering
