import GoLowering.Proofs.Phases
import GoLowering.Proofs.Situations

/-!
# The entry function

The top-level statements of a unit that declare nothing are set apart while names are collected
(`SetApart`), and the phases that follow leave them alone: they fill the places of declarations
only, each with what that declaration itself is lowered to (`DeclarationLowered`). The last phase
makes the entry function of the statements that are left: it is the last function of the output, and
its body is what they are emitted as, one after the other (`entry_function`).
-/

namespace GoLowering

namespace Lowering

open Surface

/-- Whether a top-level statement stands outside of any declaration. -/
def isBare (c : Context) (root : NodeId) : Bool :=
  match c.unit.stmt? root with
  | some (.importPackage ..) | some (.typeDecl ..) | some (.varDecl _) | some (.constDecl _)
  | some (.function _) => false
  | _ => true

section

variable {c : Context} {s s' : State}

/-! ## Places of one statement -/

/-- Only places of one statement are kept between two states, and nothing is put in any. -/
structure KeepsPlace (root : NodeId) (s s' : State) : Prop where
  statements : s'.outline.entryStatements = s.outline.entryStatements
  entry : s'.outline.entry = s.outline.entry
  placed : ∀ key ∈ s'.outline.placed, key ∈ s.outline.placed ∨ key = root
  constants : s.outline.constants.keys ⊆ s'.outline.constants.keys
  distinct : s.outline.PlacedOnce → s'.outline.PlacedOnce
  held : ∀ key, s'.outline.held key ⊆ s.outline.held key

theorem KeepsPlace.of_places {root : NodeId}
    (hs : s'.outline.entryStatements = s.outline.entryStatements)
    (he : s'.outline.entry = s.outline.entry) (ht : s'.outline.types = s.outline.types)
    (hc : s'.outline.constants = s.outline.constants)
    (hf : s'.outline.functions = s.outline.functions) : KeepsPlace root s s' where
  statements := hs
  entry := he
  placed key hkey := .inl (by rwa [Outline.placed, ht, hc, hf] at hkey)
  constants := hc ▸ fun _ h => h
  distinct h := ⟨ht ▸ h.types, hc ▸ h.constants, hf ▸ h.functions⟩
  held key id hid := by rwa [Outline.held, ht, hc, hf] at hid

instance (root : NodeId) : IsPreorder State (KeepsPlace root) where
  refl _ := .of_places rfl rfl rfl rfl rfl
  trans _ _ _ h₁ h₂ :=
    ⟨h₂.statements.trans h₁.statements, h₂.entry.trans h₁.entry,
      fun key hkey => (h₂.placed key hkey).elim (h₁.placed key) .inr,
      fun _ h => h₂.constants (h₁.constants h), fun h => h₂.distinct (h₁.distinct h),
      fun key _ hid => h₁.held key (h₂.held key hid)⟩

theorem mem_placed_fillAll {o : Outline NodeId HostId} {kind : DeclKind} {root key : NodeId}
    {nodes : List HostId} (h : key ∈ (o.fillAll kind root nodes).placed) :
    key ∈ o.placed ∨ key = root := by
  cases kind <;>
    simp only [Outline.fillAll, Outline.placed, List.mem_append, Places.mem_keys_fill] at h ⊢ <;>
    tauto

theorem constants_subset_fillAll (o : Outline NodeId HostId) (kind : DeclKind) (root : NodeId)
    (nodes : List HostId) : o.constants.keys ⊆ (o.fillAll kind root nodes).constants.keys := by
  cases kind with
  | const | var => exact fun _ h => Places.mem_keys_fill.mpr (.inl h)
  | type | func | method | entry => exact fun _ h => h

theorem keepsPlace_reserve (s : State) (kind : DeclKind) (root : NodeId) :
    KeepsPlace root s { s with outline := s.outline.reserve kind root } where
  statements := by cases kind <;> rfl
  entry := by cases kind <;> rfl
  placed _ := mem_placed_fillAll
  constants := constants_subset_fillAll s.outline kind root []
  distinct h := h.fillAll kind root []
  held key id hid := (Outline.mem_held_fillAll.mp hid).resolve_right
    fun h => List.not_mem_nil h.2

section

variable {root : NodeId}

theorem keepsPlace_bind {α β : Type} {m : Lower α} {f : α → Lower β}
    (h : Leads (KeepsPlace root) c s m) (hf : ∀ a s', Leads (KeepsPlace root) c s' (f a)) :
    Leads (KeepsPlace root) c s (m >>= f) := by
  unfold Leads at h ⊢
  rw [run_bind]
  rcases hr : m c s with ⟨r, s₁⟩
  rw [hr] at h
  cases r with
  | error e => exact h
  | ok a => exact trans_of (KeepsPlace root) h (hf a s₁)

theorem Leads.keepsPlace {α : Type} {m : Lower α} {r : Except Failure α}
    (h : Leads (KeepsPlace root) c s m) (hrun : m c s = (r, s')) : KeepsPlace root s s' := by
  unfold Leads at h
  rwa [hrun] at h

theorem keepsPlace_setGlobal (name : String) (global : Global) :
    Leads (KeepsPlace root) c s (setGlobal name global) :=
  .of_places rfl rfl rfl rfl rfl

theorem keepsPlace_declare (d : Declaration) : Leads (KeepsPlace root) c s (declare d) := by
  unfold declare
  refine .get ?_
  split
  · rename_i o ho
    obtain ⟨rfl, -⟩ := Outline.declare_ok ho
    exact .of_places rfl rfl rfl rfl rfl
  · exact .of_places rfl rfl rfl rfl rfl

theorem keepsPlace_declareAt (d : Declaration) :
    Leads (KeepsPlace root) c s (declareAt root d) := by
  refine keepsPlace_bind (keepsPlace_declare d) (fun declared s₁ => ?_)
  cases declared with
  | false => exact .pure _
  | true => exact keepsPlace_bind (keepsPlace_reserve s₁ _ root) (fun _ _ => .pure _)

theorem keepsPlace_collectType (name : String) (isAlias : Bool) (span : Span) :
    Leads (KeepsPlace root) c s (collectType root name isAlias span) := by
  refine keepsPlace_bind (keepsPlace_declareAt _) (fun declared s₁ => ?_)
  cases declared with
  | false => exact .pure _
  | true =>
    cases isAlias with
    | true => exact keepsPlace_setGlobal name _
    | false =>
      exact keepsPlace_bind (m := some <$> onTypes (·.declareNamed none name))
        (.of_places rfl rfl rfl rfl rfl) (fun _ _ => keepsPlace_setGlobal name _)

theorem keepsPlace_collectValue (kind : DeclKind) (span : Span) (name : String) :
    Leads (KeepsPlace root) c s (collectValue root kind span name) := by
  refine keepsPlace_bind (keepsPlace_declare _) (fun declared s₁ => ?_)
  split
  · exact keepsPlace_setGlobal name _
  · exact .pure _

theorem keepsPlace_forM_collectValue (kind : DeclKind) (span : Span) (names : List String) :
    Leads (KeepsPlace root) c s (names.forM (collectValue root kind span)) := by
  induction names generalizing s with
  | nil => exact .pure _
  | cons name rest ih =>
    exact keepsPlace_bind (keepsPlace_collectValue kind span name) (fun _ _ => ih)

theorem keepsPlace_collectValues (kind : DeclKind) (names : List String) (span : Span) :
    Leads (KeepsPlace root) c s (collectValues root kind names span) :=
  keepsPlace_bind (keepsPlace_reserve s kind root)
    (fun _ _ => keepsPlace_forM_collectValue kind span names)

theorem keepsPlace_collectFunction (decl : FunctionDecl) (span : Span) :
    Leads (KeepsPlace root) c s (collectFunction root decl span) := by
  unfold collectFunction
  split
  · exact keepsPlace_bind (m := textOf _) (.of_places rfl rfl rfl rfl rfl)
      (fun _ _ => keepsPlace_bind (keepsPlace_declareAt _) (fun _ _ => .pure _))
  · refine keepsPlace_bind (keepsPlace_declareAt _) (fun declared s₁ => ?_)
    cases declared with
    | false => exact .pure _
    | true =>
      rw [if_pos rfl]
      split
      · exact keepsPlace_setGlobal _ _
      · exact .pure _

theorem keepsPlace_collectFunctionRoot (decl : FunctionDecl) (span : Span) (sites : EntrySites) :
    Leads (KeepsPlace root) c s (collectFunctionRoot root decl span sites) := by
  unfold collectFunctionRoot
  refine .read ?_
  dsimp only
  split
  · exact keepsPlace_bind (keepsPlace_collectFunction decl span) (fun _ _ => .pure _)
  · split
    · exact keepsPlace_bind (m := recordFailure _) (.of_places rfl rfl rfl rfl rfl)
        (fun _ _ => .pure _)
    · exact keepsPlace_bind (keepsPlace_collectFunction decl span) (fun _ _ => .pure _)

/-! ## Statements that are set apart -/

/-- Some top-level statements have been collected, and the bare ones among them have been set
apart. -/
structure SetApart (c : Context) (done : List NodeId) (s : State) : Prop where
  statements : s.outline.entryStatements = done.filter (isBare c)
  entry : s.outline.entry = none
  placed : ∀ root ∈ s.outline.placed, root ∈ done ∧ isBare c root = false
  distinct : s.outline.PlacedOnce
  values : ∀ root ∈ done, rankOf? c root = some 1 → root ∈ s.outline.constants.keys

variable {done : List NodeId}

theorem SetApart.keep (hs : SetApart c done s) (h : KeepsPlace root s s')
    (hbare : isBare c root = false)
    (hvalue : rankOf? c root = some 1 → root ∈ s'.outline.constants.keys) :
    SetApart c (done ++ [root]) s' where
  statements := by simp [h.statements, hs.statements, hbare]
  entry := h.entry.trans hs.entry
  placed key hkey := by
    rcases h.placed key hkey with hkey | rfl
    · exact ⟨List.mem_append_left _ (hs.placed key hkey).1, (hs.placed key hkey).2⟩
    · exact ⟨List.mem_append_right _ List.mem_cons_self, hbare⟩
  distinct := h.distinct hs.distinct
  values other hother hrank := by
    rcases List.mem_append.mp hother with hother | hother
    · exact h.constants (hs.values other hother hrank)
    · obtain rfl := List.mem_singleton.mp hother
      exact hvalue hrank

theorem SetApart.push (hs : SetApart c done s) (hbare : isBare c root = true)
    (hrank : rankOf? c root = none) :
    SetApart c (done ++ [root]) { s with outline := s.outline.pushEntryStatement root } where
  statements := by simp [Outline.pushEntryStatement, hs.statements, hbare]
  entry := hs.entry
  placed key hkey := ⟨List.mem_append_left _ (hs.placed key hkey).1, (hs.placed key hkey).2⟩
  distinct := ⟨hs.distinct.types, hs.distinct.constants, hs.distinct.functions⟩
  values other hother hother_rank := by
    refine hs.values other ?_ hother_rank
    rcases List.mem_append.mp hother with hother | hother
    · exact hother
    · rw [List.mem_singleton.mp hother, hrank] at hother_rank
      cases hother_rank

theorem mem_constants_collectValues {kind : DeclKind} {names : List String} {span : Span}
    (hkind : kind.rank = 1) :
    root ∈ (collectValues root kind names span c s).2.outline.constants.keys := by
  have hreserved : root ∈ (s.outline.reserve kind root).constants.keys := by
    cases kind with
    | const | var => exact Places.mem_keys_fill.mpr (.inr rfl)
    | type | func | method | entry => cases hkind
  have hkept : KeepsPlace root { s with outline := s.outline.reserve kind root }
      (collectValues root kind names span c s).2 :=
    keepsPlace_forM_collectValue kind span names
  exact hkept.constants hreserved

theorem collectFunctionRoot_statement {decl : FunctionDecl} {span : Span}
    {sites sites' : EntrySites}
    (h : collectFunctionRoot root decl span sites c s = (.ok sites', s')) :
    sites'.statement = sites.statement := by
  obtain ⟨_, _, hread, h⟩ := bind_ok.mp h
  obtain ⟨hc, rfl⟩ := Prod.mk.inj hread
  obtain rfl := Except.ok.inj hc
  have hsame {m : Lower Unit} {x : EntrySites} (hx : x.statement = sites.statement)
      (h : (m >>= fun _ => pure x) c s = (.ok sites', s')) :
      sites'.statement = sites.statement := by
    obtain ⟨_, s₁, -, h⟩ := bind_ok.mp h
    obtain ⟨rfl, -⟩ := pure_ok.mp h
    exact hx
  revert h
  split
  · exact hsame rfl
  · cases sites.function with
    | none => exact hsame rfl
    | some previous => cases c.settings.entryRole <;> exact hsame rfl

/-- A statement that is collected is set apart if it is bare, and is then a site of the entry. -/
theorem setApart_collectRoot {sites sites' : EntrySites} (hs : SetApart c done s)
    (h : collectRoot root sites c s = (.ok sites', s')) :
    SetApart c (done ++ [root]) s' ∧ (∀ key, s'.outline.held key ⊆ s.outline.held key) ∧
      sites'.statement.isSome = (sites.statement.isSome || isBare c root) := by
  obtain ⟨span, s₁, hrun, h⟩ := bind_ok.mp h
  obtain ⟨-, rfl⟩ := Prod.mk.inj hrun
  obtain ⟨_, _, hread, h⟩ := bind_ok.mp h
  obtain ⟨hc, rfl⟩ := Prod.mk.inj hread
  obtain rfl := Except.ok.inj hc
  have hkept {m : Lower Unit} (hm : Leads (KeepsPlace root) c s m) (hbare : isBare c root = false)
      (hvalue : rankOf? c root = some 1 → root ∈ (m c s).2.outline.constants.keys)
      (h : (m >>= fun _ => pure sites) c s = (.ok sites', s')) :
      SetApart c (done ++ [root]) s' ∧ (∀ key, s'.outline.held key ⊆ s.outline.held key) ∧
        sites'.statement.isSome = (sites.statement.isSome || isBare c root) := by
    obtain ⟨_, s₂, hrun, h⟩ := bind_ok.mp h
    obtain ⟨rfl, rfl⟩ := pure_ok.mp h
    rw [hrun] at hvalue
    have hkeeps : KeepsPlace root s s₂ := hm.keepsPlace hrun
    exact ⟨hs.keep hkeeps hbare hvalue, hkeeps.held, by rw [hbare, Bool.or_false]⟩
  have hpushed (hbare : isBare c root = true) (hrank : rankOf? c root = none)
      (h : (do
        onOutline (·.pushEntryStatement root)
        return { sites with statement := sites.statement.or (some span) } : Lower EntrySites) c s =
          (.ok sites', s')) :
      SetApart c (done ++ [root]) s' ∧ (∀ key, s'.outline.held key ⊆ s.outline.held key) ∧
        sites'.statement.isSome = (sites.statement.isSome || isBare c root) := by
    obtain ⟨_, s₂, hpush, h⟩ := bind_ok.mp h
    obtain ⟨rfl, rfl⟩ := pure_ok.mp h
    obtain ⟨-, rfl⟩ := Prod.mk.inj hpush
    exact ⟨hs.push hbare hrank, fun _ _ hid => hid, by simp [hbare]⟩
  revert h
  cases hstmt : c.unit.stmt? root with
  | none => exact hpushed (by simp [isBare, hstmt]) (by simp [rankOf?, hstmt])
  | some statement =>
    cases statement with
    | importPackage path localName =>
      refine hkept ?_ (by simp [isBare, hstmt]) (by simp [rankOf?, hstmt])
      change Leads _ _ _ (if _ then _ else _)
      split <;> exact .of_places rfl rfl rfl rfl rfl
    | typeDecl name type isAlias doc =>
      exact hkept (keepsPlace_collectType name isAlias span) (by simp [isBare, hstmt])
        (by simp [rankOf?, hstmt])
    | varDecl spec =>
      exact hkept (keepsPlace_collectValues .var spec.names span) (by simp [isBare, hstmt])
        (fun _ => mem_constants_collectValues rfl)
    | constDecl spec =>
      exact hkept (keepsPlace_collectValues .const spec.names span) (by simp [isBare, hstmt])
        (fun _ => mem_constants_collectValues rfl)
    | function decl =>
      intro h
      have hbare : isBare c root = false := by simp [isBare, hstmt]
      have hkeeps : KeepsPlace root s s' :=
        (keepsPlace_collectFunctionRoot decl span sites).keepsPlace h
      exact ⟨hs.keep hkeeps hbare (by simp [rankOf?, hstmt]), hkeeps.held,
        by rw [collectFunctionRoot_statement h, hbare, Bool.or_false]⟩
    | _ => exact hpushed (by simp [isBare, hstmt]) (by simp [rankOf?, hstmt])

theorem setApart_collectRoots {roots : List NodeId} {sites sites' : EntrySites}
    (hs : SetApart c done s) (h : collectRoots roots sites c s = (.ok (some sites'), s')) :
    SetApart c (done ++ roots) s' ∧ (∀ key, s'.outline.held key ⊆ s.outline.held key) ∧
      sites'.statement.isSome = (sites.statement.isSome || roots.any (isBare c)) := by
  induction roots generalizing done s sites with
  | nil =>
    obtain ⟨he, rfl⟩ := pure_ok.mp h
    obtain rfl := Option.some.inj he
    simpa using hs
  | cons root rest ih =>
    obtain ⟨_, _, hget, h⟩ := bind_ok.mp h
    obtain ⟨hc, rfl⟩ := Prod.mk.inj hget
    obtain rfl := Except.ok.inj hc
    split at h
    · obtain ⟨he, -⟩ := pure_ok.mp h
      cases he
    · obtain ⟨sites₁, s₁, hroot, h⟩ := bind_ok.mp h
      obtain ⟨hs₁, hheld₁, hsite⟩ := setApart_collectRoot hs hroot
      obtain ⟨hs', hheld, hsites⟩ := ih hs₁ h
      rw [List.append_cons, hsites, hsite, List.any_cons, Bool.or_assoc]
      exact ⟨hs', fun key _ hid => hheld₁ key (hheld key hid), rfl⟩

theorem setApart_initial (types : TypeTable) : SetApart c [] (.initial c.unit types) :=
  ⟨rfl, rfl, fun _ h => absurd h List.not_mem_nil, ⟨.nil, .nil, .nil⟩,
    fun _ h => absurd h List.not_mem_nil⟩

/-! ## Phases before the entry -/

/-- A declaration of the unit has been lowered to a node on the way to a state: a type to its
definition, values to what they are bound to, a function to its head and its body. -/
inductive DeclarationLowered (c : Context) (root : NodeId) (s : State) (id : HostId) : Prop
  | type {name : String} {type : NodeId} {isAlias : Bool} {doc : Option String}
    {definition : TypeId} {depth : Nat} {s₁ s₂ : State}
    (stmt : c.unit.stmt? root = some (.typeDecl name type isAlias doc))
    (lowered : lowerDefinition (walkWithin depth) name type isAlias (c.unit.span root) c s₁ =
      (.ok definition, s₂)) (later : Later s₂ s) (within : id.index < s.tree.size)
    (kind : s.tree.kind id = .typeDecl name definition isAlias doc)
  | values (lowered : ValuesLowered c root s id)
  | function {decl : FunctionDecl} {head : FunctionHead} {body : HostId} {depth : Nat}
    {s₁ s₂ : State} (stmt : c.unit.stmt? root = some (.function decl))
    (heading : HeadLowered c root decl head)
    (lowered : lowerFunctionBody (walkWithin depth) decl head (c.unit.span root) c s₁ =
      (.ok body, s₂)) (later : Later s₂ s) (within : id.index < s.tree.size)
    (kind : s.tree.kind id =
      .function ⟨head.receiver, decl.name, head.signature, body, decl.doc⟩)

theorem DeclarationLowered.mono {id : HostId} (h : DeclarationLowered c root s id)
    (hs : Later s s') : DeclarationLowered c root s' id := by
  cases h with
  | type stmt lowered later within kind =>
    exact .type stmt lowered (later.trans hs) (Nat.lt_of_lt_of_le within hs.tree.size_le)
      ((hs.tree.kind_eq within).trans kind)
  | values lowered => exact .values (lowered.mono hs)
  | function stmt heading lowered later within kind =>
    exact .function stmt heading lowered (later.trans hs)
      (Nat.lt_of_lt_of_le within hs.tree.size_le) ((hs.tree.kind_eq within).trans kind)

/-- A unit is being lowered whose bare statements wait for the entry function. -/
structure Waiting (c : Context) (roots : List NodeId) (s : State) : Prop
    extends SetApart c roots s where
  lowered : ∀ root, ∀ id ∈ s.outline.held root, DeclarationLowered c root s id
  declared : s.outline.declared = roots.flatMap (declarationsOf c)
  explicitEntry : s.explicitEntry = roots.any (isEntryFunction c)
  either : roots.any (isEntryFunction c) → roots.any (isBare c) = false
  halted : s.halted = false
  reserved : s.Reserved

variable {roots : List NodeId} {depth : Nat}

/-- Names have been collected without a report. -/
theorem waiting_collect {types : TypeTable}
    (h : collect roots c (.initial c.unit types) = (.ok (), s')) (hd : s'.diagnostics = []) :
    Waiting c roots s' := by
  obtain ⟨hcollected, hexplicit⟩ := collected_collect h hd
  obtain ⟨found, s₁, hcollect, h⟩ := bind_ok.mp h
  cases found with
  | none =>
    obtain ⟨-, rfl⟩ := pure_ok.mp h
    cases (collected_roots (collected_initial c types) hcollect hd).2
  | some sites =>
    obtain ⟨happart, hheld, hstatement⟩ := setApart_collectRoots (setApart_initial types) hcollect
    have hfunction := collectRoots_sites hcollect
    obtain ⟨_, s₂, hmodify, h⟩ := bind_ok.mp h
    obtain ⟨-, rfl⟩ := Prod.mk.inj hmodify
    have hwaiting (he : s' = { s₁ with explicitEntry := sites.function.isSome })
        (heither : roots.any (isEntryFunction c) → roots.any (isBare c) = false) :
        Waiting c roots s' := by
      refine ⟨?_, fun root id hid => ?_, by simpa using hcollected.entered.declared, hexplicit,
        heither, hcollected.untouched.halted, hcollected.entered.values⟩
      · subst he
        exact ⟨happart.statements, happart.entry, happart.placed, happart.distinct,
          happart.values⟩
      · subst he
        exact absurd (hheld root hid) List.not_mem_nil
    revert h
    cases hentry : sites.function with
    | none =>
      intro h
      refine hwaiting (by rw [hentry]; exact (pure_ok.mp h).2.symm) (fun hany => ?_)
      rw [hentry, hany, Bool.or_true] at hfunction
      cases hfunction
    | some entry =>
      cases hsite : sites.statement with
      | none =>
        intro h
        refine hwaiting (by rw [hentry]; exact (pure_ok.mp h).2.symm) (fun _ => ?_)
        simpa [hsite] using hstatement.symm
      | some statement =>
        intro h
        obtain ⟨-, rfl⟩ := Prod.mk.inj h
        simp at hd

/-- What is held after values have been lowered was held before, or is what they are lowered to. -/
theorem Filled.held {id : HostId} (h : Filled c s s') (hid : id ∈ s'.outline.held root) :
    id ∈ s.outline.held root ∨ ValuesLowered c root s' id := by
  rw [h.outline_eq] at hid
  simp only [Outline.held, List.mem_append] at hid ⊢
  rcases h.filled root with ⟨-, hsame⟩ | ⟨-, -, nodes, hmore, hemits, -⟩
  · rw [hsame] at hid
    exact .inl hid
  · rw [hmore, List.mem_append] at hid
    rcases hid with (hid | hid | hid) | hid
    · exact .inl (.inl (.inl hid))
    · exact .inl (.inl (.inr hid))
    · exact .inr (hemits id hid).2
    · exact .inl (.inr hid)

theorem Waiting.filled (hs : Waiting c roots s) (h : Filled c s s') : Waiting c roots s' := by
  have ho := h.outline_eq
  have hkeys := h.keys hs.reserved
  exact
    { statements := by rw [ho]; exact hs.statements
      entry := by rw [ho]; exact hs.entry
      placed := fun root hroot => by
        refine hs.placed root ?_
        rw [ho] at hroot
        simp only [Outline.placed, hkeys] at hroot
        exact hroot
      distinct := by
        rw [ho]
        exact ⟨hs.distinct.types, hkeys ▸ hs.distinct.constants, hs.distinct.functions⟩
      lowered := fun root id hid =>
        (h.held hid).elim (fun hid => (hs.lowered root id hid).mono h.toLater) .values
      values := fun root hroot hrank => hkeys ▸ hs.values root hroot hrank
      declared := by rw [ho]; exact hs.declared
      explicitEntry := h.explicitEntry.trans hs.explicitEntry
      either := hs.either
      halted := h.halted.trans hs.halted
      reserved := hs.reserved.filled h }

/-- The place of a declaration is filled with what it has been lowered to. -/
theorem Waiting.fill {kind : DeclKind} {id : HostId} (hs : Waiting c roots s) (hroot : root ∈ roots)
    (hbare : isBare c root = false) (hlowered : DeclarationLowered c root s id) :
    Waiting c roots { s with outline := s.outline.fill kind root id } := by
  have hlater : Later s { s with outline := s.outline.fill kind root id } :=
    .of_globals_eq (.refl _) (.refl _) rfl
  have hconstants := constants_subset_fillAll s.outline kind root [id]
  refine
    { statements := ?_
      entry := ?_
      placed := fun key hkey =>
        (mem_placed_fillAll hkey).elim (hs.placed key) (fun he => he ▸ ⟨hroot, hbare⟩)
      distinct := hs.distinct.fillAll kind root [id]
      values := fun other hother hrank => hconstants (hs.values other hother hrank)
      lowered := fun other held hheld => ?_
      declared := ?_
      explicitEntry := hs.explicitEntry
      either := hs.either
      halted := hs.halted
      reserved := fun name other hlookup => hconstants (hs.reserved name other hlookup) }
  · cases kind <;> exact hs.statements
  · cases kind <;> exact hs.entry
  · rcases Outline.mem_held_fillAll.mp hheld with hbefore | ⟨rfl, hnew⟩
    · exact (hs.lowered other held hbefore).mono hlater
    · exact List.mem_singleton.mp hnew ▸ hlowered.mono hlater
  · cases kind <;> exact hs.declared

theorem waiting_typeRoot (hroot : root ∈ roots) (hs : Waiting c roots s)
    (h : lowerTypeRoot (walkWithin depth) root c s = (.ok (), s')) (hd : s'.diagnostics = []) :
    Waiting c roots s' := by
  obtain ⟨_, _, hread, h⟩ := bind_ok.mp h
  obtain ⟨hc, rfl⟩ := Prod.mk.inj hread
  obtain rfl := Except.ok.inj hc
  have hskip (h : (pure () : Lower Unit) c s = (.ok (), s')) : Waiting c roots s' :=
    (pure_ok.mp h).2 ▸ hs
  revert h
  cases hstmt : c.unit.stmt? root with
  | none => exact hskip
  | some statement =>
    cases statement with
    | typeDecl name type isAlias doc =>
      intro h
      obtain ⟨_, _, hget, h⟩ := bind_ok.mp h
      obtain ⟨hc, rfl⟩ := Prod.mk.inj hget
      obtain rfl := Except.ok.inj hc
      split at h
      · obtain ⟨span, s₁, hspan, h⟩ := bind_ok.mp (reporting_ok h hd)
        obtain ⟨hc, rfl⟩ := Prod.mk.inj hspan
        obtain rfl := Except.ok.inj hc
        obtain ⟨definition, s₂, hdefinition, h⟩ := bind_ok.mp h
        obtain ⟨node, s₃, hnode, h⟩ := bind_ok.mp h
        obtain ⟨-, rfl⟩ := Prod.mk.inj h
        have hd₂ : s₂.diagnostics = [] := diagnostics_nil hnode hd
        have hs₃ := (hs.filled (filled_of_ok hdefinition hd₂)).filled (filled_of_ok hnode hd)
        obtain ⟨hwithin, hkind⟩ := place_ok hnode
        exact hs₃.fill hroot (by simp [isBare, hstmt])
          (.type hstmt hdefinition (filled_of_ok hnode hd).toLater hwithin hkind)
      · exact hskip h
    | _ => exact hskip

theorem waiting_valueRoot (hroot : root ∈ roots) (hs : Waiting c roots s)
    (h : lowerValueRoot (walkWithin depth) root c s = (.ok (), s')) (hd : s'.diagnostics = []) :
    Waiting c roots s' := by
  obtain ⟨_, _, hread, h⟩ := bind_ok.mp h
  obtain ⟨hc, rfl⟩ := Prod.mk.inj hread
  obtain rfl := Except.ok.inj hc
  revert h
  cases hstmt : c.unit.stmt? root with
  | none => exact fun h => (pure_ok.mp h).2 ▸ hs
  | some statement =>
    cases statement with
    | varDecl spec | constDecl spec =>
      dsimp only
      cases spec.names with
      | nil => exact fun h => (pure_ok.mp h).2 ▸ hs
      | cons name names =>
        intro h
        obtain ⟨span, s₁, hspan, h⟩ := bind_ok.mp (reporting_ok h hd)
        obtain ⟨-, rfl⟩ := Prod.mk.inj hspan
        exact hs.filled (filled_value (hs.values root hroot (by simp [rankOf?, hstmt])) h hd)
    | _ => exact fun h => (pure_ok.mp h).2 ▸ hs

theorem waiting_functionRoot {heads : FunctionHeads} (hroot : root ∈ roots)
    (hheads : Headed c roots heads) (hs : Waiting c roots s)
    (h : lowerFunctionRoot (walkWithin depth) heads root c s = (.ok (), s'))
    (hd : s'.diagnostics = []) : Waiting c roots s' := by
  obtain ⟨_, _, hread, h⟩ := bind_ok.mp h
  obtain ⟨hc, rfl⟩ := Prod.mk.inj hread
  obtain rfl := Except.ok.inj hc
  have hskip (h : (pure () : Lower Unit) c s = (.ok (), s')) : Waiting c roots s' :=
    (pure_ok.mp h).2 ▸ hs
  revert h
  cases hstmt : c.unit.stmt? root with
  | none => exact hskip
  | some statement =>
    cases statement with
    | function decl =>
      obtain ⟨head, hhead, hlowered⟩ := hheads root hroot decl hstmt
      rw [hhead]
      intro h
      obtain ⟨span, s₁, hspan, h⟩ := bind_ok.mp (reporting_ok h hd)
      obtain ⟨hc, rfl⟩ := Prod.mk.inj hspan
      obtain rfl := Except.ok.inj hc
      obtain ⟨body, s₂, hbody, h⟩ := bind_ok.mp h
      obtain ⟨node, s₃, hnode, h⟩ := bind_ok.mp h
      obtain ⟨-, rfl⟩ := Prod.mk.inj h
      have hd₂ : s₂.diagnostics = [] := diagnostics_nil hnode hd
      have hs₃ := (hs.filled (filled_of_ok hbody hd₂)).filled (filled_of_ok hnode hd)
      obtain ⟨hwithin, hkind⟩ := place_ok hnode
      exact hs₃.fill hroot (by simp [isBare, hstmt])
        (.function hstmt hlowered hbody (filled_of_ok hnode hd).toLater hwithin hkind)
    | _ => exact hskip

/-! ## The entry -/

/-- The phases before the entry. -/
def lowerBeforeEntry (walk : Walk) (roots : List NodeId) : Lower Unit := do
  collect roots
  forEachRoot (lowerTypeRoot walk) roots
  let heads ← lowerHeads walk roots []
  forEachRoot (lowerValueRoot walk) roots
  forEachRoot (lowerFunctionRoot walk heads) roots

theorem lowerDeclarations_eq (walk : Walk) (roots : List NodeId) :
    lowerDeclarations walk roots = (do
      lowerBeforeEntry walk roots
      if !(← get).halted then lowerEntryPhase walk) := by
  simp only [lowerDeclarations, lowerBeforeEntry, bind_assoc]

/-- The functions come last, with heads for all of them. -/
theorem functions_lowerBeforeEntry {types : TypeTable}
    (h : lowerBeforeEntry (walkWithin depth) roots c (.initial c.unit types) = (.ok (), s'))
    (hd : s'.diagnostics = []) : ∃ heads s, Waiting c roots s ∧ Headed c roots heads ∧
      forEachRoot (lowerFunctionRoot (walkWithin depth) heads) roots c s = (.ok (), s') := by
  obtain ⟨_, s₁, hcollect, h⟩ := bind_ok.mp h
  obtain ⟨_, s₂, htypes, h⟩ := bind_ok.mp h
  obtain ⟨heads, s₃, hheads, h⟩ := bind_ok.mp h
  obtain ⟨_, s₄, hvalues, hfunctions⟩ := bind_ok.mp h
  have hd₄ := diagnostics_nil hfunctions hd
  have hd₃ := diagnostics_nil hvalues hd₄
  have hd₂ := diagnostics_nil hheads hd₃
  have hs₁ := waiting_collect hcollect (diagnostics_nil htypes hd₂)
  have hs₂ : Waiting c roots s₂ :=
    forEachRoot_ok (P := fun _ s => Waiting c roots s) (fun hs => hs.halted)
      (fun hsplit hs hrun hd => waiting_typeRoot (by simp [hsplit]) hs hrun hd) hs₁ htypes hd₂
  have hnone : Headed c [] [] := fun _ h => absurd h List.not_mem_nil
  obtain ⟨hfilled, hheaded⟩ := lowerHeads_ok hs₂.halted hnone hheads hd₃
  have hs₄ : Waiting c roots s₄ :=
    forEachRoot_ok (P := fun _ s => Waiting c roots s) (fun hs => hs.halted)
      (fun hsplit hs hrun hd => waiting_valueRoot (by simp [hsplit]) hs hrun hd)
      (hs₂.filled hfilled) hvalues hd₄
  exact ⟨heads, s₄, hs₄, hheaded, hfunctions⟩

theorem waiting_lowerBeforeEntry {types : TypeTable}
    (h : lowerBeforeEntry (walkWithin depth) roots c (.initial c.unit types) = (.ok (), s'))
    (hd : s'.diagnostics = []) : Waiting c roots s' := by
  obtain ⟨heads, s, hs, hheads, hfunctions⟩ := functions_lowerBeforeEntry h hd
  exact forEachRoot_ok (P := fun _ s => Waiting c roots s) (fun hs => hs.halted)
    (fun hsplit hs hrun hd => waiting_functionRoot (by simp [hsplit]) hheads hs hrun hd) hs
    hfunctions hd

end

/-- What the phases before the entry leave. -/
def State.beforeEntry (c : Context) (types : TypeTable) : State :=
  (lowerBeforeEntry (walkWithin (depthBound c.unit)) c.unit.roots c (.initial c.unit types)).2

/-- Whether the entry function of a unit is made of its bare statements. -/
def MakesEntry (c : Context) : Prop :=
  c.unit.roots.any (isEntryFunction c) = false ∧
    (c.unit.roots.filter (isBare c) ≠ [] ∨
      c.settings.entryRole = .executable ∧ c.settings.suppressAutoEntry = false)

theorem wantsEntry_iff :
    wantsEntry c.settings (c.unit.roots.any (isEntryFunction c))
      (c.unit.roots.filter (isBare c)) ↔ MakesEntry c := by
  simp [wantsEntry, MakesEntry, -List.any_eq_false, -List.filter_eq_nil_iff]

theorem synthesized_declarationsOf {root : NodeId} {d : Declaration}
    (h : d ∈ declarationsOf c root) : d.synthesized = false := by
  unfold declarationsOf at h
  dsimp only at h
  split at h
  · rw [List.mem_singleton.mp h]
    rfl
  · obtain ⟨name, -, rfl⟩ := List.mem_map.mp h
    rfl
  · obtain ⟨name, -, rfl⟩ := List.mem_map.mp h
    rfl
  · split at h <;> rw [List.mem_singleton.mp h] <;> rfl
  · cases h

/-- How the phases end that report nothing: the entry is made or left out. -/
inductive Ending (c : Context) (s s' : State) : Prop
  | made (s₁ : State) (origin : Span) (id : HostId) (wants : MakesEntry c) (filled : Filled c s s₁)
      (final : s' = { s₁ with outline := s₁.outline.setEntry (entryDeclaration c origin) id })
      (entry : IsEntryOf (walkWithin (depthBound c.unit)) c s (c.unit.roots.filter (isBare c))
        s₁.tree id)
  | leftOut (wants : ¬MakesEntry c) (final : s' = s)

theorem ending_lowerEntryPhase (hs : Waiting c c.unit.roots s)
    (h : lowerEntryPhase (walkWithin (depthBound c.unit)) c s = (.ok (), s'))
    (hd : s'.diagnostics = []) : Ending c s s' := by
  obtain ⟨_, _, hget, h⟩ := bind_ok.mp h
  obtain ⟨hc, rfl⟩ := Prod.mk.inj hget
  obtain rfl := Except.ok.inj hc
  obtain ⟨_, _, hread, h⟩ := bind_ok.mp h
  obtain ⟨hc, rfl⟩ := Prod.mk.inj hread
  obtain rfl := Except.ok.inj hc
  rw [hs.statements, hs.explicitEntry] at h
  split at h
  · rename_i hwants
    obtain ⟨s₁, origin, id, hfilled, -, hfinal, hentry⟩ := lowerEntry_ok (reporting_ok h hd) hd
    exact .made s₁ origin id (wantsEntry_iff.mp hwants) hfilled hfinal hentry
  · rename_i hwants
    exact .leftOut (fun hmakes => hwants (wantsEntry_iff.mpr hmakes)) (pure_ok.mp h).2.symm

/-- How a lowering goes on to the entry that succeeds. -/
theorem run_final {types : TypeTable} {out : LoweredUnit}
    (h : lowerUnitWith c.unit c.sources ⟨types, c.env⟩ c.settings c.registry = .ok out) :
    lowerBeforeEntry (walkWithin (depthBound c.unit)) c.unit.roots c (.initial c.unit types) =
        (.ok (), .beforeEntry c types) ∧
      Waiting c c.unit.roots (.beforeEntry c types) ∧
      lowerEntryPhase (walkWithin (depthBound c.unit)) c (.beforeEntry c types) =
        (.ok (), .final c types) := by
  have hanswers : Answers (lowerDeclarations (walkWithin (depthBound c.unit)) c.unit.roots) :=
    answers_lowerDeclarations c.unit.roots
  obtain ⟨_, s', hrun⟩ := hanswers.ok c (.initial c.unit types)
  have hfinal : State.final c types = s' := congrArg Prod.snd hrun
  have hd : s'.diagnostics = [] := hfinal ▸ (lowerUnitWith_ok.mp h).1
  rw [lowerDeclarations_eq] at hrun
  obtain ⟨_, s₁, hbefore, hrun⟩ := bind_ok.mp hrun
  obtain ⟨_, _, hget, hrun⟩ := bind_ok.mp hrun
  obtain ⟨hc, rfl⟩ := Prod.mk.inj hget
  obtain rfl := Except.ok.inj hc
  have hd₁ : s₁.diagnostics = [] := by
    split at hrun
    · exact diagnostics_nil hrun hd
    · exact (pure_ok.mp hrun).2 ▸ hd
  have hs₁ : State.beforeEntry c types = s₁ := congrArg Prod.snd hbefore
  have hwaiting := waiting_lowerBeforeEntry hbefore hd₁
  rw [if_pos (by simp [hwaiting.halted])] at hrun
  rw [hs₁, hfinal]
  exact ⟨hbefore, hwaiting, hrun⟩

theorem ending_final {types : TypeTable} {out : LoweredUnit}
    (h : lowerUnitWith c.unit c.sources ⟨types, c.env⟩ c.settings c.registry = .ok out) :
    Waiting c c.unit.roots (.beforeEntry c types) ∧
      Ending c (.beforeEntry c types) (.final c types) := by
  obtain ⟨-, hwaiting, hrun⟩ := run_final h
  exact ⟨hwaiting, ending_lowerEntryPhase hwaiting hrun (lowerUnitWith_ok.mp h).1⟩

/-- A declaration of the output has been declared. -/
theorem mem_declarations_ofState {d : Declaration} :
    d ∈ (LoweredUnit.ofState c s).declarations ↔ d ∈ s.outline.declared :=
  List.mem_mergeSort

/-- The output of a state, with the places that its declarations have. -/
theorem outputs_ofState (c : Context) (s : State) :
    (LoweredUnit.ofState c s).file.typeDecls ++ (LoweredUnit.ofState c s).file.valueDecls =
        Places.values (s.outline.types ++ s.outline.constants) ∧
      (LoweredUnit.ofState c s).file.functionDecls =
        s.outline.functions.values ++ s.outline.entry.toList ∧
      (LoweredUnit.ofState c s).file.tree = s.tree := by
  rw [Places.values, List.flatMap_append]
  unfold LoweredUnit.ofState
  dsimp only
  split <;> exact ⟨rfl, rfl, rfl⟩

/-- A place is that of a declaration of the unit, and holds what it has been lowered to. -/
def PlaceLowered (c : Context) (s : State) (place : NodeId × List HostId) : Prop :=
  place.1 ∈ c.unit.roots ∧ isBare c place.1 = false ∧
    ∀ id ∈ place.2, DeclarationLowered c place.1 s id

theorem PlaceLowered.mono {place : NodeId × List HostId} (h : PlaceLowered c s place)
    (hs : Later s s') : PlaceLowered c s' place :=
  ⟨h.1, h.2.1, fun id hid => (h.2.2 id hid).mono hs⟩

theorem Waiting.placeLowered (hs : Waiting c c.unit.roots s) {place : NodeId × List HostId}
    (hplace : place ∈ s.outline.types ++ s.outline.constants ++ s.outline.functions) :
    PlaceLowered c s place := by
  have hplaced : place.1 ∈ s.outline.placed := by
    have hkey : place.1 ∈ (s.outline.types ++ s.outline.constants ++ s.outline.functions).map
        Prod.fst := List.mem_map.mpr ⟨place, hplace, rfl⟩
    rwa [List.map_append, List.map_append] at hkey
  obtain ⟨hroot, hbare⟩ := hs.placed place.1 hplaced
  refine ⟨hroot, hbare, fun id hid => hs.lowered place.1 id ?_⟩
  simp only [Outline.held, List.mem_append] at hplace ⊢
  rcases hplace with (hplace | hplace) | hplace
  · rw [Places.filled_of_mem hs.distinct.types hplace]
    exact .inl (.inl hid)
  · rw [Places.filled_of_mem hs.distinct.constants hplace]
    exact .inl (.inr hid)
  · rw [Places.filled_of_mem hs.distinct.functions hplace]
    exact .inr hid

theorem Waiting.synthesized (hs : Waiting c c.unit.roots s) {d : Declaration}
    (hd : d ∈ s.outline.declared) : d.synthesized = false := by
  rw [hs.declared] at hd
  obtain ⟨root, -, hroot⟩ := List.mem_flatMap.mp hd
  exact synthesized_declarationsOf hroot

end

/-- The entry function of a lowered unit. A unit that declares its entry has no bare statements.
An entry is synthesized when the unit declares none, and has bare statements or is an executable
that is to have one. It is the last function, and its body is what the bare statements are emitted
as after the phases before. All else that comes out stands in the place of a declaration of the
unit, and is what that declaration has been lowered to. -/
theorem entry_function {c : Context} {types : TypeTable} {out : LoweredUnit}
    (h : lowerUnitWith c.unit c.sources ⟨types, c.env⟩ c.settings c.registry = .ok out) :
    (c.unit.roots.any (isEntryFunction c) → c.unit.roots.filter (isBare c) = []) ∧
      ((∃ d ∈ out.declarations, d.synthesized) ↔ MakesEntry c) ∧
      ∃ (others functions : Places NodeId HostId) (entry : Option HostId),
        (∀ place ∈ others ++ functions, PlaceLowered c (.final c types) place) ∧
        out.file.typeDecls ++ out.file.valueDecls = others.values ∧
        out.file.functionDecls = functions.values ++ entry.toList ∧
        (entry.isSome ↔ MakesEntry c) ∧
        ∀ id ∈ entry, IsEntryOf (walkWithin (depthBound c.unit)) c (.beforeEntry c types)
          (c.unit.roots.filter (isBare c)) out.file.tree id := by
  obtain ⟨hs, hending⟩ := ending_final h
  obtain ⟨-, rfl⟩ := lowerUnitWith_ok.mp h
  obtain ⟨hothers, hfunctions, htree⟩ := outputs_ofState c (.final c types)
  refine ⟨fun hentry => by simpa using hs.either hentry, ?_⟩
  simp only [mem_declarations_ofState, hothers, hfunctions, htree]
  cases hending with
  | leftOut wants final =>
    rw [final]
    refine ⟨iff_of_false ?_ wants, _, _, _, fun _ => hs.placeLowered, rfl, rfl, ?_, ?_⟩
    · rintro ⟨d, hd, hsynthesized⟩
      rw [hs.synthesized hd] at hsynthesized
      cases hsynthesized
    · simp [hs.entry, wants]
    · simp [hs.entry]
  | made s₁ origin id wants filled final entry =>
    have hs₁ := hs.filled filled
    rw [final]
    have hlater : Later s₁
        { s₁ with outline := s₁.outline.setEntry (entryDeclaration c origin) id } :=
      .of_globals_eq (.refl _) (.refl _) rfl
    refine ⟨iff_of_true ⟨entryDeclaration c origin, ?_, rfl⟩ wants, _, _, _,
      fun _ hplace => (hs₁.placeLowered hplace).mono hlater, rfl, rfl, iff_of_true rfl wants, ?_⟩
    · exact List.mem_append_right _ List.mem_cons_self
    · rintro _ ⟨⟩
      exact entry

/-- `x = 2`, `var x int` and `x++`, in this order. -/
def entrySample : Context :=
  .sample
    [.expr (.identifier "x"), .expr (.literal .int "2"), .stmt (.assign [⟨0⟩] .plain [⟨1⟩]),
      .type (.named none "int"), .stmt (.varDecl ⟨["x"], some ⟨3⟩, [], none⟩),
      .stmt (.incDec ⟨0⟩ true)]
    [⟨2⟩, ⟨4⟩, ⟨5⟩]

/-- The statements before and after the declaration make up the entry function. -/
theorem entry_function_sample : ∃ out,
    lowerUnitWith entrySample.unit entrySample.sources ⟨.initial, entrySample.env⟩
      entrySample.settings entrySample.registry = .ok out ∧
    entrySample.unit.roots.filter (isBare entrySample) = [⟨2⟩, ⟨5⟩] ∧ MakesEntry entrySample ∧
    (entrySample.unit.roots.any (isEntryFunction entrySample) →
      entrySample.unit.roots.filter (isBare entrySample) = []) ∧
    ((∃ d ∈ out.declarations, d.synthesized) ↔ MakesEntry entrySample) ∧
    ∃ (others functions : Places NodeId HostId) (entry : Option HostId),
      (∀ place ∈ others ++ functions,
        PlaceLowered entrySample (.final entrySample .initial) place) ∧
      out.file.typeDecls ++ out.file.valueDecls = others.values ∧
      out.file.functionDecls = functions.values ++ entry.toList ∧
      (entry.isSome ↔ MakesEntry entrySample) ∧
      ∀ id ∈ entry, IsEntryOf (walkWithin (depthBound entrySample.unit)) entrySample
        (.beforeEntry entrySample .initial)
        (entrySample.unit.roots.filter (isBare entrySample)) out.file.tree id :=
  have h := lowerUnitWith_ok.mpr ⟨by decide +kernel, rfl⟩
  ⟨_, h, by decide +kernel, ⟨by decide +kernel, .inl (by decide +kernel)⟩, entry_function h⟩

end Lowering

end GoLowering
