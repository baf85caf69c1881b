import Mathlib.Data.List.Forall2
import GoLowering.Proofs.FrameDeclarations
import GoLowering.Proofs.OutlineOrder

/-!
# What the walk puts out

A walk that leaves no report changes the outline in one way only: it fills the places of
declarations of values that it has been the first to need, each once (`Filled`). What it fills in
declares the names of the declaration, less those of constants without a type whose value is an
untyped number of unbounded size (`Emits`).
-/

namespace GoLowering

/-- Whether a type is that of an untyped number of unbounded size. -/
def TypeTable.isBig (types : TypeTable) (type : TypeId) : Bool :=
  match types.get type with
  | .basic kind => kind.isUntypedBig
  | _ => false

/-- The names that some nodes declare at the top level. -/
def HostTree.names (tree : HostTree) (ids : List HostId) : List String :=
  ids.flatMap (fun id => HostFile.namesOf (tree.kind id))

theorem HostTree.Grows.names_eq {t u : HostTree} (h : t.Grows u) {ids : List HostId}
    (hids : ∀ id ∈ ids, id.index < t.size) : u.names ids = t.names ids :=
  List.flatMap_congr (fun id hid => by rw [h.kind_eq (hids id hid)])

namespace Lowering

open Surface

/-! ## Names and their declarations -/

/-- A declaration without the type that may have been found for it. -/
def Global.untyped : Global → Global
  | .type root _ => .type root none
  | .func root _ => .func root none
  | .value root => .value root

/-- What a name is declared as, if it is. -/
def State.declared? (s : State) (name : String) : Option Global :=
  (s.globals.lookup name).map Global.untyped

/-- The second state comes after the first one, and names are declared in it as they were. -/
structure Later (s s' : State) : Prop where
  tree : s.tree.Grows s'.tree
  types : s.types.Grows s'.types
  declared : ∀ name, s'.declared? name = s.declared? name

theorem Later.trans {s₁ s₂ s₃ : State} (h₁ : Later s₁ s₂) (h₂ : Later s₂ s₃) : Later s₁ s₃ :=
  ⟨h₁.tree.trans h₂.tree, h₁.types.trans h₂.types,
    fun name => (h₂.declared name).trans (h₁.declared name)⟩

theorem lookup_set {κ α : Type} [DecidableEq κ] (entries : Keyed κ α) (key other : κ) (value : α) :
    (Keyed.set entries key value).lookup other =
      if other = key then some value else entries.lookup other := by
  by_cases h : other = key
  · subst h
    rw [if_pos rfl, Keyed.lookup_set_self]
  · rw [if_neg h, Keyed.lookup_set_of_ne h]

/-- No name is declared otherwise than before. -/
theorem Later.of_globals_eq {s s' : State} (ht : s.tree.Grows s'.tree)
    (hty : s.types.Grows s'.types) (h : s'.globals = s.globals) : Later s s' :=
  ⟨ht, hty, fun name => by simp only [State.declared?, h]⟩

/-- The type of what a name stands for is noted. -/
theorem Later.setGlobal {s : State} {name : String} {global : Global}
    (found : s.declared? name = some global.untyped) :
    Later s { s with globals := s.globals.set name global } := by
  refine ⟨.refl _, .refl _, fun other => ?_⟩
  by_cases h : other = name
  · subst h
    rw [found]
    simp [State.declared?]
  · simp only [State.declared?, lookup_set, if_neg h]

/-! ## What is put out for a declaration of values -/

/-- The value of a constant has been lowered on the way to a state. It has a spelling unless it
is an untyped number of unbounded size. -/
def Spelling (c : Context) (s : State) (value : NodeId) (spelled : Bool) : Prop :=
  ∃ depth s₁ operand s₂, (walkWithin depth).expr value .none c s₁ = (.ok operand, s₂) ∧
    Later s₁ s₂ ∧ Later s₂ s ∧ spelled = !s₂.types.isBig operand.type

/-- Which constants of a declaration have a spelling; all of them when it has a type. -/
def SpecSpelling (c : Context) (s : State) (spec : ValueSpec) (spelled : List Bool) : Prop :=
  spec.values.length = spec.names.length ∧
    match spec.type with
    | some _ => spelled = List.replicate spec.values.length true
    | none => List.Forall₂ (Spelling c s) spec.values spelled

/-- The names that come with a spelling. -/
def spelledNames (names : List String) (spelled : List Bool) : List String :=
  (names.zip spelled).filterMap (fun (name, spelled) => if spelled then some name else none)

/-- A declaration of values has been lowered to a node on the way to a state. -/
def ValuesLowered (c : Context) (root : NodeId) (s : State) (id : HostId) : Prop :=
  ∃ spec isConstant depth s₁ decl s₂,
    c.unit.stmt? root = some (if isConstant then .constDecl spec else .varDecl spec) ∧
    lowerValueSpec (walkWithin depth) spec isConstant (c.unit.span root) c s₁ = (.ok decl, s₂) ∧
    decl.node = some id ∧ Later s₂ s

/-- Some nodes are what a declaration of values is put out as. -/
def Emits (c : Context) (root : NodeId) (s : State) (nodes : List HostId) : Prop :=
  (∀ id ∈ nodes, id.index < s.tree.size ∧ ValuesLowered c root s id) ∧
    match c.unit.stmt? root with
    | some (.varDecl spec) => s.tree.names nodes = spec.names
    | some (.constDecl spec) =>
      ∃ spelled, SpecSpelling c s spec spelled ∧
        s.tree.names nodes = spelledNames spec.names spelled
    | _ => nodes = []

theorem Spelling.mono {c : Context} {s s' : State} {value : NodeId} {spelled : Bool}
    (h : Spelling c s value spelled) (hs : Later s s') : Spelling c s' value spelled := by
  obtain ⟨depth, s₁, operand, s₂, hrun, h₁, h₂, he⟩ := h
  exact ⟨depth, s₁, operand, s₂, hrun, h₁, h₂.trans hs, he⟩

theorem SpecSpelling.mono {c : Context} {s s' : State} {spec : ValueSpec} {spelled : List Bool}
    (h : SpecSpelling c s spec spelled) (hs : Later s s') : SpecSpelling c s' spec spelled := by
  obtain ⟨hlength, hspelled⟩ := h
  refine ⟨hlength, ?_⟩
  revert hspelled
  cases spec.type with
  | some _ => exact id
  | none => exact fun hspelled => hspelled.imp (fun _ _ hvalue => hvalue.mono hs)

theorem ValuesLowered.mono {c : Context} {root : NodeId} {s s' : State} {id : HostId}
    (h : ValuesLowered c root s id) (hs : Later s s') : ValuesLowered c root s' id := by
  obtain ⟨spec, isConstant, depth, s₁, decl, s₂, hstmt, hrun, hnode, hlater⟩ := h
  exact ⟨spec, isConstant, depth, s₁, decl, s₂, hstmt, hrun, hnode, hlater.trans hs⟩

theorem Emits.mono {c : Context} {root : NodeId} {s s' : State} {nodes : List HostId}
    (h : Emits c root s nodes) (hs : Later s s') : Emits c root s' nodes := by
  obtain ⟨hlowered, hnames⟩ := h
  refine ⟨fun id hid => ⟨Nat.lt_of_lt_of_le (hlowered id hid).1 hs.tree.size_le,
    (hlowered id hid).2.mono hs⟩, ?_⟩
  rw [hs.tree.names_eq (fun id hid => (hlowered id hid).1)]
  revert hnames
  split
  · exact id
  · rintro ⟨spelled, hspelled, hnames⟩
    exact ⟨spelled, hspelled.mono hs, hnames⟩
  · exact id

/-! ## What happens to the outline -/

/-- A declaration of values has been left alone, or it has been done and put in its place. -/
def FilledAt (c : Context) (s s' : State) (root : NodeId) : Prop :=
  (s'.progress.lookup root = s.progress.lookup root ∧
      s'.outline.constants.filled root = s.outline.constants.filled root) ∨
    (s.progress.lookup root = none ∧ s'.progress.lookup root = some .done ∧
      ∃ nodes, s'.outline.constants.filled root = s.outline.constants.filled root ++ nodes ∧
        Emits c root s' nodes)

/-- Every name that stands for a value has a place of the output. -/
def State.Reserved (s : State) : Prop :=
  ∀ name root, s.globals.lookup name = some (.value root) → root ∈ s.outline.constants.keys

/-- Between two states, nothing has happened to the outline but that places of declarations of
values have been filled. -/
structure Filled (c : Context) (s s' : State) : Prop extends Later s s' where
  diagnostics : s'.diagnostics = s.diagnostics
  halted : s'.halted = s.halted
  explicitEntry : s'.explicitEntry = s.explicitEntry
  outline : { s'.outline with constants := [] } = { s.outline with constants := [] }
  keys : s.Reserved → s'.outline.constants.keys = s.outline.constants.keys
  filled : ∀ root, FilledAt c s s' root

theorem declared?_value {s : State} {name : String} {root : NodeId} :
    s.declared? name = some (.value root) ↔ s.globals.lookup name = some (.value root) := by
  unfold State.declared?
  cases s.globals.lookup name with
  | none => simp
  | some global => cases global <;> simp [Global.untyped]

theorem FilledAt.trans {c : Context} {s₁ s₂ s₃ : State} {root : NodeId}
    (h₁ : FilledAt c s₁ s₂ root) (h₂ : FilledAt c s₂ s₃ root) (hs : Later s₂ s₃) :
    FilledAt c s₁ s₃ root := by
  rcases h₁ with ⟨hp₁, hf₁⟩ | ⟨hn₁, hd₁, nodes, hf₁, he₁⟩
  · rcases h₂ with ⟨hp₂, hf₂⟩ | ⟨hn₂, hd₂, nodes, hf₂, he₂⟩
    · exact .inl ⟨hp₂.trans hp₁, hf₂.trans hf₁⟩
    · exact .inr ⟨hp₁ ▸ hn₂, hd₂, nodes, by rw [hf₂, hf₁], he₂⟩
  · rcases h₂ with ⟨hp₂, hf₂⟩ | ⟨hn₂, -⟩
    · exact .inr ⟨hn₁, hp₂.trans hd₁, nodes, hf₂.trans hf₁, he₁.mono hs⟩
    · rw [hd₁] at hn₂
      cases hn₂

theorem State.Reserved.filled {c : Context} {s s' : State} (hs : s.Reserved)
    (h : Filled c s s') : s'.Reserved := by
  intro name root hlookup
  rw [h.keys hs]
  exact hs name root (declared?_value.mp ((h.declared name).symm.trans (declared?_value.mpr hlookup)))

namespace Filled

variable {c : Context} {s s₁ s₂ s₃ s' : State}

theorem trans (h₁ : Filled c s₁ s₂) (h₂ : Filled c s₂ s₃) : Filled c s₁ s₃ where
  toLater := h₁.toLater.trans h₂.toLater
  diagnostics := h₂.diagnostics.trans h₁.diagnostics
  halted := h₂.halted.trans h₁.halted
  explicitEntry := h₂.explicitEntry.trans h₁.explicitEntry
  outline := h₂.outline.trans h₁.outline
  keys hs := (h₂.keys (hs.filled h₁)).trans (h₁.keys hs)
  filled root := (h₁.filled root).trans (h₂.filled root) h₂.toLater

/-- Nothing has been put out. -/
theorem of_outline_eq (hlater : Later s s') (ho : s'.outline = s.outline)
    (hp : s'.progress = s.progress) (hd : s'.diagnostics = s.diagnostics)
    (hh : s'.halted = s.halted) (he : s'.explicitEntry = s.explicitEntry) : Filled c s s' where
  toLater := hlater
  diagnostics := hd
  halted := hh
  explicitEntry := he
  outline := by rw [ho]
  keys _ := by rw [ho]
  filled root := .inl ⟨by rw [hp], by rw [ho]⟩

/-- Nothing has happened to the declarations of the unit. -/
theorem of_ledger (ht : s.tree.Grows s'.tree) (hty : s.types.Grows s'.types)
    (h : s'.ledger = s.ledger) : Filled c s s' :=
  of_outline_eq (.of_globals_eq ht hty (congrArg Ledger.globals h)) (congrArg Ledger.outline h)
    (congrArg Ledger.progress h) (congrArg Ledger.diagnostics h) (congrArg Ledger.halted h)
    (congrArg Ledger.explicitEntry h)

theorem refl (s : State) : Filled c s s := of_ledger (.refl _) (.refl _) rfl

theorem of_stays (h : Stays s s') : Filled c s s' := of_ledger h.tree h.types h.ledger

theorem declareType (h : Filled c s s') (named definition : TypeId) (kind : HostKind)
    (origin : Option Span) :
    Filled c s { s' with
      types := s'.types.define named definition, tree := (s'.tree.add kind origin).2 } :=
  h.trans (.of_ledger (HostTree.grows_add _ _ _) (TypeTable.grows_define _ _ _) rfl)

end Filled

/-- What happens between two states when nothing has been reported at the end. -/
def Filling (care : Care) (c : Context) (s s' : State) : Prop :=
  match care with
  | .still => Stays s s'
  | _ => s'.diagnostics = [] → Filled c s s'

theorem trans_filling {c : Context} {s₁ s₂ s₃ : State}
    (h₁ : s₂.diagnostics = [] → Filled c s₁ s₂) (h₂ : s₃.diagnostics = [] → Filled c s₂ s₃)
    (h : s₃.diagnostics = []) : Filled c s₁ s₃ :=
  (h₁ ((h₂ h).diagnostics.symm.trans h)).trans (h₂ h)

/-- Two states are alike but for what is borrowed. -/
structure SameWork (s s' : State) : Prop where
  tree : s'.tree = s.tree
  types : s'.types = s.types
  ledger : s'.ledger = s.ledger

theorem SameWork.filled {c : Context} {s s' : State} (h : SameWork s s') : Filled c s s' :=
  .of_ledger (h.tree ▸ .refl _) (h.types ▸ .refl _) h.ledger

/-- Nothing that is borrowed plays a part in what is filled. -/
theorem Filled.within {c : Context} {s s₁ s₂ s' : State} (h : Filled c s₁ s₂)
    (h₁ : SameWork s s₁) (h₂ : SameWork s₂ s') : Filled c s s' :=
  (h₁.filled.trans h).trans h₂.filled

instance : Frame Filling where
  refl
    | .still, _, s => refl_of Stays s
    | .quiet, _, s | .additive, _, s | .steady, _, s => fun _ => .refl s
  trans {care} _ _ _ _ h₁ h₂ := by
    cases care with
    | still => exact trans_of Stays h₁ h₂
    | quiet | additive | steady => exact trans_filling h₁ h₂
  still h := h.toStays
  quiet h := fun _ => .of_stays h
  additive h := h
  steady h := h
  inScope {care} _ s s' kind h := by
    cases care with
    | still =>
      have hs : GivesBack .still default { s with scopes := s.scopes.push kind } s' := h
      have hback : GivesBack .still default s
          { s' with scopes := s'.scopes.setCurrent s.scopes.current } := Frame.inScope kind hs
      exact hback
    | quiet | additive | steady => exact fun hd => (h hd).within ⟨rfl, rfl, rfl⟩ ⟨rfl, rfl, rfl⟩
  inFunction _ _ h := fun hd => (h hd).within ⟨rfl, rfl, rfl⟩ ⟨rfl, rfl, rfl⟩
  inFrame _ h := fun hd => (h hd).within ⟨rfl, rfl, rfl⟩ ⟨rfl, rfl, rfl⟩
  atPackageLevel h := fun hd => (h hd).within ⟨rfl, rfl, rfl⟩ ⟨rfl, rfl, rfl⟩
  hoisting h := fun hd => (h hd).within ⟨rfl, rfl, rfl⟩ ⟨rfl, rfl, rfl⟩
  takeHoisted _ _ := fun _ => .of_ledger (.refl _) (.refl _) rfl
  hoist h _ _ := fun _ => (Filled.of_stays h).within ⟨rfl, rfl, rfl⟩ ⟨rfl, rfl, rfl⟩
  declareType _ h := fun hd => (h hd).declareType _ _ _ _
  noteLiteral _ _ _ _ := fun _ => .of_ledger (.refl _) (.refl _) rfl
  needAlias _ _ _ _ _ := fun _ => .of_ledger (.refl _) (.refl _) rfl
  openAlias _ h := fun hd => (h hd).within ⟨rfl, rfl, rfl⟩ ⟨rfl, rfl, rfl⟩
  setAlias {c s s' name root before} type found h := fun hd => by
    have hs := h hd
    have hname : s'.declared? name = some (.type root none) := by
      rw [hs.declared, State.declared?, found]
      rfl
    exact hs.trans (.of_outline_eq (.setGlobal hname) rfl rfl rfl rfl rfl)

instance : Redefines Filling where
  define _ _ _ _ := fun _ => .of_ledger (.refl _) (TypeTable.grows_define _ _ _) rfl

/-! ## Declarations of values -/

/-- What a run of the walk leaves in the places of declarations of values. -/
abbrev filling : Regime := .ofFrame Filling

section

variable {α β : Type} {c : Context} {s s' : State} {depth : Nat}

theorem filled_of_ok {m : Lower α} [h : Additive filling m] {a : α}
    (hrun : m c s = (.ok a, s')) (hd : s'.diagnostics = []) : Filled c s s' := by
  have hs := Keeps.run h c s
  rw [hrun] at hs
  exact hs hd

theorem mapM_ok {f : α → Lower β} [∀ a, Additive filling (f a)] {xs : List α} {ys : List β}
    (h : xs.mapM f c s = (.ok ys, s')) (hd : s'.diagnostics = []) :
    List.Forall₂ (fun x y => ∃ s₁ s₂, f x c s₁ = (.ok y, s₂) ∧ Filled c s₂ s') xs ys := by
  induction xs generalizing s s' ys with
  | nil =>
    obtain ⟨rfl, -⟩ := pure_ok.mp h
    exact .nil
  | cons x xs ih =>
    rw [List.mapM_cons] at h
    obtain ⟨y, s₁, hx, h⟩ := bind_ok.mp h
    obtain ⟨ys', s₂, hxs, h⟩ := bind_ok.mp h
    obtain ⟨rfl, rfl⟩ := pure_ok.mp h
    exact .cons ⟨s, s₁, hx, filled_of_ok hxs hd⟩ (ih hxs hd)

theorem optionMapM_ok {f : NodeId → Lower α} {a : Option NodeId} {b : Option α}
    (h : a.mapM f c s = (.ok b, s')) : b.isSome = a.isSome := by
  cases a with
  | none =>
    obtain ⟨rfl, -⟩ := pure_ok.mp h
    rfl
  | some a =>
    change (some <$> f a) c s = _ at h
    rw [map_eq_pure_bind] at h
    obtain ⟨x, s₁, -, h⟩ := bind_ok.mp h
    obtain ⟨rfl, -⟩ := pure_ok.mp h
    rfl

theorem place_ok {kind : HostKind} {span : Span} {id : HostId}
    (h : place kind span c s = (.ok id, s')) :
    id.index < s'.tree.size ∧ s'.tree.kind id = kind := by
  refine ⟨(made_place h).2, ?_⟩
  obtain ⟨hid, hs⟩ := Prod.mk.inj h
  rw [← Except.ok.inj hid, ← hs]
  simp only [HostTree.kind, HostTree.get?, Array.getElem?_push_size]

theorem run_isUntypedBig (type : TypeId) :
    isUntypedBig type c s = (.ok (s.types.isBig type), s) := by
  change (match s.types.get type with
    | .basic kind => return kind.isUntypedBig
    | _ => return false : Lower Bool) c s = _
  unfold TypeTable.isBig
  cases s.types.get type <;> rfl

theorem placeDecl_ok {kind : HostKind} {span : Span} {symbols : List (String × Symbol)}
    {decl : ValueDecl}
    (h : (do
      let node ← place kind span
      return (⟨some node, symbols⟩ : ValueDecl)) c s = (.ok decl, s')) :
    ∃ node, decl.node = some node ∧ node.index < s'.tree.size ∧ s'.tree.kind node = kind := by
  obtain ⟨node, s₁, hnode, h⟩ := bind_ok.mp h
  obtain ⟨rfl, rfl⟩ := pure_ok.mp h
  exact ⟨node, rfl, place_ok hnode⟩

theorem lowerVariables_ok {walk : Walk} {spec : ValueSpec} {type : Option TypeId} {span : Span}
    {decl : ValueDecl} (h : lowerVariables walk spec type span c s = (.ok decl, s')) :
    ∃ node, decl.node = some node ∧ node.index < s'.tree.size ∧
      s'.tree.names [node] = spec.names := by
  have hplace : ∃ values symbols s₁, (do
      let node ← place (.varDecl ⟨spec.names, type, values, spec.doc⟩) span
      return (⟨some node, symbols⟩ : ValueDecl)) c s₁ = (.ok decl, s') := by
    unfold lowerVariables at h
    revert h
    cases spec.values with
    | nil =>
      cases type with
      | none =>
        intro h
        cases h
      | some type => exact fun h => ⟨_, _, _, h⟩
    | cons value values =>
      intro h
      obtain ⟨⟨values, types⟩, s₁, -, h⟩ := bind_ok.mp h
      exact ⟨_, _, _, h⟩
  obtain ⟨values, symbols, s₁, h⟩ := hplace
  obtain ⟨node, hnode, hin, hkind⟩ := placeDecl_ok h
  exact ⟨node, hnode, hin, by simp [HostTree.names, hkind, HostFile.namesOf]⟩

variable [(walkWithin depth).Keeps filling]

/-- A constant is emitted unless it has no type and its value is an untyped number of unbounded
size. -/
theorem lowerConstant_ok {type : Option TypeId} {value : NodeId}
    {found : Option HostId × Symbol}
    (h : lowerConstant (walkWithin depth) type value c s = (.ok found, s'))
    (hd : s'.diagnostics = []) :
    match type with
    | some _ => found.1.isSome
    | none => Spelling c s' value found.1.isSome := by
  unfold lowerConstant at h
  obtain ⟨operand, s₁, hvalue, h⟩ := bind_ok.mp h
  revert h
  cases operand.constant with
  | none =>
    intro h
    obtain ⟨_, _, -, h⟩ := bind_ok.mp h
    cases h
  | some constant =>
    cases type with
    | some type =>
      intro h
      obtain ⟨id, s₂, -, h⟩ := bind_ok.mp h
      obtain ⟨rfl, -⟩ := pure_ok.mp h
      rfl
    | none =>
      intro h
      obtain ⟨big, s₂, hbig, h⟩ := bind_ok.mp h
      rw [run_isUntypedBig] at hbig
      obtain ⟨hb, rfl⟩ := Prod.mk.inj hbig
      obtain rfl := Except.ok.inj hb
      obtain ⟨rfl, rfl⟩ := pure_ok.mp h
      refine ⟨depth, s, operand, s₁, hvalue, (filled_of_ok hvalue hd).toLater,
        (Filled.refl s₁ (c := c)).toLater, ?_⟩
      cases s₁.types.isBig operand.type <;> rfl

theorem emitted_names (names : List String) (constants : List (Option HostId × Symbol)) :
    ((names.zip constants).filterMap (fun (name, id, _) => id.map (name, ·))).map Prod.fst =
      spelledNames names (constants.map (·.1.isSome)) := by
  induction names generalizing constants with
  | nil => rfl
  | cons name names ih =>
    cases constants with
    | nil => rfl
    | cons constant constants =>
      obtain ⟨id, symbol⟩ := constant
      have := ih constants
      unfold spelledNames at this ⊢
      cases id <;> simpa using this

theorem map_isSome_eq_replicate {values : List NodeId}
    {constants : List (Option HostId × Symbol)}
    (h : List.Forall₂ (fun _ found => found.1.isSome) values constants) :
    constants.map (·.1.isSome) = List.replicate values.length true := by
  induction h with
  | nil => rfl
  | cons hsome _ ih => simp [hsome, ih, List.replicate_succ]

theorem lowerConstants_ok {spec : ValueSpec} {type : Option TypeId} {span : Span}
    {decl : ValueDecl} (htype : type.isSome = spec.type.isSome)
    (h : lowerConstants (walkWithin depth) spec type span c s = (.ok decl, s'))
    (hd : s'.diagnostics = []) :
    ∃ spelled, SpecSpelling c s' spec spelled ∧
      (∀ id ∈ decl.node.toList, id.index < s'.tree.size) ∧
      s'.tree.names decl.node.toList = spelledNames spec.names spelled := by
  unfold lowerConstants at h
  by_cases hlength : spec.values.length = spec.names.length
  · rw [if_neg (by simpa using hlength)] at h
    obtain ⟨constants, s₁, hconstants, h⟩ := bind_ok.mp h
    have hs : Filled c s₁ s' := filled_of_ok h hd
    have hd₁ : s₁.diagnostics = [] := hs.diagnostics.symm.trans hd
    have hall := mapM_ok hconstants hd₁
    refine ⟨constants.map (·.1.isSome), ⟨hlength, ?_⟩, ?_⟩
    · cases htype' : spec.type with
      | none =>
        have hnone : type = none := by simpa [htype'] using htype
        subst hnone
        refine List.forall₂_map_right_iff.mpr (hall.imp (fun value found hrun => ?_))
        obtain ⟨s₂, s₃, hrun, hs₃⟩ := hrun
        have hspelled := lowerConstant_ok hrun (hs₃.diagnostics.symm.trans hd₁)
        exact hspelled.mono (hs₃.trans hs).toLater
      | some _ =>
        obtain ⟨type, rfl⟩ : ∃ t, type = some t := by
          simpa [htype', Option.isSome_iff_exists] using htype
        refine map_isSome_eq_replicate (hall.imp (fun value found hrun => ?_))
        obtain ⟨s₂, s₃, hrun, hs₃⟩ := hrun
        exact lowerConstant_ok hrun (hs₃.diagnostics.symm.trans hd₁)
    · rw [← emitted_names]
      dsimp only at h
      split at h
      · rename_i hempty
        obtain ⟨rfl, rfl⟩ := pure_ok.mp h
        simp [List.isEmpty_iff.mp hempty, HostTree.names]
      · rw [List.unzip_eq_map] at h
        obtain ⟨node, hnode, hin, hkind⟩ := placeDecl_ok h
        simp [hnode, hin, HostTree.names, hkind, HostFile.namesOf]
  · rw [if_pos (by simpa using hlength)] at h
    cases h

/-- What a declaration of values of the package is put out as. -/
theorem lowerValueSpec_emits {root : NodeId} {spec : ValueSpec} {isConstant : Bool}
    {decl : ValueDecl}
    (hroot : c.unit.stmt? root = some (if isConstant then .constDecl spec else .varDecl spec))
    (h : lowerValueSpec (walkWithin depth) spec isConstant (c.unit.span root) c s =
      (.ok decl, s')) (hd : s'.diagnostics = []) : Emits c root s' decl.node.toList := by
  have hlowered (id : HostId) (hid : id ∈ decl.node.toList) : ValuesLowered c root s' id :=
    ⟨spec, isConstant, depth, s, decl, s', hroot, h, Option.mem_toList.mp hid,
      .of_globals_eq (.refl _) (.refl _) rfl⟩
  unfold lowerValueSpec at h
  obtain ⟨type, s₁, htype, h⟩ := bind_ok.mp h
  have htype := optionMapM_ok htype
  cases isConstant with
  | true =>
    obtain ⟨spelled, hspelled, hin, hnames⟩ := lowerConstants_ok htype h hd
    exact ⟨fun id hid => ⟨hin id hid, hlowered id hid⟩,
      by rw [hroot]; exact ⟨spelled, hspelled, hnames⟩⟩
  | false =>
    obtain ⟨node, hnode, hin, hnames⟩ := lowerVariables_ok h
    refine ⟨fun id hid => ⟨?_, hlowered id hid⟩, ?_⟩
    · rw [hnode] at hid
      exact List.mem_singleton.mp hid ▸ hin
    · rw [hroot, hnode]
      exact hnames

/-- The state with more in the place of a declaration of values. -/
def State.fillValue (s : State) (root : NodeId) (nodes : List HostId) : State :=
  { s with outline := { s.outline with constants := s.outline.constants.fill root nodes } }

theorem lowerGlobalSpec_ok {root : NodeId} {spec : ValueSpec} (isConstant : Bool)
    (hroot : c.unit.stmt? root = some (if isConstant then .constDecl spec else .varDecl spec))
    (h : lowerGlobalSpec (walkWithin depth) root spec (if isConstant then .const else .var) c s =
      (.ok (), s')) (hd : s'.diagnostics = []) :
    ∃ s₁ nodes, Filled c s s₁ ∧ Emits c root s₁ nodes ∧
      (s' = s₁ ∧ nodes = [] ∨ s' = s₁.fillValue root nodes) := by
  unfold lowerGlobalSpec at h
  obtain ⟨span, s₁, hspan, h⟩ := bind_ok.mp h
  obtain ⟨hc, rfl⟩ := Prod.mk.inj hspan
  obtain rfl := Except.ok.inj hc
  obtain ⟨decl, s₂, hdecl, h⟩ := bind_ok.mp h
  have hconst : ((if isConstant then DeclKind.const else .var) == .const) = isConstant := by
    cases isConstant <;> rfl
  rw [hconst] at hdecl
  obtain ⟨_, s₃, hbind, h⟩ := bind_ok.mp h
  have hstill : Still filling (decl.symbols.forM (fun entry => bind entry.1 entry.2)) :=
    inferInstance
  have hstays : Stays s₂ s₃ := by
    have hrun : Stays s₂ (decl.symbols.forM (fun entry => bind entry.1 entry.2) c s₂).2 :=
      Keeps.run hstill c s₂
    rwa [show decl.symbols.forM (fun entry => bind entry.1 entry.2) c s₂ = (.ok (), s₃) from hbind]
      at hrun
  have hdone (hd : s₃.diagnostics = []) : Filled c s s₃ ∧ Emits c root s₃ decl.node.toList := by
    have hd₂ : s₂.diagnostics = [] :=
      (congrArg Ledger.diagnostics hstays.ledger).symm.trans hd
    have hbound : Filled c s₂ s₃ := .of_stays hstays
    exact ⟨(filled_of_ok hdecl hd₂).trans hbound,
      (lowerValueSpec_emits hroot hdecl hd₂).mono hbound.toLater⟩
  refine ⟨s₃, decl.node.toList, ?_⟩
  cases hnode : decl.node with
  | none =>
    rw [hnode] at h hdone
    obtain ⟨-, rfl⟩ := pure_ok.mp h
    exact ⟨(hdone hd).1, (hdone hd).2, .inl ⟨rfl, rfl⟩⟩
  | some node =>
    rw [hnode] at h hdone
    obtain ⟨-, rfl⟩ := Prod.mk.inj h
    refine ⟨(hdone hd).1, (hdone hd).2, .inr ?_⟩
    cases isConstant <;> rfl

theorem lowerGlobalValue_ok {root : NodeId}
    (h : lowerGlobalValue (walkWithin depth) root c s = (.ok (), s')) (hd : s'.diagnostics = []) :
    ∃ s₁ nodes, Filled c s s₁ ∧ Emits c root s₁ nodes ∧
      (s' = s₁ ∧ nodes = [] ∨ s' = s₁.fillValue root nodes) := by
  unfold lowerGlobalValue at h
  obtain ⟨_, _, hget, h⟩ := bind_ok.mp h
  obtain ⟨hs, rfl⟩ := Prod.mk.inj hget
  obtain rfl := Except.ok.inj hs
  obtain ⟨_, s₀, hnote, h⟩ := bind_ok.mp h
  have hnoted : Filled c s s₀ := by
    obtain ⟨-, rfl⟩ := Prod.mk.inj hnote
    exact .of_ledger (.refl _) (.refl _) rfl
  obtain ⟨_, _, hread, h⟩ := bind_ok.mp h
  obtain ⟨hc, rfl⟩ := Prod.mk.inj hread
  obtain rfl := Except.ok.inj hc
  suffices hrest : ∃ s₁ nodes, Filled c s₀ s₁ ∧ Emits c root s₁ nodes ∧
      (s' = s₁ ∧ nodes = [] ∨ s' = s₁.fillValue root nodes) by
    obtain ⟨s₁, nodes, hs₁, hrest⟩ := hrest
    exact ⟨s₁, nodes, hnoted.trans hs₁, hrest⟩
  revert h
  cases hroot : c.unit.stmt? root with
  | none =>
    intro h
    obtain ⟨-, rfl⟩ := pure_ok.mp h
    exact ⟨s₀, [], .refl s₀, ⟨by simp, by rw [hroot]⟩, .inl ⟨rfl, rfl⟩⟩
  | some statement =>
    cases statement with
    | varDecl spec => exact fun h => lowerGlobalSpec_ok false hroot h hd
    | constDecl spec => exact fun h => lowerGlobalSpec_ok true hroot h hd
    | _ =>
      intro h
      obtain ⟨-, rfl⟩ := pure_ok.mp h
      exact ⟨s₀, [], .refl s₀, ⟨by simp, by rw [hroot]⟩, .inl ⟨rfl, rfl⟩⟩

/-- A declaration of values that is lowered for the first time. -/
theorem filled_of_value {root : NodeId} {s₁ : State} {nodes : List HostId}
    (hnone : s.progress.lookup root = none)
    (place : s.Reserved → root ∈ s.outline.constants.keys)
    (h : Filled c { s with progress := s.progress.set root .started } s₁)
    (hemits : Emits c root s₁ nodes) (ht : s'.tree = s₁.tree) (hty : s'.types = s₁.types)
    (hl : s'.ledger = { s₁.ledger with
      outline := { s₁.outline with constants := s'.outline.constants }
      progress := s₁.progress.set root .done })
    (hplaces : s'.outline.constants = s₁.outline.constants ∧ nodes = [] ∨
      s'.outline.constants = s₁.outline.constants.fill root nodes) : Filled c s s' := by
  have hkeys (hs : s.Reserved) : s₁.outline.constants.keys = s.outline.constants.keys := h.keys hs
  have hglobals : s'.globals = s₁.globals := congrArg Ledger.globals hl
  have hprogress : s'.progress = s₁.progress.set root .done := congrArg Ledger.progress hl
  have houtline := congrArg Ledger.outline hl
  have hlater : Later s₁ s' := .of_globals_eq (ht ▸ .refl _) (hty ▸ .refl _) hglobals
  have hbegun : Later s s₁ := ⟨h.tree, h.types, h.declared⟩
  have hfilled : s'.outline.constants.filled root = s₁.outline.constants.filled root ++ nodes := by
    rcases hplaces with ⟨he, rfl⟩ | he
    · rw [he, List.append_nil]
    · rw [he, Places.filled_fill_self]
  have hother {other : NodeId} (hne : other ≠ root) :
      s'.outline.constants.filled other = s₁.outline.constants.filled other := by
    rcases hplaces with ⟨he, -⟩ | he
    · rw [he]
    · rw [he, Places.filled_fill_of_ne _ _ hne]
  exact
    { toLater := hbegun.trans hlater
      diagnostics := (congrArg Ledger.diagnostics hl).trans h.diagnostics
      halted := (congrArg Ledger.halted hl).trans h.halted
      explicitEntry := (congrArg Ledger.explicitEntry hl).trans h.explicitEntry
      outline := by
        have : s'.outline = { s₁.outline with constants := s'.outline.constants } := houtline
        rw [this]
        exact h.outline
      keys := fun hs => by
        rcases hplaces with ⟨he, -⟩ | he
        · rw [he, hkeys hs]
        · rw [he, Places.keys_fill_of_mem, hkeys hs]
          rw [hkeys hs]
          exact place hs
      filled := fun other => by
        by_cases hne : other = root
        · subst hne
          refine .inr ⟨hnone, by rw [hprogress, Keyed.lookup_set_self], nodes, ?_, hemits.mono hlater⟩
          rcases h.filled other with ⟨-, hsame⟩ | ⟨hn, -⟩
          · rw [hfilled, hsame]
          · simp only [Keyed.lookup_set_self] at hn
            cases hn
        · have hstarted : (s.progress.set root .started).lookup other = s.progress.lookup other :=
            Keyed.lookup_set_of_ne hne
          have hdone : s'.progress.lookup other = s₁.progress.lookup other := by
            rw [hprogress]
            exact Keyed.lookup_set_of_ne hne
          rcases h.filled other with ⟨hp, hf⟩ | ⟨hn, hd, more, hf, he⟩
          · exact .inl ⟨by rw [hdone, hp, hstarted], by rw [hother hne, hf]⟩
          · exact .inr ⟨hstarted ▸ hn, hdone.trans hd, more, by rw [hother hne, hf], he.mono hlater⟩ }

theorem atPackageLevel_ok {part : Lower α} {a : α}
    (h : atPackageLevel part c s = (.ok a, s')) :
    ∃ s₁ s₂, part c s₁ = (.ok a, s₂) ∧ SameWork s s₁ ∧ SameWork s₂ s' := by
  unfold atPackageLevel at h
  obtain ⟨_, _, hread, h⟩ := bind_ok.mp h
  obtain ⟨-, rfl⟩ := Prod.mk.inj hread
  obtain ⟨s₂, hpart, rfl⟩ := within_ok.mp h
  exact ⟨_, s₂, hpart, ⟨rfl, rfl, rfl⟩, rfl, rfl, rfl⟩

theorem ensureValue_filling {root : NodeId} {name : String} {span : Span}
    (place : s.Reserved → root ∈ s.outline.constants.keys) :
    Leads (Filling .additive c) c s (ensureValue (walkWithin depth) root name span) := by
  unfold Leads
  cases hfound : s.progress.lookup root with
  | some progress =>
    have hsame : Filled c s (s.noting (.valueNeeded root name span (some progress))) :=
      .of_ledger (.refl _) (.refl _) rfl
    by_cases hp : progress = .started
    · subst hp
      rw [run_ensureValue_started hfound]
      exact fun _ => hsame
    · rw [run_ensureValue_ended hfound hp]
      exact fun _ => hsame
  | none =>
    rw [run_ensureValue_new hfound]
    rcases hr : atPackageLevel (lowerGlobalValue (walkWithin depth) root) c
      (s.starting root name span) with ⟨r, s₁⟩
    intro hd
    cases r with
    | error failure =>
      change s₁.diagnostics ++ [failure.report] = [] at hd
      simp at hd
    | ok _ =>
      obtain ⟨s₂, s₃, hpart, hs₂, ht₁, hty₁, hl₁⟩ := atPackageLevel_ok hr
      have hd₃ : s₃.diagnostics = [] := (congrArg Ledger.diagnostics hl₁).symm.trans hd
      obtain ⟨s₄, nodes, hfilled, hemits, hs₃⟩ := lowerGlobalValue_ok hpart hd₃
      have hs₄ : Filled c { s with progress := s.progress.set root .started } s₄ :=
        hfilled.within ⟨hs₂.tree, hs₂.types, hs₂.ledger⟩ ⟨rfl, rfl, rfl⟩
      change Filled c s (s₁.moving root .done)
      have hledger : (s₁.moving root .done).ledger =
          { s₃.ledger with progress := s₃.progress.set root .done } := by
        rw [← hl₁, ← show s₁.progress = s₃.progress from congrArg Ledger.progress hl₁]
        rfl
      have houtline : s₁.outline = s₃.outline := congrArg Ledger.outline hl₁
      rcases hs₃ with ⟨rfl, rfl⟩ | rfl
      · refine filled_of_value hfound place hs₄ hemits ht₁ hty₁ (hledger.trans ?_)
          (.inl ⟨congrArg Outline.constants houtline, rfl⟩)
        rw [show (s₁.moving root .done).outline = s₁.outline from rfl, houtline]
        rfl
      · refine filled_of_value hfound place hs₄ hemits ht₁ hty₁ (hledger.trans ?_)
          (.inr (congrArg Outline.constants houtline))
        rw [show (s₁.moving root .done).outline = s₁.outline from rfl, houtline]
        rfl

end

/-- A walk that leaves no report only fills places of declarations of values, however deep it
goes. -/
instance filling_walkWithin (depth : Nat) : (walkWithin depth).Keeps filling := by
  induction depth with
  | zero =>
    have h {α : Type} : Additive filling (exhaust : Lower α) :=
      keeps_ofFrame (fun _ _ _ => .of_ledger (.refl _) (.refl _) rfl)
    exact Walk.keeps_ofFrame (fun _ _ => h) (fun _ => h) (fun _ => h) (fun _ => h)
      (fun _ _ _ c s _ => Keeps.run h c s)
  | succ depth ih =>
    exact Walk.keeps_ofFrame additive_lowerExpr additive_lowerStmt additive_lowerType
      additive_lowerType
      (fun root name _ _ _ found => ensureValue_filling (fun hs => hs name root found))

end Lowering

end GoLowering
