import GoLowering.Proofs.Collecting
import GoLowering.Proofs.Reports

/-!
# Phases

What each phase of a lowering that reports nothing leaves. Every type that its name still stands
for is put out in its place, every declaration of values is lowered exactly once, every function
has a head and then a body in its place, and the entry comes last (`finished_lowerDeclarations`).
-/

namespace GoLowering.Lowering

open Surface

/-! ## Places -/

/-- The place of a statement holds one node, of some kind. -/
def Holds (s : State) (places : Places NodeId HostId) (root : NodeId) (P : HostKind → Prop) :
    Prop :=
  ∃ id, places.filled root = [id] ∧ id.index < s.tree.size ∧ P (s.tree.kind id)

theorem Holds.mono {s s' : State} {places : Places NodeId HostId} {root : NodeId}
    {P : HostKind → Prop} (h : Holds s places root P) (hs : s.tree.Grows s'.tree) :
    Holds s' places root P := by
  obtain ⟨id, hfilled, hin, hkind⟩ := h
  exact ⟨id, hfilled, Nat.lt_of_lt_of_le hin hs.size_le, (hs.kind_eq hin).symm ▸ hkind⟩

/-- Whether a name that types are declared with stands for the type declared at a statement. -/
def OwnsName (c : Context) (roots : List NodeId) (name : String) (root : NodeId) : Prop :=
  (typesNamed c name roots).getLast? = some root

/-- What is known about the values of a unit: each declaration has been left alone or done. -/
def ValuesHold (c : Context) (s : State) (root : NodeId) : Prop :=
  s.progress.lookup root = none ∧ s.outline.constants.filled root = [] ∨
    s.progress.lookup root = some .done ∧ Emits c root s (s.outline.constants.filled root)

/-- A unit whose names have been collected is being lowered. -/
structure Underway (c : Context) (roots : List NodeId) (s : State) : Prop where
  sound : s.outline.Sound
  declared : s.outline.declared = roots.flatMap (declarationsOf c)
  owners : ∀ name root, OwnsName c roots name root → s.declared? name = some (.type root none)
  reserved : s.Reserved
  halted : s.halted = false
  explicitEntry : s.explicitEntry = roots.any (isEntryFunction c)
  entry : s.outline.entry = none
  types : s.outline.types.keys = ranked c 0 roots
  constants : s.outline.constants.keys = ranked c 1 roots
  functions : s.outline.functions.keys = ranked c 2 roots
  values : ∀ root, ValuesHold c s root

section

variable {c : Context} {roots : List NodeId} {s s' : State}

theorem filled_map_nil (roots : List NodeId) (root : NodeId) :
    Places.filled (roots.map (·, ([] : List HostId))) root = [] := by
  induction roots with
  | nil => rfl
  | cons other rest ih => rw [List.map_cons, Places.filled_cons, ih, ite_self]

theorem Collected.underway (hs : Collected c roots s) (hroots : roots.Nodup)
    (he : s.explicitEntry = roots.any (isEntryFunction c)) : Underway c roots s where
  sound := hs.entered.sound
  declared := by simpa using hs.entered.declared
  owners := hs.entered.types
  reserved := hs.entered.values
  halted := hs.untouched.halted
  explicitEntry := he
  entry := (hs.placed hroots).entry
  types := by rw [(hs.placed hroots).types, keys_map_nil]
  constants := by rw [(hs.placed hroots).constants, keys_map_nil]
  functions := by rw [(hs.placed hroots).functions, keys_map_nil]
  values root := .inl ⟨by rw [hs.untouched.progress]; rfl,
    by rw [(hs.placed hroots).constants, filled_map_nil]⟩

theorem ValuesHold.filled {root : NodeId} (hs : ValuesHold c s root) (h : Filled c s s') :
    ValuesHold c s' root := by
  rcases h.filled root with ⟨hp, hf⟩ | ⟨hn, hd, nodes, hf, he⟩
  · rcases hs with ⟨hnone, hempty⟩ | ⟨hdone, hemits⟩
    · exact .inl ⟨hp.trans hnone, hf.trans hempty⟩
    · exact .inr ⟨hp.trans hdone, hf ▸ hemits.mono h.toLater⟩
  · rcases hs with ⟨-, hempty⟩ | ⟨hdone, -⟩
    · rw [hempty, List.nil_append] at hf
      exact .inr ⟨hd, hf ▸ he⟩
    · rw [hdone] at hn
      cases hn

theorem ValuesHold.later {root : NodeId} (hs : ValuesHold c s root) (h : Later s s')
    (hp : s'.progress = s.progress) (ho : s'.outline.constants = s.outline.constants) :
    ValuesHold c s' root := by
  unfold ValuesHold
  rw [hp, ho]
  exact hs.imp_right (fun hdone => ⟨hdone.1, hdone.2.mono h⟩)

theorem Filled.outline_eq (h : Filled c s s') :
    s'.outline = { s.outline with constants := s'.outline.constants } := by
  have := congrArg (fun o : Outline NodeId HostId => { o with constants := s'.outline.constants })
    h.outline
  exact this

theorem Underway.filled (hs : Underway c roots s) (h : Filled c s s') : Underway c roots s' := by
  have ho := h.outline_eq
  exact
    { sound := by rw [ho]; exact ⟨hs.sound.taken, hs.sound.distinct⟩
      declared := by rw [ho]; exact hs.declared
      owners := fun name root howns => (h.declared name).trans (hs.owners name root howns)
      reserved := hs.reserved.filled h
      halted := h.halted.trans hs.halted
      explicitEntry := h.explicitEntry.trans hs.explicitEntry
      entry := by rw [ho]; exact hs.entry
      types := by rw [ho]; exact hs.types
      constants := (h.keys hs.reserved).trans hs.constants
      functions := by rw [ho]; exact hs.functions
      values := fun root => (hs.values root).filled h }

/-- A place other than one of values is filled. -/
theorem Underway.fillAll {kind : DeclKind} {root : NodeId} {nodes : List HostId}
    (hs : Underway c roots s) (hroot : root ∈ roots) (hrank : rankOf? c root = some kind.rank)
    (hkind : kind.rank = 0 ∨ kind.rank = 2) :
    Underway c roots { s with outline := s.outline.fillAll kind root nodes } := by
  have hlater : Later s { s with outline := s.outline.fillAll kind root nodes } :=
    .of_globals_eq (.refl _) (.refl _) rfl
  have hmem : root ∈ ranked c kind.rank roots := List.mem_filter.mpr ⟨hroot, by simpa using hrank⟩
  cases kind with
  | type =>
    refine ⟨⟨hs.sound.taken, hs.sound.distinct⟩, hs.declared, hs.owners, hs.reserved, hs.halted,
      hs.explicitEntry, hs.entry, ?_, hs.constants, hs.functions, fun other => (hs.values other).later hlater rfl rfl⟩
    refine (Places.keys_fill_of_mem _ ?_).trans hs.types
    rw [hs.types]
    exact hmem
  | func | method =>
    refine ⟨⟨hs.sound.taken, hs.sound.distinct⟩, hs.declared, hs.owners, hs.reserved, hs.halted,
      hs.explicitEntry, hs.entry, hs.types, hs.constants, ?_, fun other => (hs.values other).later hlater rfl rfl⟩
    refine (Places.keys_fill_of_mem _ ?_).trans hs.functions
    rw [hs.functions]
    exact hmem
  | const | var | entry => rcases hkind with h | h <;> cases h

/-! ## From root to root -/

theorem reporting_ok {part : Lower Unit} (h : reporting part c s = (.ok (), s'))
    (hd : s'.diagnostics = []) : part c s = (.ok (), s') := by
  unfold reporting at h
  rw [run_bind, run_attempt] at h
  rcases hr : part c s with ⟨r, s₁⟩
  rw [hr] at h
  cases r with
  | ok _ =>
    obtain ⟨-, rfl⟩ := pure_ok.mp h
    rfl
  | error failure =>
    obtain ⟨-, rfl⟩ := Prod.mk.inj h
    simp at hd

/-- What each statement leads on to in turn holds after all of them. -/
theorem forEachRoot_ok {step : NodeId → Lower Unit} [∀ root, Additive extension (step root)]
    {P : List NodeId → State → Prop} (live : ∀ {done s}, P done s → s.halted = false)
    (next : ∀ {done root rest s s'}, roots = done ++ root :: rest → P done s →
      step root c s = (.ok (), s') → s'.diagnostics = [] → P (done ++ [root]) s')
    (hs : P [] s) (h : forEachRoot step roots c s = (.ok (), s')) (hd : s'.diagnostics = []) :
    P roots s' := by
  suffices hrest : ∀ rest done s, roots = done ++ rest → P done s →
      forEachRoot step rest c s = (.ok (), s') → P roots s' from hrest roots [] s rfl hs h
  intro rest
  induction rest with
  | nil =>
    intro done s hsplit hs h
    obtain ⟨-, rfl⟩ := pure_ok.mp h
    rw [hsplit, List.append_nil]
    exact hs
  | cons root rest ih =>
    intro done s hsplit hs h
    obtain ⟨_, _, hget, h⟩ := bind_ok.mp h
    obtain ⟨hc, rfl⟩ := Prod.mk.inj hget
    obtain rfl := Except.ok.inj hc
    rw [if_neg (by simp [live hs])] at h
    obtain ⟨_, s₁, hstep, h⟩ := bind_ok.mp h
    have hs₁ := next hsplit hs hstep (diagnostics_nil h hd)
    exact ih (done ++ [root]) s₁ (hsplit.trans (List.append_cons ..)) hs₁ h

theorem split_nodup {done rest : List NodeId} {root : NodeId} (hroots : roots.Nodup)
    (h : roots = done ++ root :: rest) : root ∈ roots ∧ root ∉ done := by
  subst h
  refine ⟨by simp, fun hmem => ?_⟩
  exact (List.nodup_append.mp hroots).2.2 root hmem root List.mem_cons_self rfl

/-! ## What has been lowered -/

/-- The place of a type is filled just in case its name stands for it. -/
def TypeHolds (c : Context) (roots : List NodeId) (s : State) (root : NodeId) : Prop :=
  match c.unit.stmt? root with
  | some (.typeDecl name _ _ _) =>
    OwnsName c roots name root ∧
        Holds s s.outline.types root (fun kind => HostFile.namesOf kind = [name]) ∨
      ¬OwnsName c roots name root ∧ s.outline.types.filled root = []
  | _ => True

theorem TypeHolds.grow {root : NodeId} (hs : TypeHolds c roots s root)
    (ht : s.tree.Grows s'.tree)
    (he : s'.outline.types.filled root = s.outline.types.filled root) :
    TypeHolds c roots s' root := by
  unfold TypeHolds at hs ⊢
  split
  · rename_i hstmt
    rw [hstmt] at hs
    rcases hs with ⟨howns, hholds⟩ | ⟨howns, hempty⟩
    · refine .inl ⟨howns, ?_⟩
      obtain ⟨id, hfilled, hrest⟩ := hholds.mono ht
      exact ⟨id, he.trans hfilled, hrest⟩
    · exact .inr ⟨howns, he.trans hempty⟩
  · trivial

/-- What the place of a function holds. -/
def IsFunction (decl : FunctionDecl) (kind : HostKind) : Prop :=
  ∃ function, kind = .function function ∧ function.name = decl.name ∧
    function.receiver.isSome = decl.receiver.isSome

/-- The place of a function is filled. -/
def FunctionHolds (c : Context) (s : State) (root : NodeId) : Prop :=
  ∀ decl, c.unit.stmt? root = some (.function decl) →
    Holds s s.outline.functions root (IsFunction decl)

theorem FunctionHolds.grow {root : NodeId} (hs : FunctionHolds c s root)
    (ht : s.tree.Grows s'.tree)
    (he : s'.outline.functions.filled root = s.outline.functions.filled root) :
    FunctionHolds c s' root := by
  intro decl hstmt
  obtain ⟨id, hfilled, hrest⟩ := (hs decl hstmt).mono ht
  exact ⟨id, he.trans hfilled, hrest⟩

/-- Whether a statement declares values. -/
def NamesValues (c : Context) (root : NodeId) : Prop :=
  ∃ spec, (c.unit.stmt? root = some (.varDecl spec) ∨ c.unit.stmt? root = some (.constDecl spec)) ∧
    spec.names ≠ []

/-- The types of some statements have been lowered, the values of some and the functions of
some. -/
structure Lowered (c : Context) (roots types values functions : List NodeId) (s : State) :
    Prop where
  underway : Underway c roots s
  noType : ∀ root, root ∉ types → s.outline.types.filled root = []
  types : ∀ root ∈ types, TypeHolds c roots s root
  values : ∀ root ∈ values, NamesValues c root → s.progress.lookup root = some .done
  noFunction : ∀ root, root ∉ functions → s.outline.functions.filled root = []
  functions : ∀ root ∈ functions, FunctionHolds c s root

variable {types values functions : List NodeId}

theorem Collected.lowered (hs : Collected c roots s) (hroots : roots.Nodup)
    (he : s.explicitEntry = roots.any (isEntryFunction c)) : Lowered c roots [] [] [] s where
  underway := hs.underway hroots he
  noType root _ := by rw [(hs.placed hroots).types, filled_map_nil]
  types _ h := absurd h List.not_mem_nil
  values _ h := absurd h List.not_mem_nil
  noFunction root _ := by rw [(hs.placed hroots).functions, filled_map_nil]
  functions _ h := absurd h List.not_mem_nil

theorem FilledAt.progress_done {root : NodeId} (h : FilledAt c s s' root)
    (hs : s.progress.lookup root = some .done) : s'.progress.lookup root = some .done := by
  rcases h with ⟨hp, -⟩ | ⟨hn, -⟩
  · exact hp.trans hs
  · rw [hs] at hn
    cases hn

theorem Lowered.filled (hs : Lowered c roots types values functions s) (h : Filled c s s') :
    Lowered c roots types values functions s' := by
  have ho := h.outline_eq
  have htypes : s'.outline.types = s.outline.types := by rw [ho]
  have hfunctions : s'.outline.functions = s.outline.functions := by rw [ho]
  exact
    { underway := hs.underway.filled h
      noType := fun root hroot => by rw [htypes]; exact hs.noType root hroot
      types := fun root hroot => (hs.types root hroot).grow h.tree (by rw [htypes])
      values := fun root hroot hnames => (h.filled root).progress_done (hs.values root hroot hnames)
      noFunction := fun root hroot => by rw [hfunctions]; exact hs.noFunction root hroot
      functions := fun root hroot => (hs.functions root hroot).grow h.tree (by rw [hfunctions]) }

/-! ## Types -/

variable {depth : Nat}

theorem isTypeAt_iff {name : String} {root last : NodeId}
    (h : s.declared? name = some (.type last none)) :
    isTypeAt root (s.globals.lookup name) ↔ last = root := by
  unfold State.declared? at h
  cases hlookup : s.globals.lookup name with
  | none =>
    rw [hlookup] at h
    cases h
  | some global =>
    rw [hlookup] at h
    cases global with
    | type owner type =>
      obtain rfl : owner = last := by simpa [Global.untyped] using h
      simp [isTypeAt]
    | func owner type => simp [Global.untyped] at h
    | value owner => simp [Global.untyped] at h

theorem typesNamed_getLast {name : String} {root : NodeId} (hroot : root ∈ roots)
    (h : declaresType c name root) : ∃ last, OwnsName c roots name last := by
  have hmem : root ∈ typesNamed c name roots := List.mem_filter.mpr ⟨hroot, h⟩
  obtain ⟨last, hlast⟩ := List.getLast?_isSome.mpr (List.ne_nil_of_mem hmem) |>
    Option.isSome_iff_exists.mp
  exact ⟨last, hlast⟩

/-- A type that its name does not stand for is left out. -/
theorem Lowered.skipType {root : NodeId} (hs : Lowered c roots types values functions s)
    (hnew : root ∉ types)
    (h : ∀ name type isAlias doc, c.unit.stmt? root = some (.typeDecl name type isAlias doc) →
      ¬OwnsName c roots name root) : Lowered c roots (types ++ [root]) values functions s where
  underway := hs.underway
  noType other hother := hs.noType other (fun hmem => hother (List.mem_append_left _ hmem))
  types other hother := by
    rcases List.mem_append.mp hother with hother | hother
    · exact hs.types other hother
    · obtain rfl := List.mem_singleton.mp hother
      unfold TypeHolds
      split
      · rename_i hstmt
        exact .inr ⟨h _ _ _ _ hstmt, hs.noType other hnew⟩
      · trivial
  values := hs.values
  noFunction := hs.noFunction
  functions := hs.functions

/-- A type that its name stands for is put in its place. -/
theorem Lowered.fillType {root type : NodeId} {name : String} {isAlias : Bool}
    {doc : Option String} {id : HostId} (hs : Lowered c roots types values functions s)
    (hroot : root ∈ roots) (hnew : root ∉ types)
    (hstmt : c.unit.stmt? root = some (.typeDecl name type isAlias doc))
    (howns : OwnsName c roots name root) (hin : id.index < s.tree.size)
    (hkind : HostFile.namesOf (s.tree.kind id) = [name]) :
    Lowered c roots (types ++ [root]) values functions
      { s with outline := s.outline.fill .type root id } where
  underway := hs.underway.fillAll hroot (by simp [rankOf?, hstmt, DeclKind.rank]) (.inl rfl)
  noType other hother := by
    have hother : other ∉ types ∧ other ≠ root := by simpa [not_or] using hother
    exact (Places.filled_fill_of_ne _ _ hother.2).trans (hs.noType other hother.1)
  types other hother := by
    by_cases hne : other = root
    · subst hne
      have hfilled := (Places.filled_fill_self s.outline.types other [id]).trans
        (by rw [hs.noType other hnew, List.nil_append])
      unfold TypeHolds
      rw [hstmt]
      exact .inl ⟨howns, id, hfilled, hin, hkind⟩
    · have hother : other ∈ types := by simpa [hne] using hother
      exact (hs.types other hother).grow (.refl _) (Places.filled_fill_of_ne _ _ hne)
  values := hs.values
  noFunction := hs.noFunction
  functions := hs.functions

theorem lowered_typeRoot {root : NodeId} (hroot : root ∈ roots) (hnew : root ∉ types)
    (hs : Lowered c roots types values functions s)
    (h : lowerTypeRoot (walkWithin depth) root c s = (.ok (), s')) (hd : s'.diagnostics = []) :
    Lowered c roots (types ++ [root]) values functions s' := by
  obtain ⟨_, _, hread, h⟩ := bind_ok.mp h
  obtain ⟨hc, rfl⟩ := Prod.mk.inj hread
  obtain rfl := Except.ok.inj hc
  revert h
  cases hstmt : c.unit.stmt? root with
  | none =>
    intro h
    obtain ⟨-, rfl⟩ := pure_ok.mp h
    exact hs.skipType hnew (by simp [hstmt])
  | some statement =>
    cases statement with
    | typeDecl name type isAlias doc =>
      intro h
      obtain ⟨_, _, hget, h⟩ := bind_ok.mp h
      obtain ⟨hc, rfl⟩ := Prod.mk.inj hget
      obtain rfl := Except.ok.inj hc
      have hdeclares : declaresType c name root := by simp [declaresType, hstmt]
      obtain ⟨last, hlast⟩ := typesNamed_getLast hroot hdeclares
      have howns : isTypeAt root (s.globals.lookup name) ↔ last = root :=
        isTypeAt_iff (hs.underway.owners name last hlast)
      split at h
      · rename_i hat
        obtain rfl := howns.mp hat
        obtain ⟨span, s₁, hspan, h⟩ := bind_ok.mp (reporting_ok h hd)
        obtain ⟨-, rfl⟩ := Prod.mk.inj hspan
        obtain ⟨definition, s₂, hdefinition, h⟩ := bind_ok.mp h
        obtain ⟨node, s₃, hnode, h⟩ := bind_ok.mp h
        obtain ⟨-, rfl⟩ := Prod.mk.inj h
        have hd₂ : s₂.diagnostics = [] := diagnostics_nil hnode hd
        have hs₃ := (hs.filled (filled_of_ok hdefinition hd₂)).filled (filled_of_ok hnode hd)
        obtain ⟨hin, hkind⟩ := place_ok hnode
        exact hs₃.fillType hroot hnew hstmt hlast hin (by rw [hkind]; rfl)
      · rename_i hat
        obtain ⟨-, rfl⟩ := pure_ok.mp h
        refine hs.skipType hnew (fun other _ _ _ hother hown => hat (howns.mpr ?_))
        obtain rfl : name = other := by
          rw [hstmt] at hother
          exact (Stmt.typeDecl.inj (Option.some.inj hother)).1
        exact Option.some.inj (hlast.symm.trans hown)
    | _ =>
      intro h
      obtain ⟨-, rfl⟩ := pure_ok.mp h
      exact hs.skipType hnew (by simp [hstmt])

/-! ## Heads -/

theorem quiet_filling {f : State → State} (h : ∀ c s, Filled c s (f s)) :
    Quiet filling (modify f : Lower Unit) :=
  keeps_ofFrame (fun c s _ => h c s)

instance filling_setFunctionType (root : NodeId) (name : String) (type : TypeId) :
    Quiet filling (setFunctionType root name type) := by
  refine keeps_ofFrame (fun c s => ?_)
  unfold setFunctionType
  refine .get ?_
  split
  · rename_i owner before found
    split
    · have hname : s.declared? name = some (.func owner none) := by
        rw [State.declared?, found]
        rfl
      exact fun _ => .of_outline_eq (.setGlobal hname) rfl rfl rfl rfl rfl
    · exact Frame.refl _ c s
  · exact Frame.refl _ c s

instance filling_lowerMethodHead (decl : FunctionDecl) (receiver : Receiver)
    (signature : HostSignature) (type : TypeId) :
    Additive filling (lowerMethodHead (walkWithin depth) decl receiver signature type) := by
  unfold lowerMethodHead
  refine keeps_reading (fun c => ?_)
  refine Keeps.before (fun base => ?_)
  refine Keeps.before (fun owner => ?_)
  refine Keeps.bind (additive_of_quiet (h := ?_)) (fun _ => ?_)
  · exact quiet_filling (fun c s =>
      .of_outline_eq (.of_globals_eq (.refl _) (.refl _) rfl) rfl rfl rfl rfl rfl)
  · infer_instance

instance filling_lowerHead (root : NodeId) (decl : FunctionDecl) :
    Additive filling (lowerHead (walkWithin depth) root decl) := by
  unfold lowerHead
  refine Keeps.before (fun (signature, type) => ?_)
  dsimp only
  split
  · infer_instance
  · exact Keeps.before (fun _ => keeps_reading (fun _ => inferInstance))

theorem lowerMethodHead_receiver {decl : FunctionDecl} {receiver : Receiver}
    {signature : HostSignature} {type : TypeId} {head : FunctionHead}
    (h : lowerMethodHead (walkWithin depth) decl receiver signature type c s = (.ok head, s')) :
    head.receiver.isSome := by
  obtain ⟨_, _, -, h⟩ := bind_ok.mp h
  obtain ⟨base, _, -, h⟩ := bind_ok.mp h
  obtain ⟨owner, _, -, h⟩ := bind_ok.mp h
  obtain ⟨_, s₁, -, h⟩ := bind_ok.mp h
  split at h
  · obtain ⟨pointer, _, -, h⟩ := bind_ok.mp h
    obtain ⟨rfl, -⟩ := pure_ok.mp h
    rfl
  · obtain ⟨rfl, -⟩ := pure_ok.mp h
    rfl

theorem lowerHead_receiver {root : NodeId} {decl : FunctionDecl} {head : FunctionHead}
    (h : lowerHead (walkWithin depth) root decl c s = (.ok head, s')) :
    head.receiver.isSome = decl.receiver.isSome := by
  obtain ⟨⟨signature, type⟩, s₁, -, h⟩ := bind_ok.mp h
  revert h
  cases decl.receiver with
  | some receiver => exact fun h => lowerMethodHead_receiver h
  | none =>
    intro h
    obtain ⟨_, s₂, -, h⟩ := bind_ok.mp h
    obtain ⟨_, s₃, -, h⟩ := bind_ok.mp h
    obtain ⟨rfl, -⟩ := pure_ok.mp h
    rfl

/-- A function of the unit has been lowered to a head. -/
def HeadLowered (c : Context) (root : NodeId) (decl : FunctionDecl) (head : FunctionHead) : Prop :=
  ∃ depth s s', lowerHead (walkWithin depth) root decl c s = (.ok head, s')

/-- Every function of some statements has a head. -/
def Headed (c : Context) (done : List NodeId) (heads : FunctionHeads) : Prop :=
  ∀ root ∈ done, ∀ decl, c.unit.stmt? root = some (.function decl) →
    ∃ head, heads.lookup root = some head ∧ HeadLowered c root decl head

theorem Headed.set {done : List NodeId} {heads : FunctionHeads} {root : NodeId}
    {decl : FunctionDecl} {head : FunctionHead} (hs : Headed c done heads)
    (hstmt : c.unit.stmt? root = some (.function decl)) (hhead : HeadLowered c root decl head) :
    Headed c (done ++ [root]) (heads.set root head) := by
  intro other hother other_decl hother_stmt
  by_cases hne : other = root
  · subst hne
    obtain rfl : decl = other_decl :=
      Stmt.function.inj (Option.some.inj (hstmt.symm.trans hother_stmt))
    exact ⟨head, Keyed.lookup_set_self .., hhead⟩
  · rw [Keyed.lookup_set_of_ne hne]
    exact hs other (by simpa [hne] using hother) other_decl hother_stmt

theorem Headed.skip {done : List NodeId} {heads : FunctionHeads} {root : NodeId}
    (hs : Headed c done heads) (hstmt : ∀ decl, c.unit.stmt? root ≠ some (.function decl)) :
    Headed c (done ++ [root]) heads := by
  intro other hother decl hother_stmt
  rcases List.mem_append.mp hother with hother | hother
  · exact hs other hother decl hother_stmt
  · exact absurd (List.mem_singleton.mp hother ▸ hother_stmt) (hstmt decl)

theorem lowerHeads_ok {rest done : List NodeId} {heads heads' : FunctionHeads}
    (hhalted : s.halted = false) (hheads : Headed c done heads)
    (h : lowerHeads (walkWithin depth) rest heads c s = (.ok heads', s'))
    (hd : s'.diagnostics = []) : Filled c s s' ∧ Headed c (done ++ rest) heads' := by
  induction rest generalizing done heads s with
  | nil =>
    obtain ⟨rfl, rfl⟩ := pure_ok.mp h
    exact ⟨.refl s, by simpa using hheads⟩
  | cons root rest ih =>
    obtain ⟨_, _, hget, h⟩ := bind_ok.mp h
    obtain ⟨hc, rfl⟩ := Prod.mk.inj hget
    obtain rfl := Except.ok.inj hc
    rw [if_neg (by simp [hhalted])] at h
    obtain ⟨_, _, hread, h⟩ := bind_ok.mp h
    obtain ⟨hc, rfl⟩ := Prod.mk.inj hread
    obtain rfl := Except.ok.inj hc
    rw [List.append_cons]
    have hother (hstmt : ∀ decl, c.unit.stmt? root ≠ some (.function decl))
        (h : lowerHeads (walkWithin depth) rest heads c s = (.ok heads', s')) :
        Filled c s s' ∧ Headed c (done ++ [root] ++ rest) heads' :=
      ih hhalted (hheads.skip hstmt) h
    revert h
    cases hstmt : c.unit.stmt? root with
    | none => exact hother (by simp [hstmt])
    | some statement =>
      cases statement with
      | function decl =>
        intro h
        obtain ⟨result, s₁, hattempt, h⟩ := bind_ok.mp h
        rw [run_attempt] at hattempt
        obtain ⟨hresult, hs₁⟩ := Prod.mk.inj hattempt
        obtain rfl := Except.ok.inj hresult
        cases hrun : (lowerHead (walkWithin depth) root decl c s).1 with
        | ok head =>
          rw [hrun] at h
          have hhead : lowerHead (walkWithin depth) root decl c s = (.ok head, s₁) :=
            Prod.ext hrun hs₁
          have hfilled := filled_of_ok hhead (diagnostics_nil h hd)
          obtain ⟨hrest, hheaded⟩ := ih (hfilled.halted.trans hhalted)
            (hheads.set hstmt ⟨depth, s, s₁, hhead⟩) h
          exact ⟨hfilled.trans hrest, hheaded⟩
        | error failure =>
          rw [hrun] at h
          obtain ⟨_, s₂, hrecord, h⟩ := bind_ok.mp h
          obtain ⟨-, rfl⟩ := Prod.mk.inj hrecord
          have hd₂ := diagnostics_nil h hd
          simp at hd₂
      | _ => exact hother (by simp [hstmt])

/-! ## Values -/

theorem ensureValue_done {root : NodeId} {name : String} {span : Span}
    (hs : s.progress.lookup root = none ∨ s.progress.lookup root = some .done)
    (h : ensureValue (walkWithin depth) root name span c s = (.ok (), s'))
    (hd : s'.diagnostics = []) : s'.progress.lookup root = some .done := by
  rcases hs with hnone | hdone
  · rw [run_ensureValue_new hnone] at h
    rcases hr : atPackageLevel (lowerGlobalValue (walkWithin depth) root) c
      (s.starting root name span) with ⟨r, s₁⟩
    rw [hr] at h
    cases r with
    | ok _ =>
      obtain ⟨-, rfl⟩ := Prod.mk.inj h
      exact Keyed.lookup_set_self ..
    | error failure =>
      obtain ⟨-, rfl⟩ := Prod.mk.inj h
      simp at hd
  · rw [run_ensureValue_ended hdone (by decide)] at h
    obtain ⟨-, rfl⟩ := Prod.mk.inj h
    exact hdone

/-- A value that has a place is filled in there. -/
theorem filled_value {root : NodeId} {name : String} {span : Span}
    (hroot : root ∈ s.outline.constants.keys)
    (h : (walkWithin depth).value root name span c s = (.ok (), s')) (hd : s'.diagnostics = []) :
    Filled c s s' := by
  cases depth with
  | zero => cases h
  | succ depth =>
    have hfilled : Leads (Filling .additive c) c s (ensureValue (walkWithin depth) root name span) :=
      ensureValue_filling (fun _ => hroot)
    unfold Leads at hfilled
    rw [show ensureValue (walkWithin depth) root name span c s = (.ok (), s') from h] at hfilled
    exact hfilled hd

theorem value_ok {root : NodeId} {name : String} {span : Span}
    (hs : Underway c roots s) (hroot : root ∈ ranked c 1 roots)
    (h : (walkWithin depth).value root name span c s = (.ok (), s')) (hd : s'.diagnostics = []) :
    Filled c s s' ∧ s'.progress.lookup root = some .done := by
  refine ⟨filled_value (hs.constants ▸ hroot) h hd, ?_⟩
  cases depth with
  | zero => cases h
  | succ depth => exact ensureValue_done ((hs.values root).imp And.left And.left) h hd

theorem Lowered.skipValue {root : NodeId} (hs : Lowered c roots types values functions s)
    (h : NamesValues c root → s.progress.lookup root = some .done) :
    Lowered c roots types (values ++ [root]) functions s :=
  { hs with
    values := fun other hother hnames => by
      rcases List.mem_append.mp hother with hother | hother
      · exact hs.values other hother hnames
      · obtain rfl := List.mem_singleton.mp hother
        exact h hnames }

theorem lowered_valueRoot {root : NodeId} (hroot : root ∈ roots)
    (hs : Lowered c roots types values functions s)
    (h : lowerValueRoot (walkWithin depth) root c s = (.ok (), s')) (hd : s'.diagnostics = []) :
    Lowered c roots types (values ++ [root]) functions s' := by
  obtain ⟨_, _, hread, h⟩ := bind_ok.mp h
  obtain ⟨hc, rfl⟩ := Prod.mk.inj hread
  obtain rfl := Except.ok.inj hc
  have hskip (hstmt : ¬NamesValues c root) (h : (pure () : Lower Unit) c s = (.ok (), s')) :
      Lowered c roots types (values ++ [root]) functions s' := by
    obtain ⟨-, rfl⟩ := pure_ok.mp h
    exact hs.skipValue (fun hnames => absurd hnames hstmt)
  have hnamed (hrank : rankOf? c root = some 1) (name : String)
      (h : reporting (do (walkWithin depth).value root name (← spanOf root)) c s = (.ok (), s')) :
      Lowered c roots types (values ++ [root]) functions s' := by
    have hranked : root ∈ ranked c 1 roots := List.mem_filter.mpr ⟨hroot, by simp [hrank]⟩
    obtain ⟨span, s₁, hspan, h⟩ := bind_ok.mp (reporting_ok h hd)
    obtain ⟨-, rfl⟩ := Prod.mk.inj hspan
    obtain ⟨hfilled, hdone⟩ := value_ok hs.underway hranked h hd
    exact (hs.filled hfilled).skipValue (fun _ => hdone)
  revert h
  cases hstmt : c.unit.stmt? root with
  | none => exact hskip (by simp [NamesValues, hstmt])
  | some statement =>
    cases statement with
    | varDecl spec | constDecl spec =>
      dsimp only
      cases hnames : spec.names with
      | nil => exact hskip (by simp [NamesValues, hstmt, hnames])
      | cons name names => exact hnamed (by simp [rankOf?, hstmt]) name
    | _ => exact hskip (by simp [NamesValues, hstmt])

/-! ## Functions -/

theorem Lowered.skipFunction {root : NodeId} (hs : Lowered c roots types values functions s)
    (h : ∀ decl, c.unit.stmt? root ≠ some (.function decl)) :
    Lowered c roots types values (functions ++ [root]) s :=
  { hs with
    noFunction := fun other hother =>
      hs.noFunction other (fun hmem => hother (List.mem_append_left _ hmem))
    functions := fun other hother => by
      rcases List.mem_append.mp hother with hother | hother
      · exact hs.functions other hother
      · obtain rfl := List.mem_singleton.mp hother
        exact fun decl hstmt => absurd hstmt (h decl) }

theorem Lowered.fillFunction {root : NodeId} {decl : FunctionDecl} {kind : DeclKind} {id : HostId}
    (hs : Lowered c roots types values functions s) (hroot : root ∈ roots)
    (hnew : root ∉ functions) (hstmt : c.unit.stmt? root = some (.function decl))
    (hkind : kind = .func ∨ kind = .method) (hin : id.index < s.tree.size)
    (hfunction : IsFunction decl (s.tree.kind id)) :
    Lowered c roots types values (functions ++ [root])
      { s with outline := s.outline.fill kind root id } := by
  have ho : s.outline.fill kind root id =
      { s.outline with functions := s.outline.functions.fill root [id] } := by
    rcases hkind with rfl | rfl <;> rfl
  have hrank : kind.rank = 2 := by rcases hkind with rfl | rfl <;> rfl
  have hunderway : Underway c roots { s with outline := s.outline.fill kind root id } :=
    hs.underway.fillAll hroot (by simp [rankOf?, hstmt, hrank]) (.inr hrank)
  refine ⟨hunderway, ?_, ?_, hs.values, ?_, ?_⟩
  · rw [ho]
    exact hs.noType
  · rw [ho]
    exact fun other hother => (hs.types other hother).grow (.refl _) rfl
  · rw [ho]
    intro other hother
    have hother : other ∉ functions ∧ other ≠ root := by simpa [not_or] using hother
    exact (Places.filled_fill_of_ne _ _ hother.2).trans (hs.noFunction other hother.1)
  · rw [ho]
    intro other hother
    by_cases hne : other = root
    · subst hne
      intro other_decl hother_stmt
      obtain rfl : decl = other_decl :=
        Stmt.function.inj (Option.some.inj (hstmt.symm.trans hother_stmt))
      have hfilled := (Places.filled_fill_self s.outline.functions other [id]).trans
        (by rw [hs.noFunction other hnew, List.nil_append])
      exact ⟨id, hfilled, hin, hfunction⟩
    · have hother : other ∈ functions := by simpa [hne] using hother
      exact (hs.functions other hother).grow (.refl _) (Places.filled_fill_of_ne _ _ hne)

theorem lowered_functionRoot {root : NodeId} {heads : FunctionHeads} (hroot : root ∈ roots)
    (hnew : root ∉ functions) (hheads : Headed c roots heads)
    (hs : Lowered c roots types values functions s)
    (h : lowerFunctionRoot (walkWithin depth) heads root c s = (.ok (), s'))
    (hd : s'.diagnostics = []) : Lowered c roots types values (functions ++ [root]) s' := by
  obtain ⟨_, _, hread, h⟩ := bind_ok.mp h
  obtain ⟨hc, rfl⟩ := Prod.mk.inj hread
  obtain rfl := Except.ok.inj hc
  have hskip (hstmt : ∀ decl, c.unit.stmt? root ≠ some (.function decl))
      (h : (pure () : Lower Unit) c s = (.ok (), s')) :
      Lowered c roots types values (functions ++ [root]) s' := by
    obtain ⟨-, rfl⟩ := pure_ok.mp h
    exact hs.skipFunction hstmt
  revert h
  cases hstmt : c.unit.stmt? root with
  | none => exact hskip (by simp [hstmt])
  | some statement =>
    cases statement with
    | function decl =>
      obtain ⟨head, hhead, _, _, _, hrun⟩ := hheads root hroot decl hstmt
      have hreceiver := lowerHead_receiver hrun
      rw [hhead]
      intro h
      obtain ⟨span, s₁, hspan, h⟩ := bind_ok.mp (reporting_ok h hd)
      obtain ⟨-, rfl⟩ := Prod.mk.inj hspan
      obtain ⟨body, s₂, hbody, h⟩ := bind_ok.mp h
      obtain ⟨node, s₃, hnode, h⟩ := bind_ok.mp h
      obtain ⟨-, rfl⟩ := Prod.mk.inj h
      have hd₂ : s₂.diagnostics = [] := diagnostics_nil hnode hd
      have hs₃ := (hs.filled (filled_of_ok hbody hd₂)).filled (filled_of_ok hnode hd)
      obtain ⟨hin, hkind⟩ := place_ok hnode
      refine hs₃.fillFunction hroot hnew hstmt ?_ hin (hkind ▸ ⟨_, rfl, rfl, hreceiver⟩)
      cases decl.receiver.isSome
      · exact .inl rfl
      · exact .inr rfl
    | _ => exact hskip (by simp [hstmt])

/-! ## Entry -/

/-- The entry of a unit as it is declared. -/
def entryDeclaration (c : Context) (origin : Span) : Declaration :=
  ⟨c.settings.entryRole.functionName, .entry, none, origin, true⟩

/-- The entry has been put in its place, which only happens when the unit declares none itself,
or there is none. -/
def EntryMade (c : Context) (s s' : State) : Prop :=
  s' = s ∨ s.explicitEntry = false ∧ ∃ origin id body,
    s' = { s with outline := s.outline.setEntry (entryDeclaration c origin) id } ∧
      id.index < s.tree.size ∧
      s.tree.kind id = .function ⟨none, c.settings.entryRole.functionName, ⟨[], [], false⟩, body, none⟩

/-- Some statements are lowered one after the other, each with what it hoists before it. -/
inductive Emitted (walk : Walk) (c : Context) : State → List NodeId → List HostId → State → Prop
  | nil (s : State) : Emitted walk c s [] [] s
  | cons {s s₁ s' : State} {id : NodeId} {rest : List NodeId} {nodes more : List HostId}
      (first : lowerStatement walk id c s = (.ok nodes, s₁)) (others : Emitted walk c s₁ rest more s') :
      Emitted walk c s (id :: rest) (nodes ++ more) s'

theorem emitted_mapM {walk : Walk} {ids : List NodeId} {lists : List (List HostId)}
    (h : ids.mapM (lowerStatement walk) c s = (.ok lists, s')) :
    Emitted walk c s ids lists.flatten s' := by
  induction ids generalizing s lists with
  | nil =>
    obtain ⟨rfl, rfl⟩ := pure_ok.mp h
    exact .nil s
  | cons id rest ih =>
    rw [List.mapM_cons] at h
    obtain ⟨nodes, s₁, hfirst, h⟩ := bind_ok.mp h
    obtain ⟨more, s₂, hrest, h⟩ := bind_ok.mp h
    obtain ⟨rfl, rfl⟩ := pure_ok.mp h
    exact .cons hfirst (ih hrest)

theorem emitted_lowerStatements {walk : Walk} {ids : List NodeId} {nodes : List HostId}
    (h : lowerStatements walk ids c s = (.ok nodes, s')) : Emitted walk c s ids nodes s' := by
  obtain ⟨lists, s₁, hlists, h⟩ := bind_ok.mp h
  obtain ⟨rfl, rfl⟩ := pure_ok.mp h
  exact emitted_mapM hlists

/-- A state inside of the entry function. -/
def State.inEntry (c : Context) (s : State) : State :=
  { s with
    frameName := c.unit.package ++ "." ++ c.settings.entryRole.functionName
    scopes := s.scopes.push .function, function := some [], hoisted := [] }

/-- A node is an entry function whose body is what some statements are emitted as. -/
def IsEntryOf (walk : Walk) (c : Context) (s : State) (statements : List NodeId)
    (tree : HostTree) (id : HostId) : Prop :=
  ∃ body nodes s', tree.kind id =
      .function ⟨none, c.settings.entryRole.functionName, ⟨[], [], false⟩, body, none⟩ ∧
    tree.kind body = .block nodes ∧ Emitted walk c (s.inEntry c) statements nodes s'

/-- The entry function of some statements, before it is put in its place. -/
def makeEntry (walk : Walk) (c : Context) (statements : List NodeId) (origin : Span) :
    Lower HostId := do
  let nodes ← inFrame (c.unit.package ++ "." ++ c.settings.entryRole.functionName)
    (inFunction .function [] (lowerStatements walk statements))
  let body ← blockNode nodes
  place (.function ⟨none, c.settings.entryRole.functionName, ⟨[], [], false⟩, body, none⟩) origin

instance additive_makeEntry {L : Regime} [Discipline L] {walk : Walk} [walk.Keeps L]
    (statements : List NodeId) (origin : Span) : Additive L (makeEntry walk c statements origin) := by
  unfold makeEntry
  infer_instance

/-- The entry function is made and put in its place. -/
def PutsEntry (walk : Walk) (statements : List NodeId) (c : Context) (s s' : State) : Prop :=
  ∃ origin id s₁, makeEntry walk c statements origin c s = (.ok id, s₁) ∧
    s' = { s₁ with outline := s₁.outline.setEntry (entryDeclaration c origin) id }

theorem putsEntry_lowerEntry {walk : Walk} {statements : List NodeId}
    (h : lowerEntry walk statements c s = (.ok (), s')) : PutsEntry walk statements c s s' := by
  obtain ⟨_, _, hread, h⟩ := bind_ok.mp h
  obtain ⟨hc, rfl⟩ := Prod.mk.inj hread
  obtain rfl := Except.ok.inj hc
  obtain ⟨_, _, hread, h⟩ := bind_ok.mp h
  obtain ⟨hc, rfl⟩ := Prod.mk.inj hread
  obtain rfl := Except.ok.inj hc
  have hmade (origin : Span)
      (h : (do
        let body ← inFrame (c.unit.package ++ "." ++ c.settings.entryRole.functionName)
          (inFunction .function [] (lowerStatements walk statements))
        let body ← blockNode body
        let node ← place
          (.function ⟨none, c.settings.entryRole.functionName, ⟨[], [], false⟩, body, none⟩) origin
        onOutline (·.setEntry (entryDeclaration c origin) node)) c s = (.ok (), s')) :
      PutsEntry walk statements c s s' := by
    obtain ⟨nodes, s₁, hnodes, h⟩ := bind_ok.mp h
    obtain ⟨body, s₂, hbody, h⟩ := bind_ok.mp h
    obtain ⟨id, s₃, hid, h⟩ := bind_ok.mp h
    exact ⟨origin, id, s₃,
      bind_ok.mpr ⟨nodes, s₁, hnodes, bind_ok.mpr ⟨body, s₂, hbody, hid⟩⟩,
      (Prod.mk.inj h).2.symm⟩
  cases statements with
  | nil => exact hmade .synthetic h
  | cons first rest => exact hmade (c.unit.span first) h

/-- The entry function is made of some statements. -/
theorem lowerEntry_ok {statements : List NodeId}
    (h : lowerEntry (walkWithin depth) statements c s = (.ok (), s')) (hd : s'.diagnostics = []) :
    ∃ s₁ origin id, Filled c s s₁ ∧ id.index < s₁.tree.size ∧
      s' = { s₁ with outline := s₁.outline.setEntry (entryDeclaration c origin) id } ∧
      IsEntryOf (walkWithin depth) c s statements s₁.tree id := by
  obtain ⟨origin, id, s₁, hmake, rfl⟩ := putsEntry_lowerEntry h
  have hfilled : Filled c s s₁ := filled_of_ok hmake hd
  obtain ⟨nodes, s₂, hnodes, hmake⟩ := bind_ok.mp hmake
  obtain ⟨body, s₃, hbody, hid⟩ := bind_ok.mp hmake
  have hblock : Made s₂ s₃ (.block nodes) body := addNode_ok hbody
  have hin : body.index < s₃.tree.size := by
    rw [hblock.index, hblock.size]
    exact Nat.lt_succ_self _
  have hlater : Filled c s₃ s₁ := filled_of_ok hid hd
  obtain ⟨s₄, hframe, -⟩ := within_ok.mp hnodes
  obtain ⟨s₅, hstatements, -⟩ := within_ok.mp hframe
  exact ⟨s₁, origin, id, hfilled, (place_ok hid).1, rfl, body, nodes, s₅, (place_ok hid).2,
    (hlater.tree.kind_eq hin).trans hblock.kind, emitted_lowerStatements hstatements⟩

theorem entryMade_lowerEntry {statements : List NodeId}
    (h : lowerEntry (walkWithin depth) statements c s = (.ok (), s')) (hd : s'.diagnostics = [])
    (he : s.explicitEntry = false) : ∃ s₁, Filled c s s₁ ∧ EntryMade c s₁ s' := by
  obtain ⟨s₁, origin, id, hs₁, hin, hs', body, _, _, hkind, -⟩ := lowerEntry_ok h hd
  exact ⟨s₁, hs₁, .inr ⟨hs₁.explicitEntry.trans he, origin, id, body, hs', hin, hkind⟩⟩

theorem entryMade_lowerEntryPhase
    (h : lowerEntryPhase (walkWithin depth) c s = (.ok (), s')) (hd : s'.diagnostics = []) :
    ∃ s₁, Filled c s s₁ ∧ EntryMade c s₁ s' := by
  obtain ⟨_, _, hget, h⟩ := bind_ok.mp h
  obtain ⟨hc, rfl⟩ := Prod.mk.inj hget
  obtain rfl := Except.ok.inj hc
  obtain ⟨_, _, hread, h⟩ := bind_ok.mp h
  obtain ⟨hc, rfl⟩ := Prod.mk.inj hread
  obtain rfl := Except.ok.inj hc
  split at h
  · rename_i hwants
    have he : s.explicitEntry = false := by
      simpa using (Bool.and_eq_true_iff.mp hwants).1
    exact entryMade_lowerEntry (reporting_ok h hd) hd he
  · obtain ⟨-, rfl⟩ := pure_ok.mp h
    exact ⟨s, .refl s, .inl rfl⟩

/-! ## All phases -/

/-- What a lowering that reports nothing ends with: everything has been lowered, and then the
entry has been made. -/
theorem finished_lowerDeclarations {types : TypeTable} (hroots : roots.Nodup)
    (h : lowerDeclarations (walkWithin depth) roots c (.initial c.unit types) = (.ok (), s'))
    (hd : s'.diagnostics = []) :
    ∃ s, Lowered c roots roots roots roots s ∧ EntryMade c s s' := by
  obtain ⟨_, s₁, hcollect, h⟩ := bind_ok.mp h
  obtain ⟨_, s₂, htypes, h⟩ := bind_ok.mp h
  obtain ⟨heads, s₃, hheads, h⟩ := bind_ok.mp h
  obtain ⟨_, s₄, hvalues, h⟩ := bind_ok.mp h
  obtain ⟨_, s₅, hfunctions, h⟩ := bind_ok.mp h
  have hd₅ : s₅.diagnostics = [] := by
    obtain ⟨_, _, hget, h⟩ := bind_ok.mp h
    obtain ⟨hc, rfl⟩ := Prod.mk.inj hget
    obtain rfl := Except.ok.inj hc
    split at h
    · exact diagnostics_nil h hd
    · exact (pure_ok.mp h).2 ▸ hd
  have hd₄ := diagnostics_nil hfunctions hd₅
  have hd₃ := diagnostics_nil hvalues hd₄
  have hd₂ := diagnostics_nil hheads hd₃
  obtain ⟨hcollected, hexplicit⟩ := collected_collect hcollect (diagnostics_nil htypes hd₂)
  have hs₁ := hcollected.lowered hroots hexplicit
  have hs₂ : Lowered c roots roots [] [] s₂ :=
    forEachRoot_ok (P := fun done s => Lowered c roots done [] [] s) (fun hs => hs.underway.halted)
      (fun hsplit hs hrun hd =>
        lowered_typeRoot (split_nodup hroots hsplit).1 (split_nodup hroots hsplit).2 hs hrun hd)
      hs₁ htypes hd₂
  have hnone : Headed c [] [] := fun _ h => absurd h List.not_mem_nil
  obtain ⟨hfilled, hheaded⟩ := lowerHeads_ok hs₂.underway.halted hnone hheads hd₃
  have hs₄ : Lowered c roots roots roots [] s₄ :=
    forEachRoot_ok (P := fun done s => Lowered c roots roots done [] s)
      (fun hs => hs.underway.halted)
      (fun hsplit hs hrun hd => lowered_valueRoot (split_nodup hroots hsplit).1 hs hrun hd)
      (hs₂.filled hfilled) hvalues hd₄
  have hs₅ : Lowered c roots roots roots roots s₅ :=
    forEachRoot_ok (P := fun done s => Lowered c roots roots roots done s)
      (fun hs => hs.underway.halted)
      (fun hsplit hs hrun hd => lowered_functionRoot (split_nodup hroots hsplit).1
        (split_nodup hroots hsplit).2 hheaded hs hrun hd)
      hs₄ hfunctions hd₅
  obtain ⟨_, _, hget, h⟩ := bind_ok.mp h
  obtain ⟨hc, rfl⟩ := Prod.mk.inj hget
  obtain rfl := Except.ok.inj hc
  rw [if_pos (by simp [hs₅.underway.halted])] at h
  obtain ⟨s, hlast, hmade⟩ := entryMade_lowerEntryPhase h hd
  exact ⟨s, hs₅.filled hlast, hmade⟩

/-- What the lowering of a unit ends with. -/
def State.final (c : Context) (types : TypeTable) : State :=
  (lowerDeclarations (walkWithin (depthBound c.unit)) c.unit.roots c (.initial c.unit types)).2

/-- A lowering succeeds just in case it reports nothing. -/
theorem lowerUnitWith_ok {types : TypeTable} {out : LoweredUnit} :
    lowerUnitWith c.unit c.sources ⟨types, c.env⟩ c.settings c.registry = .ok out ↔
      (State.final c types).diagnostics = [] ∧ out = .ofState c (.final c types) := by
  change (if (State.final c types).diagnostics.isEmpty then
    Except.ok (LoweredUnit.ofState c (.final c types)) else _) = Except.ok out ↔ _
  split
  · rename_i hempty
    rw [List.isEmpty_iff] at hempty
    simp [hempty, eq_comm]
  · rename_i hempty
    rw [List.isEmpty_iff] at hempty
    simp [hempty]

theorem lowerUnitWith_error {types : TypeTable} {reports : List Diagnostic} :
    lowerUnitWith c.unit c.sources ⟨types, c.env⟩ c.settings c.registry = .error reports ↔
      (State.final c types).diagnostics ≠ [] ∧
        reports = (State.final c types).diagnostics ++ (State.final c types).warnings := by
  change (if (State.final c types).diagnostics.isEmpty then _ else
    Except.error ((State.final c types).diagnostics ++ (State.final c types).warnings)) =
      Except.error reports ↔ _
  split
  · rename_i hempty
    rw [List.isEmpty_iff] at hempty
    simp [hempty]
  · rename_i hempty
    rw [List.isEmpty_iff] at hempty
    simp [hempty, eq_comm]

/-- A lowering that succeeds has gone through all phases. -/
theorem finished_final {types : TypeTable} {out : LoweredUnit} (hroots : c.unit.roots.Nodup)
    (h : lowerUnitWith c.unit c.sources ⟨types, c.env⟩ c.settings c.registry = .ok out) :
    ∃ s, Lowered c c.unit.roots c.unit.roots c.unit.roots c.unit.roots s ∧
      EntryMade c s (.final c types) := by
  have hanswers : Answers (lowerDeclarations (walkWithin (depthBound c.unit)) c.unit.roots) :=
    answers_lowerDeclarations c.unit.roots
  obtain ⟨_, s', hrun⟩ := hanswers.ok c (.initial c.unit types)
  have hfinal : State.final c types = s' := congrArg Prod.snd hrun
  rw [hfinal]
  exact finished_lowerDeclarations hroots hrun (hfinal ▸ (lowerUnitWith_ok.mp h).1)

end

end GoLowering.Lowering
