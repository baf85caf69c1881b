import GoLowering.Proofs.Filling

/-!
# Names and places that are taken first

What the collection of the top-level statements of a unit leaves when nothing is reported: the
outline has their declarations in the order they are written, a place for each statement that
declares types, values or functions, and each name of a type stands for the last statement that
declares it (`Collected`).

Only blank names of types are declared more than once without a report. Each of them takes the
name over from the one before.
-/

namespace GoLowering.Lowering

open Surface

/-! ## The statements of a unit -/

/-- The declarations of a top-level statement. -/
def declarationsOf (c : Context) (root : NodeId) : List Declaration :=
  let span := c.unit.span root
  match c.unit.stmt? root with
  | some (.typeDecl name _ _ _) => [.plain name .type span]
  | some (.varDecl spec) => spec.names.map (.plain · .var span)
  | some (.constDecl spec) => spec.names.map (.plain · .const span)
  | some (.function decl) =>
    match decl.receiver with
    | some receiver => [.method (c.sources.slice (c.unit.span receiver.type)) decl.name span]
    | none => [.plain decl.name .func span]
  | _ => []

/-- The rank of what a top-level statement declares, if it has a place of the output. -/
def rankOf? (c : Context) (root : NodeId) : Option Nat :=
  match c.unit.stmt? root with
  | some (.typeDecl ..) => some 0
  | some (.varDecl _) | some (.constDecl _) => some 1
  | some (.function _) => some 2
  | _ => none

/-- The top-level statements of a rank. -/
def ranked (c : Context) (rank : Nat) (roots : List NodeId) : List NodeId :=
  roots.filter (fun root => rankOf? c root = some rank)

/-- Whether a top-level statement declares a type of a name. -/
def declaresType (c : Context) (name : String) (root : NodeId) : Bool :=
  match c.unit.stmt? root with
  | some (.typeDecl declared _ _ _) => declared == name
  | _ => false

/-- The top-level statements that declare types of a name. -/
def typesNamed (c : Context) (name : String) (roots : List NodeId) : List NodeId :=
  roots.filter (declaresType c name)

/-- Whether a top-level statement declares the entry function. -/
def isEntryFunction (c : Context) (root : NodeId) : Bool :=
  match c.unit.stmt? root with
  | some (.function decl) =>
    decl.receiver.isNone && decl.name == c.settings.entryRole.functionName
  | _ => false

theorem declaresType_iff {c : Context} {name : String} {root : NodeId} :
    declaresType c name root ↔
      ∃ type isAlias doc, c.unit.stmt? root = some (.typeDecl name type isAlias doc) := by
  unfold declaresType
  split
  · rename_i declared type isAlias doc h
    simp [h]
  · rename_i h
    simp
    grind

/-! ## What is kept while they are collected -/

/-- The names of some top-level statements, and of a part of the next one, have been entered. -/
structure Entered (c : Context) (done : List NodeId) (more : List Declaration) (s : State) :
    Prop where
  sound : s.outline.Sound
  declared : s.outline.declared = done.flatMap (declarationsOf c) ++ more
  types : ∀ name root, (typesNamed c name done).getLast? = some root →
    s.declared? name = some (.type root none)
  values : s.Reserved

/-- The places of some top-level statements have been kept. -/
structure Placed (c : Context) (done : List NodeId) (o : Outline NodeId HostId) : Prop where
  types : o.types = (ranked c 0 done).map (·, [])
  constants : o.constants = (ranked c 1 done).map (·, [])
  functions : o.functions = (ranked c 2 done).map (·, [])
  entry : o.entry = none

/-- No declaration has been lowered yet. -/
structure Untouched (s : State) : Prop where
  progress : s.progress = []
  methods : s.methods = []
  halted : s.halted = false

/-- Some top-level statements have been collected. -/
structure Collected (c : Context) (done : List NodeId) (s : State) : Prop where
  entered : Entered c done [] s
  placed : done.Nodup → Placed c done s.outline
  untouched : Untouched s

def State.adding (s : State) (d : Declaration) : State :=
  { s with outline := s.outline.adding d }

section

variable {c : Context} {done : List NodeId} {more : List Declaration} {s s' : State}

theorem Entered.adding {d : Declaration} (hs : Entered c done more s) (h : s.outline.Fresh d) :
    Entered c done (more ++ [d]) (s.adding d) where
  sound := hs.sound.adding h
  declared := by simp [State.adding, Outline.adding, hs.declared]
  types := hs.types
  values := hs.values

/-- A name that is not blank and that a type has stands for that type only. -/
theorem Entered.typesNamed_eq_nil {d : Declaration} (hs : Entered c done more s) (h : s.outline.Fresh d)
    (hreceiver : d.receiver = none) (hd : d.isRepeatable = false) :
    typesNamed c d.name done = [] := by
  refine List.filter_eq_nil_iff.mpr (fun root hroot hdeclares => ?_)
  obtain ⟨type, isAlias, doc, hstmt⟩ := declaresType_iff.mp hdeclares
  have hname : d.name ≠ "_" := by
    intro he
    simp [Declaration.isRepeatable, he] at hd
  have hmem : Declaration.plain d.name .type (c.unit.span root) ∈ s.outline.taken := by
    rw [hs.sound.taken, hs.declared]
    refine List.mem_filter.mpr ⟨List.mem_append_left _ (List.mem_flatMap.mpr ⟨root, hroot, ?_⟩), ?_⟩
    · simp [declarationsOf, hstmt]
    · simp [Declaration.isRepeatable, Declaration.plain, hname]
  exact h.resolve_left (by simp [hd]) _ hmem ⟨hreceiver.symm, rfl⟩

/-- A name is noted for something other than a type. -/
theorem Entered.setGlobal {name : String} {global : Global} (hs : Entered c done more s)
    (hname : typesNamed c name done = [])
    (hvalue : ∀ root, global = .value root → root ∈ s.outline.constants.keys) :
    Entered c done more { s with globals := s.globals.set name global } where
  sound := hs.sound
  declared := hs.declared
  types other root hlast := by
    have hne : other ≠ name := by
      rintro rfl
      rw [hname] at hlast
      cases hlast
    simp only [State.declared?, lookup_set, if_neg hne]
    exact hs.types other root hlast
  values other root hlookup := by
    simp only [lookup_set] at hlookup
    split at hlookup
    · exact hvalue root (Option.some.inj hlookup)
    · exact hs.values other root hlookup

/-! ## Runs -/

theorem declare_run {d : Declaration} {b : Bool} (h : declare d c s = (.ok b, s'))
    (hd : s'.diagnostics = []) : b = true ∧ s' = s.adding d ∧ s.outline.Fresh d := by
  unfold declare at h
  obtain ⟨_, _, hget, h⟩ := bind_ok.mp h
  obtain ⟨hs, rfl⟩ := Prod.mk.inj hget
  obtain rfl := Except.ok.inj hs
  revert h
  cases ho : s.outline.declare d with
  | error previous =>
    intro h
    obtain ⟨_, s₁, hrecord, h⟩ := bind_ok.mp h
    obtain ⟨-, rfl⟩ := pure_ok.mp h
    obtain ⟨-, rfl⟩ := Prod.mk.inj hrecord
    simp at hd
  | ok o =>
    intro h
    obtain ⟨-, rfl⟩ := Prod.mk.inj h
    obtain ⟨rfl, hfresh⟩ := Outline.declare_ok ho
    exact ⟨by cases h; rfl, rfl, hfresh⟩

theorem declareAt_run {root : NodeId} {d : Declaration} {b : Bool}
    (h : declareAt root d c s = (.ok b, s')) (hd : s'.diagnostics = []) :
    b = true ∧ s.outline.Fresh d ∧
      s' = { s.adding d with outline := (s.outline.adding d).reserve d.kind root } := by
  unfold declareAt at h
  obtain ⟨declared, s₁, hdeclare, h⟩ := bind_ok.mp h
  have hd₁ : s₁.diagnostics = [] := by
    revert h
    cases declared with
    | false =>
      intro h
      obtain ⟨-, rfl⟩ := pure_ok.mp h
      exact hd
    | true =>
      intro h
      obtain ⟨_, s₂, hreserve, h⟩ := bind_ok.mp h
      obtain ⟨-, rfl⟩ := pure_ok.mp h
      obtain ⟨-, rfl⟩ := Prod.mk.inj hreserve
      exact hd
  obtain ⟨rfl, rfl, hfresh⟩ := declare_run hdeclare hd₁
  obtain ⟨_, s₂, hreserve, h⟩ := bind_ok.mp h
  obtain ⟨rfl, rfl⟩ := pure_ok.mp h
  obtain ⟨-, rfl⟩ := Prod.mk.inj hreserve
  exact ⟨rfl, hfresh, rfl⟩

theorem collectValue_run {root : NodeId} {kind : DeclKind} {span : Span} {name : String}
    (h : collectValue root kind span name c s = (.ok (), s')) (hd : s'.diagnostics = []) :
    s.outline.Fresh (.plain name kind span) ∧
      s' = if name = Names.blank then s.adding (.plain name kind span)
        else { s.adding (.plain name kind span) with
          globals := s.globals.set name (.value root) } := by
  unfold collectValue at h
  obtain ⟨declared, s₁, hdeclare, h⟩ := bind_ok.mp h
  have hd₁ : s₁.diagnostics = [] := by
    revert h
    split
    · intro h
      obtain ⟨-, rfl⟩ := Prod.mk.inj h
      exact hd
    · intro h
      obtain ⟨-, rfl⟩ := pure_ok.mp h
      exact hd
  obtain ⟨rfl, rfl, hfresh⟩ := declare_run hdeclare hd₁
  refine ⟨hfresh, ?_⟩
  by_cases hname : name = Names.blank
  · rw [if_neg (by simp [hname])] at h
    obtain ⟨-, rfl⟩ := pure_ok.mp h
    rw [if_pos hname]
  · rw [if_pos (by simp [hname])] at h
    obtain ⟨-, rfl⟩ := Prod.mk.inj h
    rw [if_neg hname]
    rfl

/-! ## One statement after the other -/

theorem ranked_append {rank : Nat} {root : NodeId} :
    ranked c rank (done ++ [root]) =
      ranked c rank done ++ if rankOf? c root = some rank then [root] else [] := by
  unfold ranked
  rw [List.filter_append]
  congr 1
  by_cases h : rankOf? c root = some rank <;> simp [h]

theorem keys_map_nil (roots : List NodeId) :
    Places.keys (roots.map (·, ([] : List HostId))) = roots := by
  simp [Places.keys, Function.comp_def]

theorem fill_ranked {rank : Nat} {root : NodeId} (hroot : root ∉ done)
    (h : rankOf? c root = some rank) :
    Places.fill ((ranked c rank done).map (·, ([] : List HostId))) root [] =
      (ranked c rank (done ++ [root])).map (·, []) := by
  rw [Places.fill_of_not_mem, ranked_append, if_pos h]
  · simp
  · rw [keys_map_nil]
    exact fun hmem => hroot (List.mem_of_mem_filter hmem)

theorem nodup_snoc {root : NodeId} : (done ++ [root]).Nodup ↔ done.Nodup ∧ root ∉ done := by
  rw [← List.concat_eq_append, List.nodup_concat, and_comm]

/-- The place of a statement is kept. -/
theorem Placed.reserve {o : Outline NodeId HostId} {kind : DeclKind} {root : NodeId}
    (ho : done.Nodup → Placed c done o) (hnodup : (done ++ [root]).Nodup) (h : rankOf? c root = some kind.rank)
    (hkind : kind ≠ .entry) : Placed c (done ++ [root]) (o.reserve kind root) := by
  obtain ⟨hdone, hroot⟩ := nodup_snoc.mp hnodup
  have ho := ho hdone
  have hother {rank : Nat} (hne : rank ≠ kind.rank) :
      ranked c rank (done ++ [root]) = ranked c rank done := by
    rw [ranked_append, if_neg (by rw [h]; simpa using Ne.symm hne), List.append_nil]
  cases kind with
  | entry => exact absurd rfl hkind
  | type =>
    refine ⟨?_, ?_, ?_, ho.entry⟩
    · exact (congrArg (Places.fill · root []) ho.types).trans (fill_ranked hroot h)
    · rw [hother (by decide)]
      exact ho.constants
    · rw [hother (by decide)]
      exact ho.functions
  | const | var =>
    refine ⟨?_, ?_, ?_, ho.entry⟩
    · rw [hother (by decide)]
      exact ho.types
    · exact (congrArg (Places.fill · root []) ho.constants).trans (fill_ranked hroot h)
    · rw [hother (by decide)]
      exact ho.functions
  | func | method =>
    refine ⟨?_, ?_, ?_, ho.entry⟩
    · rw [hother (by decide)]
      exact ho.types
    · rw [hother (by decide)]
      exact ho.constants
    · exact (congrArg (Places.fill · root []) ho.functions).trans (fill_ranked hroot h)

theorem Placed.congr {o o' : Outline NodeId HostId} (ho : Placed c done o)
    (ht : o'.types = o.types) (hc : o'.constants = o.constants) (hf : o'.functions = o.functions)
    (he : o'.entry = o.entry) : Placed c done o' :=
  ⟨ht.trans ho.types, hc.trans ho.constants, hf.trans ho.functions, he.trans ho.entry⟩

theorem Placed.skip {o : Outline NodeId HostId} {root : NodeId}
    (ho : done.Nodup → Placed c done o) (h : rankOf? c root = none)
    (hnodup : (done ++ [root]).Nodup) : Placed c (done ++ [root]) o := by
  have ho := ho (nodup_snoc.mp hnodup).1
  have hsame (rank : Nat) : ranked c rank (done ++ [root]) = ranked c rank done := by
    rw [ranked_append, if_neg (by simp [h]), List.append_nil]
  exact ⟨(hsame 0) ▸ ho.types, (hsame 1) ▸ ho.constants, (hsame 2) ▸ ho.functions, ho.entry⟩

/-- A statement that declares no type is done when its declarations have been entered. -/
theorem Entered.finish {root : NodeId} (hs : Entered c done (declarationsOf c root) s)
    (hroot : ∀ name, declaresType c name root = false) : Entered c (done ++ [root]) [] s where
  sound := hs.sound
  declared := by simp [hs.declared]
  types name other hlast := by
    refine hs.types name other ?_
    rw [← hlast]
    simp [typesNamed, hroot]
  values := hs.values

theorem Untouched.congr (hs : Untouched s) (hp : s'.progress = s.progress)
    (hm : s'.methods = s.methods) (hh : s'.halted = s.halted) : Untouched s' :=
  ⟨hp.trans hs.progress, hm.trans hs.methods, hh.trans hs.halted⟩

theorem collected_import {path : String} {localName : Option String} {root : NodeId}
    (hroot : c.unit.stmt? root = some (.importPackage path localName))
    (hs : Collected c done s) (h : collectImport path localName c s = (.ok (), s')) :
    Collected c (done ++ [root]) s' := by
  have hfinish : Collected c (done ++ [root]) s := by
    refine ⟨Entered.finish ?_ (fun name => by simp [declaresType, hroot]),
      Placed.skip hs.placed ?_, hs.untouched⟩
    · rw [show declarationsOf c root = [] by simp [declarationsOf, hroot]]
      exact hs.entered
    · simp [rankOf?, hroot]
  obtain ⟨imports, rfl⟩ : ∃ imports, s' = { s with imports } := by
    unfold collectImport at h
    by_cases hname : localName.getD (packageName path) != Names.blank &&
        localName.getD (packageName path) != "."
    · rw [if_pos hname] at h
      obtain ⟨-, rfl⟩ := Prod.mk.inj h
      exact ⟨_, rfl⟩
    · rw [if_neg hname] at h
      obtain ⟨-, rfl⟩ := pure_ok.mp h
      exact ⟨s.imports, rfl⟩
  exact ⟨⟨hfinish.entered.sound, hfinish.entered.declared, hfinish.entered.types,
    hfinish.entered.values⟩, hfinish.placed, hfinish.untouched.congr rfl rfl rfl⟩

/-- A name is noted for the type that is declared last. -/
theorem Entered.setType {root : NodeId} {name : String} {type : Option TypeId}
    (hs : Entered c done (declarationsOf c root) s) (hname : declaresType c name root)
    (hother : ∀ other, other ≠ name → declaresType c other root = false) :
    Entered c (done ++ [root]) [] { s with globals := s.globals.set name (.type root type) } where
  sound := hs.sound
  declared := by simp [hs.declared]
  types other last hlast := by
    by_cases hne : other = name
    · subst hne
      obtain rfl : root = last := by simpa [typesNamed, hname] using hlast
      simp [State.declared?, Global.untyped]
    · simp only [State.declared?, lookup_set, if_neg hne]
      refine hs.types other last ?_
      rw [← hlast]
      simp [typesNamed, hother other hne]
  values other owner hlookup := by
    simp only [lookup_set] at hlookup
    split at hlookup
    · cases hlookup
    · exact hs.values other owner hlookup

theorem collectType_run {root : NodeId} {name : String} {isAlias : Bool} {span : Span}
    (h : collectType root name isAlias span c s = (.ok (), s')) (hd : s'.diagnostics = []) :
    s.outline.Fresh (.plain name .type span) ∧ ∃ type types,
      s' = { s.adding (.plain name .type span) with
        outline := (s.outline.adding (.plain name .type span)).reserve .type root
        types := types
        globals := s.globals.set name (.type root type) } := by
  unfold collectType at h
  obtain ⟨declared, s₁, hdeclare, h⟩ := bind_ok.mp h
  cases declared with
  | false =>
    obtain ⟨-, rfl⟩ := pure_ok.mp h
    cases (declareAt_run hdeclare hd).1
  | true =>
    obtain ⟨type, types, rfl⟩ : ∃ type types, s' = { s₁ with
        types := types, globals := s₁.globals.set name (.type root type) } := by
      cases isAlias with
      | true =>
        obtain ⟨-, rfl⟩ := Prod.mk.inj h
        exact ⟨_, _, rfl⟩
      | false =>
        obtain ⟨type, s₂, htype, h⟩ := bind_ok.mp h
        obtain ⟨-, rfl⟩ := Prod.mk.inj htype
        obtain ⟨-, rfl⟩ := Prod.mk.inj h
        exact ⟨_, _, rfl⟩
    obtain ⟨-, hfresh, rfl⟩ := declareAt_run hdeclare hd
    exact ⟨hfresh, type, types, rfl⟩

theorem collected_type {root : NodeId} {name : String} {type : NodeId} {isAlias : Bool}
    {doc : Option String} (hstmt : c.unit.stmt? root = some (.typeDecl name type isAlias doc))
    (hs : Collected c done s)
    (h : collectType root name isAlias (c.unit.span root) c s = (.ok (), s'))
    (hd : s'.diagnostics = []) : Collected c (done ++ [root]) s' := by
  obtain ⟨hfresh, found, types, rfl⟩ := collectType_run h hd
  have hdecl : declarationsOf c root = [.plain name .type (c.unit.span root)] := by
    simp [declarationsOf, hstmt]
  have hadded := hs.entered.adding hfresh
  have hkept : Entered c done (declarationsOf c root)
      { s.adding (.plain name .type (c.unit.span root)) with
        outline := (s.outline.adding (.plain name .type (c.unit.span root))).reserve .type root
        types := types } := by
    rw [hdecl]
    exact ⟨⟨hadded.sound.taken, hadded.sound.distinct⟩, hadded.declared, hadded.types,
      hadded.values⟩
  refine ⟨hkept.setType ?_ (fun other hne => ?_), fun hnodup => ?_,
    hs.untouched.congr rfl rfl rfl⟩
  · simp [declaresType, hstmt]
  · simpa [declaresType, hstmt] using Ne.symm hne
  · change Placed c (done ++ [root])
      ((s.outline.adding (.plain name .type (c.unit.span root))).reserve .type root)
    exact Placed.reserve (fun hdone => (hs.placed hdone).congr rfl rfl rfl rfl) hnodup
      (show rankOf? c root = some DeclKind.type.rank by simp [rankOf?, hstmt, DeclKind.rank])
      (by decide)

/-- What entering names leaves alone. -/
structure SamePlaces (s s' : State) : Prop where
  types : s'.outline.types = s.outline.types
  constants : s'.outline.constants = s.outline.constants
  functions : s'.outline.functions = s.outline.functions
  entry : s'.outline.entry = s.outline.entry
  progress : s'.progress = s.progress
  methods : s'.methods = s.methods
  halted : s'.halted = s.halted

theorem entered_value {root : NodeId} {kind : DeclKind} {span : Span} {name : String}
    (hs : Entered c done more s) (hroot : root ∈ s.outline.constants.keys)
    (hkind : (Declaration.plain name kind span).isRepeatable → name = Names.blank)
    (h : collectValue root kind span name c s = (.ok (), s')) (hd : s'.diagnostics = []) :
    Entered c done (more ++ [.plain name kind span]) s' ∧ SamePlaces s s' := by
  obtain ⟨hfresh, rfl⟩ := collectValue_run h hd
  have hadded := hs.adding hfresh
  by_cases hname : name = Names.blank
  · rw [if_pos hname]
    exact ⟨hadded, rfl, rfl, rfl, rfl, rfl, rfl, rfl⟩
  · rw [if_neg hname]
    have hfree : typesNamed c name done = [] :=
      hs.typesNamed_eq_nil hfresh rfl (by simpa using fun hr => hname (hkind hr))
    refine ⟨hadded.setGlobal hfree (fun other he => ?_), rfl, rfl, rfl, rfl, rfl, rfl, rfl⟩
    obtain rfl := Global.value.inj he
    exact hroot

theorem SamePlaces.trans {s₁ s₂ s₃ : State} (h₁ : SamePlaces s₁ s₂) (h₂ : SamePlaces s₂ s₃) :
    SamePlaces s₁ s₃ :=
  ⟨h₂.types.trans h₁.types, h₂.constants.trans h₁.constants, h₂.functions.trans h₁.functions,
    h₂.entry.trans h₁.entry, h₂.progress.trans h₁.progress, h₂.methods.trans h₁.methods,
    h₂.halted.trans h₁.halted⟩

theorem entered_values {root : NodeId} {kind : DeclKind} {span : Span} {names : List String}
    (hs : Entered c done more s) (hroot : root ∈ s.outline.constants.keys)
    (hkind : kind ≠ .func)
    (h : names.forM (collectValue root kind span) c s = (.ok (), s')) (hd : s'.diagnostics = []) :
    Entered c done (more ++ names.map (.plain · kind span)) s' ∧ SamePlaces s s' := by
  induction names generalizing s more with
  | nil =>
    obtain ⟨-, rfl⟩ := pure_ok.mp h
    exact ⟨by simpa using hs, rfl, rfl, rfl, rfl, rfl, rfl, rfl⟩
  | cons name names ih =>
    obtain ⟨_, s₁, hname, h⟩ := bind_ok.mp h
    have hrepeat (hr : (Declaration.plain name kind span).isRepeatable) : name = Names.blank := by
      simpa [Declaration.isRepeatable, Declaration.plain, hkind, Names.blank] using hr
    obtain ⟨hs₁, hsame₁⟩ := entered_value hs hroot hrepeat hname (diagnostics_nil h hd)
    obtain ⟨hs', hsame'⟩ := ih hs₁ (hsame₁.constants ▸ hroot) h
    exact ⟨by simpa using hs', hsame₁.trans hsame'⟩

theorem collected_values {root : NodeId} {kind : DeclKind} {names : List String}
    (hs : Collected c done s) (hkind : kind = .var ∨ kind = .const)
    (hdecl : declarationsOf c root = names.map (.plain · kind (c.unit.span root)))
    (hrank : rankOf? c root = some 1) (htype : ∀ name, declaresType c name root = false)
    (h : collectValues root kind names (c.unit.span root) c s = (.ok (), s'))
    (hd : s'.diagnostics = []) : Collected c (done ++ [root]) s' := by
  obtain ⟨_, s₁, hreserve, h⟩ := bind_ok.mp h
  obtain ⟨-, rfl⟩ := Prod.mk.inj hreserve
  have hreserved : s.outline.reserve kind root =
      { s.outline with constants := s.outline.constants.fill root [] } := by
    rcases hkind with rfl | rfl <;> rfl
  have hkind' : kind.rank = 1 ∧ kind ≠ .func ∧ kind ≠ .entry := by
    rcases hkind with rfl | rfl <;> decide
  have hkept : Entered c done [] { s with outline := s.outline.reserve kind root } := by
    rw [hreserved]
    exact ⟨⟨hs.entered.sound.taken, hs.entered.sound.distinct⟩, hs.entered.declared,
      hs.entered.types, fun name owner hlookup =>
        Places.mem_keys_fill.mpr (.inl (hs.entered.values name owner hlookup))⟩
  have hplace : root ∈ (s.outline.reserve kind root).constants.keys := by
    rw [hreserved]
    exact Places.mem_keys_fill.mpr (.inr rfl)
  obtain ⟨hentered, hsame⟩ := entered_values hkept hplace hkind'.2.1 h hd
  refine ⟨Entered.finish (hdecl ▸ hentered) htype, fun hnodup => ?_,
    hs.untouched.congr hsame.progress hsame.methods hsame.halted⟩
  have hplaced := Placed.reserve hs.placed hnodup (hkind'.1 ▸ hrank) hkind'.2.2
  exact hplaced.congr hsame.types hsame.constants hsame.functions hsame.entry

theorem collected_function {root : NodeId} {decl : FunctionDecl}
    (hstmt : c.unit.stmt? root = some (.function decl)) (hs : Collected c done s)
    (h : collectFunction root decl (c.unit.span root) c s = (.ok (), s'))
    (hd : s'.diagnostics = []) : Collected c (done ++ [root]) s' := by
  have htype (name : String) : declaresType c name root = false := by simp [declaresType, hstmt]
  have hrank : rankOf? c root = some 2 := by simp [rankOf?, hstmt]
  have hplaced (d : Declaration) (hkind : d.kind = .func ∨ d.kind = .method)
      (hnodup : (done ++ [root]).Nodup) :
      Placed c (done ++ [root]) ((s.outline.adding d).reserve d.kind root) := by
    refine Placed.reserve (fun hdone => (hs.placed hdone).congr rfl rfl rfl rfl) hnodup ?_ ?_
    · rcases hkind with h | h <;> rw [h, hrank] <;> rfl
    · rcases hkind with h | h <;> rw [h] <;> decide
  unfold collectFunction at h
  revert h
  cases hreceiver : decl.receiver with
  | some receiver =>
    intro h
    obtain ⟨text, s₁, hrun, h⟩ := bind_ok.mp h
    obtain ⟨htext, rfl⟩ := Prod.mk.inj hrun
    obtain rfl := Except.ok.inj htext
    obtain ⟨_, s₂, hdeclare, h⟩ := bind_ok.mp h
    obtain ⟨-, rfl⟩ := pure_ok.mp h
    obtain ⟨-, hfresh, rfl⟩ := declareAt_run hdeclare hd
    have hadded := hs.entered.adding hfresh
    refine ⟨Entered.finish ⟨⟨hadded.sound.taken, hadded.sound.distinct⟩, ?_, hadded.types,
      hadded.values⟩ htype, hplaced (.method _ decl.name (c.unit.span root)) (.inr rfl),
      hs.untouched.congr rfl rfl rfl⟩
    exact hadded.declared.trans (by simp [declarationsOf, hstmt, hreceiver])
  | none =>
    intro h
    have hdecl : declarationsOf c root = [.plain decl.name .func (c.unit.span root)] := by
      simp [declarationsOf, hstmt, hreceiver]
    obtain ⟨declared, s₁, hdeclare, h⟩ := bind_ok.mp h
    have hd₁ : s₁.diagnostics = [] := diagnostics_nil (m := if declared then
      if decl.name != Names.blank && decl.name != "init" then
        setGlobal decl.name (.func root none)
      else pure ()
      else pure ()) h hd
    obtain ⟨rfl, hfresh, rfl⟩ := declareAt_run hdeclare hd₁
    have hadded := hs.entered.adding hfresh
    have hkept : Entered c done (declarationsOf c root)
        { s.adding (.plain decl.name .func (c.unit.span root)) with
          outline := (s.outline.adding (.plain decl.name .func (c.unit.span root))).reserve
            .func root } := by
      rw [hdecl]
      exact ⟨⟨hadded.sound.taken, hadded.sound.distinct⟩, hadded.declared, hadded.types,
        hadded.values⟩
    have hplaces := hplaced (.plain decl.name .func (c.unit.span root)) (.inl rfl)
    by_cases hname : decl.name != Names.blank && decl.name != "init"
    · rw [if_pos rfl, if_pos hname] at h
      obtain ⟨-, rfl⟩ := Prod.mk.inj h
      have hfree : typesNamed c decl.name done = [] := by
        refine hs.entered.typesNamed_eq_nil hfresh rfl ?_
        simpa [Declaration.isRepeatable, Declaration.plain, Names.blank] using hname
      exact ⟨(hkept.setGlobal hfree (fun _ he => by cases he)).finish htype, hplaces,
        hs.untouched.congr rfl rfl rfl⟩
    · rw [if_pos rfl, if_neg hname] at h
      obtain ⟨-, rfl⟩ := pure_ok.mp h
      exact ⟨hkept.finish htype, hplaces, hs.untouched.congr rfl rfl rfl⟩

theorem collected_statement {root : NodeId} (hdecl : declarationsOf c root = [])
    (hrank : rankOf? c root = none) (htype : ∀ name, declaresType c name root = false)
    (hs : Collected c done s) :
    Collected c (done ++ [root]) { s with outline := s.outline.pushEntryStatement root } := by
  refine ⟨Entered.finish (hdecl ▸ ?_) htype, ?_, hs.untouched.congr rfl rfl rfl⟩
  · exact ⟨⟨hs.entered.sound.taken, hs.entered.sound.distinct⟩, hs.entered.declared,
      hs.entered.types, hs.entered.values⟩
  · exact Placed.skip (fun hdone => (hs.placed hdone).congr rfl rfl rfl rfl) hrank

theorem collected_functionRoot {root : NodeId} {decl : FunctionDecl} {sites sites' : EntrySites}
    (hstmt : c.unit.stmt? root = some (.function decl)) (hs : Collected c done s)
    (h : collectFunctionRoot root decl (c.unit.span root) sites c s = (.ok sites', s'))
    (hd : s'.diagnostics = []) : Collected c (done ++ [root]) s' := by
  obtain ⟨_, _, hread, h⟩ := bind_ok.mp h
  obtain ⟨hc, rfl⟩ := Prod.mk.inj hread
  obtain rfl := Except.ok.inj hc
  have hcollected {x : EntrySites}
      (h : (do collectFunction root decl (c.unit.span root); return x) c s = (.ok sites', s')) :
      Collected c (done ++ [root]) s' := by
    obtain ⟨_, s₁, hcollect, h⟩ := bind_ok.mp h
    obtain ⟨-, rfl⟩ := pure_ok.mp h
    exact collected_function hstmt hs hcollect hd
  revert h
  split
  · exact hcollected
  · cases sites.function with
    | none => exact hcollected
    | some previous =>
      cases c.settings.entryRole with
      | libraryInit => exact hcollected
      | executable =>
        intro h
        obtain ⟨_, s₁, hrecord, h⟩ := bind_ok.mp h
        obtain ⟨-, rfl⟩ := pure_ok.mp h
        obtain ⟨-, rfl⟩ := Prod.mk.inj hrecord
        simp at hd

theorem collected_root {root : NodeId} {sites sites' : EntrySites}
    (hs : Collected c done s) (h : collectRoot root sites c s = (.ok sites', s'))
    (hd : s'.diagnostics = []) : Collected c (done ++ [root]) s' := by
  obtain ⟨span, s₁, hrun, h⟩ := bind_ok.mp h
  obtain ⟨hspan, rfl⟩ := Prod.mk.inj hrun
  obtain rfl := Except.ok.inj hspan
  obtain ⟨_, _, hread, h⟩ := bind_ok.mp h
  obtain ⟨hc, rfl⟩ := Prod.mk.inj hread
  obtain rfl := Except.ok.inj hc
  have hbare (hstmt : declarationsOf c root = [] ∧ rankOf? c root = none ∧
      ∀ name, declaresType c name root = false)
      (h : (do
        onOutline (·.pushEntryStatement root)
        return { sites with statement := sites.statement.or (some (c.unit.span root)) } :
          Lower EntrySites) c s = (.ok sites', s')) : Collected c (done ++ [root]) s' := by
    obtain ⟨_, s₁, hpush, h⟩ := bind_ok.mp h
    obtain ⟨-, rfl⟩ := pure_ok.mp h
    obtain ⟨-, rfl⟩ := Prod.mk.inj hpush
    exact collected_statement hstmt.1 hstmt.2.1 hstmt.2.2 hs
  revert h
  cases hstmt : c.unit.stmt? root with
  | none => exact hbare (by simp [declarationsOf, rankOf?, declaresType, hstmt])
  | some statement =>
    cases statement with
    | importPackage path localName =>
      intro h
      obtain ⟨_, s₂, hcollect, h⟩ := bind_ok.mp h
      obtain ⟨-, rfl⟩ := pure_ok.mp h
      exact collected_import hstmt hs hcollect
    | typeDecl name type isAlias doc =>
      intro h
      obtain ⟨_, s₂, hcollect, h⟩ := bind_ok.mp h
      obtain ⟨-, rfl⟩ := pure_ok.mp h
      exact collected_type hstmt hs hcollect hd
    | varDecl spec =>
      intro h
      obtain ⟨_, s₂, hcollect, h⟩ := bind_ok.mp h
      obtain ⟨-, rfl⟩ := pure_ok.mp h
      exact collected_values hs (.inl rfl) (by simp [declarationsOf, hstmt])
        (by simp [rankOf?, hstmt]) (fun name => by simp [declaresType, hstmt]) hcollect hd
    | constDecl spec =>
      intro h
      obtain ⟨_, s₂, hcollect, h⟩ := bind_ok.mp h
      obtain ⟨-, rfl⟩ := pure_ok.mp h
      exact collected_values hs (.inr rfl) (by simp [declarationsOf, hstmt])
        (by simp [rankOf?, hstmt]) (fun name => by simp [declaresType, hstmt]) hcollect hd
    | function decl => exact fun h => collected_functionRoot hstmt hs h hd
    | _ => exact hbare (by simp [declarationsOf, rankOf?, declaresType, hstmt])

theorem collected_initial (c : Context) (types : TypeTable) :
    Collected c [] (.initial c.unit types) :=
  ⟨⟨Outline.sound_empty, rfl, fun _ _ h => (by cases h), fun _ _ h => (by cases h)⟩,
    fun _ => ⟨rfl, rfl, rfl, rfl⟩, ⟨rfl, rfl, rfl⟩⟩

theorem collected_roots {roots : List NodeId} {sites : EntrySites} {found : Option EntrySites}
    (hs : Collected c done s)
    (h : collectRoots roots sites c s = (.ok found, s')) (hd : s'.diagnostics = []) :
    Collected c (done ++ roots) s' ∧ found.isSome := by
  induction roots generalizing done s sites with
  | nil =>
    obtain ⟨rfl, rfl⟩ := pure_ok.mp h
    exact ⟨by simpa using hs, rfl⟩
  | cons root rest ih =>
    obtain ⟨_, _, hget, h⟩ := bind_ok.mp h
    obtain ⟨hc, rfl⟩ := Prod.mk.inj hget
    obtain rfl := Except.ok.inj hc
    rw [if_neg (by simp [hs.untouched.halted])] at h
    obtain ⟨sites', s₁, hroot, h⟩ := bind_ok.mp h
    rw [List.append_cons]
    exact ih (collected_root hs hroot (diagnostics_nil h hd)) h

/-! ## The entry function -/

theorem collectFunctionRoot_sites {root : NodeId} {decl : FunctionDecl} {span : Span}
    {sites sites' : EntrySites}
    (h : collectFunctionRoot root decl span sites c s = (.ok sites', s')) :
    sites'.function.isSome = (sites.function.isSome ||
      decl.receiver.isNone && decl.name == c.settings.entryRole.functionName) := by
  obtain ⟨_, _, hread, h⟩ := bind_ok.mp h
  obtain ⟨hc, rfl⟩ := Prod.mk.inj hread
  obtain rfl := Except.ok.inj hc
  revert h
  split
  · rename_i hother
    intro h
    obtain ⟨_, s₁, -, h⟩ := bind_ok.mp h
    obtain ⟨rfl, -⟩ := pure_ok.mp h
    have hnone : (decl.receiver.isNone && decl.name == c.settings.entryRole.functionName) = false := by
      rcases Bool.or_eq_true_iff.mp hother with h | h
      · simp [Option.isNone_eq_false_iff.mpr h]
      · simpa using fun _ => by simpa using h
    rw [hnone, Bool.or_false]
  · rename_i hentry
    have hsome : (decl.receiver.isNone && decl.name == c.settings.entryRole.functionName) = true := by
      simpa using hentry
    rw [hsome, Bool.or_true]
    cases hsite : sites.function with
    | none =>
      intro h
      obtain ⟨_, s₁, -, h⟩ := bind_ok.mp h
      obtain ⟨rfl, -⟩ := pure_ok.mp h
      rfl
    | some previous =>
      cases c.settings.entryRole with
      | libraryInit =>
        intro h
        obtain ⟨_, s₁, -, h⟩ := bind_ok.mp h
        obtain ⟨rfl, -⟩ := pure_ok.mp h
        rfl
      | executable =>
        intro h
        obtain ⟨_, s₁, -, h⟩ := bind_ok.mp h
        obtain ⟨rfl, -⟩ := pure_ok.mp h
        simp [hsite]

theorem collectRoot_sites {root : NodeId} {sites sites' : EntrySites}
    (h : collectRoot root sites c s = (.ok sites', s')) :
    sites'.function.isSome = (sites.function.isSome || isEntryFunction c root) := by
  obtain ⟨span, s₁, hrun, h⟩ := bind_ok.mp h
  obtain ⟨-, rfl⟩ := Prod.mk.inj hrun
  obtain ⟨_, _, hread, h⟩ := bind_ok.mp h
  obtain ⟨hc, rfl⟩ := Prod.mk.inj hread
  obtain rfl := Except.ok.inj hc
  have hsame {m : Lower Unit} {x : EntrySites} (hx : x.function = sites.function)
      (hentry : isEntryFunction c root = false)
      (h : (m >>= fun _ => pure x) c s = (.ok sites', s')) :
      sites'.function.isSome = (sites.function.isSome || isEntryFunction c root) := by
    obtain ⟨_, s₂, -, h⟩ := bind_ok.mp h
    obtain ⟨rfl, -⟩ := pure_ok.mp h
    rw [hentry, Bool.or_false, hx]
  revert h
  cases hstmt : c.unit.stmt? root with
  | none => exact hsame rfl (by simp [isEntryFunction, hstmt])
  | some statement =>
    cases statement with
    | function decl =>
      intro h
      rw [collectFunctionRoot_sites h]
      simp [isEntryFunction, hstmt]
    | _ => exact hsame rfl (by simp [isEntryFunction, hstmt])

theorem collectRoots_sites {roots : List NodeId} {sites sites' : EntrySites}
    (h : collectRoots roots sites c s = (.ok (some sites'), s')) :
    sites'.function.isSome = (sites.function.isSome || roots.any (isEntryFunction c)) := by
  induction roots generalizing s sites with
  | nil =>
    obtain ⟨he, -⟩ := pure_ok.mp h
    obtain rfl := Option.some.inj he
    simp
  | cons root rest ih =>
    obtain ⟨_, _, hget, h⟩ := bind_ok.mp h
    obtain ⟨hc, rfl⟩ := Prod.mk.inj hget
    obtain rfl := Except.ok.inj hc
    split at h
    · obtain ⟨he, -⟩ := pure_ok.mp h
      cases he
    · obtain ⟨sites₁, s₁, hroot, h⟩ := bind_ok.mp h
      rw [ih h, collectRoot_sites hroot, List.any_cons, Bool.or_assoc]

/-- What collecting leaves when nothing is reported. -/
theorem collected_collect {roots : List NodeId} {types : TypeTable}
    (h : collect roots c (.initial c.unit types) = (.ok (), s')) (hd : s'.diagnostics = []) :
    Collected c roots s' ∧ s'.explicitEntry = roots.any (isEntryFunction c) := by
  obtain ⟨found, s₁, hcollect, h⟩ := bind_ok.mp h
  have hcollected (hd : s₁.diagnostics = []) : Collected c roots s₁ ∧ found.isSome :=
    collected_roots (collected_initial c types) hcollect hd
  cases found with
  | none =>
    obtain ⟨-, rfl⟩ := pure_ok.mp h
    cases (hcollected hd).2
  | some sites =>
    obtain ⟨_, s₂, hmodify, h⟩ := bind_ok.mp h
    obtain ⟨-, rfl⟩ := Prod.mk.inj hmodify
    obtain rfl : s' = { s₁ with explicitEntry := sites.function.isSome } := by
      revert h
      cases sites.function with
      | none => exact fun h => (pure_ok.mp h).2.symm
      | some entry =>
        cases sites.statement with
        | none => exact fun h => (pure_ok.mp h).2.symm
        | some statement =>
          intro h
          obtain ⟨-, rfl⟩ := Prod.mk.inj h
          simp at hd
    have hs := (hcollected hd).1
    refine ⟨⟨⟨hs.entered.sound, hs.entered.declared, hs.entered.types, hs.entered.values⟩,
      fun hnodup => hs.placed hnodup, hs.untouched.congr rfl rfl rfl⟩, ?_⟩
    simpa using collectRoots_sites hcollect

end

end GoLowering.Lowering
