import GoLowering.Proofs.Descent
import GoLowering.Proofs.GroundedDeclarations
import GoLowering.Proofs.MarkerVisits
import GoLowering.Proofs.Situations

/-!
# Termination

The declarations of a unit without cyclic syntax are lowered by walks that are never at their end:
names, types and values may need each other in any way, but what needs itself is reported where it
is needed again (`walks_end`). Nor is a type ever spelled out without end, as the table stays in
order from a table that is built by requests on, nor the tree visited without end when the markers
are set (`lowering_terminates`).
-/

namespace GoLowering

namespace Lowering

open Surface

variable {c : Context} {P : Standing → Prop} {σ₀ : Standing} {A : NodeId → Prop} {walk walk' : Walk}

/-! ## Declarations and walks that agree -/

instance agrees_attempt {α : Type} {part part' : Lower α} [h : Agrees c P part part'] :
    Agrees c P (attempt part) (attempt part') := by
  refine ⟨fun s hs => ?_⟩
  obtain ⟨heq, hs'⟩ := h.run s hs
  refine ⟨by rw [run_attempt, run_attempt, heq], ?_⟩
  rw [run_attempt]
  exact hs'

instance agrees_reporting {part part' : Lower Unit} [Agrees c P part part'] :
    Agrees c P (reporting part) (reporting part') := by
  unfold reporting
  refine Agrees.before (fun result => ?_)
  cases result <;> infer_instance

theorem agrees_forEachRoot {step step' : NodeId → Lower Unit} {roots : List NodeId}
    (h : ∀ root ∈ roots, Agrees c P (step root) (step' root)) :
    Agrees c P (forEachRoot step roots) (forEachRoot step' roots) := by
  induction roots with
  | nil =>
    unfold forEachRoot
    infer_instance
  | cons root rest ih =>
    have := h root List.mem_cons_self
    have := ih (fun other hother => h other (List.mem_cons_of_mem root hother))
    unfold forEachRoot
    exact .get (fun s => inferInstance)

/-- The type of a function is noted where the function is known by its name. -/
instance agrees_setFunctionType (root : NodeId) (name : String) (type : TypeId) :
    Agrees c (Onward σ₀) (setFunctionType root name type) (setFunctionType root name type) := by
  refine ⟨fun s hs => ?_⟩
  unfold setFunctionType
  refine .get ?_
  split
  · rename_i owner before found
    split
    · exact ⟨rfl, hs.trans (.setGlobal found rfl)⟩
    · exact ⟨rfl, hs⟩
  · exact ⟨rfl, hs⟩

section

variable [Closed c A] [walk.Agrees c (Onward σ₀) A walk']

instance agrees_lowerDefinition (name : String) (type : NodeId) [Above A type] (isAlias : Bool)
    (span : Span) :
    Agrees c (Onward σ₀) (lowerDefinition walk name type isAlias span)
      (lowerDefinition walk' name type isAlias span) := by
  unfold lowerDefinition
  split
  · infer_instance
  · refine Agrees.before (fun definition => ?_)
    refine .get (fun s => ?_)
    split <;> infer_instance

instance agrees_lowerTypeRoot (root : NodeId) [Opens c A root] :
    Agrees c (Onward σ₀) (lowerTypeRoot walk root) (lowerTypeRoot walk' root) := by
  unfold lowerTypeRoot
  refine .read ?_
  split
  · rename_i name type isAlias doc hstmt
    have : Above A type := ⟨(above_stmt hstmt).holds⟩
    exact .get (fun s => inferInstance)
  · infer_instance

instance agrees_lowerMethodHead (decl : FunctionDecl) (receiver : Receiver) [Above A receiver]
    (signature : HostSignature) (type : TypeId) :
    Agrees c (Onward σ₀) (lowerMethodHead walk decl receiver signature type)
      (lowerMethodHead walk' decl receiver signature type) := by
  have entered (base : TypeId) : Additive (keeping (Onward σ₀)) (modify (fun s => { s with
      methods := s.methods ++ [(base, ⟨decl.name, type, receiver.pointer⟩)] }) : Lower Unit) :=
    keeping_modify (fun _ => rfl)
  unfold lowerMethodHead
  refine .read ?_
  dsimp only
  refine Agrees.before (fun base => ?_)
  infer_instance

instance agrees_lowerHead (root : NodeId) (decl : FunctionDecl) [Above A decl] :
    Agrees c (Onward σ₀) (lowerHead walk root decl) (lowerHead walk' root decl) := by
  have hreceiver : Above A decl.receiver := inferInstance
  unfold lowerHead
  refine Agrees.before (fun (signature, type) => ?_)
  dsimp only
  generalize decl.receiver = receiver at hreceiver
  cases receiver with
  | none => exact Agrees.before (fun _ => .read inferInstance)
  | some receiver =>
    have : Above A receiver := above_optionMem rfl
    infer_instance

theorem agrees_lowerHeads {roots : List NodeId} [∀ root, Opens c A root] (heads : FunctionHeads) :
    Agrees c (Onward σ₀) (lowerHeads walk roots heads) (lowerHeads walk' roots heads) := by
  induction roots generalizing heads with
  | nil =>
    unfold lowerHeads
    infer_instance
  | cons root rest ih =>
    unfold lowerHeads
    refine .get (fun s => ?_)
    split
    · infer_instance
    · refine .read ?_
      split
      · rename_i decl hstmt
        have : Above A decl := ⟨(above_stmt hstmt).holds⟩
        refine Agrees.before (fun result => ?_)
        cases result with
        | ok head => exact ih _
        | error failure => exact Agrees.before (fun _ => ih _)
      · exact ih _

instance agrees_lowerFunctionBody (decl : FunctionDecl) [Above A decl] (head : FunctionHead)
    (span : Span) :
    Agrees c (Onward σ₀) (lowerFunctionBody walk decl head span)
      (lowerFunctionBody walk' decl head span) := by
  have hbody : Above A decl.body := inferInstance
  unfold lowerFunctionBody
  generalize decl.body = body at hbody
  cases body with
  | none => infer_instance
  | some body =>
    have : Above A body := above_optionMem rfl
    infer_instance

instance agrees_lowerFunctionRoot (heads : FunctionHeads) (root : NodeId) [Opens c A root] :
    Agrees c (Onward σ₀) (lowerFunctionRoot walk heads root)
      (lowerFunctionRoot walk' heads root) := by
  unfold lowerFunctionRoot
  refine .read ?_
  split
  · rename_i decl head hstmt hhead
    have : Above A decl := ⟨(above_stmt hstmt).holds⟩
    infer_instance
  · infer_instance

omit [Closed c A] [walk.Agrees c (Onward σ₀) A walk'] in
theorem agrees_lowerValueRoot {root : NodeId}
    (value : ∀ name span, Agrees c (Onward σ₀) (walk.value root name span)
      (walk'.value root name span)) :
    Agrees c (Onward σ₀) (lowerValueRoot walk root) (lowerValueRoot walk' root) := by
  unfold lowerValueRoot
  refine .read ?_
  split
  · split <;> infer_instance
  · split <;> infer_instance
  · infer_instance

instance agrees_lowerEntryPhase [all : ∀ statements : List NodeId, Above A statements] :
    Agrees c (Onward σ₀) (lowerEntryPhase walk) (lowerEntryPhase walk') := by
  have (statements : List NodeId) :
      Agrees c (Onward σ₀) (lowerEntry walk statements) (lowerEntry walk' statements) := by
    unfold lowerEntry
    refine .read ?_
    dsimp only
    refine .read ?_
    split <;> infer_instance
  unfold lowerEntryPhase
  refine .get (fun s => ?_)
  exact .read inferInstance

end

/-! ## Collection -/

/-- The names of a unit are known, and nothing has happened to them yet. -/
structure Gathered (c : Context) (σ : Standing) : Prop extends Known c σ where
  history : σ.history = []

/-- What a name may be declared as at a top-level statement. -/
structure Declares (c : Context) (name : String) (global : Global) : Prop where
  type : ∀ root type, global = .type root type → root ∈ c.unit.roots ∧
    ∃ target isAlias doc, c.unit.stmt? root = some (.typeDecl name target isAlias doc)
  value : ∀ root, global = .value root → root ∈ c.unit.roots

theorem agrees_setGlobal {name : String} {global : Global} (h : Declares c name global) :
    Agrees c (Gathered c) (setGlobal name global) (setGlobal name global) := by
  refine ⟨fun s hs => ⟨rfl, ⟨fun other root type hlookup => ?_, fun other root hlookup => ?_⟩,
    hs.history⟩⟩
  · change (s.globals.set name global).lookup other = _ at hlookup
    by_cases he : other = name
    · rw [he, Keyed.lookup_set_self] at hlookup
      exact he ▸ h.type root type (Option.some.inj hlookup)
    · rw [Keyed.lookup_set_of_ne he] at hlookup
      exact hs.types other root type hlookup
  · change (s.globals.set name global).lookup other = _ at hlookup
    by_cases he : other = name
    · rw [he, Keyed.lookup_set_self] at hlookup
      exact h.value root (Option.some.inj hlookup)
    · rw [Keyed.lookup_set_of_ne he] at hlookup
      exact hs.values other root hlookup

instance keeping_declare (declaration : Declaration) :
    Additive (keeping P) (declare declaration) := by
  have entered (o : Outline NodeId HostId) : Additive (keeping P)
      (modify (fun s => { s with outline := o }) : Lower Unit) :=
    keeping_modify (fun _ => rfl)
  unfold declare
  refine keeps_getting (fun s => ?_)
  split <;> infer_instance

instance keeping_declareAt (root : NodeId) (declaration : Declaration) :
    Additive (keeping P) (declareAt root declaration) := by
  unfold declareAt
  infer_instance

instance keeping_collectImport (path : String) (localName : Option String) :
    Additive (keeping P) (collectImport path localName) := by
  unfold collectImport
  dsimp only
  split
  · exact keeping_modify (fun _ => rfl)
  · infer_instance

section

variable {root : NodeId} (hroot : root ∈ c.unit.roots)
include hroot

theorem agrees_collectType {name : String} {target : NodeId} {isAlias : Bool} {doc : Option String}
    (hstmt : c.unit.stmt? root = some (.typeDecl name target isAlias doc)) (span : Span) :
    Agrees c (Gathered c) (collectType root name isAlias span)
      (collectType root name isAlias span) := by
  have known (type : Option TypeId) : Agrees c (Gathered c) (setGlobal name (.type root type))
      (setGlobal name (.type root type)) :=
    agrees_setGlobal ⟨fun _ _ h => by cases h; exact ⟨hroot, _, _, _, hstmt⟩, nofun⟩
  unfold collectType
  infer_instance

theorem agrees_collectValues (kind : DeclKind) (names : List String) (span : Span) :
    Agrees c (Gathered c) (collectValues root kind names span)
      (collectValues root kind names span) := by
  have value (name : String) : Agrees c (Gathered c) (collectValue root kind span name)
      (collectValue root kind span name) := by
    have known : Agrees c (Gathered c) (setGlobal name (.value root))
        (setGlobal name (.value root)) :=
      agrees_setGlobal ⟨nofun, fun _ h => by cases h; exact hroot⟩
    unfold collectValue
    infer_instance
  have values : Agrees c (Gathered c) (names.forM (collectValue root kind span))
      (names.forM (collectValue root kind span)) := by
    induction names with
    | nil => exact agrees_self (m := pure _)
    | cons name rest ih => exact agrees_bind
  unfold collectValues
  infer_instance

end

instance agrees_collectFunction (root : NodeId) (decl : FunctionDecl) (span : Span) :
    Agrees c (Gathered c) (collectFunction root decl span) (collectFunction root decl span) := by
  have known : Agrees c (Gathered c) (setGlobal decl.name (.func root none))
      (setGlobal decl.name (.func root none)) :=
    agrees_setGlobal ⟨nofun, nofun⟩
  unfold collectFunction
  split <;> infer_instance

instance agrees_collectFunctionRoot (root : NodeId) (decl : FunctionDecl) (span : Span)
    (sites : EntrySites) :
    Agrees c (Gathered c) (collectFunctionRoot root decl span sites)
      (collectFunctionRoot root decl span sites) := by
  unfold collectFunctionRoot
  refine .read ?_
  dsimp only
  split
  · infer_instance
  · split <;> infer_instance

theorem agrees_collectRoot {root : NodeId} (hroot : root ∈ c.unit.roots) (sites : EntrySites) :
    Agrees c (Gathered c) (collectRoot root sites) (collectRoot root sites) := by
  unfold collectRoot
  refine Agrees.before (fun span => .read ?_)
  split
  · infer_instance
  · rename_i hstmt
    have := agrees_collectType hroot hstmt span
    infer_instance
  · have := agrees_collectValues hroot .var
    infer_instance
  · have := agrees_collectValues hroot .const
    infer_instance
  · infer_instance
  · infer_instance

theorem agrees_collectRoots {roots : List NodeId} (hroots : roots ⊆ c.unit.roots)
    (sites : EntrySites) :
    Agrees c (Gathered c) (collectRoots roots sites) (collectRoots roots sites) := by
  induction roots generalizing sites with
  | nil =>
    unfold collectRoots
    infer_instance
  | cons root rest ih =>
    obtain ⟨hroot, hrest⟩ := List.cons_subset.mp hroots
    have := agrees_collectRoot hroot sites
    have := ih hrest
    unfold collectRoots
    exact .get (fun s => inferInstance)

/-- Once the names of a unit are collected they stand for its top-level statements. -/
theorem gathered_collect (c : Context) (types : TypeTable) :
    Gathered c (collect c.unit.roots c (.initial c.unit types)).2.standing := by
  have h : Agrees c (Gathered c) (collect c.unit.roots) (collect c.unit.roots) := by
    have := agrees_collectRoots (c := c) (List.Subset.refl _) ⟨none, none⟩
    have entry (sites : EntrySites) : Additive (keeping (Gathered c))
        (modify (fun s => { s with explicitEntry := sites.function.isSome }) : Lower Unit) :=
      keeping_modify (fun _ => rfl)
    unfold collect
    refine Agrees.before (fun found => ?_)
    split
    · infer_instance
    · refine Agrees.before (fun _ => ?_)
      split
      · exact .read inferInstance
      · infer_instance
  refine (h.run _ ⟨⟨fun _ _ _ hlookup => ?_, fun _ _ hlookup => ?_⟩, rfl⟩).kept
  · cases hlookup
  · cases hlookup

/-! ## Main result -/

/-- The phases that come after the collection of names. -/
def lowerCollected (walk : Walk) (roots : List NodeId) : Lower Unit := do
  forEachRoot (lowerTypeRoot walk) roots
  let heads ← lowerHeads walk roots []
  forEachRoot (lowerValueRoot walk) roots
  forEachRoot (lowerFunctionRoot walk heads) roots
  if !(← get).halted then lowerEntryPhase walk

theorem depthNeeded_lt_depthBound (unit : SourceUnit) :
    depthNeeded unit (2 * unit.roots.length) (unit.nodes.size + 1) + 1 < depthBound unit := by
  unfold depthNeeded depthBound
  rw [Nat.mul_add (4 * unit.nodes.size + 4) (2 * unit.roots.length) 2]
  omega

section

variable {D D' : Nat} (hD : depthBound c.unit ≤ D) (hD' : depthBound c.unit ≤ D')
include hD hD'

/-- A declaration of values can be lowered by a walk of the depth of the unit, too. -/
theorem agrees_value_depthBound (acyclic : c.unit.Acyclic) (known : Known c σ₀) {root : NodeId}
    (hroot : root ∈ c.unit.roots) (name : String) (span : Span) :
    Agrees c (Onward σ₀) ((walkWithin D).value root name span)
      ((walkWithin D').value root name span) := by
  have hneed := depthNeeded_lt_depthBound c.unit
  obtain ⟨d, rfl⟩ := Nat.exists_eq_add_one_of_ne_zero (n := D) (by omega)
  obtain ⟨d', rfl⟩ := Nat.exists_eq_add_one_of_ne_zero (n := D') (by omega)
  refine agrees_ensureValue known hroot (fun σ known _ => ?_) name span
  have := agrees_walkWithin acyclic known remaining_le (c.unit.nodes.size + 1)
    (show _ < d by omega) (show _ < d' by omega)
  have closed : Closed c (Beneath c.unit (c.unit.nodes.size + 1)) := closed_beneath acyclic
  have : Opens c (Beneath c.unit (c.unit.nodes.size + 1)) root :=
    ⟨closed.closed root (Nat.lt_succ_of_le (SourceUnit.height_le acyclic root))⟩
  exact agrees_lowerGlobalValue root

/-- After the collection of names all is done by walks that are deep enough. -/
theorem agrees_lowerCollected (acyclic : c.unit.Acyclic) (known : Known c σ₀) :
    Agrees c (Onward σ₀) (lowerCollected (walkWithin D) c.unit.roots)
      (lowerCollected (walkWithin D') c.unit.roots) := by
  have hneed := depthNeeded_lt_depthBound c.unit
  have : (walkWithin D).Agrees c (Onward σ₀) (Beneath c.unit (c.unit.nodes.size + 1))
      (walkWithin D') :=
    agrees_walkWithin acyclic known remaining_le _ (by omega) (by omega)
  have closed : Closed c (Beneath c.unit (c.unit.nodes.size + 1)) := closed_beneath acyclic
  have all (id : NodeId) : Beneath c.unit (c.unit.nodes.size + 1) id :=
    Nat.lt_succ_of_le (SourceUnit.height_le acyclic id)
  have opens (root : NodeId) : Opens c (Beneath c.unit (c.unit.nodes.size + 1)) root :=
    ⟨closed.closed root (all root)⟩
  have above (statements : List NodeId) :
      Above (Beneath c.unit (c.unit.nodes.size + 1)) statements :=
    ⟨fun id _ => all id⟩
  unfold lowerCollected
  refine (agrees_forEachRoot (fun root _ => agrees_lowerTypeRoot root)).bind (fun _ => ?_)
  refine (agrees_lowerHeads []).bind (fun heads => ?_)
  refine (agrees_forEachRoot (fun root hroot => ?_)).bind (fun _ => ?_)
  · exact agrees_lowerValueRoot (agrees_value_depthBound hD hD' acyclic known hroot)
  refine (agrees_forEachRoot (fun root _ => agrees_lowerFunctionRoot heads root)).bind (fun _ => ?_)
  exact .get (fun s => inferInstance)

end

theorem run_lowerDeclarations {walk : Walk} {roots : List NodeId} {s s₁ : State}
    (h : collect roots c s = (.ok (), s₁)) :
    lowerDeclarations walk roots c s = lowerCollected walk roots c s₁ := by
  unfold lowerDeclarations
  rw [run_bind, h]
  rfl

/-- Walks of the depth of a unit and beyond it lower its declarations alike, and none of them is
ever at its end. -/
theorem lowerDeclarations_deep (acyclic : c.unit.Acyclic) (types : TypeTable) {depth : Nat}
    (hdepth : depthBound c.unit ≤ depth) :
    lowerDeclarations (walkWithin depth) c.unit.roots c (.initial c.unit types) =
      lowerDeclarations (walkWithin (depthBound c.unit)) c.unit.roots c (.initial c.unit types) ∧
    .exhausted ∉ (State.final c types).history := by
  have hanswers : Answers (collect c.unit.roots) := inferInstance
  obtain ⟨_, s₁, hcollect⟩ := hanswers.ok c (.initial c.unit types)
  have gathered : Gathered c s₁.standing := by
    have h := gathered_collect c types
    rwa [hcollect] at h
  obtain ⟨heq, hkept⟩ := (agrees_lowerCollected (Nat.le_refl _) hdepth acyclic gathered.toKnown).run
    s₁ (.refl _)
  refine ⟨by rw [run_lowerDeclarations hcollect, run_lowerDeclarations hcollect, heq], ?_⟩
  have hfinal : State.final c types =
      (lowerCollected (walkWithin (depthBound c.unit)) c.unit.roots c s₁).2 :=
    congrArg Prod.snd (run_lowerDeclarations hcollect)
  obtain ⟨events, hevents, hnot⟩ := hkept.history
  rw [← hfinal] at hevents
  rw [show (State.final c types).history = _ from hevents, gathered.history]
  exact hnot

/-- The declarations of a unit without cyclic syntax are lowered to their end, whatever names, types
and values need each other: no walk is ever at its end, so walks that may go deeper, however deep,
do the same. What needs itself has been reported where it was needed again. -/
theorem walks_end (c : Context) (types : TypeTable) (acyclic : c.unit.Acyclic) :
    .exhausted ∉ (State.final c types).history ∧
    (∀ depth ≥ depthBound c.unit,
      lowerDeclarations (walkWithin depth) c.unit.roots c (.initial c.unit types) =
        (.ok (), State.final c types)) ∧
    (∀ name span, .aliasNeeded name span true ∈ (State.final c types).history →
      (Problem.initializationCycle name).report span ∈ (State.final c types).diagnostics) ∧
    (∀ root name span, .valueNeeded root name span (some .started) ∈
        (State.final c types).history →
      (Problem.initializationCycle name).report span ∈ (State.final c types).diagnostics) := by
  have hreports (event : Event) (hevent : event ∈ (State.final c types).history)
      (failure : Failure) (hcycle : event.cycle? = some failure) :
      failure.report ∈ (State.final c types).diagnostics :=
    ((logged_final c types).cycles event hevent failure hcycle).resolve_left nofun
  refine ⟨(lowerDeclarations_deep acyclic types (Nat.le_refl _)).2, fun depth hdepth => ?_,
    fun name span hevent => hreports _ hevent _ rfl,
    fun root name span hevent => hreports _ hevent _ rfl⟩
  have hanswers : Answers (lowerDeclarations (walkWithin depth) c.unit.roots) :=
    answers_lowerDeclarations c.unit.roots
  obtain ⟨_, s', hrun⟩ := hanswers.ok c (.initial c.unit types)
  have hfinal : State.final c types = s' := by
    have h := (lowerDeclarations_deep acyclic types hdepth).1
    rw [hrun] at h
    exact (congrArg Prod.snd h).symm
  rw [hrun, hfinal]

/-! ## Types spelled out -/

/-- The types that a unit is lowered with: a table that is built by requests has all types that are
given with the unit, and the methods of its interfaces are of function types. -/
structure Context.StartsWith (c : Context) (types : TypeTable) : Prop where
  built : ∃ requests, TypeTable.initial.Admits requests ∧
    (TypeTable.initial.performAll requests).2 = types
  given : ∀ id ∈ c.types, id.index < types.size
  functions : types.MethodsAreFunctions

/-- The table of a lowered unit is in order, and so is every table that has grown into it. -/
theorem Context.StartsWith.ordered {types t : TypeTable} (starts : c.StartsWith types)
    (hgrows : t.Grows (State.final c types).types) : t.Ordered := by
  obtain ⟨requests, hadmitted, hbuilt⟩ := starts.built
  have hcanonical : types.Canonical :=
    hbuilt ▸ TypeTable.canonical_initial.performAll hadmitted
  have hinitial : TypeTable.initial.size ≤ types.size := by
    by_contra hlt
    have hlast := TypeTable.initial.keeps_performAll requests ⟨types.size⟩ (Nat.not_le.mp hlt)
    rw [hbuilt] at hlast
    exact absurd hlast.1 (Nat.lt_irrefl _)
  have hfinal := grounded_final hinitial hcanonical starts.functions starts.given
  exact (hfinal.canonical.ordered hfinal.functions).of_grows hgrows

/-- The lowering of a unit without cyclic syntax comes to its end: no walk is ever at its end, and
what needs itself has been reported where it was needed again. As the table only grows, each text of
a type and each name of an embedded one that is put together on the way is complete, too: no greater
depth adds anything to it. Nor is the visit that sets the markers ever at its end. -/
theorem lowering_terminates (c : Context) (types : TypeTable) (acyclic : c.unit.Acyclic)
    (starts : c.StartsWith types) :
    .exhausted ∉ (State.final c types).history ∧
    (∀ depth ≥ depthBound c.unit,
      lowerDeclarations (walkWithin depth) c.unit.roots c (.initial c.unit types) =
        (.ok (), State.final c types)) ∧
    (∀ name span, .aliasNeeded name span true ∈ (State.final c types).history →
      (Problem.initializationCycle name).report span ∈ (State.final c types).diagnostics) ∧
    (∀ root name span, .valueNeeded root name span (some .started) ∈
        (State.final c types).history →
      (Problem.initializationCycle name).report span ∈ (State.final c types).diagnostics) ∧
    (∀ t : TypeTable, t.Grows (State.final c types).types →
      (∀ id, ∀ depth ≥ t.depthBound, t.textWithin depth id = t.format id) ∧
      ∀ id, ∀ steps ≥ t.size, embeddedName t steps id = embeddedName t t.size id) ∧
    Marking.IsDeepEnough (State.final c types).tree := by
  obtain ⟨hwalks, hdepth, haliases, hvalues⟩ := walks_end c types acyclic
  refine ⟨hwalks, hdepth, haliases, hvalues, fun t hgrows => ?_,
    (sound_final c types).formed.isDeepEnough⟩
  have hordered := starts.ordered hgrows
  exact ⟨fun id depth hle => hordered.textWithin_eq_format hle id,
    fun id steps hle => hordered.embeddedName_of_size_le hle id⟩

/-- `type A = [x]int` before `const x = A{}`. -/
def cycleSample : Context :=
  .sample
    [.expr (.identifier "x"), .type (.named none "int"), .type (.array (some ⟨0⟩) ⟨1⟩),
      .stmt (.typeDecl "A" ⟨2⟩ true none), .type (.named none "A"),
      .expr (.composite (some ⟨4⟩) []), .stmt (.constDecl ⟨["x"], none, [⟨5⟩], none⟩)]
    [⟨3⟩, ⟨6⟩]

/-- The length of the array needs the constant, which needs the array. -/
theorem lowering_terminates_sample :
    cycleSample.unit.Acyclic ∧ cycleSample.StartsWith .initial ∧
    .exhausted ∉ (State.final cycleSample .initial).history ∧
    (Problem.initializationCycle "A").report .synthetic ∈
      (State.final cycleSample .initial).diagnostics :=
  have acyclic := SourceUnit.acyclic_of_isOrdered (show cycleSample.unit.isOrdered by decide +kernel)
  have starts : cycleSample.StartsWith .initial :=
    ⟨⟨[], trivial, rfl⟩, by decide +kernel, by decide +kernel⟩
  have h := lowering_terminates cycleSample .initial acyclic starts
  ⟨acyclic, starts, h.1, h.2.2.1 "A" .synthetic (by decide +kernel)⟩

end Lowering

end GoLowering
