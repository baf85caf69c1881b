import GoLowering.Proofs.FormedDeclarations
import GoLowering.Proofs.GroundedStatements

/-!
# Units within the table

The phases of a lowering keep the table in order and the types that are named in it, whatever fails
on the way: a declaration that is demanded leaves the function around as it was, and the heads of
functions have the types that their bodies are lowered with. So the table of a lowered unit is in
order whenever the table is that it begins with (`grounded_final`).
-/

namespace GoLowering.Lowering

open Surface

set_option synthInstance.maxSize 1000

variable {c : Context} {Γ : Fact} {walk : Walk} [walk.Grounds c] {root : NodeId} {span : Span}

/-! ## Roots -/

theorem grounds_forEachRoot {step : NodeId → Lower Unit} {roots : List NodeId}
    (hstep : ∀ root Δ [Yields Δ Γ], Grounds c Δ (step root) (fun _ => .nothing)) :
    Grounds c Γ (forEachRoot step roots) (fun _ => .nothing) := by
  suffices hall : ∀ Δ [Yields Δ Γ], Grounds c Δ (forEachRoot step roots) (fun _ => .nothing) from
    hall Γ
  induction roots with
  | nil => exact fun Δ _ => .pure yields_nothing
  | cons root rest ih =>
    intro Δ _
    unfold forEachRoot
    refine .skip (fun s => ?_)
    split
    · infer_instance
    · exact (hstep root Δ).bind (fun _ => ih (Δ.and .nothing))

instance typeless_setOutline (outline : Outline NodeId HostId) :
    Typeless (modify (fun s => { s with outline := outline }) : Lower Unit) :=
  typeless_modify (fun _ => rfl) (fun _ => rfl) (fun _ => rfl)

/-! ## Names -/

instance typeless_declare (declaration : Declaration) : Typeless (declare declaration) := by
  unfold declare
  refine .before (fun s => ?_)
  split <;> infer_instance

instance typeless_declareAt (root : NodeId) (declaration : Declaration) :
    Typeless (declareAt root declaration) := by
  unfold declareAt
  infer_instance

instance typeless_collectImport (path : String) (localName : Option String) :
    Typeless (collectImport path localName) := by
  have (imports : State → Keyed String String) :
      Typeless (modify (fun s => { s with imports := imports s }) : Lower Unit) :=
    typeless_modify (fun _ => rfl) (fun _ => rfl) (fun _ => rfl)
  unfold collectImport
  dsimp only
  infer_instance

instance brings_collectType {name : String} {isAlias : Bool} :
    Brings c Γ (collectType root name isAlias span) (fun _ => .nothing) := by
  constructor
  unfold collectType
  dsimp only
  infer_instance

instance inTables_globalValue : Yields Γ (.inTables (Global.value root).types) := yields_nil

instance inTables_globalFunction {type : Option TypeId} [h : Yields Γ (.inTables type.toList)] :
    Yields Γ (.inTables (Global.func root type).types) :=
  h

instance brings_collectValue {kind : DeclKind} {name : String} :
    Brings c Γ (collectValue root kind span name) (fun _ => .nothing) := by
  constructor
  unfold collectValue
  infer_instance

instance brings_collectValues {kind : DeclKind} {names : List String} :
    Brings c Γ (collectValues root kind names span) (fun _ => .nothing) := by
  constructor
  unfold collectValues
  have : Yields Γ (.each (fun _ => .nothing) names) := ⟨fun _ _ _ => trivial⟩
  exact .skip (fun _ => .forM (fun _ => .nothing) (fun name _ Δ => inferInstance))

instance brings_collectFunction {decl : FunctionDecl} :
    Brings c Γ (collectFunction root decl span) (fun _ => .nothing) := by
  constructor
  unfold collectFunction
  split <;> infer_instance

instance brings_collectFunctionRoot {decl : FunctionDecl} {sites : EntrySites} :
    Brings c Γ (collectFunctionRoot root decl span sites) (fun _ => .nothing) := by
  constructor
  unfold collectFunctionRoot
  refine .read ?_
  dsimp only
  split
  · infer_instance
  · split <;> infer_instance

instance brings_collectRoot {sites : EntrySites} :
    Brings c Γ (collectRoot root sites) (fun _ => .nothing) := by
  constructor
  unfold collectRoot
  refine .skip (fun span => .read ?_)
  split <;> infer_instance

instance brings_collectRoots {roots : List NodeId} {sites : EntrySites} :
    Brings c Γ (collectRoots roots sites) (fun _ => .nothing) := by
  constructor
  induction roots generalizing Γ sites with
  | nil => exact .pure yields_nothing
  | cons root rest ih =>
    unfold collectRoots
    refine .skip (fun s => ?_)
    split
    · infer_instance
    · exact brings_collectRoot.grounds.bind (fun sites => ih)

instance brings_collect {roots : List NodeId} : Brings c Γ (collect roots) (fun _ => .nothing) := by
  have (explicit : Bool) :
      Typeless (modify (fun s => { s with explicitEntry := explicit }) : Lower Unit) :=
    typeless_modify (fun _ => rfl) (fun _ => rfl) (fun _ => rfl)
  constructor
  unfold collect
  refine brings_collectRoots.grounds.bind (fun sites => ?_)
  split
  · infer_instance
  · refine .skip (fun _ => ?_)
    split <;> infer_instance

/-! ## Types -/

instance brings_lowerDefinition {name : String} {type : NodeId} {isAlias : Bool} :
    Brings c Γ (lowerDefinition walk name type isAlias span) .inTable := by
  constructor
  unfold lowerDefinition
  split
  · infer_instance
  · refine (Walk.Grounds.type Γ type).grounds.bind (fun definition => .skip (fun s => ?_))
    split <;> infer_instance

theorem grounds_lowerTypeRoot : Grounds c Γ (lowerTypeRoot walk root) (fun _ => .nothing) := by
  unfold lowerTypeRoot
  refine .read ?_
  split
  · refine .skip (fun s => ?_)
    split
    · exact .reporting inferInstance
    · infer_instance
  · infer_instance

/-! ## Functions -/

/-- The types that the body of a function is lowered with. -/
abbrev Fact.head (head : FunctionHead) : Fact :=
  (Fact.each (fun p => .inTable p.type) head.receiver.toList).and (.hostSignature head.signature)

abbrev Fact.heads (heads : FunctionHeads) : Fact := each (fun entry => .head entry.2) heads

instance brings_setFunctionType {name : String} {type : TypeId} [Yields Γ (.inTable type)] :
    Brings c Γ (setFunctionType root name type) (fun _ => .nothing) := by
  constructor
  unfold setFunctionType
  refine .skip (fun s => ?_)
  split <;> infer_instance

instance brings_addMethod {receiver : TypeId} {method : Method}
    [h : Yields Γ (.inTable method.sig)] :
    Brings c Γ (modify (fun s => { s with methods := s.methods ++ [(receiver, method)] }) :
      Lower Unit) (fun _ => .nothing) :=
  ⟨⟨fun hs hΓ => ⟨⟨.refl _, .refl _⟩, hs.addMethod (hs.index_lt (h.of hΓ)), fun _ _ => trivial⟩⟩⟩

instance brings_lowerMethodHead {decl : FunctionDecl} {receiver : Receiver}
    {signature : HostSignature} {type : TypeId} [h : Yields Γ (.hostSignature signature)]
    [Yields Γ (.inTable type)] :
    Brings c Γ (lowerMethodHead walk decl receiver signature type) .head := by
  have hparams : Yields Γ (.each (fun p => .inTable p.type) signature.params) :=
    ⟨fun hs => (h.of hs).1⟩
  have hresults : Yields Γ (.each (fun p => .inTable p.type) signature.results) :=
    ⟨fun hs => (h.of hs).2⟩
  constructor
  unfold lowerMethodHead
  refine .skip (fun _ => ?_)
  dsimp only
  infer_instance

instance brings_lowerHead {decl : FunctionDecl} : Brings c Γ (lowerHead walk root decl) .head := by
  constructor
  unfold lowerHead
  refine brings_lowerSignature.grounds.bind (fun signature => ?_)
  dsimp only
  split <;> infer_instance

instance brings_lowerHeads {roots : List NodeId} {heads : FunctionHeads}
    [h : Yields Γ (.heads heads)] : Brings c Γ (lowerHeads walk roots heads) .heads := by
  constructor
  induction roots generalizing Γ heads with
  | nil => exact .pure h
  | cons root rest ih =>
    unfold lowerHeads
    refine .skip (fun s => ?_)
    split
    · infer_instance
    · refine .skip (fun _ => ?_)
      split
      · refine brings_lowerHead.grounds.attempt.bind (fun head => ?_)
        split
        · rename_i head
          have : Yields (Γ.and (.each .head (Except.ok head : Except Failure _).toOption.toList))
              (.heads (heads.set root head)) := by
            refine ⟨fun hs entry hentry => ?_⟩
            rcases Keyed.mem_set hentry with hold | rfl
            · exact h.of hs.1 entry hold
            · exact hs.2 head List.mem_cons_self
          exact ih
        · exact .skip (fun _ => ih)
      · exact ih

instance brings_lowerFunctionBody {decl : FunctionDecl} {head : FunctionHead}
    [h : Yields Γ (.head head)] :
    Brings c Γ (lowerFunctionBody walk decl head span) (fun _ => .nothing) := by
  have hreceiver : Yields Γ (.each (fun p => .inTable p.type) head.receiver.toList) :=
    ⟨fun hs => (h.of hs).1⟩
  have hparams : Yields Γ (.each (fun p => .inTable p.type) head.signature.params) :=
    ⟨fun hs => (h.of hs).2.1⟩
  have hresults : Yields Γ (.each (fun p => .inTable p.type) head.signature.results) :=
    ⟨fun hs => (h.of hs).2.2⟩
  constructor
  unfold lowerFunctionBody
  split
  · infer_instance
  · exact .inFrame (.inFunction inferInstance)

theorem grounds_lowerFunctionRoot {heads : FunctionHeads} [h : Yields Γ (.heads heads)] :
    Grounds c Γ (lowerFunctionRoot walk heads root) (fun _ => .nothing) := by
  unfold lowerFunctionRoot
  refine .skip (fun _ => ?_)
  split
  · rename_i decl head _ hhead
    have : Yields Γ (.head head) := ⟨fun hs => h.of hs _ (Keyed.mem_of_lookup hhead)⟩
    exact .reporting inferInstance
  · infer_instance

/-! ## Values -/

instance brings_lowerGlobalSpec {spec : ValueSpec} {kind : DeclKind} :
    Brings c Γ (lowerGlobalSpec walk root spec kind) (fun _ => .nothing) := by
  constructor
  unfold lowerGlobalSpec
  refine .skip (fun span => brings_lowerValueSpec.grounds.bind (fun decl => ?_))
  refine (Grounds.forM (fun entry => .inTable entry.2.type) (fun entry _ Δ => inferInstance)).bind
    (fun _ => ?_)
  split <;> infer_instance

instance brings_lowerGlobalValue :
    Brings c Γ (lowerGlobalValue walk root) (fun _ => .nothing) := by
  constructor
  unfold lowerGlobalValue
  refine .skip (fun s => .skip (fun _ => .read ?_))
  split <;> infer_instance

instance brings_ensureValue {name : String} :
    Brings c Γ (ensureValue walk root name span) (fun _ => .nothing) := by
  constructor
  unfold ensureValue
  refine .skip (fun s => ?_)
  dsimp only
  refine .skip (fun _ => ?_)
  split
  · infer_instance
  · infer_instance
  · infer_instance
  · refine .skip (fun _ => brings_lowerGlobalValue.grounds.atPackageLevel.attempt.bind (fun r => ?_))
    split <;> infer_instance

theorem grounds_lowerValueRoot : Grounds c Γ (lowerValueRoot walk root) (fun _ => .nothing) := by
  unfold lowerValueRoot
  refine .read ?_
  split
  all_goals first
    | infer_instance
    | split
      · infer_instance
      · exact .reporting inferInstance

/-! ## Entry -/

theorem grounds_lowerEntry {statements : List NodeId} :
    Grounds c Γ (lowerEntry walk statements) (fun _ => .nothing) := by
  unfold lowerEntry
  refine .skip (fun _ => .skip (fun _ => ?_))
  dsimp only
  have hbody {Δ : Fact} {name : String} : Grounds c Δ
      (inFrame name (inFunction .function [] (lowerStatements walk statements)))
      (fun _ => .nothing) :=
    .inFrame (.inFunction inferInstance)
  split
  · exact .skip (fun origin => hbody.bind (fun body => inferInstance))
  · exact .skip (fun origin => hbody.bind (fun body => inferInstance))

theorem grounds_lowerEntryPhase : Grounds c Γ (lowerEntryPhase walk) (fun _ => .nothing) := by
  unfold lowerEntryPhase
  refine .skip (fun s => .skip (fun _ => ?_))
  split
  · exact grounds_lowerEntry.reporting
  · infer_instance

/-! ## Units -/

instance typeless_exhaust {α : Type} : Typeless (exhaust : Lower α) := by
  have : Typeless (throw .endless : Lower α) := ⟨fun _ s => .refl s⟩
  unfold exhaust
  infer_instance

instance walk_grounds (c : Context) (depth : Nat) : (walkWithin depth).Grounds c := by
  induction depth with
  | zero =>
    have brings {Γ : Fact} {α : Type} {P : α → Fact} : Brings c Γ (exhaust : Lower α) P :=
      ⟨.failing⟩
    exact ⟨fun _ _ _ _ => brings, fun _ _ => brings, fun _ _ => brings, fun _ _ => brings,
      fun _ _ _ _ => brings⟩
  | succ depth ih => exact ⟨fun _ _ _ _ => brings_lowerExpr, fun _ _ => brings_lowerStmt,
      fun _ _ => brings_lowerType, fun _ _ => brings_lowerType, fun _ _ _ _ => brings_ensureValue⟩

theorem grounds_lowerDeclarations {roots : List NodeId} :
    Grounds c Γ (lowerDeclarations walk roots) (fun _ => .nothing) := by
  unfold lowerDeclarations
  refine brings_collect.grounds.bind (fun _ => ?_)
  refine (grounds_forEachRoot (fun _ _ _ => grounds_lowerTypeRoot)).bind (fun _ => ?_)
  refine brings_lowerHeads.grounds.bind (fun heads => ?_)
  refine (grounds_forEachRoot (fun _ _ _ => grounds_lowerValueRoot)).bind (fun _ => ?_)
  refine (grounds_forEachRoot (fun _ Δ hΔ => ?_)).bind (fun _ => .skip (fun s => ?_))
  · have : Yields Δ (.heads heads) := ⟨fun hs => (hΔ.of hs).1.2⟩
    exact grounds_lowerFunctionRoot
  · split
    · exact grounds_lowerEntryPhase
    · infer_instance

/-- The table of a lowered unit is in order, and has all types that are named in the end. -/
theorem grounded_final {types : TypeTable} (hinitial : TypeTable.initial.size ≤ types.size)
    (hcanonical : types.Canonical) (hfunctions : types.MethodsAreFunctions)
    (hcontext : ∀ id ∈ c.types, id.index < types.size) : (State.final c types).Grounded c := by
  have hbegin : (State.initial c.unit types).Grounded c :=
    ⟨hinitial, hcanonical, hfunctions, hcontext, fun id hid =>
      absurd (show id ∈ ([] : List TypeId) from hid) List.not_mem_nil⟩
  exact ((grounds_lowerDeclarations (Γ := .nothing)).run hbegin trivial).grounded

end GoLowering.Lowering
