import GoLowering.Proofs.BalancedDeclarations
import GoLowering.Proofs.FormedStatements
import GoLowering.Proofs.Phases

/-!
# Units and nodes

All nodes that the lowering of a unit makes fit, at whatever depth its walk ends and also where
declarations fail (`sound_final`). What is put out is there.
-/

namespace GoLowering

namespace Lowering

open Surface

set_option synthInstance.maxSize 1000

variable {c : Context} {Γ : Fact} {α β : Type} {span : Span}

/-! ## Reports -/

/-- A part that is tried forms nodes also where it fails. -/
theorem Forms.attempt {m : Lower α} {f : Except Failure α → Lower β} {P : α → Fact} {R : β → Fact}
    (hm : Forms c Γ m P) (hok : ∀ a, Forms c (Γ.and (P a)) (f (.ok a)) R)
    (herror : ∀ failure, Forms c Γ (f (.error failure)) R) :
    Forms c Γ (attempt m >>= f) R := by
  refine ⟨fun {s} hs hΓ => ?_⟩
  have h := hm.run hs hΓ
  rw [run_bind, run_attempt]
  rcases hrun : m c s with ⟨r, s₁⟩
  rw [hrun] at h
  have hafter := Γ.stays h.precedes hΓ
  have hrest : Forming c s₁ R (f r c s₁) := by
    cases r with
    | ok a => exact (hok a).run h.sound ⟨hafter, h.result a rfl⟩
    | error failure => exact (herror failure).run h.sound hafter
  exact ⟨h.precedes.trans hrest.precedes, hrest.sound, hrest.result⟩

instance idle_recordFailure (failure : Failure) : Idle (recordFailure failure) := by
  have (g : State → List Diagnostic) (b : State → Bool) :
      Idle (modify (fun s => { s with diagnostics := g s, halted := b s }) : Lower Unit) :=
    idle_modify (fun _ => rfl) (fun _ => rfl) (fun _ => rfl) (fun _ => rfl)
  unfold recordFailure
  infer_instance

instance provides_reporting {m : Lower Unit} {P : Unit → Fact} [h : Provides c Γ m P] :
    Provides c Γ (reporting m) (fun _ => .nothing) := by
  constructor
  unfold reporting
  exact h.forms.attempt (fun _ => inferInstance) (fun failure => inferInstance)

/-! ## Names -/

instance idle_setGlobal (name : String) (global : Global) : Idle (setGlobal name global) :=
  idle_modifyGlobals _

/-- A change of the outline that puts nothing out. -/
theorem idle_onOutline {f : Outline NodeId HostId → Outline NodeId HostId}
    (h : ∀ s : State, ({ s with outline := f s.outline } : State).output = s.output) :
    Idle (onOutline f) :=
  idle_modify (fun _ => rfl) (fun _ => rfl) h (fun _ => rfl)

instance idle_reserve (kind : DeclKind) (root : NodeId) : Idle (onOutline (·.reserve kind root)) :=
  idle_onOutline (fun s => by
    cases kind <;> simp only [State.output, Outline.reserve, Outline.fillAll, Outline.typeOutput,
      Outline.constantOutput, Outline.functionOutput, Places.values_fill_nil])

instance idle_pushEntryStatement (root : NodeId) : Idle (onOutline (·.pushEntryStatement root)) :=
  idle_onOutline (fun _ => rfl)

instance idle_declare (declaration : Declaration) : Idle (declare declaration) := by
  refine ⟨fun c s => ?_⟩
  unfold declare
  rw [run_get]
  rcases houtline : s.outline.declare declaration with previous | outline
  · have : Idle (do
        recordFailure (.found (.redeclared declaration.name previous.span) declaration.span)
        return false : Lower Bool) := inferInstance
    exact this.run c s
  · refine ⟨rfl, rfl, ?_, .refl _⟩
    unfold Outline.declare at houtline
    split at houtline
    · obtain rfl := Except.ok.inj houtline
      rfl
    · split at houtline
      · cases houtline
      · obtain rfl := Except.ok.inj houtline
        rfl

instance idle_declareAt (root : NodeId) (declaration : Declaration) :
    Idle (declareAt root declaration) := by
  unfold declareAt
  refine .before (fun declared => ?_)
  dsimp only
  infer_instance

instance idle_collectImport (path : String) (localName : Option String) :
    Idle (collectImport path localName) := by
  have (name : String) :
      Idle (modify (fun s => { s with imports := s.imports.set name path }) : Lower Unit) :=
    idle_modify (fun _ => rfl) (fun _ => rfl) (fun _ => rfl) (fun _ => rfl)
  unfold collectImport
  dsimp only
  infer_instance

instance idle_collectType (root : NodeId) (name : String) (isAlias : Bool) (span : Span) :
    Idle (collectType root name isAlias span) := by
  unfold collectType
  refine .before (fun declared => ?_)
  dsimp only
  split
  · split <;> infer_instance
  · infer_instance

instance idle_collectValue (root : NodeId) (kind : DeclKind) (span : Span) (name : String) :
    Idle (collectValue root kind span name) := by
  unfold collectValue
  infer_instance

instance idle_collectValues (root : NodeId) (kind : DeclKind) (names : List String) (span : Span) :
    Idle (collectValues root kind names span) := by
  unfold collectValues
  infer_instance

instance idle_collectFunction (root : NodeId) (decl : FunctionDecl) (span : Span) :
    Idle (collectFunction root decl span) := by
  unfold collectFunction
  split <;> infer_instance

instance idle_collectFunctionRoot (root : NodeId) (decl : FunctionDecl) (span : Span)
    (sites : EntrySites) : Idle (collectFunctionRoot root decl span sites) := by
  unfold collectFunctionRoot
  refine .before (fun c => ?_)
  dsimp only
  split
  · infer_instance
  · split <;> infer_instance

instance idle_collectRoot (root : NodeId) (sites : EntrySites) :
    Idle (collectRoot root sites) := by
  unfold collectRoot
  refine .before (fun span => .before (fun c => ?_))
  split <;> infer_instance

instance idle_collectRoots (roots : List NodeId) (sites : EntrySites) :
    Idle (collectRoots roots sites) := by
  induction roots generalizing sites with
  | nil => exact idle_reads (m := pure _)
  | cons root rest ih =>
    unfold collectRoots
    infer_instance

instance idle_collect (roots : List NodeId) : Idle (collect roots) := by
  have (explicit : Bool) :
      Idle (modify (fun s => { s with explicitEntry := explicit }) : Lower Unit) :=
    idle_modify (fun _ => rfl) (fun _ => rfl) (fun _ => rfl) (fun _ => rfl)
  unfold collect
  refine .before (fun found => ?_)
  split
  · infer_instance
  · refine .before (fun _ => ?_)
    split <;> infer_instance

/-! ## Output -/

theorem mem_output_fill {s : State} {kind : DeclKind} {root : NodeId} {node id : HostId}
    (h : id ∈ ({ s with outline := s.outline.fill kind root node } : State).output) :
    id = node ∨ id ∈ s.output := by
  have hfill (places : Places NodeId HostId) (h : id ∈ (places.fill root [node]).values) :
      id = node ∨ id ∈ places.values :=
    (Places.mem_values_fill.mp h).imp_left List.mem_singleton.mp
  have htypes := hfill s.outline.types
  have hconstants := hfill s.outline.constants
  have hfunctions := hfill s.outline.functions
  cases kind <;>
    simp only [State.output, Outline.fill, Outline.fillAll, Outline.typeOutput,
      Outline.constantOutput, Outline.functionOutput, List.mem_append] at h ⊢ <;>
    tauto

instance provides_fill {kind : DeclKind} {root : NodeId} {node : HostId}
    [h : Yields Γ (.node node)] :
    Provides c Γ (onOutline (·.fill kind root node)) (fun _ => .nothing) := by
  refine ⟨⟨fun {s} hs hΓ => ⟨⟨.refl _, .refl _⟩, ⟨hs.formed, hs.hoisted, fun id hid => ?_⟩,
    fun _ _ => trivial⟩⟩⟩
  rcases mem_output_fill hid with rfl | hid
  · exact show id.index < s.tree.size from h.of hΓ
  · exact hs.output id hid

instance provides_setEntry {declaration : Declaration} {node : HostId}
    [h : Yields Γ (.node node)] :
    Provides c Γ (onOutline (·.setEntry declaration node)) (fun _ => .nothing) := by
  refine ⟨⟨fun {s} hs hΓ => ⟨⟨.refl _, .refl _⟩, ⟨hs.formed, hs.hoisted, fun id hid => ?_⟩,
    fun _ _ => trivial⟩⟩⟩
  rcases List.mem_append.mp hid with hvalue | hfunction
  · exact hs.output id (List.mem_append_left _ hvalue)
  · rcases List.mem_append.mp hfunction with hfunction | hentry
    · exact hs.output id (List.mem_append_right _ (List.mem_append_left _ hfunction))
    · obtain rfl := List.mem_singleton.mp hentry
      exact show id.index < s.tree.size from h.of hΓ

/-! ## Values -/

section

variable {walk : Walk} [walk.Forms c]

theorem forms_lowerGlobalSpec {root : NodeId} {spec : ValueSpec} {kind : DeclKind}
    (hnames : ∀ name ∈ spec.names, c.Declares name) :
    Forms c Γ (lowerGlobalSpec walk root spec kind) (fun _ => .nothing) := by
  unfold lowerGlobalSpec
  refine .skip (fun span => (forms_lowerValueSpec hnames).bind (fun decl => .skip (fun _ => ?_)))
  obtain ⟨node, symbols⟩ := decl
  cases node <;> infer_instance

instance provides_lowerGlobalValue {root : NodeId} :
    Provides c Γ (lowerGlobalValue walk root) (fun _ => .nothing) := by
  constructor
  unfold lowerGlobalValue
  refine .skip (fun s => .skip (fun _ => .read ?_))
  split
  · rename_i hstmt
    exact forms_lowerGlobalSpec (fun name hname => .of_stmt hstmt hname)
  · rename_i hstmt
    exact forms_lowerGlobalSpec (fun name hname => .of_stmt hstmt hname)
  · infer_instance

instance idle_setProgress (root : NodeId) (progress : Progress) :
    Idle (setProgress root progress) :=
  idle_modify (fun _ => rfl) (fun _ => rfl) (fun _ => rfl) (fun _ => rfl)

instance provides_ensureValue {root : NodeId} {name : String} :
    Provides c Γ (ensureValue walk root name span) (fun _ => .nothing) := by
  constructor
  unfold ensureValue
  refine .skip (fun s => .skip (fun _ => ?_))
  split
  · infer_instance
  · infer_instance
  · infer_instance
  · refine .skip (fun _ => ?_)
    exact provides_lowerGlobalValue.forms.atPackageLevel.attempt (fun _ => inferInstance)
      (fun failure => inferInstance)

end

/-! ## The walk -/

instance idle_exhaust : Idle (exhaust : Lower α) := ⟨fun _ _ => ⟨rfl, rfl, rfl, .refl _⟩⟩

instance forms_walkWithin (depth : Nat) : (walkWithin depth).Forms c := by
  induction depth with
  | zero =>
    have h {α : Type} {Γ : Fact} {P : α → Fact} : Provides c Γ (exhaust : Lower α) P :=
      ⟨inferInstance⟩
    exact ⟨fun _ _ _ => h, fun _ _ => h, fun _ _ => h, fun _ _ => h, fun _ _ _ _ => h⟩
  | succ depth ih =>
    exact ⟨fun _ _ _ => provides_lowerExpr, fun _ _ => provides_lowerStmt,
      fun _ _ => provides_lowerType, fun _ _ => provides_lowerType,
      fun _ _ _ _ => provides_ensureValue⟩

/-! ## Types -/

section

variable {walk : Walk} [walk.Forms c] {root : NodeId} {decl : FunctionDecl}

instance provides_lowerDefinition {name : String} {type : NodeId} {isAlias : Bool} :
    Provides c Γ (lowerDefinition walk name type isAlias span) (fun _ => .nothing) := by
  constructor
  unfold lowerDefinition
  split
  · infer_instance
  · refine (Walk.Forms.type Γ type).forms.bind (fun definition => .skip (fun s => ?_))
    dsimp only
    split <;> infer_instance

instance provides_lowerTypeRoot : Provides c Γ (lowerTypeRoot walk root) (fun _ => .nothing) := by
  constructor
  unfold lowerTypeRoot
  refine .read ?_
  split
  · rename_i name type isAlias doc hstmt
    have {Γ : Fact} {type : TypeId} : Yields Γ (.fits c (.typeDecl name type isAlias doc)) :=
      yields_typeDecl (.of_stmt hstmt List.mem_cons_self)
    have {Γ : Fact} : Provides c Γ (do
        let span ← spanOf root
        let definition ← lowerDefinition walk name type isAlias span
        let decl ← place (.typeDecl name definition isAlias doc) span
        onOutline (·.fill .type root decl)) (fun _ => .nothing) := ⟨inferInstance⟩
    infer_instance
  · infer_instance

/-! ## Functions -/

/-- What is known about a function declares names of the source, or of the entry. -/
def Context.HeadDeclares (c : Context) (decl : FunctionDecl) (head : FunctionHead) : Prop :=
  ∀ body doc, ∀ name ∈ (HostKind.function
    ⟨head.receiver, decl.name, head.signature, body, doc⟩).names, c.Declares name

instance idle_setFunctionType (root : NodeId) (name : String) (type : TypeId) :
    Idle (setFunctionType root name type) := by
  unfold setFunctionType
  refine .before (fun s => ?_)
  split <;> infer_instance

theorem forms_lowerHead (hdecl : c.unit.stmt? root = some (.function decl)) :
    Forms c Γ (lowerHead walk root decl) (fun head => .known (c.HeadDeclares decl head)) := by
  have hnames : ∀ name ∈ c.unit.stmtNames (.function decl), c.Declares name := fun name hname =>
    .of_stmt hdecl hname
  dsimp only [SourceUnit.stmtNames] at hnames
  unfold lowerHead
  refine provides_lowerSignature.forms.bind (fun signature => ?_)
  refine .knowing (p := ∀ name ∈ signature.1.names, c.Declares name) (fun hsignature => ?_)
  dsimp only
  split
  · rename_i receiver hreceiver
    rw [hreceiver] at hnames
    have hmodify (base type : TypeId) : Idle (modify (fun s => { s with
        methods := s.methods ++ [(base, ⟨decl.name, type, receiver.pointer⟩)] }) : Lower Unit) :=
      idle_modify (fun _ => rfl) (fun _ => rfl) (fun _ => rfl) (fun _ => rfl)
    have hhead {type : TypeId} {frame : String} :
        c.HeadDeclares decl ⟨some ⟨receiver.name, type⟩, signature.1, frame⟩ := fun _ _ =>
      List.forall_mem_append.mpr ⟨hnames, hsignature⟩
    have {Γ : Fact} {type : TypeId} {frame : String} : Yields Γ
        (.known (c.HeadDeclares decl ⟨some ⟨receiver.name, type⟩, signature.1, frame⟩)) :=
      ⟨fun _ => hhead⟩
    unfold lowerMethodHead
    infer_instance
  · rename_i hreceiver
    rw [hreceiver] at hnames
    have {Γ : Fact} {frame : String} :
        Yields Γ (.known (c.HeadDeclares decl ⟨none, signature.1, frame⟩)) :=
      ⟨fun _ _ _ => List.forall_mem_cons.mpr ⟨hnames _ List.mem_cons_self, hsignature⟩⟩
    infer_instance

/-- All heads of functions declare names of the source. -/
def Context.HeadsDeclare (c : Context) (heads : FunctionHeads) : Prop :=
  ∀ root decl head, c.unit.stmt? root = some (.function decl) → heads.lookup root = some head →
    c.HeadDeclares decl head

theorem Context.HeadsDeclare.set {heads : FunctionHeads} {head : FunctionHead}
    (h : c.HeadsDeclare heads) (hdecl : c.unit.stmt? root = some (.function decl))
    (hhead : c.HeadDeclares decl head) : c.HeadsDeclare (heads.set root head) := by
  intro other decl' head' hdecl' hlookup
  by_cases hroot : other = root
  · subst hroot
    rw [Keyed.lookup_set_self] at hlookup
    obtain rfl := Option.some.inj hlookup
    obtain rfl := Stmt.function.inj (Option.some.inj (hdecl.symm.trans hdecl'))
    exact hhead
  · rw [Keyed.lookup_set_of_ne hroot] at hlookup
    exact h other decl' head' hdecl' hlookup

theorem forms_lowerHeads (roots : List NodeId) : ∀ heads, c.HeadsDeclare heads →
    ∀ Γ, Forms c Γ (lowerHeads walk roots heads) (fun heads => .known (c.HeadsDeclare heads)) := by
  induction roots with
  | nil => exact fun heads hheads Γ => .pure ⟨fun _ => hheads⟩
  | cons root rest ih =>
    intro heads hheads Γ
    unfold lowerHeads
    refine .skip (fun s => ?_)
    split
    · exact .pure ⟨fun _ => hheads⟩
    · refine .read ?_
      split
      · rename_i decl hdecl
        refine (forms_lowerHead hdecl).attempt (fun head => ?_)
          (fun failure => .skip (fun _ => ih heads hheads _))
        refine .knowing (p := c.HeadDeclares decl head) (fun hhead => ?_)
        exact ih _ (hheads.set hdecl hhead) _
      · exact ih heads hheads Γ

instance provides_lowerFunctionBody {head : FunctionHead} :
    Provides c Γ (lowerFunctionBody walk decl head span) .node := by
  constructor
  unfold lowerFunctionBody
  split
  · infer_instance
  · exact .inFrame (.inFunction inferInstance)

theorem forms_lowerFunctionRoot {heads : FunctionHeads} (hheads : c.HeadsDeclare heads) :
    Forms c Γ (lowerFunctionRoot walk heads root) (fun _ => .nothing) := by
  unfold lowerFunctionRoot
  refine .read ?_
  split
  · rename_i decl head hdecl hhead
    have {Γ : Fact} {body : HostId} [Yields Γ (.node body)] : Yields Γ (.fits c
        (.function ⟨head.receiver, decl.name, head.signature, body, decl.doc⟩)) :=
      yields_function (hheads root decl head hdecl hhead body decl.doc)
    have {Γ : Fact} : Provides c Γ (do
        let span ← spanOf root
        let body ← lowerFunctionBody walk decl head span
        let node ← place
          (.function ⟨head.receiver, decl.name, head.signature, body, decl.doc⟩) span
        let kind := if decl.receiver.isSome then DeclKind.method else .func
        onOutline (·.fill kind root node)) (fun _ => .nothing) := ⟨by dsimp only; infer_instance⟩
    infer_instance
  · infer_instance

instance provides_lowerValueRoot : Provides c Γ (lowerValueRoot walk root) (fun _ => .nothing) := by
  have {Γ : Fact} {name : String} : Provides c Γ (do walk.value root name (← spanOf root))
      (fun _ => .nothing) := ⟨inferInstance⟩
  constructor
  unfold lowerValueRoot
  refine .read ?_
  split
  · split <;> infer_instance
  · split <;> infer_instance
  · infer_instance

/-! ## Entry -/

instance provides_lowerEntry {statements : List NodeId} :
    Provides c Γ (lowerEntry walk statements) (fun _ => .nothing) := by
  have {Γ : Fact} {name : String} :
      Provides c Γ (inFrame name (inFunction .function [] (lowerStatements walk statements)))
        (.each .node) :=
    ⟨.inFrame (.inFunction provides_lowerStatements.forms)⟩
  have {Γ : Fact} {body : HostId} [Yields Γ (.node body)] : Yields Γ (.fits c
      (.function ⟨none, c.settings.entryRole.functionName, ⟨[], [], false⟩, body, none⟩)) :=
    yields_function (List.forall_mem_singleton.mpr (.entry rfl))
  constructor
  unfold lowerEntry
  refine .read (.read ?_)
  dsimp only
  split <;> infer_instance

instance provides_lowerEntryPhase : Provides c Γ (lowerEntryPhase walk) (fun _ => .nothing) := by
  constructor
  unfold lowerEntryPhase
  refine .skip (fun s => .read ?_)
  infer_instance

/-! ## Phases -/

theorem forms_forEachRoot {step : NodeId → Lower Unit} (roots : List NodeId)
    (h : ∀ root Γ, Forms c Γ (step root) (fun _ => .nothing)) :
    ∀ Γ, Forms c Γ (forEachRoot step roots) (fun _ => .nothing) := by
  induction roots with
  | nil => exact fun Γ => .pure yields_nothing
  | cons root rest ih =>
    intro Γ
    unfold forEachRoot
    refine .skip (fun s => ?_)
    split
    · infer_instance
    · exact (h root Γ).bind (fun _ => ih _)

theorem forms_lowerDeclarations (roots : List NodeId) :
    Forms c Γ (lowerDeclarations walk roots) (fun _ => .nothing) := by
  unfold lowerDeclarations
  refine .skip (fun _ => ?_)
  refine (forms_forEachRoot roots (fun _ _ => provides_lowerTypeRoot.forms) Γ).bind (fun _ => ?_)
  refine (forms_lowerHeads roots [] (fun _ _ _ _ h => nomatch h) _).bind (fun heads => ?_)
  refine .knowing (p := c.HeadsDeclare heads) (fun hheads => ?_)
  refine (forms_forEachRoot roots (fun _ _ => provides_lowerValueRoot.forms) _).bind (fun _ => ?_)
  refine (forms_forEachRoot roots (fun _ _ => forms_lowerFunctionRoot hheads) _).bind
    (fun _ => ?_)
  infer_instance

end

/-- All nodes that the lowering of a unit makes fit, and what is put out is there. -/
theorem sound_final (c : Context) (types : TypeTable) : (State.final c types).Sound c :=
  have hinitial : (State.initial c.unit types).Sound c :=
    ⟨Context.formed_empty, nofun, nofun⟩
  ((forms_lowerDeclarations (Γ := .nothing) c.unit.roots).run hinitial trivial).sound

end Lowering

end GoLowering
