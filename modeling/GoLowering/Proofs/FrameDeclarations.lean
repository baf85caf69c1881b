import GoLowering.Lowering.Unit
import GoLowering.Proofs.FrameStatements

/-!
# What the walk gives back

A walk satisfies a frame as soon as its own four parts do, for what is looked up about names adds
nothing (`Walk.keeps_ofFrame`). So the walk of a lowering gives back what it borrows, to whatever
depth it goes (`keeps_walkWithin`).
-/

namespace GoLowering.Lowering

open Surface

section

variable {R : Care → Context → State → State → Prop} [Frame R] {walk : Walk}

/-! ## Names of the package -/

theorem aliasTarget_frame (target : ∀ id, Additive (.ofFrame R) (walk.target id)) {name : String}
    {root : NodeId} {before : Option TypeId} {span : Span} {c : Context} {s : State}
    (found : s.globals.lookup name = some (.type root before)) :
    Leads (R .additive c) c s (aliasTarget walk name root span) := by
  unfold aliasTarget
  refine .get ?_
  refine leads_bind (m := note _) (Frame.needAlias c s name span _) (fun _ s₁ hnoted => ?_)
  obtain rfl : s.noting _ = s₁ := (Prod.mk.inj hnoted).2
  generalize hs₁ : s.noting _ = s₁
  have found₁ : s₁.globals.lookup name = some (.type root before) := hs₁ ▸ found
  split
  · exact Frame.refl _ c s₁
  · refine .read ?_
    split
    · rename_i id _ _ _
      have h := Frame.openAlias name
        (Keeps.run (target id) c { s₁ with openAliases := name :: s₁.openAliases })
      unfold Leads
      rw [run_bind, run_within]
      rcases hr : walk.target id c { s₁ with openAliases := name :: s₁.openAliases } with ⟨r, s'⟩
      rw [hr] at h
      cases r with
      | error e => exact h
      | ok type => exact Frame.setAlias type found₁ h
    · exact Frame.refl _ c s₁

theorem typeOfName_frame (target : ∀ id, Additive (.ofFrame R) (walk.target id)) (name : String)
    (span : Span) : Additive (.ofFrame R) (typeOfName walk name span) := by
  refine keeps_ofFrame (fun c s => ?_)
  unfold typeOfName
  refine .get ?_
  split
  · exact Frame.refl _ c s
  · exact Frame.refl _ c s
  · refine .get ?_
    split
    · exact Frame.refl _ c s
    · rename_i root found
      exact aliasTarget_frame target found
    · exact Frame.refl _ c s
    · refine .read ?_
      split <;> exact Frame.refl _ c s

theorem globalOperand_frame (target : ∀ id, Additive (.ofFrame R) (walk.target id))
    (value : ∀ root name span c s, s.globals.lookup name = some (.value root) →
      Leads (R .additive c) c s (walk.value root name span)) {global : Global} {name : String}
    {span : Span} {c : Context} {s : State} (found : s.globals.lookup name = some global) :
    Leads (R .additive c) c s (globalOperand walk global name span) := by
  unfold globalOperand
  split
  · refine leads_bind (value _ name span c s found) (fun _ s' _ => .get ?_)
    split <;> exact leads_ofFrame c s'
  · exact leads_ofFrame c s
  · have := typeOfName_frame target name span
    exact leads_ofFrame c s

theorem unboundOperand_frame (target : ∀ id, Additive (.ofFrame R) (walk.target id))
    (value : ∀ root name span c s, s.globals.lookup name = some (.value root) →
      Leads (R .additive c) c s (walk.value root name span)) (name : String) (span : Span) :
    Additive (.ofFrame R) (unboundOperand? walk name span) := by
  refine keeps_ofFrame (fun c s => ?_)
  unfold unboundOperand?
  refine .get ?_
  split
  · rename_i global found
    exact leads_bind (globalOperand_frame target value found) (fun _ s' _ => leads_ofFrame c s')
  · refine .get ?_
    split
    · exact leads_ofFrame c s
    · refine .read ?_
      split <;> exact leads_ofFrame c s

/-- What is looked up about names satisfies a frame as soon as the parts of the walk do. -/
theorem Walk.keeps_ofFrame (expr : ∀ id expect, Additive (.ofFrame R) (walk.expr id expect))
    (statement : ∀ id, Additive (.ofFrame R) (walk.statement id))
    (type : ∀ id, Additive (.ofFrame R) (walk.type id))
    (target : ∀ id, Additive (.ofFrame R) (walk.target id))
    (value : ∀ root name span c s, s.globals.lookup name = some (.value root) →
      Leads (R .additive c) c s (walk.value root name span)) :
    walk.Keeps (.ofFrame R) :=
  ⟨expr, statement, type, typeOfName_frame target, unboundOperand_frame target value⟩

end

/-! ## Values of the package -/

/-- A declaration of values that is needed for the first time is started. -/
def State.starting (s : State) (root : NodeId) (name : String) (span : Span) : State :=
  (s.noting (.valueNeeded root name span none)).moving root .started

section

variable {walk : Walk} {root : NodeId} {name : String} {span : Span} {c : Context} {s : State}

@[simp] theorem State.progress_starting :
    (s.starting root name span).progress = s.progress.set root .started := rfl

theorem run_ensureValue : ensureValue walk root name span c s =
    (match s.progress.lookup root with
      | some .done | some .failed => return ()
      | some .started => fail (.initializationCycle name) span
      | none => do
        setProgress root .started
        match ← attempt (atPackageLevel (lowerGlobalValue walk root)) with
        | .ok _ => setProgress root .done
        | .error failure =>
          setProgress root .failed
          recordFailure failure : Lower Unit) c
      (s.noting (.valueNeeded root name span (s.progress.lookup root))) :=
  rfl

theorem run_ensureValue_new (h : s.progress.lookup root = none) :
    ensureValue walk root name span c s =
      match atPackageLevel (lowerGlobalValue walk root) c (s.starting root name span) with
      | (.ok _, s₁) => (.ok (), s₁.moving root .done)
      | (.error failure, s₁) => recordFailure failure c (s₁.moving root .failed) := by
  have hstart : setProgress root .started c (s.noting (.valueNeeded root name span none)) =
      (.ok (), s.starting root name span) := rfl
  rw [run_ensureValue, h]
  dsimp only
  rw [run_bind, hstart]
  dsimp only
  rw [run_bind, run_attempt]
  rcases atPackageLevel (lowerGlobalValue walk root) c (s.starting root name span) with ⟨r, s₁⟩
  cases r <;> rfl

theorem run_ensureValue_started (h : s.progress.lookup root = some .started) :
    ensureValue walk root name span c s =
      (.error (.found (.initializationCycle name) span),
        s.noting (.valueNeeded root name span (some .started))) := by
  rw [run_ensureValue, h]
  rfl

theorem run_ensureValue_ended {progress : Progress} (h : s.progress.lookup root = some progress)
    (hended : progress ≠ .started) :
    ensureValue walk root name span c s =
      (.ok (), s.noting (.valueNeeded root name span (some progress))) := by
  rw [run_ensureValue, h]
  cases progress with
  | started => exact absurd rfl hended
  | done | failed => rfl

end

variable {L : Regime} [Discipline L] {walk : Walk} [walk.Keeps L]

instance quiet_lowerFunctionBody (decl : FunctionDecl) (head : FunctionHead) (span : Span) :
    Quiet L (lowerFunctionBody walk decl head span) := by
  unfold lowerFunctionBody
  split
  · infer_instance
  · rename_i body _
    have inside : Steady L (do
        bindParams head.receiver.toList
        bindParams head.signature.params
        bindParams head.signature.results
        lowerBody walk body) := by
      infer_instance
    infer_instance

/-! ## Notes about the unit -/

/-- A change of what is noted about the declarations of the unit, by which no part borrows
anything, makes nodes or types, or hoists. -/
structure NotesOnly (s s' : State) : Prop where
  tree : s'.tree = s.tree
  types : s'.types = s.types
  scopes : s'.scopes = s.scopes
  function : s'.function = s.function
  frameName : s'.frameName = s.frameName
  openAliases : s'.openAliases = s.openAliases
  diagnostics : s.diagnostics <+: s'.diagnostics
  warnings : s'.warnings = s.warnings
  hoisted : s'.hoisted = s.hoisted
  hoistLog : s'.hoistLog = s.hoistLog
  levelLog : s'.levelLog = s.levelLog
  temporaries : s'.temporaries = s.temporaries
  propagations : s'.propagations = s.propagations

/-- A frame that notes about the unit do not matter to. -/
class Notes (R : Care → Context → State → State → Prop) : Prop where
  note {c : Context} {s s' : State} (h : NotesOnly s s') : R .quiet c s s'

instance : Notes GivesBack where
  note h :=
    ⟨⟨h.tree ▸ .refl _, h.types ▸ .refl _, h.scopes ▸ rfl, h.function, h.frameName,
      h.openAliases, h.diagnostics, h.warnings ▸ List.prefix_rfl⟩, h.hoisted⟩

/-- A change of what is noted about the declarations of the unit, less how far their values have
come. -/
structure EntersOnly (s s' : State) : Prop extends NotesOnly s s' where
  progress : s'.progress = s.progress
  history : s'.history = s.history

/-- A frame that what is entered for the declarations of the unit does not matter to. -/
class Admits (R : Care → Context → State → State → Prop) : Prop where
  enter {c : Context} {s s' : State} (h : EntersOnly s s') : R .quiet c s s'

instance {R : Care → Context → State → State → Prop} [Notes R] : Admits R :=
  ⟨fun h => Notes.note h.toNotesOnly⟩

/-- A frame in which any named type may be given another definition. -/
class Redefines (R : Care → Context → State → State → Prop) : Prop where
  define (c : Context) (s : State) (named definition : TypeId) :
    R .additive c s { s with types := s.types.define named definition }

instance : Redefines GivesBack where
  define _ _ _ _ :=
    .of_hoisted_eq ⟨.refl _, TypeTable.grows_define _ _ _, rfl, rfl, rfl, rfl, List.prefix_rfl,
      List.prefix_rfl⟩ rfl

/-- A regime that the steps between the declarations of a unit keep to. -/
class Declaring (L : Regime) : Prop extends Discipline L, Pointwise L where
  enter {f : State → State} (h : ∀ s, EntersOnly s (f s)) :
    L.Holds .quiet (modify f : Lower Unit)
  /-- A failure is reported, and the lowering goes on. -/
  recover {α β : Type} {part : Lower α} {next : Except Failure α → Lower β}
    {rest : Lower β} (hpart : L.Holds .additive part)
    (hok : ∀ a, L.Holds .additive (next (.ok a)))
    (herror : ∀ failure, next (.error failure) = recordFailure failure >>= fun _ => rest)
    (hrest : L.Holds .additive rest) : L.Holds .additive (attempt part >>= next)

/-- A regime that allows any named type to be given another definition. -/
class Redefining (L : Regime) : Prop where
  define (named definition : TypeId) :
    L.Holds .additive
      (modify (fun s => { s with types := s.types.define named definition }) : Lower Unit)

section

variable {R : Care → Context → State → State → Prop}

instance [Redefines R] : Redefining (.ofFrame R) :=
  ⟨fun named definition c s => Redefines.define c s named definition⟩

instance [Frame R] [Admits R] : Declaring (.ofFrame R) where
  enter h := fun _ s => Admits.enter (h s)
  recover hpart hok herror hrest := by
    refine ofFrame_bind (keeps_attempt (h := ⟨hpart⟩)).holds (fun result => ?_)
    cases result with
    | ok a => exact hok a
    | error failure =>
      rw [herror]
      refine ofFrame_bind (m := recordFailure failure) (fun c s => ?_) (fun _ => hrest)
      exact Frame.additive (Admits.enter
          ⟨⟨rfl, rfl, rfl, rfl, rfl, rfl, List.prefix_append _ _,
            rfl, rfl, rfl, rfl, rfl, rfl⟩, rfl, rfl⟩)

end

variable {R : Care → Context → State → State → Prop} [Notes R]

theorem quiet_modify {f : State → State} (h : ∀ s, NotesOnly s (f s)) :
    Quiet (.ofFrame R) (modify f : Lower Unit) :=
  keeps_ofFrame (fun _ s => Notes.note (h s))

variable [Frame R]

instance quiet_note (event : Event) : Quiet (.ofFrame R) (note event) :=
  quiet_modify (fun _ => ⟨rfl, rfl, rfl, rfl, rfl, rfl, List.prefix_rfl, rfl, rfl, rfl, rfl, rfl, rfl⟩)

instance quiet_setProgress (root : NodeId) (progress : Progress) :
    Quiet (.ofFrame R) (setProgress root progress) :=
  quiet_modify (fun _ => ⟨rfl, rfl, rfl, rfl, rfl, rfl, List.prefix_rfl, rfl, rfl, rfl, rfl, rfl, rfl⟩)

section

variable {L : Regime} [Declaring L]

theorem quiet_entering {f : State → State} (h : ∀ s, EntersOnly s (f s)) :
    Quiet L (modify f : Lower Unit) :=
  ⟨Declaring.enter h⟩

/-- What goes on after a part that has been tried keeps to the regime, too. -/
theorem keeps_recover {α β : Type} {part : Lower α} {next : Except Failure α → Lower β}
    {rest : Lower β} [hpart : Additive L part] (hok : ∀ a, Additive L (next (.ok a)))
    (herror : ∀ failure, next (.error failure) = recordFailure failure >>= fun _ => rest)
    (hrest : Additive L rest) : Additive L (attempt part >>= next) :=
  ⟨Declaring.recover hpart.holds (fun a => (hok a).holds) herror hrest.holds⟩

instance quiet_onOutline (f : Outline NodeId HostId → Outline NodeId HostId) :
    Quiet L (onOutline f) :=
  quiet_entering (fun _ =>
    ⟨⟨rfl, rfl, rfl, rfl, rfl, rfl, List.prefix_rfl, rfl, rfl, rfl, rfl, rfl, rfl⟩, rfl, rfl⟩)

instance quiet_modifyOutline (outline : Outline NodeId HostId) :
    Quiet L (modify (fun s => { s with outline := outline }) : Lower Unit) :=
  quiet_onOutline (fun _ => outline)

instance quiet_recordFailure (failure : Failure) : Quiet L (recordFailure failure) :=
  keeps_reading (fun _ => quiet_entering (fun _ =>
    ⟨⟨rfl, rfl, rfl, rfl, rfl, rfl, List.prefix_append _ _, rfl, rfl, rfl, rfl, rfl, rfl⟩, rfl, rfl⟩))

instance additive_lowerGlobalSpec {walk : Walk} [walk.Keeps L] (root : NodeId)
    (spec : ValueSpec) (kind : DeclKind) : Additive L (lowerGlobalSpec walk root spec kind) := by
  unfold lowerGlobalSpec
  refine Keeps.before (fun span => ?_)
  refine Keeps.before (fun decl => ?_)
  refine Keeps.before (fun _ => ?_)
  split <;> infer_instance

end

/-! ## The walk satisfies frames -/

variable {walk : Walk} [walk.Keeps (.ofFrame R)]

instance additive_lowerGlobalValue (root : NodeId) :
    Additive (.ofFrame R) (lowerGlobalValue walk root) := by
  unfold lowerGlobalValue
  refine keeps_getting (fun s => Keeps.before (fun _ => ?_))
  refine Keeps.read (fun _ => rfl) (fun c => ?_)
  split <;> infer_instance

instance quiet_exhaust {α : Type} : Quiet (.ofFrame R) (exhaust : Lower α) := by
  unfold exhaust
  infer_instance

instance quiet_ensureValue (root : NodeId) (name : String) (span : Span) :
    Quiet (.ofFrame R) (ensureValue walk root name span) := by
  unfold ensureValue
  refine keeps_getting (fun s => ?_)
  dsimp only
  refine Keeps.before (fun _ => ?_)
  split
  · infer_instance
  · infer_instance
  · infer_instance
  · refine Keeps.before (fun _ => ?_)
    refine Keeps.before (fun result => ?_)
    split <;> infer_instance

/-- A walk satisfies a frame that notes do not matter to, however deep it goes. -/
instance keeps_walkWithin (depth : Nat) : (walkWithin depth).Keeps (.ofFrame R) := by
  induction depth with
  | zero =>
    have h {α : Type} : Additive (.ofFrame R) (exhaust : Lower α) := inferInstance
    exact Walk.keeps_ofFrame (fun _ _ => h) (fun _ => h) (fun _ => h) (fun _ => h)
      (fun _ _ _ c s _ => Keeps.run h c s)
  | succ depth ih =>
    exact Walk.keeps_ofFrame additive_lowerExpr additive_lowerStmt additive_lowerType
      additive_lowerType
      (fun root name span c s _ =>
        Frame.additive (Keeps.run (quiet_ensureValue root name span) c s))

/-! ## The walk gives back what it borrows -/

/-- What a part borrows from the parts around it. -/
structure Surroundings where
  current : ScopeId
  function : Option (List TypeId)
  frameName : String
  openAliases : List String

def State.surroundings (s : State) : Surroundings :=
  ⟨s.scopes.current, s.function, s.frameName, s.openAliases⟩

theorem Extends.surroundings {s s' : State} (h : Extends s s') :
    s'.surroundings = s.surroundings := by
  simp only [State.surroundings, h.current, h.function, h.frameName, h.openAliases]

/-- Failing or not, the lowering of an expression gives back what it borrows and only adds to what
is hoisted, and that of a statement also leaves what is hoisted around it as it was. -/
theorem surroundings_given_back (depth : Nat) (c : Context) (s : State) (id : NodeId)
    (expect : Expectation) :
    ((lowerExpr (walkWithin depth) id expect c s).2.surroundings = s.surroundings ∧
      s.hoisted <+: (lowerExpr (walkWithin depth) id expect c s).2.hoisted) ∧
    (lowerStatement (walkWithin depth) id c s).2.surroundings = s.surroundings ∧
      (lowerStatement (walkWithin depth) id c s).2.hoisted = s.hoisted := by
  have hexpr : Advances s (lowerExpr (walkWithin depth) id expect c s).2 :=
    Additive.run inferInstance c s
  have hstatement : Rests s (lowerStatement (walkWithin depth) id c s).2 :=
    Quiet.run inferInstance c s
  obtain ⟨more, hmore, -⟩ := hexpr.hoisted
  exact ⟨⟨hexpr.surroundings, more, hmore.symm⟩, hstatement.surroundings, hstatement.hoisted⟩

/-- Nothing had been reported before a run that ends without a report. -/
theorem diagnostics_nil {α : Type} {m : Lower α} [h : Steady extension m] {c : Context}
    {s s' : State} {r : Except Failure α} (hrun : m c s = (r, s')) (hd : s'.diagnostics = []) :
    s.diagnostics = [] := by
  have hs := (h.run c s).diagnostics
  rw [hrun, hd] at hs
  exact List.prefix_nil.mp hs

/-! ## Declarations keep to regimes -/

/-- The definition of a type is looked for by the walk. -/
instance additive_lowerDefinition {L : Regime} [Discipline L] [Pointwise L] [Redefining L]
    {walk : Walk} [walk.Keeps L] (name : String) (type : NodeId) (isAlias : Bool) (span : Span) :
    Additive L (lowerDefinition walk name type isAlias span) := by
  unfold lowerDefinition
  split
  · infer_instance
  · refine Keeps.before (fun definition => ?_)
    refine keeps_getting (fun s => ?_)
    split
    · rename_i named _
      exact Keeps.bind ⟨Redefining.define named definition⟩ (fun _ => inferInstance)
    · infer_instance

section

variable {L : Regime} [Declaring L] {walk : Walk} [walk.Keeps L]

instance additive_reporting {part : Lower Unit} [Additive L part] :
    Additive L (reporting part) := by
  exact keeps_recover (fun _ => keeps_pure _) (fun _ => bind_pure_unit.symm) (keeps_pure _)

instance additive_forEachRoot {step : NodeId → Lower Unit}
    [∀ root, Additive L (step root)] (roots : List NodeId) : Additive L (forEachRoot step roots) := by
  induction roots with
  | nil =>
    unfold forEachRoot
    infer_instance
  | cons root rest ih =>
    unfold forEachRoot
    exact keeps_getting (fun _ => inferInstance)

instance quiet_declare (declaration : Declaration) : Quiet L (declare declaration) := by
  unfold declare
  refine keeps_getting (fun s => ?_)
  split <;> infer_instance

instance quiet_declareAt (root : NodeId) (declaration : Declaration) :
    Quiet L (declareAt root declaration) := by
  unfold declareAt
  infer_instance

instance quiet_setGlobal (name : String) (global : Global) :
    Quiet L (setGlobal name global) :=
  quiet_entering (fun _ =>
    ⟨⟨rfl, rfl, rfl, rfl, rfl, rfl, List.prefix_rfl, rfl, rfl, rfl, rfl, rfl, rfl⟩, rfl, rfl⟩)

instance quiet_collectImport (path : String) (localName : Option String) :
    Quiet L (collectImport path localName) := by
  unfold collectImport
  dsimp only
  split
  · exact quiet_entering (fun _ =>
    ⟨⟨rfl, rfl, rfl, rfl, rfl, rfl, List.prefix_rfl, rfl, rfl, rfl, rfl, rfl, rfl⟩, rfl, rfl⟩)
  · infer_instance

instance quiet_collectType (root : NodeId) (name : String) (isAlias : Bool) (span : Span) :
    Quiet L (collectType root name isAlias span) := by
  unfold collectType
  infer_instance

instance quiet_collectValue (root : NodeId) (kind : DeclKind) (span : Span) (name : String) :
    Quiet L (collectValue root kind span name) := by
  unfold collectValue
  infer_instance

instance quiet_collectValues (root : NodeId) (kind : DeclKind) (names : List String) (span : Span)
    : Quiet L (collectValues root kind names span) := by
  unfold collectValues
  infer_instance

instance quiet_collectFunction (root : NodeId) (decl : FunctionDecl) (span : Span) :
    Quiet L (collectFunction root decl span) := by
  unfold collectFunction
  split <;> infer_instance

instance quiet_collectFunctionRoot (root : NodeId) (decl : FunctionDecl) (span : Span)
    (sites : EntrySites) : Quiet L (collectFunctionRoot root decl span sites) := by
  unfold collectFunctionRoot
  refine keeps_reading (fun c => ?_)
  dsimp only
  split
  · infer_instance
  · split <;> infer_instance

instance quiet_collectRoot (root : NodeId) (sites : EntrySites) :
    Quiet L (collectRoot root sites) := by
  unfold collectRoot
  refine Keeps.before (fun span => ?_)
  refine keeps_reading (fun c => ?_)
  split <;> infer_instance

instance quiet_collectRoots (roots : List NodeId) (sites : EntrySites) :
    Quiet L (collectRoots roots sites) := by
  induction roots generalizing sites with
  | nil =>
    unfold collectRoots
    infer_instance
  | cons root rest ih =>
    unfold collectRoots
    exact keeps_getting (fun _ => inferInstance)

instance quiet_collect (roots : List NodeId) : Quiet L (collect roots) := by
  unfold collect
  refine Keeps.before (fun found => ?_)
  split
  · infer_instance
  · refine Keeps.bind ?_ (fun _ => ?_)
    · exact quiet_entering (fun _ =>
    ⟨⟨rfl, rfl, rfl, rfl, rfl, rfl, List.prefix_rfl, rfl, rfl, rfl, rfl, rfl, rfl⟩, rfl, rfl⟩)
    · split
      · exact keeps_reading (fun _ => inferInstance)
      · infer_instance

instance quiet_setFunctionType (root : NodeId) (name : String) (type : TypeId) :
    Quiet L (setFunctionType root name type) := by
  unfold setFunctionType
  refine keeps_getting (fun s => ?_)
  split <;> infer_instance

instance additive_lowerTypeRoot [Redefining L] (root : NodeId) :
    Additive L (lowerTypeRoot walk root) := by
  unfold lowerTypeRoot
  refine keeps_reading (fun c => ?_)
  split
  · exact keeps_getting (fun _ => inferInstance)
  · infer_instance

instance additive_lowerMethodHead (decl : FunctionDecl) (receiver : Receiver)
    (signature : HostSignature) (type : TypeId) :
    Additive L (lowerMethodHead walk decl receiver signature type) := by
  unfold lowerMethodHead
  refine keeps_reading (fun c => ?_)
  dsimp only
  refine Keeps.before (fun base => ?_)
  refine Keeps.before (fun owner => ?_)
  refine Keeps.bind (additive_of_quiet (h := ?_)) (fun _ => ?_)
  · exact quiet_entering (fun _ =>
    ⟨⟨rfl, rfl, rfl, rfl, rfl, rfl, List.prefix_rfl, rfl, rfl, rfl, rfl, rfl, rfl⟩, rfl, rfl⟩)
  · infer_instance

instance additive_lowerHead (root : NodeId) (decl : FunctionDecl) :
    Additive L (lowerHead walk root decl) := by
  unfold lowerHead
  refine Keeps.before (fun x => ?_)
  split
  · split
    · infer_instance
    · exact Keeps.before (fun _ => keeps_reading (fun _ => inferInstance))

instance additive_lowerHeads (roots : List NodeId) (heads : FunctionHeads) :
    Additive L (lowerHeads walk roots heads) := by
  induction roots generalizing heads with
  | nil =>
    unfold lowerHeads
    infer_instance
  | cons root rest ih =>
    unfold lowerHeads
    refine keeps_getting (fun s => ?_)
    split
    · infer_instance
    · refine keeps_reading (fun c => ?_)
      split
      · exact keeps_recover (fun _ => ih _) (fun _ => rfl) (ih _)
      · infer_instance

instance additive_lowerFunctionRoot (heads : FunctionHeads) (root : NodeId) :
    Additive L (lowerFunctionRoot walk heads root) := by
  unfold lowerFunctionRoot
  refine keeps_reading (fun c => ?_)
  split <;> infer_instance

instance additive_lowerEntry (statements : List NodeId) :
    Additive L (lowerEntry walk statements) := by
  unfold lowerEntry
  refine keeps_reading (fun c => ?_)
  dsimp only
  refine keeps_reading (fun c => ?_)
  split <;> infer_instance

instance additive_lowerEntryPhase : Additive L (lowerEntryPhase walk) := by
  unfold lowerEntryPhase
  refine keeps_getting (fun s => ?_)
  exact keeps_reading (fun c => inferInstance)

variable [∀ root name span, Additive L (walk.value root name span)]

instance additive_lowerValueRoot (root : NodeId) :
    Additive L (lowerValueRoot walk root) := by
  unfold lowerValueRoot
  refine keeps_reading (fun c => ?_)
  split
  · split <;> infer_instance
  · split <;> infer_instance
  · infer_instance

instance additive_lowerDeclarations [Redefining L] (roots : List NodeId) :
    Additive L (lowerDeclarations walk roots) := by
  unfold lowerDeclarations
  refine Keeps.before (fun _ => ?_)
  refine Keeps.before (fun _ => ?_)
  refine Keeps.before (fun _ => ?_)
  refine Keeps.before (fun _ => ?_)
  refine Keeps.before (fun _ => ?_)
  exact keeps_getting (fun _ => inferInstance)

end

instance additive_value_walkWithin (depth : Nat) (root : NodeId) (name : String) (span : Span) :
    Additive (.ofFrame R) ((walkWithin depth).value root name span) := by
  cases depth with
  | zero => exact additive_of_quiet (h := quiet_exhaust)
  | succ depth => exact additive_of_quiet (h := quiet_ensureValue root name span)

end GoLowering.Lowering
