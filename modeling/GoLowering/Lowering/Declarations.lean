import GoLowering.Lowering.Blocks
import GoLowering.Lowering.ValueSpecs

/-!
# Declarations of a unit

The top level of a unit in six phases: names and places of the output are taken first, so that
declarations may refer to each other in any order; then come types, signatures, values, bodies,
and the entry function that the statements outside of any function are collected into. A value
that something else needs is lowered on demand, at most once.
-/

namespace GoLowering.Lowering

open Surface

/-- Goes through the top-level statements until the lowering is halted. -/
def forEachRoot (step : NodeId → Lower Unit) : List NodeId → Lower Unit
  | [] => return ()
  | root :: rest => do
    if (← get).halted then
      return ()
    else
      step root
      forEachRoot step rest

def onOutline (f : Outline NodeId HostId → Outline NodeId HostId) : Lower Unit :=
  modify (fun s => { s with outline := f s.outline })

/-! ## Names -/

/-- Adds a declaration to the outline; a conflict is reported. -/
def declare (declaration : Declaration) : Lower Bool := do
  match (← get).outline.declare declaration with
  | .ok outline =>
    modify (fun s => { s with outline := outline })
    return true
  | .error previous =>
    recordFailure (.found (.redeclared declaration.name previous.span) declaration.span)
    return false

/-- Adds a declaration that has a place of the output. -/
def declareAt (root : NodeId) (declaration : Declaration) : Lower Bool := do
  let declared ← declare declaration
  if declared then onOutline (·.reserve declaration.kind root)
  return declared

def setGlobal (name : String) (global : Global) : Lower Unit :=
  modify (fun s => { s with globals := s.globals.set name global })

def collectImport (path : String) (localName : Option String) : Lower Unit := do
  let name := localName.getD (packageName path)
  if name != Names.blank && name != "." then
    modify (fun s => { s with imports := s.imports.set name path })

def collectType (root : NodeId) (name : String) (isAlias : Bool) (span : Span) :
    Lower Unit := do
  if ← declareAt root (.plain name .type span) then
    let type ← if isAlias then pure none else some <$> onTypes (·.declareNamed none name)
    setGlobal name (.type root type)

def collectValue (root : NodeId) (kind : DeclKind) (span : Span) (name : String) :
    Lower Unit := do
  if (← declare (.plain name kind span)) && name != Names.blank then
    setGlobal name (.value root)

def collectValues (root : NodeId) (kind : DeclKind) (names : List String) (span : Span) :
    Lower Unit := do
  onOutline (·.reserve kind root)
  names.forM (collectValue root kind span)

def collectFunction (root : NodeId) (decl : FunctionDecl) (span : Span) : Lower Unit := do
  match decl.receiver with
  | some receiver =>
    let _ ← declareAt root (.method (← textOf receiver.type) decl.name span)
  | none =>
    if ← declareAt root (.plain decl.name .func span) then
      if decl.name != Names.blank && decl.name != "init" then
        setGlobal decl.name (.func root none)

/-- Where an entry function is declared first, and where a statement outside of any function
stands first. -/
structure EntrySites where
  function : Option Span
  statement : Option Span
  deriving DecidableEq, Repr, Inhabited

/-- Collects a function, which may be the entry of the unit. An executable has one only. -/
def collectFunctionRoot (root : NodeId) (decl : FunctionDecl) (span : Span)
    (sites : EntrySites) : Lower EntrySites := do
  let role := (← read).settings.entryRole
  if decl.receiver.isSome || decl.name != role.functionName then
    collectFunction root decl span
    return sites
  else
    match sites.function, role with
    | some previous, .executable =>
      recordFailure (.found (.duplicateEntry decl.name previous) span)
      return sites
    | _, _ =>
      collectFunction root decl span
      return { sites with function := sites.function.or (some span) }

def collectRoot (root : NodeId) (sites : EntrySites) : Lower EntrySites := do
  let span ← spanOf root
  match (← read).unit.stmt? root with
  | some (.importPackage path localName) =>
    collectImport path localName
    return sites
  | some (.typeDecl name _ isAlias _) =>
    collectType root name isAlias span
    return sites
  | some (.varDecl spec) =>
    collectValues root .var spec.names span
    return sites
  | some (.constDecl spec) =>
    collectValues root .const spec.names span
    return sites
  | some (.function decl) => collectFunctionRoot root decl span sites
  | _ =>
    onOutline (·.pushEntryStatement root)
    return { sites with statement := sites.statement.or (some span) }

/-- Collects the top-level statements; nothing is answered when that is halted. -/
def collectRoots : List NodeId → EntrySites → Lower (Option EntrySites)
  | [], sites => return some sites
  | root :: rest, sites => do
    if (← get).halted then return none
    else collectRoots rest (← collectRoot root sites)

/-- Takes names and places of the output. A unit has statements outside of any function or an
entry function, but not both. -/
def collect (roots : List NodeId) : Lower Unit := do
  match ← collectRoots roots ⟨none, none⟩ with
  | none => return ()
  | some sites =>
    modify (fun s => { s with explicitEntry := sites.function.isSome })
    match sites.function, sites.statement with
    | some entry, some statement =>
      let name := (← read).settings.entryRole.functionName
      recordFailure (.found (.statementsWithExplicitEntry name entry) statement)
    | _, _ => return ()

/-! ## Types -/

/-- The definition of a type of the unit, or the target of an alias. -/
def lowerDefinition (walk : Walk) (name : String) (type : NodeId) (isAlias : Bool)
    (span : Span) : Lower TypeId := do
  if isAlias then
    typeOfName walk name span
  else
    let definition ← walk.type type
    match (← get).globals.lookup name with
    | some (.type _ (some named)) =>
      modify (fun s => { s with types := s.types.define named definition })
    | _ => pure ()
    return definition

/-- Whether a name stands for the type declared at a statement. -/
def isTypeAt (root : NodeId) : Option Global → Bool
  | some (.type owner _) => owner == root
  | _ => false

def lowerTypeRoot (walk : Walk) (root : NodeId) : Lower Unit := do
  match (← read).unit.stmt? root with
  | some (.typeDecl name type isAlias doc) =>
    if isTypeAt root ((← get).globals.lookup name) then
      reporting (do
        let span ← spanOf root
        let definition ← lowerDefinition walk name type isAlias span
        let decl ← place (.typeDecl name definition isAlias doc) span
        onOutline (·.fill .type root decl))
  | _ => return ()

/-! ## Functions -/

/-- What is known about a function before its body is lowered. -/
structure FunctionHead where
  receiver : Option HostParam
  signature : HostSignature
  /-- The name of the function in error frames. -/
  frameName : String
  deriving Inhabited

abbrev FunctionHeads := Keyed NodeId FunctionHead

/-- Notes the type of a function that a name stands for. -/
def setFunctionType (root : NodeId) (name : String) (type : TypeId) : Lower Unit := do
  match (← get).globals.lookup name with
  | some (.func owner _) => if owner == root then setGlobal name (.func owner (some type))
  | _ => return ()

def lowerMethodHead (walk : Walk) (decl : FunctionDecl) (receiver : Receiver)
    (signature : HostSignature) (type : TypeId) : Lower FunctionHead := do
  let package := (← read).unit.package
  let base ← walk.type receiver.type
  let owner ← textOf receiver.type
  modify (fun s => { s with
    methods := s.methods ++ [(base, ⟨decl.name, type, receiver.pointer⟩)] })
  if receiver.pointer then
    let pointer ← onTypes (·.pointer base)
    return ⟨some ⟨receiver.name, pointer⟩, signature,
      package ++ ".(*" ++ owner ++ ")." ++ decl.name⟩
  else
    return ⟨some ⟨receiver.name, base⟩, signature,
      package ++ "." ++ owner ++ "." ++ decl.name⟩

def lowerHead (walk : Walk) (root : NodeId) (decl : FunctionDecl) : Lower FunctionHead := do
  let (signature, type) ← lowerSignature walk decl.signature
  match decl.receiver with
  | some receiver => lowerMethodHead walk decl receiver signature type
  | none =>
    setFunctionType root decl.name type
    return ⟨none, signature, (← read).unit.package ++ "." ++ decl.name⟩

/-- The heads of all functions of a unit. -/
def lowerHeads (walk : Walk) : List NodeId → FunctionHeads → Lower FunctionHeads
  | [], heads => return heads
  | root :: rest, heads => do
    if (← get).halted then
      return heads
    else
      match (← read).unit.stmt? root with
      | some (.function decl) =>
        match ← attempt (lowerHead walk root decl) with
        | .ok head => lowerHeads walk rest (heads.set root head)
        | .error failure =>
          recordFailure failure
          lowerHeads walk rest heads
      | _ => lowerHeads walk rest heads

def lowerFunctionBody (walk : Walk) (decl : FunctionDecl) (head : FunctionHead)
    (span : Span) : Lower HostId := do
  match decl.body with
  | none => fail (.unsupportedConstruct ("func " ++ decl.name ++ " without a body")) span
  | some body =>
    inFrame head.frameName (inFunction .function (head.signature.results.map (·.type)) (do
      bindParams head.receiver.toList
      bindParams head.signature.params
      bindParams head.signature.results
      lowerBody walk body))

def lowerFunctionRoot (walk : Walk) (heads : FunctionHeads) (root : NodeId) :
    Lower Unit := do
  match (← read).unit.stmt? root, heads.lookup root with
  | some (.function decl), some head =>
    reporting (do
      let span ← spanOf root
      let body ← lowerFunctionBody walk decl head span
      let node ← place
        (.function ⟨head.receiver, decl.name, head.signature, body, decl.doc⟩) span
      let kind := if decl.receiver.isSome then DeclKind.method else .func
      onOutline (·.fill kind root node))
  | _, _ => return ()

/-! ## Values -/

/-- Binds the names of a declaration of values, and puts the declaration in its place. -/
def lowerGlobalSpec (walk : Walk) (root : NodeId) (spec : ValueSpec) (kind : DeclKind) :
    Lower Unit := do
  let decl ← lowerValueSpec walk spec (kind == .const) (← spanOf root)
  decl.symbols.forM (fun (name, symbol) => bind name symbol)
  match decl.node with
  | some node => onOutline (·.fill kind root node)
  | none => return ()

def lowerGlobalValue (walk : Walk) (root : NodeId) : Lower Unit := do
  let s ← get
  note (.lowered root s.scopes.current s.function)
  match (← read).unit.stmt? root with
  | some (.varDecl spec) => lowerGlobalSpec walk root spec .var
  | some (.constDecl spec) => lowerGlobalSpec walk root spec .const
  | _ => return ()

def State.moving (s : State) (root : NodeId) (progress : Progress) : State :=
  { s.noting (.moved root progress) with progress := s.progress.set root progress }

def setProgress (root : NodeId) (progress : Progress) : Lower Unit :=
  modify (·.moving root progress)

/-- Lowers a declaration of values that is needed under a name. One that is reached while it
is being lowered needs itself. -/
def ensureValue (walk : Walk) (root : NodeId) (name : String) (span : Span) :
    Lower Unit := do
  let found := (← get).progress.lookup root
  note (.valueNeeded root name span found)
  match found with
  | some .done | some .failed => return ()
  | some .started => fail (.initializationCycle name) span
  | none =>
    setProgress root .started
    match ← attempt (atPackageLevel (lowerGlobalValue walk root)) with
    | .ok _ => setProgress root .done
    | .error failure =>
      setProgress root .failed
      recordFailure failure

def lowerValueRoot (walk : Walk) (root : NodeId) : Lower Unit := do
  match (← read).unit.stmt? root with
  | some (.varDecl spec) | some (.constDecl spec) =>
    match spec.names with
    | [] => return ()
    | name :: _ => reporting (do walk.value root name (← spanOf root))
  | _ => return ()

/-! ## Entry -/

/-- Whether an entry function is made: for statements outside of any function, and for an
executable without any, unless the settings leave it out. -/
def wantsEntry (settings : Settings) (explicitEntry : Bool) (statements : List NodeId) :
    Bool :=
  !explicitEntry && (!statements.isEmpty ||
    (settings.entryRole == .executable && !settings.suppressAutoEntry))

/-- Makes the entry function. -/
def lowerEntry (walk : Walk) (statements : List NodeId) : Lower Unit := do
  let name := (← read).settings.entryRole.functionName
  let package := (← read).unit.package
  let origin ←
    match statements with
    | first :: _ => spanOf first
    | [] => pure .synthetic
  let body ← inFrame (package ++ "." ++ name)
    (inFunction .function [] (lowerStatements walk statements))
  let body ← blockNode body
  let node ← place (.function ⟨none, name, ⟨[], [], false⟩, body, none⟩) origin
  onOutline (·.setEntry ⟨name, .entry, none, origin, true⟩ node)

def lowerEntryPhase (walk : Walk) : Lower Unit := do
  let s ← get
  let statements := s.outline.entryStatements
  if wantsEntry (← read).settings s.explicitEntry statements then
    reporting (lowerEntry walk statements)

/-! ## All phases -/

/-- Lowers the declarations of a unit. -/
def lowerDeclarations (walk : Walk) (roots : List NodeId) : Lower Unit := do
  collect roots
  forEachRoot (lowerTypeRoot walk) roots
  let heads ← lowerHeads walk roots []
  forEachRoot (lowerValueRoot walk) roots
  forEachRoot (lowerFunctionRoot walk heads) roots
  if !(← get).halted then lowerEntryPhase walk

end GoLowering.Lowering
