import GoLowering.Diagnostic.Basic
import GoLowering.Environment.Registry
import GoLowering.Host.Syntax
import GoLowering.Names
import GoLowering.Outline
import GoLowering.Scopes
import GoLowering.Settings.Basic
import GoLowering.Surface.Syntax

/-!
# State of a lowering

A lowering reads a fixed context and changes a state that outlives failures: what was done
before a failure stays done. The first failure ends the declaration it is found in.
-/

namespace GoLowering.Lowering

open Surface

/-- Why a declaration cannot be lowered. -/
inductive Failure where
  | found (problem : Problem) (span : Span)
  /-- The tree does not end; no acyclic tree fails this way. -/
  | endless
  deriving DecidableEq, Repr, Inhabited

def Failure.report : Failure → Diagnostic
  | found problem span => problem.report span
  | endless => (Problem.unsupportedConstruct "tree without end").report .synthetic

inductive OperandMode where
  | value
  /-- A call without results. -/
  | noValue
  | nil
  | type
  | package (path : String)
  | builtin (function : Builtin)
  deriving DecidableEq, Repr, Inhabited

/-- A lowered expression and what is known about it. -/
structure Operand where
  id : HostId
  /-- The static type; a tuple for a call with several results. -/
  type : TypeId
  mode : OperandMode
  constant : Option Constant
  span : Span
  /-- Whether a second result, a `bool`, can be asked for. -/
  commaOk : Bool
  deriving Inhabited

namespace Operand

def value (id : HostId) (type : TypeId) (span : Span) : Operand :=
  ⟨id, type, .value, none, span, false⟩

def ofConstant (id : HostId) (type : TypeId) (value : Option Constant) (span : Span) :
    Operand :=
  ⟨id, type, .value, value, span, false⟩

def isValue (o : Operand) : Bool := o.mode == .value || o.mode == .nil

end Operand

/-- What an expression is lowered for. -/
structure Expectation where
  type : Option TypeId
  /-- The number of values that are used: two where a second `bool` is asked for. -/
  results : Nat
  /-- Whether the expression is called, so that no call is put in for it. -/
  callee : Bool
  deriving Inhabited

namespace Expectation

def none : Expectation := ⟨Option.none, 1, false⟩

def maybe (type : Option TypeId) : Expectation := ⟨type, 1, false⟩

def expecting (type : TypeId) : Expectation := ⟨some type, 1, false⟩

def called : Expectation := ⟨Option.none, 1, true⟩

end Expectation

/-- A name declared at the top level of the unit, with the statement that declares it. -/
inductive Global where
  /-- The type is known from the start; that of an alias is found on first use. -/
  | type (root : NodeId) (type : Option TypeId)
  | func (root : NodeId) (type : Option TypeId)
  | value (root : NodeId)
  deriving DecidableEq, Repr, Inhabited

/-- How far a value declaration of the package has come; at first it has no progress. -/
inductive Progress where
  | started
  | done
  /-- The failure has been reported. -/
  | failed
  deriving DecidableEq, Repr, Inhabited

/-- What happens to the names of the unit on the way. -/
inductive Event where
  /-- The target of an alias is needed; it may be looked for already. -/
  | aliasNeeded (name : String) (span : Span) (isOpen : Bool)
  /-- A declaration of values is needed under a name, at some progress. -/
  | valueNeeded (root : NodeId) (name : String) (span : Span) (found : Option Progress)
  | moved (root : NodeId) (progress : Progress)
  /-- A declaration of values is lowered in a scope, inside of a function if there is one. -/
  | lowered (root : NodeId) (scope : ScopeId) (function : Option (List TypeId))
  /-- A walk does not go down any further. -/
  | exhausted
  deriving DecidableEq, Repr, Inhabited

/-- A call whose error is returned, with the names that this takes. -/
structure Propagation where
  call : HostId
  names : List String
  deriving DecidableEq, Repr, Inhabited

structure Context where
  unit : SourceUnit
  sources : Sources
  env : Environment
  settings : Settings
  registry : Registry
  deriving Inhabited

structure State where
  types : TypeTable
  tree : HostTree
  scopes : Scopes
  outline : Outline NodeId HostId
  /-- Import paths by the local names of packages. -/
  imports : Keyed String String
  globals : Keyed String Global
  progress : Keyed NodeId Progress
  /-- The aliases whose meaning is being found. -/
  openAliases : List String
  /-- Methods that the unit declares, by the type of the receiver less its pointer. -/
  methods : List (TypeId × Method)
  /-- The result types of the function around. -/
  function : Option (List TypeId)
  /-- The name of the top-level declaration around, for error frames. -/
  frameName : String
  /-- Statements to come before the one in hand. -/
  hoisted : List HostId
  /-- All statements that have ever been hoisted, in that order. Nothing depends on it. -/
  hoistLog : List HostId
  /-- Those that have been hoisted since the package level was entered. Nothing depends on it. -/
  levelLog : List HostId
  /-- The function literals of the unit that have been put, each with what has been hoisted in it.
  Nothing depends on it. -/
  literals : List (HostId × List HostId)
  /-- All that has happened to the names of the unit, in that order. Nothing depends on it. -/
  history : List Event
  /-- The calls whose errors are returned, in that order. Nothing depends on it. -/
  propagations : List Propagation
  /-- Whether the unit declares its entry function. -/
  explicitEntry : Bool
  temporaries : Nat
  diagnostics : List Diagnostic
  warnings : List Diagnostic
  halted : Bool
  deriving Inhabited

/-- The frame name outside of any function. -/
def packageFrame (unit : SourceUnit) : String := unit.package ++ ".main"

def State.initial (unit : SourceUnit) (types : TypeTable) : State where
  types := types
  tree := .empty
  scopes := .initial
  outline := .empty
  imports := []
  globals := []
  progress := []
  openAliases := []
  methods := []
  function := none
  frameName := packageFrame unit
  hoisted := []
  hoistLog := []
  levelLog := []
  literals := []
  history := []
  propagations := []
  explicitEntry := false
  temporaries := 0
  diagnostics := []
  warnings := []
  halted := false

abbrev Lower := ReaderT Context (ExceptT Failure (StateM State))

/-- What the parts of a lowering use to go on to the nodes below. -/
structure Walk where
  expr : NodeId → Expectation → Lower Operand
  /-- The host statement that a statement becomes, if any; what it hoists is left hoisted. -/
  statement : NodeId → Lower (Option HostId)
  type : NodeId → Lower TypeId
  /-- The type that an alias is written to stand for. -/
  target : NodeId → Lower TypeId
  /-- Lowers a value declaration of the package unless that has been started. -/
  value : NodeId → String → Span → Lower Unit

def fail {α : Type} (problem : Problem) (span : Span) : Lower α :=
  throw (.found problem span)

/-- Runs a part of the lowering and goes on whether or not it fails. -/
def attempt {α : Type} (part : Lower α) : Lower (Except Failure α) :=
  fun context state =>
    match part context state with
    | (result, state) => (.ok result, state)

def settle {α : Type} : Except Failure α → Lower α
  | .ok a => pure a
  | .error failure => throw failure

/-- Runs a part under changes of the state, and undoes them whether or not it fails. -/
def within {α : Type} (enter : State → State) (leave : State → State → State)
    (part : Lower α) : Lower α := do
  let before ← get
  modify enter
  let result ← attempt part
  modify (leave before)
  settle result

def State.noting (s : State) (event : Event) : State :=
  { s with history := s.history ++ [event] }

def note (event : Event) : Lower Unit := modify (·.noting event)

/-! ## Reports -/

/-- Reports a failed declaration, which may stop the whole lowering. -/
def recordFailure (failure : Failure) : Lower Unit := do
  let halt := (← read).settings.errorPolicy == .haltOnFirst
  modify (fun s => { s with
    diagnostics := s.diagnostics ++ [failure.report], halted := s.halted || halt })

/-- Runs a declaration and reports its failure. -/
def reporting (part : Lower Unit) : Lower Unit := do
  match ← attempt part with
  | .ok _ => return ()
  | .error failure => recordFailure failure

def warn (problem : Problem) (span : Span) : Lower Unit :=
  modify (fun s => { s with warnings := s.warnings ++ [problem.report span] })

/-! ## Source -/

def spanOf (id : NodeId) : Lower Span := return (← read).unit.span id

def textAt (span : Span) : Lower String := return (← read).sources.slice span

def textOf (id : NodeId) : Lower String := do textAt (← spanOf id)

/-! ## Types -/

def getTypes : Lower TypeTable := return (← get).types

def onTypes {α : Type} (f : TypeTable → α × TypeTable) : Lower α :=
  modifyGet (fun s => let (a, types) := f s.types; (a, { s with types }))

def typeName (type : TypeId) : Lower String := return (← getTypes).format type

def isInvalid (type : TypeId) : Lower Bool := return (← getTypes).isInvalid type

def isUntypedBig (type : TypeId) : Lower Bool := do
  match (← getTypes).get type with
  | .basic kind => return kind.isUntypedBig
  | _ => return false

/-- A method of a type: of the unit first, of the environment otherwise. -/
def State.method? (env : Environment) (s : State) (receiver : TypeId) (name : String) :
    Option Method :=
  let base := Environment.methodBase s.types receiver
  match s.methods.find? (fun entry => entry.1 == base && entry.2.name == name) with
  | some (_, method) => some method
  | none => env.method? s.types receiver name

def lookupMethod (receiver : TypeId) (name : String) : Lower (Option Method) :=
  return (← get).method? (← read).env receiver name

def assignable (source target : TypeId) : Lower Bool := do
  let env := (← read).env
  let s ← get
  return s.types.assignable (fun id name => (s.method? env id name).isSome) source target

/-- The results of the function around, when the last one is an error. -/
def errorResults? : Lower (Option (List TypeId)) := do
  match (← get).function with
  | some results =>
    return if results.getLast? == some TypeTable.error then some results else none
  | none => return none

/-! ## Scopes -/

def onScopes (f : Scopes → Scopes) : Lower Unit :=
  modify (fun s => { s with scopes := f s.scopes })

/-- Binds a name in the current scope; a name that is taken there keeps its meaning. -/
def bind (name : String) (symbol : Symbol) : Lower Unit :=
  onScopes (fun scopes =>
    match scopes.define name symbol with
    | .ok scopes => scopes
    | .error _ => scopes)

/-- Runs a part in a new scope and returns to the current one. -/
def inScope {α : Type} (kind : ScopeKind) (part : Lower α) : Lower α :=
  within (fun s => { s with scopes := s.scopes.push kind })
    (fun before s => { s with scopes := s.scopes.setCurrent before.scopes.current }) part

/-- Runs a part inside of a function with its own results. Statements that it hoists and
does not use up are its own. -/
def inFunction {α : Type} (kind : ScopeKind) (results : List TypeId) (part : Lower α) :
    Lower α :=
  within
    (fun s => { s with
      scopes := s.scopes.push kind, function := some results, hoisted := [] })
    (fun before s => { s with
      scopes := s.scopes.setCurrent before.scopes.current
      function := before.function
      hoisted := before.hoisted }) part

/-- Runs a part under another frame name. -/
def inFrame {α : Type} (name : String) (part : Lower α) : Lower α :=
  within (fun s => { s with frameName := name })
    (fun before s => { s with frameName := before.frameName }) part

/-- Runs a part in the package scope, outside of any function. -/
def atPackageLevel {α : Type} (part : Lower α) : Lower α := do
  let frame := packageFrame (← read).unit
  within
    (fun s => { s with
      scopes := s.scopes.setCurrent Scopes.package, function := none, hoisted := []
      levelLog := [], frameName := frame })
    (fun before s => { s with
      scopes := s.scopes.setCurrent before.scopes.current
      function := before.function
      hoisted := before.hoisted
      levelLog := before.levelLog
      frameName := before.frameName }) part

def hoist (id : HostId) : Lower Unit :=
  modify (fun s => { s with
    hoisted := s.hoisted ++ [id], hoistLog := s.hoistLog ++ [id]
    levelLog := s.levelLog ++ [id] })

/-- Notes what has been hoisted in a function literal. -/
def noteLiteral (id : HostId) (statements : List HostId) : Lower Unit :=
  modify (fun s => { s with literals := s.literals ++ [(id, statements)] })

/-- Takes what has been hoisted so far. -/
def takeHoisted : Lower (List HostId) :=
  modifyGet (fun s => (s.hoisted, { s with hoisted := [] }))

/-- Runs a part and answers what it hoisted apart; what was hoisted before stays. -/
def hoisting {α : Type} (part : Lower α) : Lower (List HostId × α) :=
  within (fun s => { s with hoisted := [] })
    (fun before s => { s with hoisted := before.hoisted })
    (do
      let result ← part
      return (← takeHoisted, result))

end GoLowering.Lowering
