import GoLowering.Lowering.Nodes

/-!
# Iteration

A value is iterated by the host's own `range`, or through a method `Gop_Enum` of its type. A
method that takes a callback pushes the elements to it; one that gives a cursor has them pulled
by the cursor's `Next`. Pulling is preferred to pushing.
-/

namespace GoLowering.Lowering

inductive RangePlan where
  | native (key : TypeId) (value : Option TypeId)
  | push (method : String) (key : Option TypeId) (value : TypeId)
  | pull (method : String) (key : Option TypeId) (value : TypeId)
  deriving DecidableEq, Repr, Inhabited

namespace RangePlan

def isIterator : RangePlan → Bool
  | native .. => false
  | push .. | pull .. => true

def isPush : RangePlan → Bool
  | push .. => true
  | native .. | pull .. => false

/-- The scope of the body of an iteration. -/
def scopeKind (plan : RangePlan) : ScopeKind := if plan.isPush then .callback else .range

def keyType? : RangePlan → Option TypeId
  | native key _ => some key
  | push _ key _ | pull _ key _ => key

def valueType? : RangePlan → Option TypeId
  | native _ value => value
  | push _ _ value | pull _ _ value => some value

/-- The names that the key and the value of each step are bound to. A single name takes the
value of an iterator that has no keys. -/
def boundNames (plan : RangePlan) (key value : Option String) :
    Option String × Option String :=
  if plan.isIterator && plan.keyType?.isNone && value.isNone then (none, key) else (key, value)

end RangePlan

/-- The key and the value that the `Next` of a cursor gives. -/
def pulledTypes? (types : TypeTable) (method? : TypeId → String → Option Method)
    (cursor : TypeId) : Option (Option TypeId × TypeId) := do
  let next ← method? cursor Names.nextMethod
  match ← types.signature? next.sig with
  | ⟨[], [value, ok], _⟩ => if ok == TypeTable.bool then some (none, value) else none
  | ⟨[], [key, value, ok], _⟩ => if ok == TypeTable.bool then some (some key, value) else none
  | _ => none

/-- How one method iterates, if its signature is that of an iteration. -/
def iterationBy? (types : TypeTable) (method? : TypeId → String → Option Method)
    (method : Method) : Option RangePlan := do
  match ← types.signature? method.sig with
  | ⟨[], [cursor], _⟩ =>
    let (key, value) ← pulledTypes? types method? cursor
    return .pull method.name key value
  | ⟨[callback], [], _⟩ =>
    match ← types.signature? callback with
    | ⟨[value], [], _⟩ => some (.push method.name none value)
    | ⟨[key, value], [], _⟩ => some (.push method.name (some key) value)
    | _ => none
  | _ => none

/-- The names of the methods that a type is iterated by. -/
def iterationMethods : List String :=
  [Names.enumMethod, Names.enumMethod ++ "__0", Names.enumMethod ++ "__1"]

/-- How the values of a type are iterated. -/
def rangePlan? (types : TypeTable) (method? : TypeId → String → Option Method)
    (type : TypeId) : Option RangePlan :=
  match types.rangeTypes? type with
  | some (key, value) => some (.native key value)
  | none =>
    let plans := (iterationMethods.filterMap (method? type)).filterMap
      (iterationBy? types method?)
    (plans.find? (!·.isPush)).or plans.head?

def planRange (type : TypeId) (span : Span) : Lower RangePlan := do
  let env := (← read).env
  let s ← get
  match rangePlan? s.types (s.method? env) type with
  | some plan => return plan
  | none => fail (.notEnumerable (← typeName type)) span

def bindVariable (name : Option String) (type : Option TypeId) : Lower Unit := do
  match name, type with
  | some name, some type => bind name (.variable type)
  | _, _ => return ()

/-- Binds the variables of an iteration in the current scope. -/
def bindRange (plan : RangePlan) (key value : Option String) : Lower Unit := do
  let (key, value) := plan.boundNames key value
  bindVariable key plan.keyType?
  bindVariable value plan.valueType?

/-- `for key, value := range source { body }` -/
def emitNative (source : HostId) (key value : Option String) (body : List HostId)
    (span : Span) : Lower HostId := do
  let keyNode ← key.mapM identNode
  let valueNode ← value.mapM identNode
  let keyNode ←
    match keyNode, valueNode with
    | none, some _ => some <$> identNode Names.blank
    | keyNode, _ => pure keyNode
  let body ← blockNode body
  place (.range keyNode valueNode true source body) span

/-- `source.method(func(key K, value V) { body })` -/
def emitPush (source : HostId) (method : String) (params : List HostParam)
    (body : List HostId) (span : Span) : Lower HostId := do
  let body ← blockNode body
  let callback ← scaffold (.functionLiteral ⟨params, [], false⟩ body)
  let callee ← selectorNode source method
  let call ← callNode callee [callback]
  place (.expression call) span

/-- `for it := source.method(); ; { names, ok := it.Next(); if !ok { break }; body }` -/
def emitPull (source : HostId) (method : String) (names : List String)
    (body : List HostId) (span : Span) : Lower HostId := do
  let iterator ← identNode Names.iterator
  let callee ← selectorNode source method
  let start ← callNode callee []
  let init ← defineNode [iterator] [start]
  let lhs ← (names ++ [Names.ok]).mapM identNode
  let iterator ← identNode Names.iterator
  let next ← selectorNode iterator Names.nextMethod
  let next ← callNode next []
  let fetch ← place (.assign lhs .define [next]) span
  let ok ← identNode Names.ok
  let done ← unaryNode .not ok
  let stop ← scaffold (.branch .break none)
  let stop ← blockNode [stop]
  let check ← place (.ifElse none done stop none) span
  let body ← blockNode (fetch :: check :: body)
  place (.loop (some init) none none body) span

/-- The loop of a plan over a source. -/
def emitRange (plan : RangePlan) (source : HostId) (key value : Option String)
    (body : List HostId) (span : Span) : Lower HostId := do
  let (key, value) := plan.boundNames key value
  let keyName := key.getD Names.blank
  let valueName := value.getD Names.blank
  match plan with
  | .native _ _ => emitNative source key value body span
  | .push method keyType valueType =>
    let keyParams := keyType.toList.map (fun type => HostParam.mk (some keyName) type)
    emitPush source method (keyParams ++ [⟨some valueName, valueType⟩]) body span
  | .pull method keyType _ =>
    emitPull source method (keyType.toList.map (fun _ => keyName) ++ [valueName]) body span

end GoLowering.Lowering
