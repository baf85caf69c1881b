import GoLowering.Lowering.Assignments

/-!
# Declarations of values and types

What `var`, `const` and `type` introduce. Constants of unbounded size are only bound: the host
has no spelling for them, so they are built where they are used.
-/

namespace GoLowering.Lowering

open Surface

/-- What a declaration becomes, if anything, and the names it binds. -/
structure ValueDecl where
  node : Option HostId
  symbols : List (String × Symbol)
  deriving Inhabited

def lowerVariables (walk : Walk) (spec : ValueSpec) (type : Option TypeId) (span : Span) :
    Lower ValueDecl := do
  let (values, types) ←
    match spec.values, type with
    | [], none => fail (.unsupportedConstruct "var without a type or a value") span
    | [], some type => pure ([], List.replicate spec.names.length type)
    | values, type => lowerValues walk values spec.names.length type span
  let node ← place (.varDecl ⟨spec.names, type, values, spec.doc⟩) span
  return ⟨some node, (spec.names.zip types).map (fun (name, type) => (name, .variable type))⟩

/-- The value of a constant, unless it is unbounded, and the symbol that the constant is. -/
def lowerConstant (walk : Walk) (type : Option TypeId) (value : NodeId) :
    Lower (Option HostId × Symbol) := do
  let operand ← walk.expr value (.maybe type)
  match operand.constant, type with
  | none, _ => fail (.typeMismatch "constant" (← textOf value)) operand.span
  | some constant, some type =>
    return (some (← coerce operand type), .constant type (some constant))
  | some constant, none =>
    let id := if ← isUntypedBig operand.type then none else some operand.id
    return (id, .constant operand.type (some constant))

def lowerConstants (walk : Walk) (spec : ValueSpec) (type : Option TypeId) (span : Span) :
    Lower ValueDecl := do
  if spec.values.length != spec.names.length then
    failCount spec.names.length spec.values.length span
  else
    let constants ← spec.values.mapM (lowerConstant walk type)
    let named := spec.names.zip constants
    let emitted := named.filterMap (fun (name, id, _) => id.map (name, ·))
    let symbols := named.map (fun (name, _, symbol) => (name, symbol))
    if emitted.isEmpty then
      return ⟨none, symbols⟩
    else
      let (names, values) := emitted.unzip
      return ⟨some (← place (.constDecl ⟨names, type, values, spec.doc⟩) span), symbols⟩

def lowerValueSpec (walk : Walk) (spec : ValueSpec) (isConstant : Bool) (span : Span) :
    Lower ValueDecl := do
  let type ← spec.type.mapM walk.type
  if isConstant then lowerConstants walk spec type span
  else lowerVariables walk spec type span

/-- Binds a name that must be new in the current scope. -/
def bindNew (span : Span) (name : String) (symbol : Symbol) : Lower Unit := do
  match (← get).scopes.define name symbol with
  | .ok scopes => modify (fun s => { s with scopes := scopes })
  | .error _ => fail (.redeclared name span) span

/-- A declaration of values inside of a function. -/
def lowerLocalValues (walk : Walk) (spec : ValueSpec) (isConstant : Bool) (span : Span) :
    Lower (Option HostId) := do
  let decl ← lowerValueSpec walk spec isConstant span
  decl.symbols.forM (fun (name, symbol) => bindNew span name symbol)
  return decl.node

/-- The definition of a type declared inside of a function. One that is no alias is bound
before it is defined, so that it can refer to itself. -/
def lowerLocalDefinition (walk : Walk) (name : String) (type : NodeId) (isAlias : Bool) :
    Lower TypeId := do
  if isAlias then
    let target ← walk.type type
    bind name (.typeName target)
    return target
  else
    let named ← onTypes (·.declareNamed none name)
    bind name (.typeName named)
    let definition ← walk.type type
    modify (fun s => { s with types := s.types.define named definition })
    return definition

def lowerLocalType (walk : Walk) (name : String) (type : NodeId) (isAlias : Bool)
    (doc : Option String) (span : Span) : Lower HostId := do
  let definition ← lowerLocalDefinition walk name type isAlias
  place (.typeDecl name definition isAlias doc) span

end GoLowering.Lowering
