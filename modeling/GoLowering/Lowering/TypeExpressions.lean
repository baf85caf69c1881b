import GoLowering.Lowering.Nodes

/-!
# Types as written

The types that type expressions stand for. A type can also be written as an expression: a
name, a member of a package, a dereference or a grouping. The target of an alias is found on
its first use, and an alias that needs itself is an initialization cycle.
-/

namespace GoLowering.Lowering

open Surface

/-- The import path of a package by its local name. -/
def packagePath (name : String) (span : Span) : Lower String := do
  match (← get).imports.lookup name with
  | some path => return path
  | none =>
    match (← read).env.resolve? name with
    | some (.package path) => return path
    | _ => fail (.undeclaredName name) span

/-- A type that a package declares. -/
def memberType (path name : String) (span : Span) : Lower TypeId := do
  match (← read).env.resolveMember? path name with
  | some (.type type) => return type
  | some _ => fail (.notAType (packageName path ++ "." ++ name)) span
  | none => fail (.unknownMember (packageName path) name) span

/-- The target of an alias of the unit, kept for later uses. -/
def aliasTarget (walk : Walk) (name : String) (root : NodeId) (span : Span) :
    Lower TypeId := do
  let isOpen := (← get).openAliases.contains name
  note (.aliasNeeded name span isOpen)
  if isOpen then
    fail (.initializationCycle name) span
  else
    match (← read).unit.stmt? root with
    | some (.typeDecl _ target _ _) =>
      let type ← within
        (fun s => { s with openAliases := name :: s.openAliases })
        (fun before s => { s with openAliases := before.openAliases })
        (walk.target target)
      modify (fun s => { s with globals := s.globals.set name (.type root (some type)) })
      return type
    | _ => fail (.notAType name) span

/-- The type a bare name stands for. -/
def typeOfName (walk : Walk) (name : String) (span : Span) : Lower TypeId := do
  match (← get).scopes.lookup? name with
  | some (.typeName type) => return type
  | some _ => fail (.notAType name) span
  | none =>
    match (← get).globals.lookup name with
    | some (.type _ (some type)) => return type
    | some (.type root none) => aliasTarget walk name root span
    | some _ => fail (.notAType name) span
    | none =>
      match (← read).env.resolve? name with
      | some (.type type) => return type
      | some _ => fail (.notAType name) span
      | none => fail (.undeclaredName name) span

/-- The parameters of a function type; the last one of a variadic function is a slice. -/
def lowerParams (walk : Walk) (variadic : Bool) : List Param → Lower (List HostParam)
  | [] => return []
  | param :: rest => do
    let type ← walk.type param.type
    let type ← if variadic && rest.isEmpty then onTypes (·.slice type) else pure type
    return ⟨param.name, type⟩ :: (← lowerParams walk variadic rest)

/-- The type of the functions with a signature. -/
def signatureType (signature : HostSignature) : Lower TypeId :=
  onTypes (·.func (signature.params.map (·.type)) (signature.results.map (·.type))
    signature.variadic)

/-- A function type: its signature, which keeps the names, and the type itself. -/
def lowerSignature (walk : Walk) (id : NodeId) : Lower (HostSignature × TypeId) := do
  match (← read).unit.type? id with
  | some (.func params results variadic) =>
    let params ← lowerParams walk variadic params
    let results ← lowerParams walk false results
    let signature : HostSignature := ⟨params, results, variadic⟩
    return (signature, ← signatureType signature)
  | _ => fail (.notAType (← textOf id)) (← spanOf id)

/-- The length of an array: a constant that is no negative number. -/
def arrayLength (walk : Walk) (id : NodeId) : Lower Nat := do
  let operand ← walk.expr id .none
  match operand.mode, operand.constant with
  | .value, some (.int (.ofNat n)) =>
    if n < lengthLimit then return n
    else fail (.constantOverflow (toString n)) operand.span
  | _, _ => fail (.typeMismatch "constant array length" (← textOf id)) operand.span

/-- The name a field of a type is reached by when it is embedded, looking through at most
`steps` pointers. -/
def embeddedName (types : TypeTable) : Nat → TypeId → String
  | 0, type => types.format type
  | steps + 1, type =>
    match types.get type with
    | .named _ name _ => name
    | .pointer target => embeddedName types steps target
    | _ => types.format type

def lowerField (walk : Walk) (field : FieldSpec) : Lower Field := do
  let type ← walk.type field.type
  match field.name with
  | some name => return ⟨name, type, false, field.tag⟩
  | none =>
    let types ← getTypes
    return ⟨embeddedName types types.size type, type, true, field.tag⟩

def lowerInterfaceMethod (walk : Walk) (method : MethodSpec) : Lower InterfaceMethod := do
  let (_, type) ← lowerSignature walk method.signature
  return ⟨method.name, type⟩

/-- The type that a node outside of the type syntax stands for. -/
def typeOfExpression (walk : Walk) (id : NodeId) : Lower TypeId := do
  let span ← spanOf id
  match (← read).unit.expr? id with
  | some (.identifier name) => typeOfName walk name span
  | some (.member object name) =>
    match (← read).unit.identifier? object with
    | some package => memberType (← packagePath package span) name span
    | none => fail (.notAType (← textOf id)) span
  | some (.dereference inner) =>
    let target ← walk.type inner
    onTypes (·.pointer target)
  | some (.grouping inner) => walk.type inner
  | _ => fail (.notAType (← textOf id)) span

/-- The type that a node stands for. -/
def lowerType (walk : Walk) (id : NodeId) : Lower TypeId := do
  let span ← spanOf id
  match (← read).unit.type? id with
  | none => typeOfExpression walk id
  | some (.named none name) => typeOfName walk name span
  | some (.named (some package) name) => memberType (← packagePath package span) name span
  | some (.pointer target) =>
    let target ← walk.type target
    onTypes (·.pointer target)
  | some (.slice element) =>
    let element ← walk.type element
    onTypes (·.slice element)
  | some (.array (some length) element) =>
    let length ← arrayLength walk length
    let element ← walk.type element
    onTypes (·.array element length)
  | some (.array none _) =>
    fail (.unsupportedConstruct "[...] array type outside a composite literal") span
  | some (.map key value) =>
    let key ← walk.type key
    let value ← walk.type value
    onTypes (·.map key value)
  | some (.chan dir element) =>
    let element ← walk.type element
    onTypes (·.chan element dir)
  | some (.func ..) => return (← lowerSignature walk id).2
  | some (.struct fields) =>
    let fields ← fields.mapM (lowerField walk)
    onTypes (·.struct fields)
  | some (.interface methods) =>
    let methods ← methods.mapM (lowerInterfaceMethod walk)
    onTypes (·.interface methods)

end GoLowering.Lowering
