import GoLowering.Constant.Fold
import GoLowering.Lowering.Nodes

/-!
# Values in typed places

What becomes of an operand that is used as a value: of a given type, or of the type it takes
by default.
-/

namespace GoLowering.Lowering

/-!
## Values of registered types

An untyped constant that flows into a registered numeric type is built by one of the
initializers of the type: from an `int` where it fits one, from a big integer, or from a big
rational. Numbers beyond 64 bits are read from their digits when the program runs.
-/

def fitsInt64 (n : Int) : Bool := Constant.intFits n 64 false

/-- `func() *big.T { v, _ := new(big.T).SetString("text"); return v }()` -/
def bigFromText (name text : String) (base : Option String) : Lower HostId := do
  let type ← onTypes (·.declareNamed (some bigPath) name)
  let pointer ← onTypes (·.pointer type)
  let new ← identNode "new"
  let typeArgument ← typeNode type
  let fresh ← callNode new [typeArgument]
  let setString ← selectorNode fresh "SetString"
  let digits ← literalNode ("\"" ++ text ++ "\"")
  let base ← base.toList.mapM literalNode
  let parse ← callNode setString (digits :: base)
  let value ← identNode "v"
  let blank ← identNode Names.blank
  let define ← defineNode [value, blank] [parse]
  let value ← identNode "v"
  let ret ← returnNode [value]
  let body ← blockNode [define, ret]
  let literal ← scaffold (.functionLiteral ⟨[], [⟨none, pointer⟩], false⟩ body)
  callNode literal []

/-- A big integer. -/
def bigInteger (n : Int) : Lower HostId := do
  if fitsInt64 n then
    let newInt ← qualifiedNode bigPath "NewInt"
    let literal ← literalNode (toString n)
    callNode newInt [literal]
  else
    bigFromText "Int" (toString n) (some "10")

/-- The digits of a fraction, less a denominator of one. -/
def fractionText (r : Rat) : String :=
  if r.den == 1 then toString r.num else toString r.num ++ "/" ++ toString r.den

/-- A big rational. -/
def bigRational (r : Rat) : Lower HostId := do
  if fitsInt64 r.num && fitsInt64 r.den then
    let newRat ← qualifiedNode bigPath "NewRat"
    let num ← literalNode (toString r.num)
    let den ← literalNode (toString r.den)
    callNode newRat [num, den]
  else
    bigFromText "Rat" (fractionText r) none

/-- A call of an initializer. -/
def initializerCall (package initializer : String) (value : HostId) (span : Span) :
    Lower HostId := do
  let callee ← qualifiedNode package initializer
  place (.call callee [value] false) span

/-- The value of a registered type that an untyped numeric constant stands for. -/
def materialize (operand : Operand) (target : TypeId) : Lower HostId := do
  let mismatch : Lower HostId := do
    fail (.typeMismatch (← typeName target) (← typeName operand.type)) operand.span
  match (← read).registry.get? target with
  | none => mismatch
  | some entry =>
    match operand.constant with
    | some (.int n) =>
      let fromInt := if (← isUntypedBig operand.type) || !fitsInt64 n then none else entry.initInt
      match fromInt, entry.initBig with
      | some initializer, _ =>
        initializerCall entry.package initializer operand.id operand.span
      | none, some initializer =>
        initializerCall entry.package initializer (← bigInteger n) operand.span
      | none, none => mismatch
    | some (.rat r) =>
      match entry.initRat with
      | some initializer =>
        initializerCall entry.package initializer (← bigRational r) operand.span
      | none => mismatch
    | _ => mismatch

/-! ## Values of given types and by default -/

/-- Fails unless an operand is one value. -/
def checkValue (operand : Operand) : Lower Unit := do
  match operand.mode with
  | .value | .nil =>
    match (← getTypes).get operand.type with
    | .tuple elements => fail (.resultCountMismatch 1 elements.length) operand.span
    | _ => return ()
  | .noValue => fail (.resultCountMismatch 1 0) operand.span
  | .type | .package _ | .builtin _ =>
    fail (.notAValue (← textAt operand.span)) operand.span

def failMismatch {α : Type} (operand : Operand) (target : TypeId) : Lower α := do
  let got ← if operand.mode == .nil then pure "nil" else typeName operand.type
  fail (.typeMismatch (← typeName target) got) operand.span

def failOverflow {α : Type} (operand : Operand) : Lower α := do
  fail (.constantOverflow (← textAt operand.span)) operand.span

def failOperation {α : Type} (operator : String) (type : TypeId) (span : Span) : Lower α := do
  fail (.invalidOperation operator (← typeName type)) span

/-- The basic type that a type is defined as. -/
def basicOf? (type : TypeId) : Lower (Option BasicType) := return (← getTypes).basic? type

/-- The type of an untyped unbounded constant where nothing else decides it. -/
def bigDefault? (type : TypeId) : Lower (Option TypeId) := do
  let kind ← basicOf? type
  return (kind.bind (← read).registry.defaultFor?).map (·.type)

/-- Whether a constant is no value of a basic type of a class. -/
def overflows (inClass : BasicType → Bool) (constant : Option Constant)
    (kind : Option BasicType) : Bool :=
  match constant, kind with
  | some value, some kind => inClass kind && !value.representable kind
  | _, _ => false

/-- The operand as a value of its default type, and that type. -/
def defaultValue (operand : Operand) : Lower (HostId × TypeId) := do
  checkValue operand
  if operand.mode == .nil then
    fail .untypedNil operand.span
  else if ← isUntypedBig operand.type then
    match ← bigDefault? operand.type with
    | some type => return (← materialize operand type, type)
    | none =>
      fail (.unsupportedConstruct "big-number constant without a registered big-number type")
        operand.span
  else
    let types ← getTypes
    if types.isUntyped operand.type then
      let type := types.defaultType operand.type
      if overflows BasicType.isInteger operand.constant (types.basic? type) then
        failOverflow operand
      else
        return (operand.id, type)
    else
      return (operand.id, operand.type)

/-- The operand as a value of a type. -/
def coerce (operand : Operand) (target : TypeId) : Lower HostId := do
  checkValue operand
  let types ← getTypes
  let untyped := types.isUntyped operand.type
  if types.isInvalid operand.type || types.isInvalid target then
    return operand.id
  else if operand.mode == .nil then
    if types.isNilable target then return operand.id else failMismatch operand target
  else if untyped && operand.constant.isSome &&
      ((← read).registry.get? target).isSome then
    materialize operand target
  else if ← isUntypedBig operand.type then
    if types.isInterface target then return (← defaultValue operand).1
    else failMismatch operand target
  else if untyped && overflows BasicType.isNumeric operand.constant (types.basic? target) then
    failOverflow operand
  else if ← assignable operand.type target then
    return operand.id
  else
    failMismatch operand target

/-- The operand as a value of a type if one is given, and by default otherwise. -/
def coerceOrDefault (operand : Operand) (target : Option TypeId) :
    Lower (HostId × TypeId) := do
  match target with
  | some target => return (← coerce operand target, target)
  | none => defaultValue operand

/-- Lowers an expression where a value of a type is needed. -/
def lowerInto (walk : Walk) (id : Surface.NodeId) (target : TypeId) : Lower HostId := do
  coerce (← walk.expr id (.expecting target)) target

/-- Lowers an expression as a value of its default type. -/
def lowerByDefault (walk : Walk) (id : Surface.NodeId) : Lower (HostId × TypeId) := do
  defaultValue (← walk.expr id .none)

def isBoolean (type : TypeId) : Lower Bool := do
  let kind ← basicOf? type
  return kind == some .bool || kind == some .untypedBool || (← isInvalid type)

/-- Lowers an expression of boolean type. -/
def lowerCondition (walk : Walk) (id : Surface.NodeId) : Lower HostId := do
  let operand ← walk.expr id .none
  if ← isBoolean operand.type then return (← defaultValue operand).1
  else fail (.typeMismatch "bool" (← typeName operand.type)) operand.span

end GoLowering.Lowering
