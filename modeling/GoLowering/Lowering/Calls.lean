import GoLowering.Lowering.Composites
import GoLowering.Lowering.Operators

/-!
# Calls

Calls of functions, conversions to types, and calls of the built-in functions. Arguments are
lowered for the parameters they go to.
-/

namespace GoLowering.Lowering

open Surface

/-- An argument as it is written. -/
inductive Argument where
  | node (id : NodeId)
  /-- The operand of an ambiguous command: `f -x`. -/
  | signed (op : UnaryOp) (operand : NodeId) (span : Span)
  deriving Inhabited

def lowerArgument (walk : Walk) (argument : Argument) (expect : Expectation) :
    Lower Operand :=
  match argument with
  | .node id => walk.expr id expect
  | .signed op operand span => lowerUnary walk op operand span expect

def argumentInto (walk : Walk) (argument : Argument) (target : TypeId) : Lower HostId := do
  coerce (← lowerArgument walk argument (.expecting target)) target

def argumentByDefault (walk : Walk) (argument : Argument) : Lower (HostId × TypeId) := do
  defaultValue (← lowerArgument walk argument .none)

def failArgumentCount {α : Type} (expected got : Nat) (span : Span) : Lower α :=
  fail (.argumentCountMismatch expected got) span

/-- The type of an argument by its position. The arguments of a variadic parameter have the
type of its elements, unless a slice is spread. -/
def parameterType (types : TypeTable) (sig : Signature) (index : Nat) (spread : Bool) :
    TypeId :=
  if sig.variadic && sig.params.length ≤ index + 1 then
    let last := sig.params.getLast?.getD TypeTable.invalid
    match types.get last with
    | .slice element => if spread then last else element
    | _ => last
  else
    sig.params[index]?.getD TypeTable.invalid

/-- Whether the results of a call have the types of the parameters they go to; otherwise the
types of the first pair that does not agree. -/
def spreadMismatch? (sig : Signature) : Nat → List TypeId →
    Lower (Option (TypeId × TypeId))
  | _, [] => return none
  | index, result :: rest => do
    let param := parameterType (← getTypes) sig index false
    if ← assignable result param then spreadMismatch? sig (index + 1) rest
    else return some (param, result)

/-- A single argument of a function with several parameters: `f(g())` passes on all the
results of `g`. -/
def lowerSpreadArgument (walk : Walk) (sig : Signature) (argument : Argument)
    (span : Span) : Lower (List HostId) := do
  let count := sig.params.length
  let first := parameterType (← getTypes) sig 0 false
  let operand ← lowerArgument walk argument (.expecting first)
  match (← getTypes).get operand.type with
  | .tuple results =>
    let fits := if sig.variadic then count ≤ results.length + 1 else results.length == count
    if !fits then
      failArgumentCount count results.length span
    else
      match ← spreadMismatch? sig 0 results with
      | some (param, result) =>
        fail (.typeMismatch (← typeName param) (← typeName result)) operand.span
      | none => return [operand.id]
  | _ =>
    if sig.variadic && count ≤ 2 then return [← coerce operand first]
    else failArgumentCount count 1 span

/-- Lowers arguments for the parameters from a position on. -/
def lowerArgumentsFrom (walk : Walk) (sig : Signature) (spread : Bool) :
    Nat → List Argument → Lower (List HostId)
  | _, [] => return []
  | index, argument :: rest => do
    let target := parameterType (← getTypes) sig index spread
    let id ← argumentInto walk argument target
    return id :: (← lowerArgumentsFrom walk sig spread (index + 1) rest)

def lowerArgumentList (walk : Walk) (sig : Signature) (args : List Argument)
    (spread : Bool) (span : Span) : Lower (List HostId) := do
  let count := sig.params.length
  let variadic := sig.variadic && count != 0
  let countFits := if variadic && !spread then count ≤ args.length + 1
    else args.length == count
  if countFits && (variadic || !spread) then
    lowerArgumentsFrom walk sig spread 0 args
  else
    failArgumentCount count args.length span

/-- The arguments of a call of a function. -/
def lowerArguments (walk : Walk) (sig : Signature) (args : List Argument) (spread : Bool)
    (span : Span) : Lower (List HostId) :=
  let several := 1 < sig.params.length || (sig.variadic && sig.params.length != 0)
  match args, !spread && several with
  | [single], true => lowerSpreadArgument walk sig single span
  | _, _ => lowerArgumentList walk sig args spread span

/-! ## Conversions -/

/-- The elements of a literal without a type. -/
def bareElements? (unit : SourceUnit) : Argument → Option (List Element)
  | .node id =>
    match unit.expr? id with
    | some (.sliceLiteral elements) => some elements
    | some (.composite none elements) => some elements
    | _ => none
  | .signed .. => none

/-- The value of a converted constant, where the result is a constant again. -/
def convertedConstant (operand : Operand) (target : TypeId) : Lower (Option Constant) := do
  match ← basicOf? target with
  | some kind =>
    if kind.isNumeric then
      if overflows BasicType.isNumeric operand.constant (some kind) then failOverflow operand
      else return operand.constant
    else if kind == .string || kind == .bool then return operand.constant
    else return none
  | none => return none

def convertOperand (callee : HostId) (target : TypeId) (operand : Operand) (span : Span) :
    Lower Operand := do
  checkValue operand
  let untyped := operand.constant.isSome && (← getTypes).isUntyped operand.type
  if untyped && ((← read).registry.get? target).isSome then
    return .value (← materialize operand target) target span
  else
    let value ← if untyped then convertedConstant operand target else pure none
    let argument ← if ← isUntypedBig operand.type then pure (← defaultValue operand).1
      else pure operand.id
    return .ofConstant (← place (.call callee [argument] false) span) target value span

/-- A conversion to a type. `T([1, 2])` is the composite literal `T{1, 2}`. -/
def lowerConversion (walk : Walk) (callee : Operand) (args : List Argument) (span : Span) :
    Lower Operand := do
  match args with
  | [argument] =>
    match bareElements? (← read).unit argument, (← getTypes).isComposite callee.type with
    | some elements, true => lowerElementsInto walk callee.type elements span
    | _, _ =>
      convertOperand callee.id callee.type (← lowerArgument walk argument .none) span
  | _ => failArgumentCount 1 args.length span

/-! ## Built-in functions -/

/-- The type that an argument names. -/
def argumentType (walk : Walk) (argument : Argument) : Lower TypeId := do
  let operand ← lowerArgument walk argument .none
  if operand.mode == .type then return operand.type
  else fail (.notAType (← textAt operand.span)) operand.span

/-- Whether a type has a length or, with `capacity`, a capacity. -/
def hasLength (types : TypeTable) (type : TypeId) (capacity : Bool) : Bool :=
  match types.shape type with
  | .slice _ | .array _ _ | .chan _ _ | .invalid => true
  | .map _ _ | .basic .string => !capacity
  | .pointer target =>
    match types.shape target with
    | .array _ _ => true
    | _ => false
  | _ => false

def lowerAppend (walk : Walk) (first : Argument) (rest : List Argument) (spread : Bool)
    (span : Span) (expect : Expectation) : Lower (List HostId × List TypeId) := do
  let slice ← lowerArgument walk first (.maybe expect.type)
  match (← getTypes).shape slice.type with
  | .slice element =>
    let id ← coerce slice slice.type
    if spread && rest.length != 1 then
      failArgumentCount 2 (rest.length + 1) span
    else
      let target := if spread then slice.type else element
      let ids ← rest.mapM (argumentInto walk · target)
      return (id :: ids, [slice.type])
  | _ => failOperation Builtin.append.name slice.type span

def lowerMake (walk : Walk) (type : Argument) (sizes : List Argument) (span : Span) :
    Lower (List HostId × List TypeId) := do
  let type ← argumentType walk type
  match (← getTypes).shape type with
  | .slice _ | .map _ _ | .chan _ _ =>
    let node ← typeNode type
    let sizes ← sizes.mapM (argumentInto walk · TypeTable.int)
    return (node :: sizes, [type])
  | _ => failOperation Builtin.make.name type span

/-- The arguments of a call of a built-in function, and the types of its results. -/
def lowerBuiltinParts (walk : Walk) (function : Builtin) (args : List Argument)
    (spread : Bool) (span : Span) (expect : Expectation) :
    Lower (List HostId × List TypeId) := do
  match function, args with
  | .len, [arg] | .cap, [arg] =>
    let (id, type) ← argumentByDefault walk arg
    if hasLength (← getTypes) type (function == .cap) then return ([id], [TypeTable.int])
    else failOperation function.name type span
  | .append, first :: rest => lowerAppend walk first rest spread span expect
  | .make, type :: sizes =>
    if sizes.length ≤ 2 then lowerMake walk type sizes span
    else failArgumentCount function.arity args.length span
  | .new, [arg] =>
    let type ← argumentType walk arg
    let pointer ← onTypes (·.pointer type)
    return ([← typeNode type], [pointer])
  | .delete, [map, key] =>
    let (map, type) ← argumentByDefault walk map
    match (← getTypes).shape type with
    | .map keyType _ => return ([map, ← argumentInto walk key keyType], [])
    | _ => failOperation function.name type span
  | .close, [arg] =>
    let (channel, type) ← argumentByDefault walk arg
    match (← getTypes).shape type with
    | .chan _ .both | .chan _ .send => return ([channel], [])
    | _ => failOperation function.name type span
  | .copy, [target, source] =>
    let (target, _) ← argumentByDefault walk target
    let (source, _) ← argumentByDefault walk source
    return ([target, source], [TypeTable.int])
  | .panic, [arg] => return ([← argumentInto walk arg TypeTable.any], [])
  | .recover, [] => return ([], [TypeTable.any])
  | .complex, [real, imag] =>
    let (real, type) ← argumentByDefault walk real
    let (imag, _) ← argumentByDefault walk imag
    let kind := if (← basicOf? type) == some .float32 then .complex64 else .complex128
    return ([real, imag], [TypeTable.basic kind])
  | .real, [arg] | .imag, [arg] =>
    let (value, type) ← argumentByDefault walk arg
    match ← basicOf? type with
    | some .complex64 => return ([value], [TypeTable.basic .float32])
    | some kind =>
      if kind.isComplex then return ([value], [TypeTable.basic .float64])
      else failOperation function.name type span
    | none => failOperation function.name type span
  | _, _ => failArgumentCount function.arity args.length span

/-! ## Calls -/

/-- A call of an operand; one of an invalid type is called with its arguments as they are. -/
def callOperand (walk : Walk) (callee : Operand) (args : List Argument) (spread : Bool)
    (span : Span) (expect : Expectation) : Lower Operand := do
  match callee.mode with
  | .type => lowerConversion walk callee args span
  | .builtin function =>
    let (ids, results) ← lowerBuiltinParts walk function args spread span expect
    let id ← place (.call callee.id ids (spread && function == .append)) span
    resultOperand id results span
  | .value =>
    if ← isInvalid callee.type then
      let operands ← args.mapM (lowerArgument walk · .none)
      let id ← place (.call callee.id (operands.map (·.id)) spread) span
      return .value id callee.type span
    else
      match (← getTypes).signature? callee.type with
      | some sig =>
        let ids ← lowerArguments walk sig args spread span
        let id ← place (.call callee.id ids spread) span
        resultOperand id sig.results span
      | none => fail (.notCallable (← textAt callee.span)) callee.span
  | .package _ | .noValue | .nil => fail (.notCallable (← textAt callee.span)) callee.span

def lowerCall (walk : Walk) (callee : NodeId) (args : List NodeId) (spread : Bool)
    (span : Span) (expect : Expectation) : Lower Operand := do
  let callee ← walk.expr callee .called
  callOperand walk callee (args.map .node) spread span expect

/-- Whether an operand is called when a signed operand follows it. -/
def isCallable (operand : Operand) : Lower Bool := do
  match operand.mode with
  | .builtin _ => return true
  | .value => return ((← getTypes).signature? operand.type).isSome
  | _ => return false

/-- `f -x`: a call where `f` can be called, and otherwise the operation `f - x`. -/
def lowerAmbiguousCommand (walk : Walk) (head : NodeId) (op : UnaryOp) (operand : NodeId)
    (span : Span) (expect : Expectation) : Lower Operand := do
  let head ← walk.expr head .called
  if ← isCallable head then
    callOperand walk head [.signed op operand (← spanOf operand)] false span expect
  else
    match op.asBinary? with
    | some binary => lowerBinary binary head (← walk.expr operand .none) span
    | none => fail (.notCallable (← textAt head.span)) head.span

end GoLowering.Lowering
