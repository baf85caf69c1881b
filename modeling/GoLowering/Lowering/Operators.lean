import GoLowering.Lowering.Coercion

/-!
# Operators

Operations on untyped constants are folded, those on registered types are method calls, and
all others are operations of the host language, whose operands are brought to one type.
-/

namespace GoLowering.Lowering

open Surface

/-!
## Operators of registered types

An operator on a registered numeric type is a call of the method that stands for it:
`(T).Gop_Add(x, y)`, `x.Gop_AddAssign(y)`, `x.Gop_Inc()`, `x.Gop_Neg()`.
-/

/-- The registered type whose operator a binary operation is: the type of an operand, or the
default of an unbounded constant that meets an operand that is no constant. -/
def operatorType? (left right : Operand) : Lower (Option TypeId) := do
  let registry := (← read).registry
  if (registry.get? left.type).isSome then
    return some left.type
  else if (registry.get? right.type).isSome then
    return some right.type
  else if (← isUntypedBig left.type) && right.constant.isNone then
    bigDefault? left.type
  else if (← isUntypedBig right.type) && left.constant.isNone then
    bigDefault? right.type
  else
    return none

def lowerRegisteredBinary (op : BinaryOp) (target : TypeId) (left right : Operand)
    (span : Span) : Lower Operand := do
  match (← read).registry.get? target, op.method? with
  | some entry, some method =>
    let left ← coerce left target
    let right ← if op.isShift then pure (← defaultValue right).1 else coerce right target
    let receiver ← typeNode target
    let receiver ← scaffold (.paren receiver)
    let callee ← selectorNode receiver (method ++ entry.binarySuffix)
    let call ← place (.call callee [left, right] false) span
    return .value call (if op.isComparison then TypeTable.bool else target) span
  | _, _ => failOperation op.symbol target span

/-- A call of a method on an operand as a statement. -/
def methodStatement (object : HostId) (method : String) (args : List HostId) (span : Span) :
    Lower HostId := do
  let callee ← selectorNode object method
  let call ← callNode callee args
  place (.expression call) span

def lowerRegisteredAssign (op : BinaryOp) (target value : Operand) (span : Span) :
    Lower HostId := do
  match op.assignMethod? with
  | some method =>
    let argument ←
      if op.isShift then pure (← defaultValue value).1 else coerce value target.type
    methodStatement target.id method [argument] span
  | none => failOperation (AssignOp.compound op).symbol target.type span

def lowerRegisteredIncDec (target : Operand) (increment : Bool) (span : Span) :
    Lower HostId :=
  methodStatement target.id (if increment then "Gop_Inc" else "Gop_Dec") [] span

def lowerRegisteredUnary (op : UnaryOp) (operand : Operand) (span : Span) :
    Lower Operand := do
  match op.method? with
  | some method =>
    let callee ← selectorNode operand.id method
    let call ← place (.call callee [] false) span
    return .value call operand.type span
  | none => failOperation op.symbol operand.type span

/-! ## Operators of any types -/

def isStringKind (kind : BasicType) : Bool := kind == .string || kind == .untypedString

/-! ## Constants -/

/-- The basic type and the value of an untyped constant. -/
def untypedConstant? (operand : Operand) : Lower (Option (BasicType × Constant)) := do
  let types ← getTypes
  match operand.constant, types.basic? operand.type with
  | some value, some kind =>
    return if operand.mode == .value && types.isUntyped operand.type then some (kind, value)
      else none
  | _, _ => return none

/-- The node of an operand of a folded operation: an unbounded integer is written out. -/
def foldedNode (operand : Operand) : Lower HostId := do
  match operand.constant with
  | some (.int n) =>
    if ← isUntypedBig operand.type then literalNode (toString n) else return operand.id
  | _ => return operand.id

def failFold {α : Type} (op : BinaryOp) (left right : Operand) (span : Span) :
    FoldError → Lower α
  | .divisionByZero => fail (.invalidOperation op.symbol "division by zero") span
  | .overflow => do
    let operands := if left.span.file == right.span.file then left.span.merge right.span
      else span
    fail (.constantOverflow (← textAt operands)) operands
  | .invalid => failOperation op.symbol left.type span

/-- A binary operation on two untyped constants. Strings are not folded. An unbounded result
is rebuilt from its value when it is used; any other is computed by the host. -/
def foldBinary? (op : BinaryOp) (left right : Operand) (span : Span) :
    Lower (Option Operand) := do
  match ← untypedConstant? left, ← untypedConstant? right with
  | some (leftKind, a), some (rightKind, b) =>
    if a.isString || b.isString then
      return none
    else
      match Constant.foldBinary op a b (leftKind.isUntypedBig || rightKind.isUntypedBig) with
      | .error error => failFold op left right span error
      | .ok value =>
        let kind := Constant.promote leftKind rightKind value
        let id ←
          if kind.isUntypedBig then
            place (.literal (← textAt span)) span
          else do
            let left ← foldedNode left
            let right ← foldedNode right
            place (.binary op left right) span
        return some (.ofConstant id (TypeTable.basic kind) (some value) span)
  | _, _ => return none

/-! ## Host operations -/

/-- Two operands brought to one type, and that type. An untyped operand takes the type of the
other one, and an interface takes any value that implements it. -/
def unify (left right : Operand) (span : Span) : Lower (HostId × HostId × TypeId) := do
  let types ← getTypes
  match types.isUntyped left.type, types.isUntyped right.type with
  | true, false => return (← coerce left right.type, right.id, right.type)
  | false, true => return (left.id, ← coerce right left.type, left.type)
  | true, true =>
    match types.basic? left.type, types.basic? right.type with
    | some a, some b =>
      return (left.id, right.id, TypeTable.basic (Constant.promote a b (.int 0)))
    | _, _ => failMismatch right left.type
  | false, false =>
    let rightToLeft ← assignable right.type left.type
    let leftToRight ← assignable left.type right.type
    if left.type == right.type || (rightToLeft && leftToRight) ||
        (types.isInterface left.type && rightToLeft) then
      return (left.id, right.id, left.type)
    else if types.isInterface right.type && leftToRight then
      return (left.id, right.id, right.type)
    else
      fail (.typeMismatch (types.format left.type) (types.format right.type)) span

/-- Whether the host has an order on a basic type. -/
def isOrdered (kind : BasicType) : Bool :=
  (kind.isNumeric && !kind.isComplex) || isStringKind kind

def lowerComparison (op : BinaryOp) (left right : Operand) (span : Span) :
    Lower Operand := do
  let (leftId, rightId) ←
    match left.mode, right.mode with
    | .nil, .nil => fail .untypedNil span
    | .nil, _ => pure (← coerce left right.type, right.id)
    | _, .nil => pure (left.id, ← coerce right left.type)
    | _, _ => do
      let (leftId, rightId, type) ← unify left right span
      let needsOrder := op != .equal && op != .notEqual
      if needsOrder && !((← basicOf? type).any isOrdered) then
        failOperation op.symbol type span
      else
        pure (leftId, rightId)
  let id ← place (.binary op leftId rightId) span
  return .value id (TypeTable.basic .untypedBool) span

/-- A shift: the amount is an integer of any type. -/
def lowerShift (op : BinaryOp) (left right : Operand) (span : Span) : Lower Operand := do
  let shiftable (kind : BasicType) : Bool := kind.isInteger || kind == .untypedFloat
  if !((← basicOf? left.type).any shiftable) then
    failOperation op.symbol left.type span
  else
    let (amount, amountType) ← defaultValue right
    if !((← basicOf? amountType).any BasicType.isInteger) then
      failOperation op.symbol amountType span
    else
      let (value, type) ← defaultValue left
      let id ← place (.binary op value amount) span
      return .value id type span

/-- Whether an arithmetic operator is defined on a basic type. -/
def isDefinedOn (op : BinaryOp) (kind : BasicType) : Bool :=
  match op with
  | .add => kind.isNumeric || isStringKind kind
  | .sub | .mul | .div => kind.isNumeric
  | _ => kind.isInteger

def lowerArithmetic (op : BinaryOp) (left right : Operand) (span : Span) :
    Lower Operand := do
  let (leftId, rightId, type) ← unify left right span
  let valid ← if op.isLogical then isBoolean type
    else pure ((← basicOf? type).any (isDefinedOn op))
  if valid then
    let id ← place (.binary op leftId rightId) span
    return .value id type span
  else
    failOperation op.symbol type span

def lowerBinary (op : BinaryOp) (left right : Operand) (span : Span) : Lower Operand := do
  checkValue left
  checkValue right
  if (← isInvalid left.type) || (← isInvalid right.type) then
    return .value (← binaryNode op left.id right.id) left.type span
  else
    match ← foldBinary? op left right span with
    | some folded => return folded
    | none =>
      match ← operatorType? left right with
      | some target => lowerRegisteredBinary op target left right span
      | none =>
        if op.isShift then lowerShift op left right span
        else if op.isComparison then lowerComparison op left right span
        else lowerArithmetic op left right span

/-! ## Unary operators -/

/-- A unary operation on an untyped constant. A truth value is written out, and so is an
unbounded number, which is rebuilt from its value when it is used. -/
def foldUnary (op : UnaryOp) (operand : Operand) (value : Constant) (span : Span) :
    Lower Operand := do
  match Constant.foldUnary op value with
  | .error _ => failOperation op.symbol operand.type span
  | .ok folded =>
    let id ←
      match folded with
      | .bool b => place (.literal (toString b)) span
      | _ =>
        if ← isUntypedBig operand.type then place (.literal (← textAt span)) span
        else place (.unary op operand.id) span
    return .ofConstant id operand.type (some folded) span

/-- Whether the host has a unary operator on a type. -/
def hasUnary (op : UnaryOp) (type : TypeId) : Lower Bool := do
  let kind ← basicOf? type
  match op with
  | .not => isBoolean type
  | .negate | .plus => return kind.any BasicType.isNumeric
  | .bitNot => return kind.any BasicType.isInteger
  | .addressOf | .receive => return false

def lowerUnaryOperand (op : UnaryOp) (operand : Operand) (span : Span) : Lower Operand := do
  checkValue operand
  let types ← getTypes
  match operand.constant, types.isUntyped operand.type with
  | some value, true => foldUnary op operand value span
  | _, _ =>
    if ((← read).registry.get? operand.type).isSome then
      lowerRegisteredUnary op operand span
    else if types.isInvalid operand.type || (← hasUnary op operand.type) then
      return .value (← place (.unary op operand.id) span) operand.type span
    else
      failOperation op.symbol operand.type span

def lowerAddressOf (walk : Walk) (operand : NodeId) (span : Span) (expect : Expectation) :
    Lower Operand := do
  let types ← getTypes
  let pointee := expect.type.bind (fun type =>
    match types.shape type with
    | .pointer target => some target
    | _ => none)
  let inner ← walk.expr operand (.maybe pointee)
  checkValue inner
  let type ← onTypes (·.pointer inner.type)
  return .value (← place (.unary .addressOf inner.id) span) type span

def lowerReceive (walk : Walk) (operand : NodeId) (span : Span) : Lower Operand := do
  let channel ← walk.expr operand .none
  checkValue channel
  let receive (element : TypeId) : Lower Operand := do
    let id ← place (.unary .receive channel.id) span
    return { Operand.value id element span with commaOk := true }
  match (← getTypes).shape channel.type with
  | .chan element .both | .chan element .recv => receive element
  | _ => failOperation UnaryOp.receive.symbol channel.type span

def lowerUnary (walk : Walk) (op : UnaryOp) (operand : NodeId) (span : Span)
    (expect : Expectation) : Lower Operand := do
  match op with
  | .addressOf => lowerAddressOf walk operand span expect
  | .receive => lowerReceive walk operand span
  | _ => lowerUnaryOperand op (← walk.expr operand .none) span

/-- The target of a pointer, or the pointer type of a type. -/
def lowerDereference (walk : Walk) (inner : NodeId) (span : Span) : Lower Operand := do
  let operand ← walk.expr inner .none
  if operand.mode == .type then
    let type ← onTypes (·.pointer operand.type)
    return { Operand.value (← place (.typeExpression type) span) type span with mode := .type }
  else
    checkValue operand
    let dereference (type : TypeId) : Lower Operand := do
      return .value (← place (.dereference operand.id) span) type span
    match (← getTypes).shape operand.type with
    | .pointer target => dereference target
    | .invalid => dereference operand.type
    | _ => failOperation "*" operand.type span

end GoLowering.Lowering
