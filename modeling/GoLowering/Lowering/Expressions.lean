import GoLowering.Lowering.Access
import GoLowering.Lowering.Comprehensions
import GoLowering.Lowering.ErrorWraps
import GoLowering.Lowering.Lambdas
import GoLowering.Lowering.Members

/-!
# Expressions

Each kind of expression with the part of the lowering that is about it.
-/

namespace GoLowering.Lowering

open Surface

/-- An expression in parentheses, which only values keep. -/
def lowerGrouping (walk : Walk) (inner : NodeId) (span : Span) (expect : Expectation) :
    Lower Operand := do
  let operand ← walk.expr inner expect
  if !operand.isValue || (← isInvalid operand.type) then
    return operand
  else
    return { operand with id := ← place (.paren operand.id) span, span }

def lowerExprKind (walk : Walk) (expression : Expr) (span : Span) (expect : Expectation) :
    Lower Operand := do
  match expression with
  | .identifier name => lowerIdentifier walk name span
  | .literal kind text => lowerLiteral kind text span
  | .composite type elements => lowerComposite walk type elements span expect
  | .sliceLiteral elements => lowerSliceLiteral walk elements span expect
  | .grouping inner => lowerGrouping walk inner span expect
  | .member object name => lowerMember walk object name span expect
  | .index object index => lowerIndex walk object index span
  | .slice object low high max => lowerSlice walk object low high max span
  | .typeAssertion object type => lowerTypeAssertion walk object type span
  | .call callee args spread => lowerCall walk callee args spread span expect
  | .command head args => lowerCall walk head args false span expect
  | .ambiguousCommand head op operand => lowerAmbiguousCommand walk head op operand span expect
  | .dereference inner => lowerDereference walk inner span
  | .unary op operand => lowerUnary walk op operand span expect
  | .binary op left right =>
    let left ← walk.expr left .none
    let right ← walk.expr right .none
    lowerBinary op left right span
  | .functionLiteral signature body => lowerFunctionLiteral walk signature body span
  | .lambda params body => lowerLambda walk params body span expect
  | .comprehension yields clauses => lowerComprehension walk yields clauses span expect
  | .errorWrap inner policy => lowerErrorWrap walk inner policy span

/-- Lowers a node where an expression stands; one that is no expression stands for a type. -/
def lowerExpr (walk : Walk) (id : NodeId) (expect : Expectation) : Lower Operand := do
  let span ← spanOf id
  match (← read).unit.expr? id with
  | some expression => lowerExprKind walk expression span expect
  | none => typeOperand (← walk.type id) span

end GoLowering.Lowering
