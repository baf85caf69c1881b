import GoLowering.Lowering.Blocks

/-!
# Lambdas and function literals

A lambda has no types of its own: it takes those of the function type it is written for.
-/

namespace GoLowering.Lowering

open Surface

/-- Whether values of the first types can be results of the second. -/
def resultsFit (got results : List TypeId) : Lower Bool := do
  if got.length == results.length then
    (got.zip results).allM (fun (g, r) => assignable g r)
  else
    return false

def failResultCount {α : Type} (expected got : Nat) (span : Span) : Lower α :=
  fail (.resultCountMismatch expected got) span

/-- One expression that gives all of several results. -/
def lowerAllResults (walk : Walk) (value : NodeId) (results : List TypeId)
    (expect : Expectation) : Lower HostId := do
  let operand ← walk.expr value expect
  let got := (← getTypes).resultsOf operand.type
  if ← resultsFit got results then return operand.id
  else failResultCount results.length got.length operand.span

/-- One expression for each result. -/
def lowerEachResult (walk : Walk) (values : List NodeId) (results : List TypeId) :
    Lower (List HostId) :=
  (values.zip results).mapM (fun (value, result) => lowerInto walk value result)

/-- The statements of a lambda without results. -/
def lowerLambdaStatement (walk : Walk) (value : NodeId) : Lower (List HostId) := do
  let operand ← walk.expr value .none
  let hoisted ← takeHoisted
  return hoisted ++ [← expressionStatement walk operand]

/-- The values that the expressions of a lambda return. -/
def lowerLambdaValues (walk : Walk) (values : List NodeId) (results : List TypeId)
    (span : Span) : Lower (List HostId) := do
  match values, decide (1 < results.length) with
  | [single], true => return [← lowerAllResults walk single results .none]
  | _, _ =>
    if values.length == results.length then lowerEachResult walk values results
    else failResultCount results.length values.length span

/-- The body of a lambda that consists of expressions. -/
def lowerLambdaExpressions (walk : Walk) (values : List NodeId) (results : List TypeId)
    (span : Span) : Lower HostId := do
  if results.isEmpty then
    blockNode (← values.mapM (lowerLambdaStatement walk)).flatten
  else
    let ids ← lowerLambdaValues walk values results span
    let hoisted ← takeHoisted
    let returnSpan ←
      match values.head?, values.getLast? with
      | some first, some last => pure ((← spanOf first).merge (← spanOf last))
      | _, _ => pure span
    blockNode (hoisted ++ [← place (.ret ids) returnSpan])

def lowerLambdaBody (walk : Walk) (body : LambdaBody) (results : List TypeId) (span : Span) :
    Lower HostId :=
  match body with
  | .block block => lowerBody walk block
  | .expressions values => lowerLambdaExpressions walk values results span

/-- Puts a function literal of what a part makes of its body, and notes what is hoisted in it. -/
def putLiteral (signature : HostSignature) (part : Lower HostId) (span : Span) :
    Lower HostId := do
  let before := (← get).levelLog.length
  let body ← inFunction .closure (signature.results.map (·.type)) part
  let id ← place (.functionLiteral signature body) span
  noteLiteral id ((← get).levelLog.drop before)
  return id

def lowerLambda (walk : Walk) (params : List String) (body : LambdaBody) (span : Span)
    (expect : Expectation) : Lower Operand := do
  match expect.type with
  | none => fail .lambdaWithoutContext span
  | some type =>
    match (← getTypes).signature? type with
    | none => fail (.typeMismatch (← typeName type) "lambda") span
    | some sig =>
      if params.length != sig.params.length then
        fail (.lambdaArityMismatch sig.params.length params.length) span
      else
        let params := (params.zip sig.params).map (fun (name, type) =>
          HostParam.mk (some name) type)
        let signature : HostSignature := ⟨params, sig.results.map (⟨none, ·⟩), sig.variadic⟩
        let id ← putLiteral signature (do
          bindParams params
          lowerLambdaBody walk body sig.results span) span
        return .value id type span

def lowerFunctionLiteral (walk : Walk) (signature body : NodeId) (span : Span) :
    Lower Operand := do
  let (signature, type) ← lowerSignature walk signature
  let id ← putLiteral signature (do
    bindParams signature.params
    bindParams signature.results
    lowerBody walk body) span
  return .value id type span

end GoLowering.Lowering
