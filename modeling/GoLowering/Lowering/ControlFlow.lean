import GoLowering.Lowering.Blocks
import GoLowering.Lowering.Iteration
import GoLowering.Lowering.Lambdas

/-!
# Control flow

Statements with bodies, and the statements that leave a body. A body that an iterator calls
for each element is a function of its own: loop control in it can only leave the call.
-/

namespace GoLowering.Lowering

open Surface

/-! ## Conditions and loops -/

/-- What follows `else`. An `if` that hoists something needs a block of its own. -/
def lowerElse (walk : Walk) (branch : NodeId) : Lower HostId := do
  match (← read).unit.stmt? branch with
  | some (.ifElse ..) =>
    match ← lowerStatement walk branch with
    | [single] => return single
    | statements => blockNode statements
  | _ => lowerBody walk branch

def lowerIf (walk : Walk) (init : Option NodeId) (condition thenBlock : NodeId)
    (elseBranch : Option NodeId) (span : Span) : Lower HostId := do
  let kind ← inScope .block (do
    let init ← init.mapM walk.statement
    let condition ← lowerCondition walk condition
    let thenBranch ← lowerBody walk thenBlock
    let elseBranch ← elseBranch.mapM (lowerElse walk)
    return HostKind.ifElse init.join condition thenBranch elseBranch)
  place kind span

def hoistedCount : Lower Nat := return (← get).hoisted.length

/-- A loop; its condition and its post statement are run again and may hoist nothing. -/
def lowerFor (walk : Walk) (init condition post : Option NodeId) (body : NodeId)
    (span : Span) : Lower HostId := do
  let kind ← inScope .loop (do
    let init ← init.mapM walk.statement
    let before ← hoistedCount
    let condition ← condition.mapM (lowerCondition walk)
    let post ← post.mapM walk.statement
    if (← hoistedCount) != before then
      fail (.unsupportedConstruct "? wrap in a loop condition or post statement") span
    let body ← lowerBody walk body
    return HostKind.loop init.join condition post.join body)
  place kind span

/-! ## Ranges -/

/-- A source of an iteration and how it is iterated. -/
def lowerSource (walk : Walk) (source : NodeId) : Lower (HostId × RangePlan) := do
  let operand ← walk.expr source .none
  let (id, type) ← defaultValue operand
  return (id, ← planRange type operand.span)

/-- The name of a variable that a range defines. -/
def rangeName (id : NodeId) : Lower String := do
  match (← read).unit.identifier? id with
  | some name => return name
  | none => fail (.unsupportedConstruct ((← textOf id) ++ " as a range variable")) (← spanOf id)

/-- A variable that a range assigns to. -/
def lowerRangeTarget (walk : Walk) (id : NodeId) : Lower HostId := do
  if (← read).unit.identifier? id == some Names.blank then
    place (.identifier Names.blank) (← spanOf id)
  else
    let operand ← walk.expr id .none
    checkValue operand
    return operand.id

/-- `for key, value = range source { body }` -/
def lowerRangeAssign (walk : Walk) (key value : Option NodeId) (source : HostId)
    (plan : RangePlan) (body : NodeId) (span : Span) : Lower HostId := do
  if plan.isIterator then
    fail .rangeAssignOverIterator span
  else
    let key ← key.mapM (lowerRangeTarget walk)
    let value ← value.mapM (lowerRangeTarget walk)
    let body ← lowerBlock walk body .range
    place (.range key value false source body) span

/-- `for key, value := range source { body }` -/
def lowerRangeDefine (walk : Walk) (key value : Option NodeId) (source : HostId)
    (plan : RangePlan) (body : NodeId) (span : Span) : Lower HostId := do
  let key ← key.mapM rangeName
  let value ← value.mapM rangeName
  let statements ← inScope plan.scopeKind (do
    bindRange plan key value
    lowerBlockStatements walk body .block)
  emitRange plan source key value statements span

def lowerRange (walk : Walk) (key value : Option NodeId) (define : Bool)
    (source body : NodeId) (span : Span) : Lower HostId := do
  let (source, plan) ← lowerSource walk source
  if !define && (key.isSome || value.isSome) then
    lowerRangeAssign walk key value source plan body span
  else
    lowerRangeDefine walk key value source plan body span

/-- The init statement and the guard of a for-phrase. -/
def lowerPhraseHeader (walk : Walk) (clause : ForClause) :
    Lower (Option HostId × Option HostId) := do
  let init ← clause.init.mapM walk.statement
  let guard ← clause.guard.mapM (lowerCondition walk)
  return (init.join, guard)

/-- The body of a for-phrase inside of its guard. What the header hoists comes before it. -/
def lowerPhraseBody (walk : Walk) (clause : ForClause) (body : NodeId) :
    Lower (List HostId) := do
  let (hoisted, init, guard) ← hoisting (lowerPhraseHeader walk clause)
  match guard with
  | none => return hoisted ++ init.toList ++ (← lowerBlockStatements walk body .block)
  | some condition =>
    let thenBranch ← lowerBody walk body
    let span ← spanOf (clause.guard.getD body)
    return hoisted ++ [← place (.ifElse init condition thenBranch none) span]

/-- `for key, value <- source, guard { body }` -/
def lowerForPhrase (walk : Walk) (clause : ForClause) (body : NodeId) (span : Span) :
    Lower HostId := do
  let (source, plan) ← lowerSource walk clause.source
  let statements ← inScope plan.scopeKind (do
    bindRange plan clause.key clause.value
    lowerPhraseBody walk clause body)
  emitRange plan source clause.key clause.value statements span

/-! ## Switches -/

/-- A value that a tag is compared with. -/
def lowerCaseValue (walk : Walk) (tag : Option TypeId) (value : NodeId) : Lower HostId := do
  match tag with
  | none => lowerCondition walk value
  | some type =>
    let operand ← walk.expr value (.expecting type)
    if (← getTypes).isInterface type || operand.mode == .nil then
      return (← defaultValue operand).1
    else
      coerce operand type

def lowerCase (walk : Walk) (tag : Option TypeId) (clause : CaseClause) : Lower HostCase := do
  let values ← if clause.isDefault then pure none
    else some <$> clause.values.mapM (lowerCaseValue walk tag)
  let body ← inScope .switchCase (lowerStatements walk clause.body)
  return ⟨values, body⟩

def lowerSwitch (walk : Walk) (init tag : Option NodeId) (clauses : List CaseClause)
    (span : Span) : Lower HostId := do
  let kind ← inScope .block (do
    let init ← init.mapM walk.statement
    let tag ← tag.mapM (lowerByDefault walk)
    let cases ← clauses.mapM (lowerCase walk (tag.map (·.2)))
    return HostKind.switch init.join (tag.map (·.1)) cases)
  place kind span

/-- A type of a case, or nothing for `nil`. -/
def lowerCaseType (walk : Walk) (type : NodeId) : Lower (Option TypeId) := do
  if (← read).unit.identifier? type == some "nil" then return none
  else return some (← walk.type type)

/-- The type that the subject is known to have in a case: that of the only type of it. -/
def caseType (subject : TypeId) : Option (List (Option TypeId)) → TypeId
  | some [some single] => single
  | _ => subject

def lowerTypeCase (walk : Walk) (binding : Option String) (subject : TypeId)
    (clause : CaseClause) : Lower HostTypeCase := do
  let types ← if clause.isDefault then pure none
    else some <$> clause.values.mapM (lowerCaseType walk)
  let body ← inScope .typeSwitchCase (do
    bindVariable binding (some (caseType subject types))
    lowerStatements walk clause.body)
  return ⟨types, body⟩

/-- The subject of a type switch, which has to be of an interface type. -/
def lowerSubject (walk : Walk) (subject : NodeId) : Lower (HostId × TypeId) := do
  let (id, type) ← lowerByDefault walk subject
  let types ← getTypes
  if types.isInterface type || types.isInvalid type then
    return (id, type)
  else
    let origin := (← get).tree.origin? id
    fail (.typeMismatch "interface" (types.format type)) (origin.getD ⟨0, 0, ⟨0⟩⟩)

def lowerTypeSwitch (walk : Walk) (init : Option NodeId) (binding : Option String)
    (subject : NodeId) (clauses : List CaseClause) (span : Span) : Lower HostId := do
  let kind ← inScope .block (do
    let init ← init.mapM walk.statement
    let (subject, type) ← lowerSubject walk subject
    let cases ← clauses.mapM (lowerTypeCase walk binding type)
    return HostKind.typeSwitch init.join binding subject cases)
  place kind span

def lowerSelectCase (walk : Walk) (clause : SelectClause) : Lower HostSelectCase :=
  inScope .selectCase (do
    let comm ← clause.comm.mapM walk.statement
    return ⟨comm.join, ← lowerStatements walk clause.body⟩)

def lowerSelect (walk : Walk) (clauses : List SelectClause) (span : Span) :
    Lower HostId := do
  place (.select (← clauses.mapM (lowerSelectCase walk))) span

/-! ## Leaving -/

/-- The call of a `go` or `defer` statement. -/
def lowerLaterCall (walk : Walk) (call : NodeId) (keyword : String) : Lower HostId := do
  let operand ← walk.expr call .none
  match ← kindOf operand.id with
  | .call .. => return operand.id
  | _ =>
    fail (.unsupportedConstruct
      (keyword ++ " of " ++ (← textOf call) ++ ": expression must be a function call"))
      operand.span

/-- The values of a return: none, one for each result, or one with all results. -/
def lowerReturned (walk : Walk) (values : List NodeId) (results : List TypeId)
    (span : Span) : Lower (List HostId) := do
  if values.isEmpty then
    return []
  else if values.length == results.length then
    lowerEachResult walk values results
  else
    match values, decide (1 < results.length) with
    | [value], true =>
      let expect := { Expectation.none with results := results.length }
      return [← lowerAllResults walk value results expect]
    | _, _ => failResultCount results.length values.length span

def lowerReturn (walk : Walk) (values : List NodeId) (span : Span) : Lower HostId := do
  let results := ((← get).function).getD []
  place (.ret (← lowerReturned walk values results span)) span

/-- A loop control without a label, or a jump. -/
def lowerBranch (kind : BranchKind) (label : Option String) (span : Span) : Lower HostId := do
  let isControl := kind == .break || kind == .continue
  let around := (← get).scopes.branchTarget (kind == .continue)
  match if isControl && label.isNone then around else BranchTarget.statement with
  | .statement => place (.branch kind label) span
  | .callback =>
    warn (.loopControlInCallback kind.keyword) span
    place (.ret []) span
  | .none => fail (.unsupportedConstruct (kind.keyword ++ " outside a loop")) span

end GoLowering.Lowering
