import GoLowering.Lowering.ControlFlow
import GoLowering.Lowering.ValueSpecs

/-!
# Statements

Each kind of statement with the part of the lowering that is about it.
-/

namespace GoLowering.Lowering

open Surface

def lowerAssignment (walk : Walk) (lhs : List NodeId) (op : AssignOp) (rhs : List NodeId)
    (span : Span) : Lower HostId :=
  match op with
  | .define => lowerDefine walk lhs rhs span
  | .plain => lowerAssign walk lhs rhs span
  | .compound op => lowerCompound walk op lhs rhs span

/-- The host statement of a statement; a declaration of unbounded constants has none. -/
def lowerStmtKind (walk : Walk) (statement : Stmt) (span : Span) :
    Lower (Option HostId) := do
  match statement with
  | .expression value =>
    let operand ← walk.expr value .none
    return some (← expressionStatement walk { operand with span })
  | .assign lhs op rhs => return some (← lowerAssignment walk lhs op rhs span)
  | .incDec target increment => return some (← lowerIncDec walk target increment span)
  | .send channel value => return some (← lowerSend walk channel value span)
  | .varDecl spec => lowerLocalValues walk spec false span
  | .constDecl spec => lowerLocalValues walk spec true span
  | .typeDecl name type isAlias doc =>
    return some (← lowerLocalType walk name type isAlias doc span)
  | .function decl =>
    fail (.unsupportedConstruct ("func " ++ decl.name ++ " declared inside a function body"))
      span
  | .importPackage path _ =>
    fail (.unsupportedConstruct ("import \"" ++ path ++ "\" inside a function body")) span
  | .block statements =>
    let statements ← inScope .block (lowerStatements walk statements)
    return some (← place (.block statements) span)
  | .ifElse init condition thenBlock elseBranch =>
    return some (← lowerIf walk init condition thenBlock elseBranch span)
  | .loop init condition post body => return some (← lowerFor walk init condition post body span)
  | .range key value define source body =>
    return some (← lowerRange walk key value define source body span)
  | .forPhrase clause body => return some (← lowerForPhrase walk clause body span)
  | .switch init tag clauses => return some (← lowerSwitch walk init tag clauses span)
  | .typeSwitch init binding subject clauses =>
    return some (← lowerTypeSwitch walk init binding subject clauses span)
  | .select clauses => return some (← lowerSelect walk clauses span)
  | .go call => return some (← place (.go (← lowerLaterCall walk call "go")) span)
  | .defer call => return some (← place (.defer (← lowerLaterCall walk call "defer")) span)
  | .ret values => return some (← lowerReturn walk values span)
  | .branch kind label => return some (← lowerBranch kind label span)
  | .labeled label body =>
    let body ← walk.statement body
    return some (← place (.labeled label body) span)

/-- Lowers a node where a statement stands; an expression can stand there too. -/
def lowerStmt (walk : Walk) (id : NodeId) : Lower (Option HostId) := do
  match (← read).unit.stmt? id with
  | some statement => lowerStmtKind walk statement (← spanOf id)
  | none => return some (← expressionStatement walk (← walk.expr id .none))

end GoLowering.Lowering
