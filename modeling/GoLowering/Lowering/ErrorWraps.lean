import GoLowering.Host.Marking
import GoLowering.Lowering.Calls
import GoLowering.Text.Quoted

/-!
# Error wraps

A call that returns an error as its last result can be wrapped: `f()!` panics with the error,
`f()?` returns it from the function around, and `f()?:x` takes a default in its place. The first
two add a frame to the error that tells where it passed through.
-/

namespace GoLowering.Lowering

open Surface

def isCall : Expr → Bool
  | .call .. | .command .. | .ambiguousCommand .. => true
  | _ => false

/-- The wrapped expression as a call: the value of a function without parameters is called. -/
def lowerWrappedCall (walk : Walk) (inner : NodeId) : Lower Operand := do
  if ((← read).unit.expr? inner).any isCall then
    walk.expr inner .none
  else
    let operand ← walk.expr inner .called
    match operand.mode, (← getTypes).signature? operand.type with
    | .value, some ⟨[], results, _⟩ =>
      let call ← place (.call operand.id [] false) operand.span
      resultOperand call results operand.span
    | _, _ => return operand

/-- The results before the error, if the last one is an error. -/
def resultsBeforeError? (results : List TypeId) : Option (List TypeId) :=
  if results.getLast? == some TypeTable.error then some results.dropLast else none

/-! ## Parts -/

/-- `var _gop_err error` -/
def declareError (span : Span) : Lower HostId :=
  place (.varDecl ⟨[Names.err], some TypeTable.error, [], none⟩) span

/-- `targets, _gop_err = call` -/
def assignResults (targets : List String) (call : HostId) (span : Span) : Lower HostId := do
  let lhs ← (targets ++ [Names.err]).mapM identNode
  place (.assign lhs .plain [call]) span

/-- `_gop_err = errors.NewFrame(_gop_err, "text", "path", line, "function")` -/
def addFrame (text : String) (span : Span) : Lower HostId := do
  let context ← read
  let path := displayPath context.sources context.settings span.file
  let line := (context.sources.lineColumn span.file span.start).1
  let newFrame ← qualifiedNode framesPath "NewFrame"
  let error ← identNode Names.err
  let args ← [Quoted.quoteInterpreted text, Quoted.quoteInterpreted path, toString line,
    Quoted.quoteInterpreted (← get).frameName].mapM literalNode
  let call ← callNode newFrame (error :: args)
  let target ← identNode Names.err
  place (.assign [target] .plain [call]) span

/-- `if _gop_err != nil { handler }` -/
def onError (handler : List HostId) (span : Span) : Lower HostId := do
  let error ← identNode Names.err
  let nil ← identNode "nil"
  let condition ← binaryNode .notEqual error nil
  let thenBranch ← blockNode handler
  place (.ifElse none condition thenBranch none) span

/-- The results of a closure that returns some types, by reserved names. -/
def namedResults (types : List TypeId) : List HostParam :=
  types.mapIdx (fun i type => ⟨some (Names.resultAt i), type⟩)

/-! ## Policies -/

/-- `f()!` -/
def wrapRaise (call : HostId) (values : List TypeId) (text : String) (span : Span) :
    Lower Operand := do
  let results := namedResults values
  let declare ← declareError span
  let assign ← assignResults (results.filterMap (·.name)) call span
  let frame ← addFrame text span
  let panic ← identNode Builtin.panic.name
  let error ← identNode Names.err
  let panic ← callNode panic [error]
  let panic ← place (.expression panic) span
  let check ← onError [frame, panic] span
  let done ← place (.ret []) span
  immediateCall results [declare, assign, check, done] span

/-- `f()?:x` -/
def wrapFallback (walk : Walk) (call : HostId) (values : List TypeId)
    (default : Option NodeId) (span : Span) : Lower Operand := do
  match values with
  | [value] =>
    let fallback ←
      match default with
      | some default => lowerInto walk default value
      | none => zeroValue value
    let declare ← declareError span
    let assign ← assignResults [Names.result] call span
    let fallback ← place (.ret [fallback]) span
    let check ← onError [fallback] span
    let done ← place (.ret []) span
    immediateCall (namedResults [value]) [declare, assign, check, done] span
  | _ => fail (.resultCountMismatch 1 values.length) span

/-- Declares a temporary before the statement in hand. -/
def hoistTemporary (type : TypeId) (span : Span) (name : String) : Lower Unit := do
  hoist (← place (.varDecl ⟨[name], some type, [], none⟩) span)

/-- The block in which a call is made and its error returned; the block is left at its end by
a jump to a label of its own. -/
def propagateBlock (call : HostId) (targets : List String) (label text : String)
    (results : List TypeId) (span : Span) : Lower HostId := do
  let declare ← declareError span
  let assign ← assignResults targets call span
  let frame ← addFrame text span
  let zeros ← results.dropLast.mapM zeroValue
  let error ← identNode Names.err
  let propagate ← place (.ret (zeros ++ [error])) span
  let check ← onError [frame, propagate] span
  let jump ← place (.branch .goto (some label)) span
  let landing ← place (.labeled label none) span
  place (.block [declare, assign, check, jump, landing]) span

/-- Notes that the error of a call is returned. -/
def notePropagation (call : HostId) (names : List String) : Lower Unit :=
  modify (fun s => { s with propagations := s.propagations ++ [⟨call, names⟩] })

/-- `f()?`: the call is made before the statement in hand. Its value, if it has one, is kept in
a temporary; without a value the block of the call is itself the statement. -/
def wrapPropagate (call : HostId) (values : List TypeId) (text : String) (span : Span) :
    Lower Operand := do
  match ← errorResults?, values with
  | none, _ => fail .returnWrapOutsideErrorFunction span
  | some results, [] =>
    let label ← freshName
    let block ← propagateBlock call [] label text results span
    notePropagation call [label]
    resultOperand block [] span
  | some results, [value] =>
    let temporary ← freshName
    hoistTemporary value span temporary
    let label ← freshName
    hoist (← propagateBlock call [temporary] label text results span)
    notePropagation call [temporary, label]
    return .value (← place (.identifier temporary) span) value span
  | some _, _ =>
    fail (.unsupportedConstruct "multi-value ? wrap used as an expression") span

def lowerErrorWrap (walk : Walk) (inner : NodeId) (policy : WrapPolicy) (span : Span) :
    Lower Operand := do
  let call ← lowerWrappedCall walk inner
  let text ← textOf inner
  match resultsBeforeError? ((← getTypes).resultsOf call.type), policy with
  | none, _ => fail (.missingErrorResult text) call.span
  | some values, .raise => wrapRaise call.id values text span
  | some values, .fallback default => wrapFallback walk call.id values default span
  | some values, .propagate => wrapPropagate call.id values text span

end GoLowering.Lowering
