import GoLowering.Lowering.Calls
import GoLowering.Lowering.Iteration

/-!
# Comprehensions

A comprehension is a function that is called at once. Its body is one loop for each clause, the
first one outermost, and innermost what is done with each element:

    [x * x for x <- xs, x > 0]

becomes a function with the result `_gop_ret []int` and the body

    for _, x := range xs { if x > 0 { _gop_ret = append(_gop_ret, x * x) } }
    return
-/

namespace GoLowering.Lowering

open Surface

/-- What is known about a comprehension once its innermost part is lowered. -/
structure Yielded where
  key : TypeId
  value : TypeId
  deriving DecidableEq, Repr, Inhabited

/-- What the parts of a comprehension have in common. -/
structure ComprehensionFrame where
  yields : Yield
  span : Span
  expected : Option TypeId
  /-- Whether a selection also says if it has found anything. -/
  withOk : Bool
  deriving Inhabited

/-- Whether a comprehension ends with the first element it finds. -/
def endsEarly : Yield → Bool
  | .existence | .select _ => true
  | .list _ | .map _ _ => false

/-- A value of a comprehension, of the type expected for it. -/
def lowerYieldValue (walk : Walk) (value : NodeId) (type : Option TypeId) :
    Lower (HostId × TypeId) := do
  coerceOrDefault (← walk.expr value (.maybe type)) type

/-- The statement for one element, and the types of what it yields. -/
def lowerYieldStatement (walk : Walk) (frame : ComprehensionFrame) :
    Lower (HostId × Yielded) := do
  let expected := (← getTypes).shape <$> frame.expected
  match frame.yields with
  | .list value =>
    let element :=
      match expected with
      | some (.slice element) => some element
      | _ => none
    let (value, type) ← lowerYieldValue walk value element
    let append ← identNode Builtin.append.name
    let result ← identNode Names.result
    let call ← callNode append [result, value]
    let target ← identNode Names.result
    return (← assignNode [target] [call], ⟨TypeTable.invalid, type⟩)
  | .map key value =>
    let (keyType, valueType) :=
      match expected with
      | some (.map key value) => (some key, some value)
      | _ => (none, none)
    let (key, keyType) ← lowerYieldValue walk key keyType
    let (value, valueType) ← lowerYieldValue walk value valueType
    let result ← identNode Names.result
    let slot ← scaffold (.index result key)
    return (← assignNode [slot] [value], ⟨keyType, valueType⟩)
  | .existence =>
    let found ← literalNode "true"
    return (← returnNode [found], ⟨TypeTable.invalid, TypeTable.invalid⟩)
  | .select value =>
    let (value, type) ← lowerYieldValue walk value frame.expected
    let found ← if frame.withOk then pure [← literalNode "true"] else pure []
    return (← returnNode (value :: found), ⟨TypeTable.invalid, type⟩)

def lowerYield (walk : Walk) (frame : ComprehensionFrame) :
    Lower (List HostId × Yielded) := do
  let (statement, yielded) ← lowerYieldStatement walk frame
  return ((← takeHoisted) ++ [statement], yielded)

/-- The body of the loop of a clause around the statements inside of it. -/
def lowerClauseBody (walk : Walk) (clause : ForClause)
    (inner : Lower (List HostId × Yielded)) : Lower (List HostId × Yielded) := do
  let init ← (clause.init.mapM walk.statement)
  let guard ← clause.guard.mapM (lowerCondition walk)
  let hoisted ← takeHoisted
  let (statements, yielded) ← inner
  match guard with
  | none => return (hoisted ++ init.join.toList ++ statements, yielded)
  | some condition =>
    let thenBranch ← blockNode statements
    let guarded ← scaffold (.ifElse init.join condition thenBranch none)
    return (hoisted ++ [guarded], yielded)

/-- The loops of clauses, one inside of the other. -/
def lowerClauses (walk : Walk) (frame : ComprehensionFrame) :
    List ForClause → Lower (List HostId × Yielded)
  | [] => lowerYield walk frame
  | clause :: rest => do
    let source ← walk.expr clause.source .none
    let (sourceId, sourceType) ← defaultValue source
    let plan ← planRange sourceType source.span
    if plan.isPush && endsEarly frame.yields then
      fail .yieldOverPushIterator source.span
    else
      let hoisted ← takeHoisted
      let (body, yielded) ← inScope plan.scopeKind (do
        bindRange plan clause.key clause.value
        lowerClauseBody walk clause (lowerClauses walk frame rest))
      let loop ← emitRange plan sourceId clause.key clause.value body frame.span
      return (hoisted ++ [loop], yielded)

/-- The results of the function that a comprehension becomes. -/
def comprehensionResults (frame : ComprehensionFrame) (yielded : Yielded) :
    Lower (List HostParam) := do
  let ok : HostParam := ⟨some Names.ok, TypeTable.bool⟩
  let result (type : TypeId) : HostParam := ⟨some Names.result, type⟩
  match frame.yields with
  | .list _ => return [result (← onTypes (·.slice yielded.value))]
  | .map _ _ => return [result (← onTypes (·.map yielded.key yielded.value))]
  | .existence => return [ok]
  | .select _ => return result yielded.value :: (if frame.withOk then [ok] else [])

/-- The statement that makes the map of a map comprehension. -/
def lowerEmptyResult (frame : ComprehensionFrame) (results : List HostParam) :
    Lower (List HostId) := do
  match frame.yields, results with
  | .map _ _, [result] =>
    let target ← identNode Names.result
    let empty ← scaffold (.composite (some result.type) [])
    return [← assignNode [target] [empty]]
  | _, _ => return []

def isSelection : Yield → Bool
  | .select _ => true
  | _ => false

def lowerComprehension (walk : Walk) (yields : Yield) (clauses : List ForClause)
    (span : Span) (expect : Expectation) : Lower Operand := do
  let frame : ComprehensionFrame :=
    { yields, span, expected := expect.type,
      withOk := isSelection yields && expect.results == 2 }
  let (loops, yielded) ← inFunction .closure [] (lowerClauses walk frame clauses)
  let results ← comprehensionResults frame yielded
  let start ← lowerEmptyResult frame results
  let done ← returnNode []
  immediateCall results (start ++ loops ++ [done]) span

end GoLowering.Lowering
