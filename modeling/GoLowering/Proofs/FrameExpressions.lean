import GoLowering.Proofs.Frame

/-!
# What expressions give back

Every part of the lowering of an expression gives back what it borrows and keeps what has been
hoisted before it, provided that the walk does so.
-/

namespace GoLowering.Lowering

open Surface

/-- A walk whose parts keep to a regime, and so do the names that it is asked for. -/
class Walk.Keeps (L : Regime) (walk : Walk) : Prop where
  expr (id : NodeId) (expect : Expectation) : Additive L (walk.expr id expect)
  statement (id : NodeId) : Additive L (walk.statement id)
  type (id : NodeId) : Additive L (walk.type id)
  typeOfName (name : String) (span : Span) : Additive L (typeOfName walk name span)
  unbound? (name : String) (span : Span) : Additive L (unboundOperand? walk name span)

attribute [instance] Walk.Keeps.expr Walk.Keeps.statement Walk.Keeps.type Walk.Keeps.typeOfName
  Walk.Keeps.unbound?

variable {L : Regime} [Discipline L] {walk : Walk} [walk.Keeps L]

/-! ## Types -/

instance additive_lowerParams (variadic : Bool) (params : List Param) :
    Additive L (lowerParams walk variadic params) := by
  induction params with
  | nil =>
    unfold lowerParams
    infer_instance
  | cons param rest ih =>
    unfold lowerParams
    infer_instance

instance additive_lowerSignature (id : NodeId) : Additive L (lowerSignature walk id) := by
  unfold lowerSignature
  refine Keeps.read (fun _ => rfl) (fun c => ?_)
  split <;> infer_instance

instance additive_arrayLength (id : NodeId) : Additive L (arrayLength walk id) := by
  unfold arrayLength
  refine Keeps.before (fun operand => ?_)
  split <;> infer_instance

instance additive_lowerField (field : FieldSpec) : Additive L (lowerField walk field) := by
  unfold lowerField
  refine Keeps.before (fun type => ?_)
  split <;> infer_instance

instance additive_lowerInterfaceMethod (method : MethodSpec) :
    Additive L (lowerInterfaceMethod walk method) := by
  unfold lowerInterfaceMethod
  infer_instance

instance additive_typeOfExpression (id : NodeId) : Additive L (typeOfExpression walk id) := by
  unfold typeOfExpression
  refine Keeps.before (fun span => ?_)
  refine Keeps.read (fun _ => rfl) (fun c => ?_)
  split
  · infer_instance
  · refine Keeps.read (fun _ => rfl) (fun c => ?_)
    split <;> infer_instance
  · infer_instance
  · infer_instance
  · infer_instance

instance additive_lowerType (id : NodeId) : Additive L (lowerType walk id) := by
  unfold lowerType
  refine Keeps.before (fun span => ?_)
  refine Keeps.read (fun _ => rfl) (fun c => ?_)
  split <;> infer_instance

/-! ## Names -/

instance additive_nameOperand? (name : String) (span : Span) :
    Additive L (nameOperand? walk name span) := by
  unfold nameOperand?
  refine Keeps.get (fun _ => rfl) (fun s => ?_)
  split <;> infer_instance

instance additive_lowerIdentifier (name : String) (span : Span) :
    Additive L (lowerIdentifier walk name span) := by
  unfold lowerIdentifier
  split
  · infer_instance
  · refine Keeps.before (fun found => ?_)
    split
    · infer_instance
    · dsimp only
      split
      · refine Keeps.before (fun fallback => ?_)
        split <;> infer_instance
      · refine Keeps.before (fun fallback => ?_)
        split <;> infer_instance

/-! ## Values in typed places -/

instance additive_lowerInto (id : Surface.NodeId) (target : TypeId) :
    Additive L (lowerInto walk id target) := by
  unfold lowerInto
  infer_instance

instance additive_lowerByDefault (id : Surface.NodeId) : Additive L (lowerByDefault walk id) := by
  unfold lowerByDefault
  infer_instance

instance additive_lowerCondition (id : Surface.NodeId) : Additive L (lowerCondition walk id) := by
  unfold lowerCondition
  infer_instance

/-! ## Operators -/

instance additive_lowerAddressOf (operand : NodeId) (span : Span) (expect : Expectation) :
    Additive L (lowerAddressOf walk operand span expect) := by
  unfold lowerAddressOf
  refine Keeps.before (fun types => ?_)
  infer_instance

instance additive_lowerReceive (operand : NodeId) (span : Span) :
    Additive L (lowerReceive walk operand span) := by
  unfold lowerReceive
  refine Keeps.before (fun channel => ?_)
  refine Keeps.before (fun _ => ?_)
  dsimp only
  refine Keeps.before (fun types => ?_)
  split <;> infer_instance

instance additive_lowerUnary (op : UnaryOp) (operand : NodeId) (span : Span) (expect : Expectation)
    : Additive L (lowerUnary walk op operand span expect) := by
  unfold lowerUnary
  split <;> infer_instance

instance additive_lowerDereference (inner : NodeId) (span : Span) :
    Additive L (lowerDereference walk inner span) := by
  unfold lowerDereference
  refine Keeps.before (fun operand => ?_)
  split
  · infer_instance
  · refine Keeps.before (fun _ => ?_)
    dsimp only
    refine Keeps.before (fun types => ?_)
    split <;> infer_instance

/-! ## Members -/

instance additive_lowerMember (object : NodeId) (name : String) (span : Span)
    (expect : Expectation) : Additive L (lowerMember walk object name span expect) := by
  unfold lowerMember
  refine Keeps.before (fun object => ?_)
  split <;> infer_instance

/-! ## Access to parts of values -/

instance additive_lowerPosition (index : NodeId) : Additive L (lowerPosition walk index) := by
  unfold lowerPosition
  infer_instance

instance additive_lowerIndex (object index : NodeId) (span : Span) :
    Additive L (lowerIndex walk object index span) := by
  unfold lowerIndex
  refine Keeps.before (fun object => ?_)
  refine Keeps.before (fun _ => ?_)
  refine Keeps.before (fun types => ?_)
  dsimp only
  split
  · infer_instance
  · infer_instance
  · infer_instance
  · infer_instance
  · split
    · exact Keeps.before (fun _ => inferInstance)
    · exact Keeps.before (fun _ => inferInstance)
  · infer_instance

instance additive_lowerSlice (object : NodeId) (low high max : Option NodeId) (span : Span) :
    Additive L (lowerSlice walk object low high max span) := by
  unfold lowerSlice
  refine Keeps.before (fun object => ?_)
  refine Keeps.before (fun _ => ?_)
  refine Keeps.before (fun found => ?_)
  split <;> infer_instance

instance additive_lowerTypeAssertion (object : NodeId) (type : Option NodeId) (span : Span) :
    Additive L (lowerTypeAssertion walk object type span) := by
  unfold lowerTypeAssertion
  split
  · infer_instance
  · exact Keeps.before (fun object => inferInstance)

/-! ## Composite literals -/

instance additive_lowerPositionalFields (elements : List Element) (fields : List Field) :
    Additive L (lowerPositionalFields walk elements fields) := by
  induction elements generalizing fields with
  | nil =>
    unfold lowerPositionalFields
    infer_instance
  | cons element elements ih =>
    unfold lowerPositionalFields
    cases fields <;> infer_instance

instance additive_lowerKeyedField (type : TypeId) (fields : List Field) (key value : NodeId) :
    Additive L (lowerKeyedField walk type fields key value) := by
  unfold lowerKeyedField
  refine Keeps.before (fun span => ?_)
  refine Keeps.read (fun _ => rfl) (fun c => ?_)
  split
  · infer_instance
  · split <;> infer_instance

instance additive_lowerFields (type : TypeId) (fields : List Field) (elements : List Element)
    (span : Span) : Additive L (lowerFields walk type fields elements span) := by
  unfold lowerFields
  infer_instance

instance additive_lowerIndexedFrom (type : TypeId) (next : Nat) (elements : List Element) :
    Additive L (lowerIndexedFrom walk type next elements) := by
  induction elements generalizing next with
  | nil =>
    unfold lowerIndexedFrom
    infer_instance
  | cons element rest ih =>
    unfold lowerIndexedFrom
    dsimp only
    split
    · infer_instance
    · refine Keeps.before (fun operand => ?_)
      split <;> infer_instance

instance additive_lowerIndexed (type : TypeId) (elements : List Element) :
    Additive L (lowerIndexed walk type elements) := by
  unfold lowerIndexed
  infer_instance

instance additive_lowerMapEntry (keyType valueType : TypeId) (span : Span) (element : Element) :
    Additive L (lowerMapEntry walk keyType valueType span element) := by
  unfold lowerMapEntry
  split <;> infer_instance

instance additive_lowerElements (type : TypeId) (elements : List Element) (span : Span) :
    Additive L (lowerElements walk type elements span) := by
  unfold lowerElements
  refine Keeps.before (fun types => ?_)
  split <;> infer_instance

instance additive_lowerElementsInto (type : TypeId) (elements : List Element) (span : Span) :
    Additive L (lowerElementsInto walk type elements span) := by
  unfold lowerElementsInto
  refine Keeps.before (fun types => ?_)
  split <;> infer_instance

instance additive_lowerIndexKey (key : NodeId) : Additive L (lowerIndexKey walk key) := by
  unfold lowerIndexKey
  refine Keeps.before (fun operand => ?_)
  split <;> infer_instance

instance additive_lowerSliceElement (element : Element) :
    Additive L (lowerSliceElement walk element) := by
  unfold lowerSliceElement
  infer_instance

instance additive_inferSlice (elements : List Element) (span : Span) :
    Additive L (inferSlice walk elements span) := by
  unfold inferSlice
  infer_instance

instance additive_lowerSliceLiteral (elements : List Element) (span : Span) (expect : Expectation)
    : Additive L (lowerSliceLiteral walk elements span expect) := by
  unfold lowerSliceLiteral
  refine Keeps.before (fun types => ?_)
  dsimp only
  split
  · infer_instance
  · split <;> infer_instance

instance additive_lowerMapElement (key value : NodeId) :
    Additive L (lowerMapElement walk key value) := by
  unfold lowerMapElement
  infer_instance

instance additive_inferMap (elements : List (NodeId × NodeId)) (span : Span) :
    Additive L (inferMap walk elements span) := by
  unfold inferMap
  exact Keeps.before (fun elements => inferInstance)

instance additive_lowerBareComposite (elements : List Element) (span : Span) :
    Additive L (lowerBareComposite walk elements span) := by
  unfold lowerBareComposite
  infer_instance

instance additive_lowerTypedComposite (type : NodeId) (elements : List Element) (span : Span) :
    Additive L (lowerTypedComposite walk type elements span) := by
  unfold lowerTypedComposite
  refine Keeps.read (fun _ => rfl) (fun c => ?_)
  split <;> infer_instance

instance additive_lowerComposite (type : Option NodeId) (elements : List Element) (span : Span)
    (expect : Expectation) : Additive L (lowerComposite walk type elements span expect) := by
  unfold lowerComposite
  split <;> infer_instance

/-! ## Calls -/

instance additive_lowerArgument (argument : Argument) (expect : Expectation) :
    Additive L (lowerArgument walk argument expect) := by
  unfold lowerArgument
  split <;> infer_instance

instance additive_argumentInto (argument : Argument) (target : TypeId) :
    Additive L (argumentInto walk argument target) := by
  unfold argumentInto
  infer_instance

instance additive_argumentByDefault (argument : Argument) :
    Additive L (argumentByDefault walk argument) := by
  unfold argumentByDefault
  infer_instance

instance additive_lowerSpreadArgument (sig : Signature) (argument : Argument) (span : Span) :
    Additive L (lowerSpreadArgument walk sig argument span) := by
  unfold lowerSpreadArgument
  dsimp only
  refine Keeps.before (fun types => ?_)
  refine Keeps.before (fun operand => ?_)
  refine Keeps.before (fun types => ?_)
  split
  · split
    · split
      · infer_instance
      · refine Keeps.before (fun found => ?_)
        split <;> infer_instance
    · split
      · infer_instance
      · refine Keeps.before (fun found => ?_)
        split <;> infer_instance
  · infer_instance

instance additive_lowerArgumentsFrom (sig : Signature) (spread : Bool) (index : Nat)
    (args : List Argument) : Additive L (lowerArgumentsFrom walk sig spread index args) := by
  induction args generalizing index with
  | nil =>
    unfold lowerArgumentsFrom
    infer_instance
  | cons argument rest ih =>
    unfold lowerArgumentsFrom
    infer_instance

instance additive_lowerArgumentList (sig : Signature) (args : List Argument) (spread : Bool)
    (span : Span) : Additive L (lowerArgumentList walk sig args spread span) := by
  unfold lowerArgumentList
  infer_instance

instance additive_lowerArguments (sig : Signature) (args : List Argument) (spread : Bool)
    (span : Span) : Additive L (lowerArguments walk sig args spread span) := by
  unfold lowerArguments
  dsimp only
  split <;> infer_instance

instance additive_lowerConversion (callee : Operand) (args : List Argument) (span : Span) :
    Additive L (lowerConversion walk callee args span) := by
  unfold lowerConversion
  split
  · refine Keeps.read (fun _ => rfl) (fun c => ?_)
    refine Keeps.before (fun types => ?_)
    split <;> infer_instance
  · infer_instance

instance additive_argumentType (argument : Argument) : Additive L (argumentType walk argument) := by
  unfold argumentType
  infer_instance

instance additive_lowerAppend (first : Argument) (rest : List Argument) (spread : Bool)
    (span : Span) (expect : Expectation) :
    Additive L (lowerAppend walk first rest spread span expect) := by
  unfold lowerAppend
  refine Keeps.before (fun slice => ?_)
  refine Keeps.before (fun types => ?_)
  split <;> infer_instance

instance additive_lowerMake (type : Argument) (sizes : List Argument) (span : Span) :
    Additive L (lowerMake walk type sizes span) := by
  unfold lowerMake
  refine Keeps.before (fun type => ?_)
  refine Keeps.before (fun types => ?_)
  split <;> infer_instance

instance additive_lowerBuiltinParts (function : Builtin) (args : List Argument) (spread : Bool)
    (span : Span) (expect : Expectation) :
    Additive L (lowerBuiltinParts walk function args spread span expect) := by
  unfold lowerBuiltinParts
  split
  · infer_instance
  · infer_instance
  · infer_instance
  · infer_instance
  · infer_instance
  · refine Keeps.before (fun x => ?_)
    split
    · refine Keeps.before (fun types => ?_)
      split <;> infer_instance
  · refine Keeps.before (fun x => ?_)
    split
    · refine Keeps.before (fun types => ?_)
      split <;> infer_instance
  · infer_instance
  · infer_instance
  · infer_instance
  · infer_instance
  · refine Keeps.before (fun x => ?_)
    split
    · refine Keeps.before (fun found => ?_)
      split <;> infer_instance
  · refine Keeps.before (fun x => ?_)
    split
    · refine Keeps.before (fun found => ?_)
      split <;> infer_instance
  · infer_instance

instance additive_callOperand (callee : Operand) (args : List Argument) (spread : Bool)
    (span : Span) (expect : Expectation) :
    Additive L (callOperand walk callee args spread span expect) := by
  unfold callOperand
  split
  · infer_instance
  · infer_instance
  · refine Keeps.before (fun holds => ?_)
    split
    · infer_instance
    · refine Keeps.before (fun types => ?_)
      split <;> infer_instance
  · infer_instance
  · infer_instance
  · infer_instance

instance additive_lowerCall (callee : NodeId) (args : List NodeId) (spread : Bool) (span : Span)
    (expect : Expectation) : Additive L (lowerCall walk callee args spread span expect) := by
  unfold lowerCall
  infer_instance

instance additive_lowerAmbiguousCommand (head : NodeId) (op : UnaryOp) (operand : NodeId)
    (span : Span) (expect : Expectation) :
    Additive L (lowerAmbiguousCommand walk head op operand span expect) := by
  unfold lowerAmbiguousCommand
  refine Keeps.before (fun head => ?_)
  refine Keeps.before (fun holds => ?_)
  split
  · infer_instance
  · split <;> infer_instance

/-! ## Blocks -/

instance quiet_lowerStatement (id : NodeId) : Quiet L (lowerStatement walk id) := by
  unfold lowerStatement
  infer_instance

instance quiet_lowerStatements (ids : List NodeId) : Quiet L (lowerStatements walk ids) := by
  unfold lowerStatements
  infer_instance

instance quiet_lowerBlockStatements (id : NodeId) (kind : ScopeKind) :
    Quiet L (lowerBlockStatements walk id kind) := by
  unfold lowerBlockStatements
  exact Keeps.read (fun _ => rfl) (fun _ => inferInstance)

instance quiet_lowerBlock (id : NodeId) (kind : ScopeKind) : Quiet L (lowerBlock walk id kind) := by
  unfold lowerBlock
  infer_instance

instance quiet_lowerBody (id : NodeId) : Quiet L (lowerBody walk id) := by
  unfold lowerBody
  infer_instance

instance additive_expressionStatement (operand : Operand) :
    Additive L (expressionStatement walk operand) := by
  unfold expressionStatement
  dsimp only
  refine Keeps.before (fun x => ?_)
  split <;> infer_instance

/-! ## Lambdas and function literals -/

instance additive_lowerAllResults (value : NodeId) (results : List TypeId) (expect : Expectation) :
    Additive L (lowerAllResults walk value results expect) := by
  unfold lowerAllResults
  infer_instance

instance additive_lowerEachResult (values : List NodeId) (results : List TypeId) :
    Additive L (lowerEachResult walk values results) := by
  unfold lowerEachResult
  infer_instance

instance steady_lowerLambdaStatement (value : NodeId) :
    Steady L (lowerLambdaStatement walk value) := by
  unfold lowerLambdaStatement
  infer_instance

instance additive_lowerLambdaValues (values : List NodeId) (results : List TypeId) (span : Span) :
    Additive L (lowerLambdaValues walk values results span) := by
  unfold lowerLambdaValues
  split <;> infer_instance

instance steady_lowerLambdaExpressions (values : List NodeId) (results : List TypeId)
    (span : Span) : Steady L (lowerLambdaExpressions walk values results span) := by
  unfold lowerLambdaExpressions
  split
  · infer_instance
  · refine Keeps.before (fun ids => ?_)
    refine Keeps.before (fun hoisted => ?_)
    dsimp only
    split <;> infer_instance

instance steady_lowerLambdaBody (body : LambdaBody) (results : List TypeId) (span : Span) :
    Steady L (lowerLambdaBody walk body results span) := by
  unfold lowerLambdaBody
  split <;> infer_instance

instance quiet_putLiteral (signature : HostSignature) {part : Lower HostId} [Steady L part]
    (span : Span) : Quiet L (putLiteral signature part span) := by
  unfold putLiteral
  refine Keeps.get (fun _ => rfl) (fun s => ?_)
  refine Keeps.before (fun body => Keeps.before (fun id => ?_))
  exact Keeps.get (fun _ => rfl) (fun _ => inferInstance)

instance quiet_lowerLambda (params : List String) (body : LambdaBody) (span : Span)
    (expect : Expectation) : Quiet L (lowerLambda walk params body span expect) := by
  unfold lowerLambda
  split
  · infer_instance
  · refine Keeps.before (fun types => ?_)
    split <;> infer_instance

instance additive_lowerFunctionLiteral (signature body : NodeId) (span : Span) :
    Additive L (lowerFunctionLiteral walk signature body span) := by
  unfold lowerFunctionLiteral
  infer_instance

/-! ## Comprehensions -/

instance additive_lowerYieldValue (value : NodeId) (type : Option TypeId) :
    Additive L (lowerYieldValue walk value type) := by
  unfold lowerYieldValue
  infer_instance

instance additive_lowerYieldStatement (frame : ComprehensionFrame) :
    Additive L (lowerYieldStatement walk frame) := by
  unfold lowerYieldStatement
  refine Keeps.before (fun types => ?_)
  dsimp only
  split <;> infer_instance

instance steady_lowerYield (frame : ComprehensionFrame) : Steady L (lowerYield walk frame) := by
  unfold lowerYield
  infer_instance

instance steady_lowerClauseBody (clause : ForClause) {inner : Lower (List HostId × Yielded)}
    [Steady L inner] : Steady L (lowerClauseBody walk clause inner) := by
  unfold lowerClauseBody
  refine Keeps.before (fun init => ?_)
  refine Keeps.before (fun guard => ?_)
  refine Keeps.before (fun hoisted => ?_)
  refine Keeps.before (fun x => ?_)
  split
  · split <;> infer_instance

instance steady_lowerClauses (frame : ComprehensionFrame) (clauses : List ForClause) :
    Steady L (lowerClauses walk frame clauses) := by
  induction clauses with
  | nil =>
    unfold lowerClauses
    infer_instance
  | cons clause rest ih =>
    unfold lowerClauses
    refine Keeps.before (fun source => ?_)
    refine Keeps.before (fun x => ?_)
    infer_instance

instance quiet_lowerComprehension (yields : Yield) (clauses : List ForClause) (span : Span)
    (expect : Expectation) : Quiet L (lowerComprehension walk yields clauses span expect) := by
  unfold lowerComprehension
  infer_instance

/-! ## Error wraps -/

instance additive_wrapPropagate (call : HostId) (values : List TypeId) (text : String)
    (span : Span) : Additive L (wrapPropagate call values text span) :=
  ⟨Discipline.propagate call values text span⟩

instance additive_lowerWrappedCall (inner : NodeId) : Additive L (lowerWrappedCall walk inner) := by
  unfold lowerWrappedCall
  refine Keeps.read (fun _ => rfl) (fun c => ?_)
  split
  · infer_instance
  · refine Keeps.before (fun operand => ?_)
    refine Keeps.before (fun types => ?_)
    split <;> infer_instance

instance additive_wrapFallback (call : HostId) (values : List TypeId) (default : Option NodeId)
    (span : Span) : Additive L (wrapFallback walk call values default span) := by
  unfold wrapFallback
  split
  · split
    · exact Keeps.before (fun fallback => inferInstance)
    · exact Keeps.before (fun fallback => inferInstance)
  · infer_instance

instance additive_lowerErrorWrap (inner : NodeId) (policy : WrapPolicy) (span : Span) :
    Additive L (lowerErrorWrap walk inner policy span) := by
  unfold lowerErrorWrap
  refine Keeps.before (fun call => ?_)
  refine Keeps.before (fun text => ?_)
  refine Keeps.before (fun types => ?_)
  split <;> infer_instance

/-! ## Expressions -/

instance additive_lowerGrouping (inner : NodeId) (span : Span) (expect : Expectation) :
    Additive L (lowerGrouping walk inner span expect) := by
  unfold lowerGrouping
  infer_instance

instance additive_lowerExprKind (expression : Expr) (span : Span) (expect : Expectation) :
    Additive L (lowerExprKind walk expression span expect) := by
  unfold lowerExprKind
  split <;> infer_instance

instance additive_lowerExpr (id : NodeId) (expect : Expectation) :
    Additive L (lowerExpr walk id expect) := by
  unfold lowerExpr
  refine Keeps.before (fun span => ?_)
  refine Keeps.read (fun _ => rfl) (fun c => ?_)
  split <;> infer_instance

end GoLowering.Lowering
