import GoLowering.Lowering.Statements
import GoLowering.Lowering.Expressions
import GoLowering.Proofs.Regimes

/-!
# Parts that hoist nothing

The parts of a lowering that go on to no other node of the source make nodes and types, bind
names and warn, and do nothing else.
-/

namespace GoLowering.Lowering

open Surface

variable {α : Type} {L : Regime} [Footing L]

/-! ## Source and types -/

instance still_spanOf (id : Surface.NodeId) : Still L (spanOf id) := by
  unfold spanOf
  exact Keeps.read (fun _ => rfl) (fun _ => inferInstance)

instance still_textAt (span : Span) : Still L (textAt span) := by
  unfold textAt
  exact Keeps.read (fun _ => rfl) (fun _ => inferInstance)

instance still_textOf (id : Surface.NodeId) : Still L (textOf id) := by
  unfold textOf
  infer_instance

instance still_getTypes : Still L getTypes := by
  unfold getTypes
  exact Keeps.get (fun _ => rfl) (fun _ => inferInstance)

instance still_typeName (type : TypeId) : Still L (typeName type) := by
  unfold typeName
  infer_instance

instance still_isInvalid (type : TypeId) : Still L (isInvalid type) := by
  unfold isInvalid
  infer_instance

instance still_isUntypedBig (type : TypeId) : Still L (isUntypedBig type) := by
  unfold isUntypedBig
  refine Keeps.before (fun types => ?_)
  split <;> infer_instance

instance still_lookupMethod (receiver : TypeId) (name : String) :
    Still L (lookupMethod receiver name) := by
  unfold lookupMethod
  refine Keeps.get (fun _ => rfl) (fun s => ?_)
  exact Keeps.read (fun _ => rfl) (fun _ => inferInstance)

instance still_assignable (source target : TypeId) : Still L (assignable source target) := by
  unfold assignable
  refine Keeps.read (fun _ => rfl) (fun c => ?_)
  exact Keeps.get (fun _ => rfl) (fun _ => inferInstance)

instance still_errorResults? : Still L errorResults? := by
  unfold errorResults?
  refine Keeps.get (fun _ => rfl) (fun s => ?_)
  split <;> infer_instance

/-! ## Nodes -/

instance still_kindOf (id : HostId) : Still L (kindOf id) := by
  unfold kindOf
  exact Keeps.get (fun _ => rfl) (fun _ => inferInstance)

instance still_identNode (name : String) : Still L (identNode name) := still_scaffold _

instance still_qualifiedNode (package name : String) : Still L (qualifiedNode package name) :=
  still_scaffold _

instance still_literalNode (text : String) : Still L (literalNode text) := still_scaffold _

instance still_callNode (callee : HostId) (args : List HostId) : Still L (callNode callee args) :=
  still_scaffold _

instance still_selectorNode (object : HostId) (name : String) :
    Still L (selectorNode object name) := still_scaffold _

instance still_binaryNode (op : BinaryOp) (left right : HostId) :
    Still L (binaryNode op left right) := still_scaffold _

instance still_unaryNode (op : UnaryOp) (operand : HostId) : Still L (unaryNode op operand) :=
  still_scaffold _

instance still_assignNode (lhs rhs : List HostId) : Still L (assignNode lhs rhs) :=
  still_scaffold _

instance still_defineNode (lhs rhs : List HostId) : Still L (defineNode lhs rhs) :=
  still_scaffold _

instance still_blockNode (statements : List HostId) : Still L (blockNode statements) :=
  still_scaffold _

instance still_returnNode (values : List HostId) : Still L (returnNode values) := still_scaffold _

instance still_typeNode (type : TypeId) : Still L (typeNode type) := still_scaffold _

instance still_resultOperand (call : HostId) (results : List TypeId) (span : Span) :
    Still L (resultOperand call results span) := by
  unfold resultOperand
  split <;> infer_instance

instance still_immediateCall (results : List HostParam) (body : List HostId) (span : Span) :
    Still L (immediateCall results body span) := by
  unfold immediateCall
  infer_instance

instance still_zeroValue (type : TypeId) : Still L (zeroValue type) := by
  unfold zeroValue
  refine Keeps.before (fun types => ?_)
  split <;> infer_instance

/-! ## Types -/

instance still_memberType (path name : String) (span : Span) :
    Still L (memberType path name span) := by
  unfold memberType
  refine Keeps.read (fun _ => rfl) (fun c => ?_)
  split <;> infer_instance

instance still_signatureType (signature : HostSignature) : Still L (signatureType signature) := by
  unfold signatureType
  infer_instance

/-! ## Names -/

instance still_typeOperand (type : TypeId) (span : Span) : Still L (typeOperand type span) := by
  unfold typeOperand
  infer_instance

instance still_namedOperand (name : String) (type : TypeId) (span : Span) :
    Still L (namedOperand name type span) := by
  unfold namedOperand
  infer_instance

instance still_symbolOperand (name : String) (symbol : Symbol) (span : Span) :
    Still L (symbolOperand name symbol span) := by
  unfold symbolOperand
  split <;> infer_instance

instance still_memberNode (package : Option String) (name : String) (span : Span) :
    Still L (memberNode package name span) := by
  unfold memberNode
  infer_instance

instance still_resolvedOperand (resolution : Resolution) (package : Option String) (name : String)
    (span : Span) : Still L (resolvedOperand resolution package name span) := by
  unfold resolvedOperand
  split <;> infer_instance

/-! ## Values of registered types -/

instance still_bigFromText (name text : String) (base : Option String) :
    Still L (bigFromText name text base) := by
  unfold bigFromText
  refine Keeps.before (fun type => ?_)
  refine Keeps.before (fun pointer => ?_)
  refine Keeps.before (fun new => ?_)
  refine Keeps.before (fun typeArgument => ?_)
  refine Keeps.before (fun fresh => ?_)
  refine Keeps.before (fun setString => ?_)
  refine Keeps.before (fun digits => ?_)
  refine Keeps.before (fun base => ?_)
  infer_instance

instance still_bigInteger (n : Int) : Still L (bigInteger n) := by
  unfold bigInteger
  infer_instance

instance still_bigRational (r : Rat) : Still L (bigRational r) := by
  unfold bigRational
  infer_instance

instance still_initializerCall (package initializer : String) (value : HostId) (span : Span) :
    Still L (initializerCall package initializer value span) := by
  unfold initializerCall
  infer_instance

instance still_materialize (operand : Operand) (target : TypeId) :
    Still L (materialize operand target) := by
  unfold materialize
  dsimp only
  refine Keeps.read (fun _ => rfl) (fun c => ?_)
  split
  · infer_instance
  · split
    · refine Keeps.before (fun holds => ?_)
      split <;> infer_instance
    · split <;> infer_instance
    · infer_instance

/-! ## Values in typed places -/

instance still_checkValue (operand : Operand) : Still L (checkValue operand) := by
  unfold checkValue
  split
  · refine Keeps.before (fun types => ?_)
    split <;> infer_instance
  · refine Keeps.before (fun types => ?_)
    split <;> infer_instance
  · infer_instance
  · infer_instance
  · infer_instance
  · infer_instance

instance still_failMismatch (operand : Operand) (target : TypeId) :
    Still L (failMismatch operand target : Lower α) := by
  unfold failMismatch
  infer_instance

instance still_failOverflow (operand : Operand) : Still L (failOverflow operand : Lower α) := by
  unfold failOverflow
  infer_instance

instance still_failOperation (operator : String) (type : TypeId) (span : Span) :
    Still L (failOperation operator type span : Lower α) := by
  unfold failOperation
  infer_instance

instance still_basicOf? (type : TypeId) : Still L (basicOf? type) := by
  unfold basicOf?
  infer_instance

instance still_bigDefault? (type : TypeId) : Still L (bigDefault? type) := by
  unfold bigDefault?
  refine Keeps.before (fun kind => ?_)
  exact Keeps.read (fun _ => rfl) (fun _ => inferInstance)

instance still_defaultValue (operand : Operand) : Still L (defaultValue operand) := by
  unfold defaultValue
  refine Keeps.before (fun _ => ?_)
  split
  · infer_instance
  · refine Keeps.before (fun holds => ?_)
    split
    · refine Keeps.before (fun found => ?_)
      split <;> infer_instance
    · infer_instance

instance still_coerce (operand : Operand) (target : TypeId) : Still L (coerce operand target) := by
  unfold coerce
  refine Keeps.before (fun _ => ?_)
  refine Keeps.before (fun types => ?_)
  dsimp only
  split
  · infer_instance
  · split
    · infer_instance
    · exact Keeps.read (fun _ => rfl) (fun _ => inferInstance)

instance still_coerceOrDefault (operand : Operand) (target : Option TypeId) :
    Still L (coerceOrDefault operand target) := by
  unfold coerceOrDefault
  split <;> infer_instance

instance still_isBoolean (type : TypeId) : Still L (isBoolean type) := by
  unfold isBoolean
  infer_instance

/-! ## Operators of registered types -/

instance still_operatorType? (left right : Operand) : Still L (operatorType? left right) := by
  unfold operatorType?
  exact Keeps.read (fun _ => rfl) (fun _ => inferInstance)

instance still_lowerRegisteredBinary (op : BinaryOp) (target : TypeId) (left right : Operand)
    (span : Span) : Still L (lowerRegisteredBinary op target left right span) := by
  unfold lowerRegisteredBinary
  refine Keeps.read (fun _ => rfl) (fun c => ?_)
  split
  · refine Keeps.before (fun left => ?_)
    dsimp only
    split <;> infer_instance
  · infer_instance

instance still_methodStatement (object : HostId) (method : String) (args : List HostId)
    (span : Span) : Still L (methodStatement object method args span) := by
  unfold methodStatement
  infer_instance

instance still_lowerRegisteredAssign (op : BinaryOp) (target value : Operand) (span : Span) :
    Still L (lowerRegisteredAssign op target value span) := by
  unfold lowerRegisteredAssign
  split <;> infer_instance

instance still_lowerRegisteredIncDec (target : Operand) (increment : Bool) (span : Span) :
    Still L (lowerRegisteredIncDec target increment span) := by
  unfold lowerRegisteredIncDec
  infer_instance

instance still_lowerRegisteredUnary (op : UnaryOp) (operand : Operand) (span : Span) :
    Still L (lowerRegisteredUnary op operand span) := by
  unfold lowerRegisteredUnary
  split <;> infer_instance

/-! ## Operators -/

instance still_untypedConstant? (operand : Operand) : Still L (untypedConstant? operand) := by
  unfold untypedConstant?
  refine Keeps.before (fun types => ?_)
  split <;> infer_instance

instance still_foldedNode (operand : Operand) : Still L (foldedNode operand) := by
  unfold foldedNode
  split <;> infer_instance

instance still_failFold (op : BinaryOp) (left right : Operand) (span : Span) (error : FoldError) :
    Still L (failFold op left right span error : Lower α) := by
  unfold failFold
  split <;> infer_instance

instance still_foldBinary? (op : BinaryOp) (left right : Operand) (span : Span) :
    Still L (foldBinary? op left right span) := by
  unfold foldBinary?
  refine Keeps.before (fun found => ?_)
  refine Keeps.before (fun found => ?_)
  split
  · split
    · infer_instance
    · split <;> infer_instance
  · infer_instance

instance still_unify (left right : Operand) (span : Span) : Still L (unify left right span) := by
  unfold unify
  refine Keeps.before (fun types => ?_)
  split
  · infer_instance
  · infer_instance
  · split <;> infer_instance
  · infer_instance

instance still_lowerComparison (op : BinaryOp) (left right : Operand) (span : Span) :
    Still L (lowerComparison op left right span) := by
  unfold lowerComparison
  dsimp only
  split <;> infer_instance

instance still_lowerShift (op : BinaryOp) (left right : Operand) (span : Span) :
    Still L (lowerShift op left right span) := by
  unfold lowerShift
  infer_instance

instance still_lowerArithmetic (op : BinaryOp) (left right : Operand) (span : Span) :
    Still L (lowerArithmetic op left right span) := by
  unfold lowerArithmetic
  infer_instance

instance still_lowerBinary (op : BinaryOp) (left right : Operand) (span : Span) :
    Still L (lowerBinary op left right span) := by
  unfold lowerBinary
  refine Keeps.before (fun _ => ?_)
  refine Keeps.before (fun _ => ?_)
  refine Keeps.before (fun holds => ?_)
  refine Keeps.before (fun holds => ?_)
  split
  · infer_instance
  · refine Keeps.before (fun found => ?_)
    split
    · infer_instance
    · refine Keeps.before (fun found => ?_)
      split <;> infer_instance

instance still_foldUnary (op : UnaryOp) (operand : Operand) (value : Constant) (span : Span) :
    Still L (foldUnary op operand value span) := by
  unfold foldUnary
  split
  · infer_instance
  · dsimp only
    split <;> infer_instance

instance still_hasUnary (op : UnaryOp) (type : TypeId) : Still L (hasUnary op type) := by
  unfold hasUnary
  refine Keeps.before (fun kind => ?_)
  split <;> infer_instance

instance still_lowerUnaryOperand (op : UnaryOp) (operand : Operand) (span : Span) :
    Still L (lowerUnaryOperand op operand span) := by
  unfold lowerUnaryOperand
  refine Keeps.before (fun _ => ?_)
  refine Keeps.before (fun types => ?_)
  split
  · infer_instance
  · exact Keeps.read (fun _ => rfl) (fun _ => inferInstance)

/-! ## Members -/

instance still_failMember (owner name : String) (span : Span) :
    Still L (failMember owner name span : Lower α) := by
  unfold failMember
  infer_instance

instance still_lowerPackageMember (path name : String) (span : Span) :
    Still L (lowerPackageMember path name span) := by
  unfold lowerPackageMember
  refine Keeps.read (fun _ => rfl) (fun c => ?_)
  dsimp only
  split
  · infer_instance
  · split <;> infer_instance

instance still_lowerMethodExpression (object : Operand) (name : String) (span : Span) :
    Still L (lowerMethodExpression object name span) := by
  unfold lowerMethodExpression
  refine Keeps.before (fun found => ?_)
  split
  · infer_instance
  · refine Keeps.before (fun types => ?_)
    split
    · infer_instance
    · refine Keeps.before (fun type => ?_)
      refine Keeps.before (fun types => ?_)
      dsimp only
      split <;> infer_instance

instance still_firstMethod? (type : TypeId) (names : List String) :
    Still L (firstMethod? type names) := by
  induction names with
  | nil =>
    unfold firstMethod?
    infer_instance
  | cons name rest ih =>
    unfold firstMethod?
    refine Keeps.before (fun found => ?_)
    split <;> infer_instance

instance still_lowerProperty (object : HostId) (method : Method) (span : Span)
    (expect : Expectation) : Still L (lowerProperty object method span expect) := by
  unfold lowerProperty
  refine Keeps.before (fun selector => ?_)
  refine Keeps.before (fun types => ?_)
  split <;> infer_instance

instance still_lowerValueMember (object : Operand) (name : String) (span : Span)
    (expect : Expectation) : Still L (lowerValueMember object name span expect) := by
  unfold lowerValueMember
  refine Keeps.before (fun x => ?_)
  split
  · refine Keeps.before (fun types => ?_)
    dsimp only
    split
    · infer_instance
    · split
      · infer_instance
      · refine Keeps.before (fun found => ?_)
        split
        · infer_instance
        · refine Keeps.before (fun found => ?_)
          split <;> infer_instance

/-! ## Access to parts of values -/

instance still_slicedType? (type : TypeId) : Still L (slicedType? type) := by
  unfold slicedType?
  refine Keeps.before (fun types => ?_)
  split
  · infer_instance
  · infer_instance
  · infer_instance
  · split <;> infer_instance
  · infer_instance
  · infer_instance

/-! ## Literals -/

instance still_lowerLiteral (kind : Surface.LiteralKind) (text : String) (span : Span) :
    Still L (lowerLiteral kind text span) := by
  unfold lowerLiteral
  split <;> infer_instance

instance still_fitsBeside (target : TypeId) (operand : Operand) :
    Still L (fitsBeside target operand) := by
  unfold fitsBeside
  exact Keeps.read (fun _ => rfl) (fun _ => inferInstance)

instance still_commonBigType (kinds : List BasicType) (span : Span) :
    Still L (commonBigType kinds span) := by
  unfold commonBigType
  dsimp only
  split
  · infer_instance
  · exact Keeps.read (fun _ => rfl) (fun _ => inferInstance)

instance still_commonUntypedType (kinds : List BasicType) (span : Span) :
    Still L (commonUntypedType kinds span) := by
  unfold commonUntypedType
  dsimp only
  split
  · infer_instance
  · split
    · infer_instance
    · split <;> infer_instance

instance still_commonType (operands : List Operand) (span : Span) :
    Still L (commonType operands span) := by
  unfold commonType
  refine Keeps.before (fun _ => ?_)
  refine Keeps.before (fun types => ?_)
  split
  · dsimp only
    split
    · infer_instance
    · split <;> infer_instance

/-! ## Composite literals -/

instance still_compositeOperand (type : TypeId) (elements : List HostElement) (span : Span) :
    Still L (compositeOperand type elements span) := by
  unfold compositeOperand
  infer_instance

instance still_failIndex (operand : Operand) : Still L (failIndex operand : Lower α) := by
  unfold failIndex
  infer_instance

/-! ## Calls -/

instance still_failArgumentCount (expected got : Nat) (span : Span) :
    Still L (failArgumentCount expected got span : Lower α) := by
  unfold failArgumentCount
  infer_instance

instance still_spreadMismatch? (sig : Signature) (index : Nat) (results : List TypeId) :
    Still L (spreadMismatch? sig index results) := by
  induction results generalizing index with
  | nil =>
    unfold spreadMismatch?
    infer_instance
  | cons result rest ih =>
    unfold spreadMismatch?
    infer_instance

instance still_convertedConstant (operand : Operand) (target : TypeId) :
    Still L (convertedConstant operand target) := by
  unfold convertedConstant
  refine Keeps.before (fun found => ?_)
  split <;> infer_instance

instance still_convertOperand (callee : HostId) (target : TypeId) (operand : Operand) (span : Span)
    : Still L (convertOperand callee target operand span) := by
  unfold convertOperand
  refine Keeps.before (fun _ => ?_)
  refine Keeps.before (fun types => ?_)
  dsimp only
  refine Keeps.read (fun _ => rfl) (fun c => ?_)
  split
  · infer_instance
  · split <;> infer_instance

instance still_isCallable (operand : Operand) : Still L (isCallable operand) := by
  unfold isCallable
  split <;> infer_instance

/-! ## Blocks -/

instance still_bindParams (params : List HostParam) : Still L (bindParams params) := by
  unfold bindParams
  refine keeps_forM (h := fun param => ?_)
  split <;> infer_instance

/-! ## Lambdas and function literals -/

instance still_resultsFit (got results : List TypeId) : Still L (resultsFit got results) := by
  unfold resultsFit
  infer_instance

instance still_failResultCount (expected got : Nat) (span : Span) :
    Still L (failResultCount expected got span : Lower α) := by
  unfold failResultCount
  infer_instance

/-! ## Iteration -/

instance still_planRange (type : TypeId) (span : Span) : Still L (planRange type span) := by
  unfold planRange
  refine Keeps.read (fun _ => rfl) (fun c => ?_)
  dsimp only
  refine Keeps.get (fun _ => rfl) (fun s => ?_)
  split <;> infer_instance

instance still_bindVariable (name : Option String) (type : Option TypeId) :
    Still L (bindVariable name type) := by
  unfold bindVariable
  split <;> infer_instance

instance still_bindRange (plan : RangePlan) (key value : Option String) :
    Still L (bindRange plan key value) := by
  unfold bindRange
  infer_instance

instance still_emitNative (source : HostId) (key value : Option String) (body : List HostId)
    (span : Span) : Still L (emitNative source key value body span) := by
  unfold emitNative
  refine Keeps.before (fun keyNode => ?_)
  refine Keeps.before (fun valueNode => ?_)
  dsimp only
  split <;> infer_instance

instance still_emitPush (source : HostId) (method : String) (params : List HostParam)
    (body : List HostId) (span : Span) : Still L (emitPush source method params body span) := by
  unfold emitPush
  infer_instance

instance still_emitPull (source : HostId) (method : String) (names : List String)
    (body : List HostId) (span : Span) : Still L (emitPull source method names body span) := by
  unfold emitPull
  refine Keeps.before (fun iterator => ?_)
  refine Keeps.before (fun callee => ?_)
  refine Keeps.before (fun start => ?_)
  refine Keeps.before (fun init => ?_)
  refine Keeps.before (fun lhs => ?_)
  refine Keeps.before (fun iterator => ?_)
  refine Keeps.before (fun next => ?_)
  refine Keeps.before (fun next => ?_)
  infer_instance

instance still_emitRange (plan : RangePlan) (source : HostId) (key value : Option String)
    (body : List HostId) (span : Span) : Still L (emitRange plan source key value body span) := by
  unfold emitRange
  split
  · dsimp only
    split <;> infer_instance

/-! ## Comprehensions -/

instance still_comprehensionResults (frame : ComprehensionFrame) (yielded : Yielded) :
    Still L (comprehensionResults frame yielded) := by
  unfold comprehensionResults
  dsimp only
  split <;> infer_instance

instance still_lowerEmptyResult (frame : ComprehensionFrame) (results : List HostParam) :
    Still L (lowerEmptyResult frame results) := by
  unfold lowerEmptyResult
  split <;> infer_instance

/-! ## Error wraps -/

instance still_declareError (span : Span) : Still L (declareError span) := by
  unfold declareError
  infer_instance

instance still_assignResults (targets : List String) (call : HostId) (span : Span) :
    Still L (assignResults targets call span) := by
  unfold assignResults
  infer_instance

instance still_addFrame (text : String) (span : Span) : Still L (addFrame text span) := by
  unfold addFrame
  refine Keeps.read (fun _ => rfl) (fun c => ?_)
  dsimp only
  refine Keeps.before (fun newFrame => ?_)
  refine Keeps.before (fun error => ?_)
  exact Keeps.get (fun _ => rfl) (fun _ => inferInstance)

instance still_onError (handler : List HostId) (span : Span) : Still L (onError handler span) := by
  unfold onError
  infer_instance

instance still_wrapRaise (call : HostId) (values : List TypeId) (text : String) (span : Span) :
    Still L (wrapRaise call values text span) := by
  unfold wrapRaise
  dsimp only
  refine Keeps.before (fun declare => ?_)
  refine Keeps.before (fun assign => ?_)
  infer_instance

instance still_propagateBlock (call : HostId) (targets : List String) (label text : String)
    (results : List TypeId) (span : Span) :
    Still L (propagateBlock call targets label text results span) := by
  unfold propagateBlock
  infer_instance

/-! ## Assignments -/

instance still_failCount (left right : Nat) (span : Span) :
    Still L (failCount left right span : Lower α) := by
  unfold failCount
  infer_instance

instance still_spreadTypes (operand : Operand) (count : Nat) :
    Still L (spreadTypes operand count) := by
  unfold spreadTypes
  infer_instance

instance still_unassignable? (pairs : List (TypeId × TypeId)) : Still L (unassignable? pairs) := by
  induction pairs with
  | nil =>
    unfold unassignable?
    infer_instance
  | cons pair rest ih =>
    unfold unassignable?
    infer_instance

instance still_checkAssignable (operand : Operand) (pairs : List (TypeId × TypeId)) :
    Still L (checkAssignable operand pairs) := by
  unfold checkAssignable
  refine Keeps.before (fun found => ?_)
  split <;> infer_instance

instance still_definedName (id : NodeId) : Still L (definedName id) := by
  unfold definedName
  refine Keeps.read (fun _ => rfl) (fun c => ?_)
  split <;> infer_instance

instance still_nameNode (id : NodeId) (name : String) : Still L (nameNode id name) := by
  unfold nameNode
  infer_instance

/-! ## Control flow -/

instance still_hoistedCount : Still L hoistedCount := by
  unfold hoistedCount
  exact Keeps.get (fun _ => rfl) (fun _ => inferInstance)

instance still_rangeName (id : NodeId) : Still L (rangeName id) := by
  unfold rangeName
  refine Keeps.read (fun _ => rfl) (fun c => ?_)
  split <;> infer_instance

instance still_lowerBranch (kind : BranchKind) (label : Option String) (span : Span) :
    Still L (lowerBranch kind label span) := by
  unfold lowerBranch
  dsimp only
  refine Keeps.get (fun _ => rfl) (fun s => ?_)
  split <;> infer_instance

end GoLowering.Lowering
