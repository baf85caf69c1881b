import GoLowering.Proofs.FormedParts

/-!
# Expressions and nodes

An operand is an expression unless it is the block of a call without values. Such a block is no
value, so that no part makes a node of it that asks for one. What is made of an expression is an
operand, provided that the parts of the walk form nodes.
-/

namespace GoLowering.Lowering

open Surface

set_option synthInstance.maxSize 1000

variable {c : Context} {Γ : Fact} {α : Type}

/-! ## Idle parts -/

instance idle_typeName (type : TypeId) : Idle (typeName type) := by
  unfold typeName
  infer_instance

instance idle_isInvalid (type : TypeId) : Idle (isInvalid type) := by
  unfold isInvalid
  infer_instance

instance idle_lookupMethod (receiver : TypeId) (name : String) :
    Idle (lookupMethod receiver name) := by
  unfold lookupMethod
  infer_instance

instance idle_failMismatch (operand : Operand) (target : TypeId) :
    Idle (failMismatch operand target : Lower α) := by
  unfold failMismatch
  dsimp only
  infer_instance

instance idle_failOverflow (operand : Operand) : Idle (failOverflow operand : Lower α) := by
  unfold failOverflow
  infer_instance

instance idle_failOperation (operator : String) (type : TypeId) (span : Span) :
    Idle (failOperation operator type span : Lower α) := by
  unfold failOperation
  infer_instance

instance idle_failFold (op : BinaryOp) (left right : Operand) (span : Span) (error : FoldError) :
    Idle (failFold op left right span error : Lower α) := by
  cases error <;> (unfold failFold; infer_instance)

instance idle_failIndex (operand : Operand) : Idle (failIndex operand : Lower α) := by
  unfold failIndex
  infer_instance

/-! ## Blocks of calls -/

/-- An operand that is not a call without values is an expression. -/
theorem inline_of_mode {o : Operand} [h : Yields Γ (.operand c o)] (hmode : o.mode ≠ .noValue) :
    Yields Γ (.inline o.id) :=
  ⟨fun hs => ⟨(h.of hs).1, (h.of hs).2.resolve_right (fun hblock => hmode hblock.1)⟩⟩

/-- A constant is an expression. -/
theorem inline_of_constant {o : Operand} [h : Yields Γ (.operand c o)]
    (hconstant : o.constant.isSome) : Yields Γ (.inline o.id) :=
  ⟨fun hs => ⟨(h.of hs).1, (h.of hs).2.resolve_right (fun hblock => by
    rw [hblock.2.1] at hconstant
    cases hconstant)⟩⟩

/-- What has not the type of a call without values is an expression. -/
theorem Forms.types {β : Type} {o : Operand} {f : TypeTable → Lower β} {P : β → Fact}
    [h : Yields Γ (.operand c o)]
    (hf : ∀ types, Forms c (Γ.and (.when (types.get o.type ≠ .tuple []) (.inline o.id)))
      (f types) P) :
    Forms c Γ (getTypes >>= f) P :=
  ⟨fun {s} hs hΓ => (hf s.types).run hs ⟨hΓ, fun htype =>
    ⟨(h.of hΓ).1, (h.of hΓ).2.resolve_right (fun hblock => htype hblock.2.2.1)⟩⟩⟩

theorem inline_of_type {types : TypeTable} {o : Operand}
    [h : Yields Γ (.when (types.get o.type ≠ .tuple []) (.inline o.id))]
    (htype : types.get o.type ≠ .tuple []) : Yields Γ (.inline o.id) :=
  ⟨fun hs => h.of hs htype⟩

theorem checkValue_ok {o : Operand} {s s' : State} {u : Unit}
    (hrun : checkValue o c s = (.ok u, s')) : o.mode ≠ .noValue := by
  intro hmode
  unfold checkValue at hrun
  rw [hmode] at hrun
  cases hrun

instance provides_checkValue {o : Operand} [h : Yields Γ (.operand c o)] :
    Provides c Γ (checkValue o) (fun _ => .inline o.id) := by
  refine ⟨.idle (fun s _ _ hΓ hrun => ?_)⟩
  rw [Reads.ok hrun]
  exact (inline_of_mode (c := c) (checkValue_ok hrun)).of hΓ

/-! ## Results of calls -/

instance idle_resultOperand (call : HostId) (results : List TypeId) (span : Span) :
    Idle (resultOperand call results span) := by
  unfold resultOperand
  split <;> infer_instance

instance provides_resultOperand {call : HostId} {results : List TypeId} {span : Span}
    [h : Yields Γ (.inline call)] :
    Provides c Γ (resultOperand call results span) (fun o => .inline o.id) := by
  constructor
  unfold resultOperand
  split
  · infer_instance
  · infer_instance

theorem forms_immediateCall {results : List HostParam} {body : List HostId} {span : Span}
    (hnames : ∀ name ∈ results.filterMap (·.name), c.Declares name) [Yields Γ (.each .node body)] :
    Forms c Γ (immediateCall results body span) (fun o => .inline o.id) := by
  have literal {Γ : Fact} {body : HostId} [Yields Γ (.node body)] :
      Yields Γ (.fits c (.functionLiteral ⟨[], results, false⟩ body)) :=
    yields_functionLiteral hnames
  unfold immediateCall
  infer_instance

instance provides_zeroValue {type : TypeId} : Provides c Γ (zeroValue type) .inline := by
  constructor
  unfold zeroValue
  refine .skip (fun types => ?_)
  split <;> infer_instance

/-! ## Numbers of registered types -/

instance provides_bigFromText {name text : String} {base : Option String} :
    Provides c Γ (bigFromText name text base) .inline := by
  have literal {Γ : Fact} {type : TypeId} {body : HostId} [Yields Γ (.node body)] :
      Yields Γ (.fits c (.functionLiteral ⟨[], [⟨none, type⟩], false⟩ body)) :=
    yields_functionLiteral nofun
  constructor
  unfold bigFromText
  infer_instance

instance provides_bigInteger {n : Int} : Provides c Γ (bigInteger n) .inline := by
  constructor
  unfold bigInteger
  infer_instance

instance provides_bigRational {r : Rat} : Provides c Γ (bigRational r) .inline := by
  constructor
  unfold bigRational
  infer_instance

instance provides_initializerCall {package initializer : String} {value : HostId} {span : Span}
    [Yields Γ (.inline value)] :
    Provides c Γ (initializerCall package initializer value span) .inline := by
  constructor
  unfold initializerCall
  infer_instance

/-! ## Values in typed places -/

section

variable {o left right : Operand} [h : Yields Γ (.operand c o)]

instance provides_materialize {target : TypeId} : Provides c Γ (materialize o target) .inline := by
  constructor
  unfold materialize
  dsimp only
  refine .skip (fun _ => ?_)
  split
  · infer_instance
  · split
    · rename_i hconstant
      have := inline_of_constant (c := c) (Γ := Γ) (o := o) (hconstant ▸ rfl)
      refine .skip (fun _ => ?_)
      split <;> infer_instance
    · split <;> infer_instance
    · infer_instance

instance provides_defaultValue : Provides c Γ (defaultValue o) (fun r => .inline r.1) := by
  constructor
  unfold defaultValue
  refine provides_checkValue.forms.bind (fun _ => ?_)
  split
  · infer_instance
  · refine .skip (fun isBig => ?_)
    split
    · refine .skip (fun default => ?_)
      split <;> infer_instance
    · dsimp only
      infer_instance

instance provides_coerce {target : TypeId} : Provides c Γ (coerce o target) .inline := by
  constructor
  unfold coerce
  dsimp only
  refine provides_checkValue.forms.bind (fun _ => ?_)
  infer_instance

instance provides_coerceOrDefault {target : Option TypeId} :
    Provides c Γ (coerceOrDefault o target) (fun r => .inline r.1) := by
  constructor
  unfold coerceOrDefault
  split <;> infer_instance

end

/-! ## Literals -/

instance provides_lowerLiteral {kind : LiteralKind} {text : String} {span : Span} :
    Provides c Γ (lowerLiteral kind text span) (fun o => .inline o.id) := by
  constructor
  unfold lowerLiteral
  split <;> infer_instance

instance idle_fitsBeside (target : TypeId) (operand : Operand) :
    Idle (fitsBeside target operand) := by
  unfold fitsBeside
  infer_instance

instance idle_commonBigType (kinds : List BasicType) (span : Span) :
    Idle (commonBigType kinds span) := by
  unfold commonBigType
  dsimp only
  infer_instance

instance idle_commonUntypedType (kinds : List BasicType) (span : Span) :
    Idle (commonUntypedType kinds span) := by
  unfold commonUntypedType
  dsimp only
  split
  · infer_instance
  · split
    · infer_instance
    · split <;> infer_instance

instance idle_commonType (operands : List Operand) (span : Span) :
    Idle (commonType operands span) := by
  unfold commonType
  refine .before (fun _ => .before (fun types => ?_))
  dsimp only
  split
  · infer_instance
  · split <;> infer_instance

/-! ## Operators of registered types -/

section

variable {o target left right : Operand}

instance idle_operatorType? (left right : Operand) : Idle (operatorType? left right) := by
  unfold operatorType?
  infer_instance

instance provides_methodStatement {object : HostId} {method : String} {args : List HostId}
    {span : Span} [Yields Γ (.inline object)] [Yields Γ (.each .inline args)] :
    Provides c Γ (methodStatement object method args span) .inline := by
  constructor
  unfold methodStatement
  infer_instance

section

variable [Yields Γ (.operand c left)] [Yields Γ (.operand c right)]

instance provides_lowerRegisteredBinary {op : BinaryOp} {target : TypeId} {span : Span} :
    Provides c Γ (lowerRegisteredBinary op target left right span) (fun o => .inline o.id) := by
  constructor
  unfold lowerRegisteredBinary
  refine .skip (fun _ => ?_)
  split
  · infer_instance
  · infer_instance

end

instance provides_lowerRegisteredAssign {op : BinaryOp} {span : Span} [Yields Γ (.inline target.id)]
    [Yields Γ (.operand c o)] :
    Provides c Γ (lowerRegisteredAssign op target o span) .inline := by
  constructor
  unfold lowerRegisteredAssign
  split <;> infer_instance

instance provides_lowerRegisteredIncDec {increment : Bool} {span : Span}
    [Yields Γ (.inline target.id)] :
    Provides c Γ (lowerRegisteredIncDec target increment span) .inline := by
  constructor
  unfold lowerRegisteredIncDec
  infer_instance

instance provides_lowerRegisteredUnary {op : UnaryOp} {span : Span} [Yields Γ (.inline o.id)] :
    Provides c Γ (lowerRegisteredUnary op o span) (fun o => .inline o.id) := by
  constructor
  unfold lowerRegisteredUnary
  split <;> infer_instance

/-! ## Operators -/

instance idle_untypedConstant? (operand : Operand) : Idle (untypedConstant? operand) := by
  unfold untypedConstant?
  refine .before (fun types => ?_)
  split <;> infer_instance

instance provides_foldedNode [Yields Γ (.inline o.id)] : Provides c Γ (foldedNode o) .inline := by
  constructor
  unfold foldedNode
  split <;> infer_instance

section

variable [Yields Γ (.inline left.id)] [Yields Γ (.inline right.id)]

instance provides_foldBinary? {op : BinaryOp} {span : Span} :
    Provides c Γ (foldBinary? op left right span)
      (fun r => .each (fun o => .inline o.id) r.toList) := by
  constructor
  unfold foldBinary?
  refine .skip (fun _ => .skip (fun _ => ?_))
  split
  · split
    · infer_instance
    · split
      · infer_instance
      · dsimp only
        infer_instance
  · infer_instance

instance provides_unify {span : Span} :
    Provides c Γ (unify left right span) (fun r => (Fact.inline r.1).and (.inline r.2.1)) := by
  constructor
  unfold unify
  refine .skip (fun types => ?_)
  split
  · infer_instance
  · infer_instance
  · split <;> infer_instance
  · infer_instance

instance provides_lowerComparison {op : BinaryOp} {span : Span} :
    Provides c Γ (lowerComparison op left right span) (fun o => .inline o.id) := by
  constructor
  unfold lowerComparison
  dsimp only
  split <;> infer_instance

instance provides_lowerShift {op : BinaryOp} {span : Span} :
    Provides c Γ (lowerShift op left right span) (fun o => .inline o.id) := by
  constructor
  unfold lowerShift
  dsimp only
  infer_instance

instance idle_isBoolean (type : TypeId) : Idle (isBoolean type) := by
  unfold isBoolean
  infer_instance

instance provides_lowerArithmetic {op : BinaryOp} {span : Span} :
    Provides c Γ (lowerArithmetic op left right span) (fun o => .inline o.id) := by
  constructor
  unfold lowerArithmetic
  infer_instance

end

instance provides_lowerBinary {op : BinaryOp} {span : Span} [Yields Γ (.operand c left)]
    [Yields Γ (.operand c right)] :
    Provides c Γ (lowerBinary op left right span) (fun o => .inline o.id) := by
  constructor
  unfold lowerBinary
  refine provides_checkValue.forms.bind (fun _ => provides_checkValue.forms.bind (fun _ => ?_))
  refine .skip (fun leftInvalid => .skip (fun rightInvalid => ?_))
  split
  · infer_instance
  · refine provides_foldBinary?.forms.bind (fun folded => ?_)
    split
    · infer_instance
    · refine .skip (fun target => ?_)
      split <;> infer_instance

instance provides_foldUnary {op : UnaryOp} {value : Constant} {span : Span}
    [Yields Γ (.inline o.id)] :
    Provides c Γ (foldUnary op o value span) (fun o => .inline o.id) := by
  constructor
  unfold foldUnary
  split
  · infer_instance
  · split <;> infer_instance

instance idle_hasUnary (op : UnaryOp) (type : TypeId) : Idle (hasUnary op type) := by
  unfold hasUnary
  refine .before (fun kind => ?_)
  split <;> infer_instance

instance provides_lowerUnaryOperand {op : UnaryOp} {span : Span} [Yields Γ (.operand c o)] :
    Provides c Γ (lowerUnaryOperand op o span) (fun o => .inline o.id) := by
  constructor
  unfold lowerUnaryOperand
  refine provides_checkValue.forms.bind (fun _ => .skip (fun types => ?_))
  split <;> infer_instance

end

variable {walk : Walk} [walk.Forms c]

/-! ## Types -/

instance idle_packagePath (name : String) (span : Span) : Idle (packagePath name span) := by
  unfold packagePath
  refine .before (fun s => ?_)
  split
  · infer_instance
  · refine .before (fun c => ?_)
    split <;> infer_instance

instance idle_memberType (path name : String) (span : Span) : Idle (memberType path name span) := by
  unfold memberType
  refine .before (fun c => ?_)
  split <;> infer_instance

instance provides_aliasTarget {name : String} {root : NodeId} {span : Span} :
    Provides c Γ (aliasTarget walk name root span) (fun _ => .nothing) := by
  constructor
  unfold aliasTarget
  refine .skip (fun s => .skip (fun _ => ?_))
  split
  · infer_instance
  · refine .read ?_
    split
    · refine Forms.bind ((Walk.Forms.target Γ _).forms.within
        (fun _ => ⟨rfl, rfl, fun _ => id, rfl⟩) (fun _ _ => ⟨rfl, rfl, fun _ => .inr, rfl⟩))
        (fun type => ?_)
      infer_instance
    · infer_instance

instance provides_typeOfName {name : String} {span : Span} :
    Provides c Γ (typeOfName walk name span) (fun _ => .nothing) := by
  constructor
  unfold typeOfName
  refine .skip (fun s => ?_)
  split
  · infer_instance
  · infer_instance
  · refine .skip (fun s => ?_)
    split
    · infer_instance
    · infer_instance
    · infer_instance
    · refine .skip (fun c => ?_)
      split <;> infer_instance

instance provides_lowerParams {variadic : Bool} {params : List Param} :
    Provides c Γ (lowerParams walk variadic params)
      (fun r => .known (r.map (·.name) = params.map (·.name))) := by
  constructor
  induction params generalizing Γ with
  | nil => exact .pure ⟨fun _ => rfl⟩
  | cons param rest ih =>
    unfold lowerParams
    refine (Walk.Forms.type Γ param.type).forms.bind (fun type => ?_)
    have names {Γ : Fact} {type : TypeId} :
        Forms c Γ (do return ⟨param.name, type⟩ :: (← lowerParams walk variadic rest))
          (fun r => .known (r.map (·.name) = (param :: rest).map (·.name))) :=
      ih.bind (fun rest => .pure ⟨fun hs => congrArg (param.name :: ·) hs.2⟩)
    split <;> exact .skip (fun type => names)

instance idle_signatureType (signature : HostSignature) : Idle (signatureType signature) := by
  unfold signatureType
  infer_instance

/-- The names of a signature are those of its parameters and its results. -/
instance provides_lowerSignature {id : NodeId} :
    Provides c Γ (lowerSignature walk id)
      (fun r => .known (∀ name ∈ r.1.names, c.Declares name)) := by
  constructor
  unfold lowerSignature
  refine .read ?_
  split
  · rename_i params results variadic htype
    refine provides_lowerParams.forms.bind (fun hostParams => ?_)
    refine provides_lowerParams.forms.bind (fun hostResults => ?_)
    refine .skip (fun type => .pure ⟨fun hs name hname => .source id ?_⟩)
    have hparams : hostParams.map (·.name) = params.map (·.name) := hs.1.2
    have hresults : hostResults.map (·.name) = results.map (·.name) := hs.2
    have names {hosts : List HostParam} {params : List Param}
        (h : hosts.map (·.name) = params.map (·.name)) :
        hosts.filterMap (·.name) = paramNames params := by
      have := congrArg (List.filterMap fun name => name) h
      simpa only [paramNames, List.filterMap_map, Function.comp_def] using this
    rw [SourceUnit.namesAt_func htype, ← names hparams, ← names hresults, ← List.filterMap_append]
    exact hname
  · infer_instance

instance provides_arrayLength {id : NodeId} :
    Provides c Γ (arrayLength walk id) (fun _ => .nothing) := by
  constructor
  unfold arrayLength
  refine (Walk.Forms.expr Γ id .none).forms.bind (fun operand => ?_)
  split <;> infer_instance

instance provides_lowerField {field : FieldSpec} :
    Provides c Γ (lowerField walk field) (fun _ => .nothing) := by
  constructor
  unfold lowerField
  refine (Walk.Forms.type Γ field.type).forms.bind (fun type => ?_)
  split <;> infer_instance

instance provides_lowerInterfaceMethod {method : MethodSpec} :
    Provides c Γ (lowerInterfaceMethod walk method) (fun _ => .nothing) := by
  constructor
  unfold lowerInterfaceMethod
  infer_instance

instance provides_typeOfExpression {id : NodeId} :
    Provides c Γ (typeOfExpression walk id) (fun _ => .nothing) := by
  constructor
  unfold typeOfExpression
  refine .skip (fun span => .read ?_)
  split
  · infer_instance
  · refine .read ?_
    split <;> infer_instance
  · infer_instance
  · infer_instance
  · infer_instance

instance provides_lowerType {id : NodeId} :
    Provides c Γ (lowerType walk id) (fun _ => .nothing) := by
  constructor
  unfold lowerType
  refine .skip (fun span => .read ?_)
  split <;> infer_instance

/-! ## Names -/

instance provides_typeOperand {type : TypeId} {span : Span} :
    Provides c Γ (typeOperand type span) (fun o => .inline o.id) := by
  constructor
  unfold typeOperand
  infer_instance

instance provides_namedOperand {name : String} {type : TypeId} {span : Span} :
    Provides c Γ (namedOperand name type span) (fun o => .inline o.id) := by
  constructor
  unfold namedOperand
  infer_instance

instance provides_symbolOperand {name : String} {symbol : Symbol} {span : Span} :
    Provides c Γ (symbolOperand name symbol span) (fun o => .inline o.id) := by
  constructor
  unfold symbolOperand
  split <;> infer_instance

instance provides_memberNode {package : Option String} {name : String} {span : Span} :
    Provides c Γ (memberNode package name span) .inline := by
  constructor
  unfold memberNode
  split <;> infer_instance

instance provides_resolvedOperand {resolution : Resolution} {package : Option String}
    {name : String} {span : Span} :
    Provides c Γ (resolvedOperand resolution package name span) (fun o => .inline o.id) := by
  constructor
  unfold resolvedOperand
  split <;> infer_instance

instance provides_globalOperand {global : Global} {name : String} {span : Span} :
    Provides c Γ (globalOperand walk global name span) (fun o => .inline o.id) := by
  constructor
  unfold globalOperand
  split
  · refine (Walk.Forms.value Γ _ _ _).forms.bind (fun _ => .skip (fun s => ?_))
    split <;> infer_instance
  · infer_instance
  · infer_instance

instance provides_unboundOperand? {name : String} {span : Span} :
    Provides c Γ (unboundOperand? walk name span)
      (fun r => .each (fun o => .inline o.id) r.toList) := by
  constructor
  unfold unboundOperand?
  refine .skip (fun s => ?_)
  split
  · infer_instance
  · refine .skip (fun s => ?_)
    split
    · infer_instance
    · refine .skip (fun c => ?_)
      split <;> infer_instance

instance provides_nameOperand? {name : String} {span : Span} :
    Provides c Γ (nameOperand? walk name span)
      (fun r => .each (fun o => .inline o.id) r.toList) := by
  constructor
  unfold nameOperand?
  refine .skip (fun s => ?_)
  split <;> infer_instance

instance provides_lowerIdentifier {name : String} {span : Span} :
    Provides c Γ (lowerIdentifier walk name span) (fun o => .inline o.id) := by
  constructor
  unfold lowerIdentifier
  split
  · infer_instance
  · refine provides_nameOperand?.forms.bind (fun found => ?_)
    split
    · infer_instance
    · dsimp only
      split
      · infer_instance
      · refine provides_nameOperand?.forms.bind (fun fallback => ?_)
        split <;> infer_instance

/-! ## Values in typed places -/

instance provides_lowerInto {id : NodeId} {target : TypeId} :
    Provides c Γ (lowerInto walk id target) .inline := by
  constructor
  unfold lowerInto
  infer_instance

instance provides_lowerByDefault {id : NodeId} :
    Provides c Γ (lowerByDefault walk id) (fun r => .inline r.1) := by
  constructor
  unfold lowerByDefault
  infer_instance

instance provides_lowerCondition {id : NodeId} :
    Provides c Γ (lowerCondition walk id) .inline := by
  constructor
  unfold lowerCondition
  infer_instance

/-! ## Operators and members -/

instance provides_lowerAddressOf {operand : NodeId} {span : Span} {expect : Expectation} :
    Provides c Γ (lowerAddressOf walk operand span expect) (fun o => .inline o.id) := by
  constructor
  unfold lowerAddressOf
  dsimp only
  infer_instance

instance provides_lowerReceive {operand : NodeId} {span : Span} :
    Provides c Γ (lowerReceive walk operand span) (fun o => .inline o.id) := by
  constructor
  unfold lowerReceive
  refine (Walk.Forms.expr Γ operand .none).forms.bind (fun channel => ?_)
  refine provides_checkValue.forms.bind (fun _ => ?_)
  dsimp only
  refine .skip (fun types => ?_)
  split <;> infer_instance

instance provides_lowerUnary {op : UnaryOp} {operand : NodeId} {span : Span}
    {expect : Expectation} :
    Provides c Γ (lowerUnary walk op operand span expect) (fun o => .inline o.id) := by
  constructor
  unfold lowerUnary
  split <;> infer_instance

instance provides_lowerDereference {inner : NodeId} {span : Span} :
    Provides c Γ (lowerDereference walk inner span) (fun o => .inline o.id) := by
  constructor
  unfold lowerDereference
  refine (Walk.Forms.expr Γ inner .none).forms.bind (fun operand => ?_)
  split
  · infer_instance
  · refine provides_checkValue.forms.bind (fun _ => ?_)
    dsimp only
    refine .skip (fun types => ?_)
    split <;> infer_instance

instance idle_failMember (owner name : String) (span : Span) :
    Idle (failMember owner name span : Lower α) := by
  unfold failMember
  infer_instance

instance provides_lowerPackageMember {path name : String} {span : Span} :
    Provides c Γ (lowerPackageMember path name span) (fun o => .inline o.id) := by
  constructor
  unfold lowerPackageMember
  refine .skip (fun c => ?_)
  dsimp only
  split
  · infer_instance
  · split <;> infer_instance

instance provides_lowerMethodExpression {object : Operand} {name : String} {span : Span}
    [Yields Γ (.inline object.id)] :
    Provides c Γ (lowerMethodExpression object name span) (fun o => .inline o.id) := by
  constructor
  unfold lowerMethodExpression
  refine .skip (fun method => ?_)
  split
  · infer_instance
  · refine .skip (fun types => ?_)
    split
    · infer_instance
    · refine .skip (fun type => .skip (fun types => ?_))
      split <;> infer_instance

instance idle_firstMethod? (type : TypeId) (names : List String) :
    Idle (firstMethod? type names) := by
  induction names with
  | nil =>
    unfold firstMethod?
    infer_instance
  | cons name rest ih =>
    unfold firstMethod?
    refine .before (fun method => ?_)
    split <;> infer_instance

instance provides_lowerProperty {object : HostId} {method : Method} {span : Span}
    {expect : Expectation} [Yields Γ (.inline object)] :
    Provides c Γ (lowerProperty object method span expect) (fun o => .inline o.id) := by
  constructor
  unfold lowerProperty
  refine provides_place.forms.bind (fun selector => .skip (fun types => ?_))
  split <;> infer_instance

instance provides_lowerValueMember {object : Operand} {name : String} {span : Span}
    {expect : Expectation} [Yields Γ (.operand c object)] :
    Provides c Γ (lowerValueMember object name span expect) (fun o => .inline o.id) := by
  constructor
  unfold lowerValueMember
  refine provides_defaultValue.forms.bind (fun value => .skip (fun types => ?_))
  dsimp only
  split
  · infer_instance
  · split
    · infer_instance
    · refine .skip (fun method => ?_)
      split
      · infer_instance
      · refine .skip (fun method => ?_)
        split <;> infer_instance

instance provides_lowerMember {object : NodeId} {name : String} {span : Span}
    {expect : Expectation} :
    Provides c Γ (lowerMember walk object name span expect) (fun o => .inline o.id) := by
  constructor
  unfold lowerMember
  refine (Walk.Forms.expr Γ object .none).forms.bind (fun object => ?_)
  split
  · infer_instance
  · rename_i hmode
    have := inline_of_mode (c := c) (Γ := Γ.and (.operand c object)) (o := object)
      (by rw [hmode]; nofun)
    infer_instance
  · infer_instance

/-! ## Access to parts of values -/

instance provides_lowerPosition {index : NodeId} :
    Provides c Γ (lowerPosition walk index) .inline := by
  constructor
  unfold lowerPosition
  infer_instance

instance provides_lowerIndex {object index : NodeId} {span : Span} :
    Provides c Γ (lowerIndex walk object index span) (fun o => .inline o.id) := by
  constructor
  unfold lowerIndex
  refine (Walk.Forms.expr Γ object .none).forms.bind (fun object => ?_)
  refine provides_checkValue.forms.bind (fun _ => .skip (fun types => ?_))
  dsimp only
  split
  · infer_instance
  · infer_instance
  · infer_instance
  · infer_instance
  · split <;> infer_instance
  · infer_instance

instance idle_slicedType? (type : TypeId) : Idle (slicedType? type) := by
  unfold slicedType?
  refine .before (fun types => ?_)
  split
  · infer_instance
  · infer_instance
  · infer_instance
  · split <;> infer_instance
  · infer_instance
  · infer_instance

instance provides_lowerSlice {object : NodeId} {low high max : Option NodeId} {span : Span} :
    Provides c Γ (lowerSlice walk object low high max span) (fun o => .inline o.id) := by
  constructor
  unfold lowerSlice
  refine (Walk.Forms.expr Γ object .none).forms.bind (fun object => ?_)
  refine provides_checkValue.forms.bind (fun _ => .skip (fun found => ?_))
  split <;> infer_instance

instance provides_lowerTypeAssertion {object : NodeId} {type : Option NodeId} {span : Span} :
    Provides c Γ (lowerTypeAssertion walk object type span) (fun o => .inline o.id) := by
  constructor
  unfold lowerTypeAssertion
  split <;> infer_instance

end GoLowering.Lowering
