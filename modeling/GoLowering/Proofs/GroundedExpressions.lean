import GoLowering.Proofs.FormedExpressions
import GoLowering.Proofs.GroundedParts

/-!
# Expressions within the table

The type of an operand is in the table: it is one of every table, one that a part of the walk has
come to, a part of an entry of the table, or has just been asked for. What makes nodes only leaves
the table alone.
-/

namespace GoLowering.Lowering

open Surface

set_option synthInstance.maxSize 1000

variable {c : Context} {Γ : Fact} {α : Type}

/-! ## Parts that leave the table alone -/

instance typeless_place (kind : HostKind) (span : Span) : Typeless (place kind span) :=
  typeless_addNode _ _

instance typeless_scaffold (kind : HostKind) : Typeless (scaffold kind) := typeless_addNode _ _

instance typeless_identNode (name : String) : Typeless (identNode name) := typeless_addNode _ _

instance typeless_qualifiedNode (package name : String) : Typeless (qualifiedNode package name) :=
  typeless_addNode _ _

instance typeless_literalNode (text : String) : Typeless (literalNode text) := typeless_addNode _ _

instance typeless_callNode (callee : HostId) (args : List HostId) :
    Typeless (callNode callee args) :=
  typeless_addNode _ _

instance typeless_selectorNode (object : HostId) (name : String) :
    Typeless (selectorNode object name) :=
  typeless_addNode _ _

instance typeless_binaryNode (op : BinaryOp) (left right : HostId) :
    Typeless (binaryNode op left right) :=
  typeless_addNode _ _

instance typeless_unaryNode (op : UnaryOp) (operand : HostId) : Typeless (unaryNode op operand) :=
  typeless_addNode _ _

instance typeless_assignNode (lhs rhs : List HostId) : Typeless (assignNode lhs rhs) :=
  typeless_addNode _ _

instance typeless_defineNode (lhs rhs : List HostId) : Typeless (defineNode lhs rhs) :=
  typeless_addNode _ _

instance typeless_blockNode (statements : List HostId) : Typeless (blockNode statements) :=
  typeless_addNode _ _

instance typeless_returnNode (values : List HostId) : Typeless (returnNode values) :=
  typeless_addNode _ _

instance typeless_typeNode (type : TypeId) : Typeless (typeNode type) := typeless_addNode _ _

instance typeless_zeroValue (type : TypeId) : Typeless (zeroValue type) := by
  unfold zeroValue
  refine .before (fun types => ?_)
  split <;> infer_instance

instance typeless_kindOf (id : HostId) : Typeless (kindOf id) := by
  unfold kindOf
  infer_instance

instance typeless_typeName (type : TypeId) : Typeless (typeName type) := by
  unfold typeName
  infer_instance

instance typeless_isInvalid (type : TypeId) : Typeless (isInvalid type) := by
  unfold isInvalid
  infer_instance

instance typeless_isBoolean (type : TypeId) : Typeless (isBoolean type) := by
  unfold isBoolean
  infer_instance

instance typeless_failMismatch (operand : Operand) (target : TypeId) :
    Typeless (failMismatch operand target : Lower α) := by
  unfold failMismatch
  dsimp only
  infer_instance

instance typeless_failOverflow (operand : Operand) :
    Typeless (failOverflow operand : Lower α) := by
  unfold failOverflow
  infer_instance

instance typeless_failOperation (operator : String) (type : TypeId) (span : Span) :
    Typeless (failOperation operator type span : Lower α) := by
  unfold failOperation
  infer_instance

instance typeless_failFold (op : BinaryOp) (left right : Operand) (span : Span)
    (error : FoldError) : Typeless (failFold op left right span error : Lower α) := by
  cases error <;> (unfold failFold; infer_instance)

instance typeless_failIndex (operand : Operand) : Typeless (failIndex operand : Lower α) := by
  unfold failIndex
  infer_instance

instance typeless_failMember (owner name : String) (span : Span) :
    Typeless (failMember owner name span : Lower α) := by
  unfold failMember
  infer_instance

/-! ## What is expected, and what is known of operands -/

instance inTables_none : Yields Γ (.inTables Expectation.none.type.toList) := yields_none

instance inTables_called : Yields Γ (.inTables Expectation.called.type.toList) := yields_none

instance inTables_expecting {type : TypeId} [Yields Γ (.inTable type)] :
    Yields Γ (.inTables (Expectation.expecting type).type.toList) :=
  yields_some

instance inTables_maybe {type : Option TypeId} [h : Yields Γ (.inTables type.toList)] :
    Yields Γ (.inTables (Expectation.maybe type).type.toList) :=
  h

instance inTable_value {id : HostId} {type : TypeId} {span : Span} [h : Yields Γ (.inTable type)] :
    Yields Γ (.inTable (Operand.value id type span).type) :=
  h

instance inTable_ofConstant {id : HostId} {type : TypeId} {value : Option Constant} {span : Span}
    [h : Yields Γ (.inTable type)] : Yields Γ (.inTable (Operand.ofConstant id type value span).type) :=
  h

instance inTable_variable {type : TypeId} [h : Yields Γ (.inTable type)] :
    Yields Γ (.inTable (Symbol.variable type).type) :=
  h

instance inTable_constant {type : TypeId} {value : Option Constant} [h : Yields Γ (.inTable type)] :
    Yields Γ (.inTable (Symbol.constant type value).type) :=
  h

instance inTable_typeName {type : TypeId} [h : Yields Γ (.inTable type)] :
    Yields Γ (.inTable (Symbol.typeName type).type) :=
  h

theorem inTable_of_some {type : TypeId} [h : Yields Γ (.inTables (some type).toList)] :
    Yields Γ (.inTable type) :=
  ⟨fun hs => h.of hs type List.mem_cons_self⟩

instance inTable_ite {p : Prop} [Decidable p] {type other : TypeId} [h : Yields Γ (.inTable type)]
    [hother : Yields Γ (.inTable other)] : Yields Γ (.inTable (if p then type else other)) := by
  split
  · exact h
  · exact hother

/-- A type that is given with a unit is in the table. -/
theorem inTable_of_context {type : TypeId} [h : Yields Γ (.context c)] (htype : type ∈ c.types) :
    Yields Γ (.inTable type) :=
  ⟨fun hs => .inr (h.of hs type htype)⟩

theorem mem_types_of_defaultFor? {kind : BasicType} {entry : RegisteredType}
    (h : c.registry.defaultFor? kind = some entry) : entry.type ∈ c.types :=
  List.mem_append_right _
    (List.mem_map_of_mem (List.mem_of_find?_eq_some (Registry.get?_of_defaultFor? h)))

/-! ## Results of calls -/

section

variable {results : List TypeId} {span : Span}

instance brings_resultOperand {call : HostId} [h : Yields Γ (.inTables results)] :
    Brings c Γ (resultOperand call results span) (fun o => .inTable o.type) := by
  constructor
  unfold resultOperand
  split
  · rename_i single
    have : Yields Γ (.inTable single) := ⟨fun hs => h.of hs single List.mem_cons_self⟩
    infer_instance
  · infer_instance

instance brings_immediateCall {results : List HostParam} {body : List HostId}
    [Yields Γ (.each (fun p => .inTable p.type) results)] :
    Brings c Γ (immediateCall results body span) (fun o => .inTable o.type) := by
  constructor
  unfold immediateCall
  infer_instance

end

/-! ## Numbers of registered types -/

instance brings_bigFromText {name text : String} {base : Option String} :
    Brings c Γ (bigFromText name text base) (fun _ => .nothing) := by
  constructor
  unfold bigFromText
  infer_instance

instance brings_bigInteger {n : Int} : Brings c Γ (bigInteger n) (fun _ => .nothing) := by
  constructor
  unfold bigInteger
  infer_instance

instance brings_bigRational {r : Rat} : Brings c Γ (bigRational r) (fun _ => .nothing) := by
  constructor
  unfold bigRational
  infer_instance

instance typeless_initializerCall (package initializer : String) (value : HostId) (span : Span) :
    Typeless (initializerCall package initializer value span) := by
  unfold initializerCall
  infer_instance

/-! ## Values in typed places -/

section

variable {o left right : Operand} {target : TypeId}

instance brings_materialize : Brings c Γ (materialize o target) (fun _ => .nothing) := by
  constructor
  unfold materialize
  dsimp only
  refine .read ?_
  split
  · infer_instance
  · split
    · refine .skip (fun _ => ?_)
      split <;> infer_instance
    · split <;> infer_instance
    · infer_instance

/-- The default of an unbounded constant is a registered type. -/
instance brings_bigDefault? {type : TypeId} :
    Brings c Γ (bigDefault? type) (fun r => .inTables r.toList) := by
  constructor
  unfold bigDefault?
  refine .skip (fun kind => .read (.pure ⟨fun hs id hid => .inr (hs.2 id ?_)⟩))
  obtain ⟨entry, hentry, rfl⟩ := Option.map_eq_some_iff.mp (Option.mem_toList.mp hid)
  obtain ⟨kind, -, hdefault⟩ := Option.bind_eq_some_iff.mp hentry
  exact mem_types_of_defaultFor? hdefault

instance brings_defaultValue [Yields Γ (.inTable o.type)] :
    Brings c Γ (defaultValue o) (fun r => .inTable r.2) := by
  constructor
  unfold defaultValue
  refine .skip (fun _ => ?_)
  split
  · infer_instance
  · refine .skip (fun isBig => ?_)
    split
    · refine brings_bigDefault?.grounds.bind (fun default => ?_)
      split <;> infer_instance
    · dsimp only
      infer_instance

instance brings_coerce [Yields Γ (.inTable o.type)] :
    Brings c Γ (coerce o target) (fun _ => .nothing) := by
  constructor
  unfold coerce
  dsimp only
  infer_instance

instance brings_coerceOrDefault {target : Option TypeId} [Yields Γ (.inTable o.type)]
    [Yields Γ (.inTables target.toList)] :
    Brings c Γ (coerceOrDefault o target) (fun r => .inTable r.2) := by
  constructor
  unfold coerceOrDefault
  split
  · rename_i target htarget
    have : Yields Γ (.inTable target) := inTable_of_some
    infer_instance
  · infer_instance

end

/-! ## Literals -/

instance brings_lowerLiteral {kind : LiteralKind} {text : String} {span : Span} :
    Brings c Γ (lowerLiteral kind text span) (fun o => .inTable o.type) := by
  constructor
  unfold lowerLiteral
  split <;> infer_instance

instance typeless_fitsBeside (target : TypeId) (operand : Operand) :
    Typeless (fitsBeside target operand) := by
  unfold fitsBeside
  infer_instance

instance brings_commonBigType {kinds : List BasicType} {span : Span} :
    Brings c Γ (commonBigType kinds span) .inTable := by
  constructor
  unfold commonBigType
  dsimp only
  split
  · infer_instance
  · refine .read (.pure ?_)
    cases hdefault : c.registry.defaultFor? _ with
    | none => exact inTable_any
    | some entry => exact inTable_of_context (mem_types_of_defaultFor? hdefault)

instance brings_commonUntypedType {kinds : List BasicType} {span : Span} :
    Brings c Γ (commonUntypedType kinds span) .inTable := by
  constructor
  unfold commonUntypedType
  dsimp only
  split
  · infer_instance
  · split
    · infer_instance
    · split
      · infer_instance
      · split <;> infer_instance

/-- The type that elements have in common is that of one of them, or one of every table. -/
instance brings_commonType {operands : List Operand} {span : Span}
    [h : Yields Γ (.each (fun o => .inTable o.type) operands)] :
    Brings c Γ (commonType operands span) .inTable := by
  constructor
  unfold commonType
  refine .skip (fun _ => brings_getTypes.grounds.bind (fun types => ?_))
  dsimp only
  split
  · infer_instance
  · split
    · infer_instance
    · rename_i first rest htyped
      have hfirst : first ∈ operands := by
        rw [List.partition_eq_filter_filter] at htyped
        exact List.mem_of_mem_filter (htyped ▸ List.mem_cons_self)
      have : Yields Γ (.inTable first.type) := ⟨fun hs => h.of hs first hfirst⟩
      split <;> infer_instance

/-! ## Operators of registered types -/

section

variable {o target left right : Operand} {op : BinaryOp} {span : Span}

instance brings_operatorType? [Yields Γ (.inTable left.type)] [Yields Γ (.inTable right.type)] :
    Brings c Γ (operatorType? left right) (fun r => .inTables r.toList) := by
  constructor
  unfold operatorType?
  infer_instance

instance typeless_methodStatement (object : HostId) (method : String) (args : List HostId)
    (span : Span) : Typeless (methodStatement object method args span) := by
  unfold methodStatement
  infer_instance

section

variable [Yields Γ (.inTable left.type)] [Yields Γ (.inTable right.type)]

instance brings_lowerRegisteredBinary {target : TypeId} [Yields Γ (.inTable target)] :
    Brings c Γ (lowerRegisteredBinary op target left right span) (fun o => .inTable o.type) := by
  constructor
  unfold lowerRegisteredBinary
  refine .read ?_
  split
  · infer_instance
  · infer_instance

end

instance brings_lowerRegisteredAssign [Yields Γ (.inTable o.type)] :
    Brings c Γ (lowerRegisteredAssign op target o span) (fun _ => .nothing) := by
  constructor
  unfold lowerRegisteredAssign
  split <;> infer_instance

instance typeless_lowerRegisteredIncDec (target : Operand) (increment : Bool) (span : Span) :
    Typeless (lowerRegisteredIncDec target increment span) := by
  unfold lowerRegisteredIncDec
  infer_instance

instance brings_lowerRegisteredUnary {op : UnaryOp} [Yields Γ (.inTable o.type)] :
    Brings c Γ (lowerRegisteredUnary op o span) (fun o => .inTable o.type) := by
  constructor
  unfold lowerRegisteredUnary
  split <;> infer_instance

/-! ## Operators -/

instance typeless_untypedConstant? (operand : Operand) : Typeless (untypedConstant? operand) := by
  unfold untypedConstant?
  refine .before (fun types => ?_)
  split <;> infer_instance

instance typeless_foldedNode (operand : Operand) : Typeless (foldedNode operand) := by
  unfold foldedNode
  split <;> infer_instance

instance brings_foldBinary? :
    Brings c Γ (foldBinary? op left right span)
      (fun r => .each (fun o => .inTable o.type) r.toList) := by
  constructor
  unfold foldBinary?
  refine .skip (fun _ => .skip (fun _ => ?_))
  split
  · split
    · infer_instance
    · split
      · infer_instance
      · dsimp only
        infer_instance
  · infer_instance

section

variable [Yields Γ (.inTable left.type)] [Yields Γ (.inTable right.type)]

instance brings_unify : Brings c Γ (unify left right span) (fun r => .inTable r.2.2) := by
  constructor
  unfold unify
  refine brings_getTypes.grounds.bind (fun types => ?_)
  split
  · infer_instance
  · infer_instance
  · split <;> infer_instance
  · infer_instance

instance brings_lowerComparison :
    Brings c Γ (lowerComparison op left right span) (fun o => .inTable o.type) := by
  constructor
  unfold lowerComparison
  dsimp only
  split <;> infer_instance

instance brings_lowerShift :
    Brings c Γ (lowerShift op left right span) (fun o => .inTable o.type) := by
  constructor
  unfold lowerShift
  dsimp only
  infer_instance

instance brings_lowerArithmetic :
    Brings c Γ (lowerArithmetic op left right span) (fun o => .inTable o.type) := by
  constructor
  unfold lowerArithmetic
  infer_instance

instance brings_lowerBinary :
    Brings c Γ (lowerBinary op left right span) (fun o => .inTable o.type) := by
  constructor
  unfold lowerBinary
  refine .skip (fun _ => .skip (fun _ => .skip (fun leftInvalid => .skip (fun rightInvalid => ?_))))
  split
  · infer_instance
  · refine brings_foldBinary?.grounds.bind (fun folded => ?_)
    split
    · infer_instance
    · refine brings_operatorType?.grounds.bind (fun target => ?_)
      split <;> infer_instance

end

instance brings_foldUnary {op : UnaryOp} {value : Constant} [Yields Γ (.inTable o.type)] :
    Brings c Γ (foldUnary op o value span) (fun o => .inTable o.type) := by
  constructor
  unfold foldUnary
  split
  · infer_instance
  · split <;> infer_instance

instance typeless_hasUnary (op : UnaryOp) (type : TypeId) : Typeless (hasUnary op type) := by
  unfold hasUnary
  refine .before (fun kind => ?_)
  split <;> infer_instance

instance brings_lowerUnaryOperand {op : UnaryOp} [Yields Γ (.inTable o.type)] :
    Brings c Γ (lowerUnaryOperand op o span) (fun o => .inTable o.type) := by
  constructor
  unfold lowerUnaryOperand
  refine .skip (fun _ => brings_getTypes.grounds.bind (fun types => ?_))
  split <;> infer_instance

end

variable {walk : Walk} [walk.Grounds c]

/-! ## Types -/

instance typeless_packagePath (name : String) (span : Span) : Typeless (packagePath name span) := by
  unfold packagePath
  refine .before (fun s => ?_)
  split
  · infer_instance
  · refine .before (fun c => ?_)
    split <;> infer_instance

/-- What a name of the environment stands for or has is given with the unit. -/
theorem mem_types_of_resolve? {name : String} {resolution : Resolution}
    (h : c.env.resolve? name = some resolution) : resolution.types ⊆ c.types := by
  intro id hid
  unfold Environment.resolve? at h
  split at h
  · rename_i found hlookup
    obtain rfl := Option.some.inj h
    exact List.mem_append_left _ (List.mem_append_left _ (List.mem_append_left _
      (List.mem_flatMap.mpr ⟨_, Keyed.mem_of_lookup hlookup, hid⟩)))
  · split at h
    · obtain rfl := Option.some.inj h
      cases hid
    · cases h

theorem mem_types_of_resolveMember? {path name : String} {resolution : Resolution}
    (h : c.env.resolveMember? path name = some resolution) : resolution.types ⊆ c.types := by
  intro id hid
  obtain ⟨members, hpackage, hmember⟩ := Option.bind_eq_some_iff.mp h
  refine List.mem_append_left _ (List.mem_append_left _ (List.mem_append_right _ ?_))
  exact List.mem_flatMap.mpr ⟨_, Keyed.mem_of_lookup hpackage,
    List.mem_flatMap.mpr ⟨_, Keyed.mem_of_lookup hmember, hid⟩⟩

theorem inTables_of_context {types : List TypeId} [h : Yields Γ (.context c)]
    (htypes : types ⊆ c.types) : Yields Γ (.inTables types) :=
  ⟨fun hs id hid => .inr (h.of hs id (htypes hid))⟩

instance brings_memberType {path name : String} {span : Span} :
    Brings c Γ (memberType path name span) .inTable := by
  constructor
  unfold memberType
  refine .read ?_
  split
  · rename_i type hmember
    have htype : type ∈ c.types := mem_types_of_resolveMember? hmember List.mem_cons_self
    exact .given (inTable_of_context htype) inferInstance
  · infer_instance
  · infer_instance

instance inTables_globalType {root : NodeId} {type : Option TypeId}
    [h : Yields Γ (.inTables type.toList)] : Yields Γ (.inTables (Global.type root type).types) :=
  h

instance brings_aliasTarget {name : String} {root : NodeId} {span : Span} :
    Brings c Γ (aliasTarget walk name root span) .inTable := by
  constructor
  unfold aliasTarget
  refine .skip (fun s => .skip (fun _ => ?_))
  split
  · infer_instance
  · refine .read ?_
    split
    · refine Grounds.bind ((Walk.Grounds.target _ _).grounds.aside
        (fun _ => ⟨rfl, rfl, rfl, rfl, rfl, rfl⟩) (fun _ _ => ⟨rfl, rfl, rfl, rfl, rfl, rfl⟩))
        (fun type => ?_)
      refine grounds_setGlobals.bind (fun _ => ?_)
      infer_instance
    · infer_instance

instance brings_typeOfName {name : String} {span : Span} :
    Brings c Γ (typeOfName walk name span) .inTable := by
  constructor
  unfold typeOfName
  refine brings_get.grounds.bind (fun s => ?_)
  split
  · rename_i type hlookup
    exact .given (φ := .inTable type) (inTable_of_scopes hlookup) inferInstance
  · infer_instance
  · refine brings_get.grounds.bind (fun s => ?_)
    split
    · rename_i root type hlookup
      exact .given (φ := .inTables (some type).toList) (inTables_of_globals hlookup) inferInstance
    · infer_instance
    · infer_instance
    · refine .read ?_
      split
      · rename_i type hresolve
        have htype : type ∈ c.types := mem_types_of_resolve? hresolve List.mem_cons_self
        exact .given (inTable_of_context htype) inferInstance
      · infer_instance
      · infer_instance

instance brings_lowerParams {variadic : Bool} {params : List Param} :
    Brings c Γ (lowerParams walk variadic params) (.each (fun p => .inTable p.type)) := by
  constructor
  induction params generalizing Γ with
  | nil => exact .pure yields_nil
  | cons param rest ih =>
    have {Γ : Fact} : Brings c Γ (lowerParams walk variadic rest)
        (.each (fun p => .inTable p.type)) := ⟨ih⟩
    unfold lowerParams
    dsimp only
    infer_instance

instance brings_signatureType {signature : HostSignature}
    [Yields Γ (.each (fun p => .inTable p.type) signature.params)]
    [Yields Γ (.each (fun p => .inTable p.type) signature.results)] :
    Brings c Γ (signatureType signature) .function := by
  constructor
  unfold signatureType
  infer_instance

/-- The types of the parameters and the results of a signature. -/
abbrev Fact.hostSignature (signature : HostSignature) : Fact :=
  (Fact.each (fun p => .inTable p.type) signature.params).and
    (.each (fun p => .inTable p.type) signature.results)

instance brings_lowerSignature {id : NodeId} :
    Brings c Γ (lowerSignature walk id)
      (fun r => (Fact.hostSignature r.1).and (.function r.2)) := by
  constructor
  unfold lowerSignature
  refine .read ?_
  split
  · dsimp only
    infer_instance
  · infer_instance

instance brings_arrayLength {id : NodeId} :
    Brings c Γ (arrayLength walk id) (fun _ => .nothing) := by
  constructor
  unfold arrayLength
  refine (Walk.Grounds.expr Γ id .none).grounds.bind (fun operand => ?_)
  split <;> infer_instance

instance brings_lowerField {field : FieldSpec} :
    Brings c Γ (lowerField walk field) (fun f => .inTable f.type) := by
  constructor
  unfold lowerField
  refine (Walk.Grounds.type Γ field.type).grounds.bind (fun type => ?_)
  split <;> infer_instance

instance brings_lowerInterfaceMethod {method : MethodSpec} :
    Brings c Γ (lowerInterfaceMethod walk method) (fun m => .function m.sig) := by
  constructor
  unfold lowerInterfaceMethod
  infer_instance

instance brings_typeOfExpression {id : NodeId} :
    Brings c Γ (typeOfExpression walk id) .inTable := by
  constructor
  unfold typeOfExpression
  refine .skip (fun span => .read ?_)
  split
  · infer_instance
  · refine .read ?_
    split <;> infer_instance
  · infer_instance
  · infer_instance
  · infer_instance

instance brings_lowerType {id : NodeId} : Brings c Γ (lowerType walk id) .inTable := by
  constructor
  unfold lowerType
  refine .skip (fun span => .read ?_)
  split <;> infer_instance

/-! ## Names -/

instance brings_typeOperand {type : TypeId} {span : Span} [Yields Γ (.inTable type)] :
    Brings c Γ (typeOperand type span) (fun o => .inTable o.type) := by
  constructor
  unfold typeOperand
  infer_instance

instance brings_namedOperand {name : String} {type : TypeId} {span : Span}
    [Yields Γ (.inTable type)] :
    Brings c Γ (namedOperand name type span) (fun o => .inTable o.type) := by
  constructor
  unfold namedOperand
  infer_instance

instance brings_symbolOperand {name : String} {symbol : Symbol} {span : Span}
    [h : Yields Γ (.inTable symbol.type)] :
    Brings c Γ (symbolOperand name symbol span) (fun o => .inTable o.type) := by
  constructor
  unfold symbolOperand
  cases symbol
  all_goals
    have : Yields Γ (.inTable ‹TypeId›) := h
    infer_instance

instance typeless_memberNode (package : Option String) (name : String) (span : Span) :
    Typeless (memberNode package name span) :=
  typeless_place _ _

instance brings_resolvedOperand {resolution : Resolution} {package : Option String}
    {name : String} {span : Span} [h : Yields Γ (.inTables resolution.types)] :
    Brings c Γ (resolvedOperand resolution package name span) (fun o => .inTable o.type) := by
  have of_mem {type : TypeId} (htype : type ∈ resolution.types) : Yields Γ (.inTable type) :=
    ⟨fun hs => h.of hs type htype⟩
  constructor
  unfold resolvedOperand
  split
  · have := of_mem List.mem_cons_self
    infer_instance
  · have := of_mem List.mem_cons_self
    infer_instance
  · infer_instance
  · have := of_mem List.mem_cons_self
    infer_instance
  · infer_instance
  · infer_instance

instance brings_globalOperand {global : Global} {name : String} {span : Span}
    [h : Yields Γ (.inTables global.types)] :
    Brings c Γ (globalOperand walk global name span) (fun o => .inTable o.type) := by
  constructor
  unfold globalOperand
  split
  · refine (Walk.Grounds.value Γ _ _ _).grounds.bind (fun _ => ?_)
    refine brings_get.grounds.bind (fun s => ?_)
    split
    · exact .given (inTable_of_scopes ‹_›) inferInstance
    · infer_instance
  · rename_i root type
    cases type with
    | none =>
      dsimp only [Option.getD_none]
      infer_instance
    | some type =>
      have : Yields Γ (.inTable type) := ⟨fun hs => h.of hs type List.mem_cons_self⟩
      dsimp only [Option.getD_some]
      infer_instance
  · infer_instance

instance brings_unboundOperand? {name : String} {span : Span} :
    Brings c Γ (unboundOperand? walk name span)
      (fun r => .each (fun o => .inTable o.type) r.toList) := by
  constructor
  unfold unboundOperand?
  refine brings_get.grounds.bind (fun s => ?_)
  split
  · exact .given (inTables_of_globals ‹_›) inferInstance
  · refine .skip (fun s => ?_)
    split
    · infer_instance
    · refine .read ?_
      split
      · exact .given (inTables_of_context (mem_types_of_resolve? ‹_›)) inferInstance
      · infer_instance

instance brings_nameOperand? {name : String} {span : Span} :
    Brings c Γ (nameOperand? walk name span)
      (fun r => .each (fun o => .inTable o.type) r.toList) := by
  constructor
  unfold nameOperand?
  refine brings_get.grounds.bind (fun s => ?_)
  split
  · exact .given (inTable_of_scopes ‹_›) inferInstance
  · infer_instance

instance brings_lowerIdentifier {name : String} {span : Span} :
    Brings c Γ (lowerIdentifier walk name span) (fun o => .inTable o.type) := by
  constructor
  unfold lowerIdentifier
  split
  · infer_instance
  · refine brings_nameOperand?.grounds.bind (fun found => ?_)
    split
    · infer_instance
    · dsimp only
      split
      · infer_instance
      · refine brings_nameOperand?.grounds.bind (fun fallback => ?_)
        split <;> infer_instance

/-! ## Values in typed places -/

instance brings_lowerInto {id : NodeId} {target : TypeId} [Yields Γ (.inTable target)] :
    Brings c Γ (lowerInto walk id target) (fun _ => .nothing) := by
  constructor
  unfold lowerInto
  infer_instance

instance brings_lowerByDefault {id : NodeId} :
    Brings c Γ (lowerByDefault walk id) (fun r => .inTable r.2) := by
  constructor
  unfold lowerByDefault
  infer_instance

instance brings_lowerCondition {id : NodeId} :
    Brings c Γ (lowerCondition walk id) (fun _ => .nothing) := by
  constructor
  unfold lowerCondition
  infer_instance

/-! ## Operators and members -/

instance brings_lowerAddressOf {operand : NodeId} {span : Span} {expect : Expectation} :
    Brings c Γ (lowerAddressOf walk operand span expect) (fun o => .inTable o.type) := by
  constructor
  unfold lowerAddressOf
  dsimp only
  refine brings_getTypes.grounds.bind (fun types => ?_)
  have hpointee : Yields (Γ.and (.table types)) (.inTables (expect.type.bind (fun type =>
      match types.shape type with
      | .pointer target => some target
      | _ => none)).toList) := by
    refine ⟨fun hs target htarget => ?_⟩
    obtain ⟨type, -, hshape⟩ := Option.bind_eq_some_iff.mp (Option.mem_toList.mp htarget)
    split at hshape
    · rename_i pointee hget
      obtain rfl := Option.some.inj hshape
      exact (inTable_of_entry (Γ := Γ.and (.table types)) hget List.mem_cons_self).of hs
    · cases hshape
  infer_instance

instance brings_lowerReceive {operand : NodeId} {span : Span} :
    Brings c Γ (lowerReceive walk operand span) (fun o => .inTable o.type) := by
  constructor
  unfold lowerReceive
  refine (Walk.Grounds.expr Γ operand .none).grounds.bind (fun channel => .skip (fun _ => ?_))
  dsimp only
  refine brings_getTypes.grounds.bind (fun types => ?_)
  split
  · rename_i hshape
    exact .part hshape List.mem_cons_self inferInstance
  · rename_i hshape
    exact .part hshape List.mem_cons_self inferInstance
  · infer_instance

instance brings_lowerUnary {op : UnaryOp} {operand : NodeId} {span : Span}
    {expect : Expectation} :
    Brings c Γ (lowerUnary walk op operand span expect) (fun o => .inTable o.type) := by
  constructor
  unfold lowerUnary
  split <;> infer_instance

instance brings_lowerDereference {inner : NodeId} {span : Span} :
    Brings c Γ (lowerDereference walk inner span) (fun o => .inTable o.type) := by
  constructor
  unfold lowerDereference
  refine (Walk.Grounds.expr Γ inner .none).grounds.bind (fun operand => ?_)
  split
  · infer_instance
  · dsimp only
    refine .skip (fun _ => brings_getTypes.grounds.bind (fun types => ?_))
    split
    · rename_i hshape
      exact .part hshape List.mem_cons_self inferInstance
    · infer_instance
    · infer_instance

instance brings_lowerPackageMember {path name : String} {span : Span} :
    Brings c Γ (lowerPackageMember path name span) (fun o => .inTable o.type) := by
  have found {Γ : Fact} {name : String} {resolution : Resolution}
      (h : c.env.resolveMember? path name = some resolution) :
      Grounds c (Γ.and (.context c)) (resolvedOperand resolution (some path) name span)
        (fun o => .inTable o.type) := by
    have := inTables_of_context (Γ := Γ.and (.context c)) (mem_types_of_resolveMember? h)
    infer_instance
  constructor
  unfold lowerPackageMember
  refine .read ?_
  dsimp only
  split
  · exact found ‹_›
  · split
    · exact found ‹_›
    · infer_instance

/-- The signature of a method is that of a method of the unit or of the environment, or it is in an
interface of the table. -/
theorem sig_of_method? {s : State} {receiver : TypeId} {name : String} {method : Method}
    (h : s.method? c.env receiver name = some method) :
    method.sig ∈ s.namedTypes ∨ method.sig ∈ c.types ∨
      ∃ id, method.sig ∈ TypeTable.mentioned (s.types.get id) := by
  unfold State.method? at h
  dsimp only at h
  split at h
  · rename_i entry found hfind
    obtain rfl := Option.some.inj h
    refine .inl (State.Grounded.mem_namedTypes.mpr (.inr (.inr (.inl ?_))))
    exact List.mem_map.mpr ⟨_, List.mem_of_find?_eq_some hfind, rfl⟩
  · unfold Environment.method? at h
    dsimp only at h
    split at h
    · rename_i entry found hfind
      obtain rfl := Option.some.inj h
      exact .inr (.inl (List.mem_append_left _ (List.mem_append_right _
        (List.mem_map.mpr ⟨_, List.mem_of_find?_eq_some hfind, rfl⟩))))
    · split at h
      · rename_i methods hshape
        obtain ⟨m, hfind, rfl⟩ := Option.map_eq_some_iff.mp h
        refine .inr (.inr ⟨s.types.underlying (Environment.methodBase s.types receiver), ?_⟩)
        rw [show s.types.get _ = _ from hshape]
        exact List.mem_map_of_mem (List.mem_of_find?_eq_some hfind)
      · cases h

theorem inTable_of_method? {s : State} {receiver : TypeId} {name : String} {method : Method}
    [hstate : Yields Γ (.state s)] [hcontext : Yields Γ (.context c)]
    (h : s.method? c.env receiver name = some method) : Yields Γ (.inTable method.sig) := by
  refine ⟨fun hs => ?_⟩
  rcases sig_of_method? h with hnamed | hgiven | ⟨id, hmentioned⟩
  · exact .inr (Nat.lt_of_lt_of_le ((hstate.of hs).2 _ hnamed) (hstate.of hs).1.2)
  · exact .inr (hcontext.of hs _ hgiven)
  · exact (inTable_of_entry (Γ := Γ) rfl hmentioned).of hs

instance brings_lookupMethod {receiver : TypeId} {name : String} :
    Brings c Γ (lookupMethod receiver name) (fun r => .each (fun m => .inTable m.sig) r.toList) := by
  constructor
  unfold lookupMethod
  refine brings_get.grounds.bind (fun s => .read (.pure ⟨fun hs method hmethod => ?_⟩))
  exact (inTable_of_method? (Option.mem_toList.mp hmethod)).of hs

instance brings_lowerMethodExpression {object : Operand} {name : String} {span : Span}
    [Yields Γ (.inTable object.type)] :
    Brings c Γ (lowerMethodExpression object name span) (fun o => .inTable o.type) := by
  constructor
  unfold lowerMethodExpression
  refine brings_lookupMethod.grounds.bind (fun method => ?_)
  split
  · infer_instance
  · refine brings_getTypes.grounds.bind (fun types => ?_)
    split
    · infer_instance
    · rename_i sig hsig
      refine .signature hsig (brings_func.grounds.bind (fun type => .skip (fun types => ?_)))
      split <;> infer_instance

instance brings_firstMethod? {type : TypeId} {names : List String} :
    Brings c Γ (firstMethod? type names) (fun r => .each (fun m => .inTable m.sig) r.toList) := by
  constructor
  induction names generalizing Γ with
  | nil =>
    unfold firstMethod?
    infer_instance
  | cons name rest ih =>
    unfold firstMethod?
    refine brings_lookupMethod.grounds.bind (fun method => ?_)
    split
    · infer_instance
    · exact ih

instance brings_lowerProperty {object : HostId} {method : Method} {span : Span}
    {expect : Expectation} [Yields Γ (.inTable method.sig)] :
    Brings c Γ (lowerProperty object method span expect) (fun o => .inTable o.type) := by
  constructor
  unfold lowerProperty
  refine .skip (fun selector => brings_getTypes.grounds.bind (fun types => ?_))
  split
  · rename_i hsig _
    exact .signature hsig inferInstance
  · infer_instance

/-- A field is part of a struct of the table. -/
theorem inTable_of_fieldType? {types : TypeTable} {name : String} {depth : Nat}
    {type field : TypeId} [Yields Γ (.table types)]
    (h : fieldType? types name depth type = some field) : Yields Γ (.inTable field) := by
  induction depth generalizing type with
  | zero => cases h
  | succ depth ih =>
    unfold fieldType? at h
    dsimp only at h
    split at h
    · rename_i fields hbase
      split at h
      · rename_i found hfind
        obtain rfl := Option.some.inj h
        have hmentioned : found.type ∈ TypeTable.mentioned (.struct fields) :=
          List.mem_map_of_mem (List.mem_of_find?_eq_some hfind)
        split at hbase
        · exact inTable_of_entry hbase hmentioned
        · exact inTable_of_entry hbase hmentioned
      · obtain ⟨embedded, -, hembedded⟩ := List.exists_of_findSome?_eq_some h
        exact ih hembedded
    · cases h

instance brings_lowerValueMember {object : Operand} {name : String} {span : Span}
    {expect : Expectation} [Yields Γ (.inTable object.type)] :
    Brings c Γ (lowerValueMember object name span expect) (fun o => .inTable o.type) := by
  constructor
  unfold lowerValueMember
  refine brings_defaultValue.grounds.bind (fun value => ?_)
  dsimp only
  refine brings_getTypes.grounds.bind (fun types => ?_)
  split
  · infer_instance
  · split
    · exact .given (inTable_of_fieldType? ‹_›) inferInstance
    · refine brings_lookupMethod.grounds.bind (fun method => ?_)
      split
      · infer_instance
      · refine brings_firstMethod?.grounds.bind (fun method => ?_)
        split <;> infer_instance

instance brings_lowerMember {object : NodeId} {name : String} {span : Span}
    {expect : Expectation} :
    Brings c Γ (lowerMember walk object name span expect) (fun o => .inTable o.type) := by
  constructor
  unfold lowerMember
  refine (Walk.Grounds.expr Γ object .none).grounds.bind (fun object => ?_)
  split <;> infer_instance

/-! ## Access to parts of values -/

instance brings_lowerPosition {index : NodeId} :
    Brings c Γ (lowerPosition walk index) (fun _ => .nothing) := by
  constructor
  unfold lowerPosition
  infer_instance

instance inTable_containerOf {types : TypeTable} {type : TypeId} [Yields Γ (.table types)]
    [Yields Γ (.inTable type)] : Yields Γ (.inTable (containerOf types type)) := by
  unfold containerOf
  split
  · rename_i target hshape
    have : Yields Γ (.inTable target) := inTable_of_entry hshape List.mem_cons_self
    exact inTable_underlying
  · exact inTable_underlying

instance brings_lowerIndex {object index : NodeId} {span : Span} :
    Brings c Γ (lowerIndex walk object index span) (fun o => .inTable o.type) := by
  constructor
  unfold lowerIndex
  refine (Walk.Grounds.expr Γ object .none).grounds.bind (fun object => ?_)
  refine .skip (fun _ => brings_getTypes.grounds.bind (fun types => ?_))
  dsimp only
  split
  · rename_i key value hget
    refine .parts [key, value] hget (fun _ => id) ?_
    infer_instance
  · rename_i element hget
    exact .part hget List.mem_cons_self inferInstance
  · rename_i element length hget
    exact .part hget List.mem_cons_self inferInstance
  · infer_instance
  · split <;> infer_instance
  · infer_instance

instance brings_slicedType? {type : TypeId} [Yields Γ (.inTable type)] :
    Brings c Γ (slicedType? type) (fun r => .inTables r.toList) := by
  constructor
  unfold slicedType?
  refine brings_getTypes.grounds.bind (fun types => ?_)
  split
  · infer_instance
  · infer_instance
  · rename_i hshape
    exact .part hshape List.mem_cons_self inferInstance
  · split
    · rename_i hshape
      exact .part hshape List.mem_cons_self inferInstance
    · infer_instance
  · refine .pure ?_
    split <;> infer_instance
  · infer_instance

instance brings_lowerSlice {object : NodeId} {low high max : Option NodeId} {span : Span} :
    Brings c Γ (lowerSlice walk object low high max span) (fun o => .inTable o.type) := by
  constructor
  unfold lowerSlice
  refine (Walk.Grounds.expr Γ object .none).grounds.bind (fun object => .skip (fun _ => ?_))
  refine brings_slicedType?.grounds.bind (fun found => ?_)
  split <;> infer_instance

instance brings_lowerTypeAssertion {object : NodeId} {type : Option NodeId} {span : Span} :
    Brings c Γ (lowerTypeAssertion walk object type span) (fun o => .inTable o.type) := by
  constructor
  unfold lowerTypeAssertion
  split <;> infer_instance

end GoLowering.Lowering
