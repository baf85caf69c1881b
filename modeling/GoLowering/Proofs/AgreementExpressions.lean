import GoLowering.Proofs.Agreement

/-!
# Expressions and walks that agree

Walks that agree at the nodes that the syntax of a type or of an expression refers to make the same
of it. Some parts look at a node below and go on to what that refers to, so the nodes are closed.
-/

namespace GoLowering.Lowering

open Surface

variable {c : Context} {P : Standing → Prop} {A : NodeId → Prop} [Closed c A] {walk walk' : Walk}
  [walk.Agrees c P A walk']

/-! ## Types -/

instance agrees_lowerParams (variadic : Bool) (params : List Param) [h : Above A params] :
    Agrees c P (lowerParams walk variadic params) (lowerParams walk' variadic params) := by
  induction params generalizing h with
  | nil =>
    unfold lowerParams
    infer_instance
  | cons param rest ih =>
    obtain ⟨_, _⟩ := above_cons h
    unfold lowerParams
    infer_instance

instance agrees_lowerSignature (id : NodeId) [Opens c A id] :
    Agrees c P (lowerSignature walk id) (lowerSignature walk' id) := by
  unfold lowerSignature
  refine .read ?_
  split
  · rename_i htype
    obtain ⟨_, _⟩ := above_pair (above_type htype).holds
    infer_instance
  · infer_instance

instance agrees_arrayLength (id : NodeId) [Above A id] :
    Agrees c P (arrayLength walk id) (arrayLength walk' id) := by
  unfold arrayLength
  refine Agrees.before (fun operand => ?_)
  split <;> infer_instance

instance agrees_lowerField (field : FieldSpec) [Above A field] :
    Agrees c P (lowerField walk field) (lowerField walk' field) := by
  unfold lowerField
  refine Agrees.before (fun type => ?_)
  split <;> infer_instance

instance agrees_lowerInterfaceMethod (method : MethodSpec) [Above A method] :
    Agrees c P (lowerInterfaceMethod walk method) (lowerInterfaceMethod walk' method) := by
  unfold lowerInterfaceMethod
  infer_instance

instance agrees_typeOfExpression (id : NodeId) [Opens c A id] :
    Agrees c P (typeOfExpression walk id) (typeOfExpression walk' id) := by
  unfold typeOfExpression
  refine Agrees.before (fun span => ?_)
  refine .read ?_
  split
  · infer_instance
  · refine .read ?_
    split <;> infer_instance
  · rename_i inner hexpr
    have : Above A inner := ⟨(above_expr hexpr).holds⟩
    infer_instance
  · rename_i inner hexpr
    have : Above A inner := ⟨(above_expr hexpr).holds⟩
    infer_instance
  · infer_instance

instance agrees_lowerType (id : NodeId) [Opens c A id] :
    Agrees c P (lowerType walk id) (lowerType walk' id) := by
  unfold lowerType
  refine Agrees.before (fun span => ?_)
  refine .read ?_
  split
  · infer_instance
  · infer_instance
  · infer_instance
  · rename_i target htype
    have : Above A target := ⟨(above_type htype).holds⟩
    infer_instance
  · rename_i element htype
    have : Above A element := ⟨(above_type htype).holds⟩
    infer_instance
  · rename_i length element htype
    obtain ⟨hlength, _⟩ := above_pair (above_type htype).holds
    have : Above A length := above_optionMem rfl
    infer_instance
  · infer_instance
  · rename_i htype
    obtain ⟨_, _⟩ := above_pair (above_type htype).holds
    infer_instance
  · rename_i element htype
    have : Above A element := ⟨(above_type htype).holds⟩
    infer_instance
  · infer_instance
  · rename_i fields htype
    have : Above A fields := ⟨(above_type htype).holds⟩
    exact (agrees_each (fun _ _ => inferInstance)).bind (fun _ => inferInstance)
  · rename_i methods htype
    have : Above A methods := ⟨(above_type htype).holds⟩
    exact (agrees_each (fun _ _ => inferInstance)).bind (fun _ => inferInstance)

/-! ## Names -/

instance agrees_nameOperand? (name : String) (span : Span) :
    Agrees c P (nameOperand? walk name span) (nameOperand? walk' name span) := by
  unfold nameOperand?
  refine .get (fun s => ?_)
  split <;> infer_instance

instance agrees_lowerIdentifier (name : String) (span : Span) :
    Agrees c P (lowerIdentifier walk name span) (lowerIdentifier walk' name span) := by
  unfold lowerIdentifier
  split
  · infer_instance
  · refine Agrees.before (fun found => ?_)
    split
    · infer_instance
    · dsimp only
      split
      · refine Agrees.before (fun fallback => ?_)
        split <;> infer_instance
      · refine Agrees.before (fun fallback => ?_)
        split <;> infer_instance

/-! ## Values in typed places -/

instance agrees_lowerInto (id : NodeId) [Above A id] (target : TypeId) :
    Agrees c P (lowerInto walk id target) (lowerInto walk' id target) := by
  unfold lowerInto
  infer_instance

instance agrees_lowerByDefault (id : NodeId) [Above A id] :
    Agrees c P (lowerByDefault walk id) (lowerByDefault walk' id) := by
  unfold lowerByDefault
  infer_instance

instance agrees_lowerCondition (id : NodeId) [Above A id] :
    Agrees c P (lowerCondition walk id) (lowerCondition walk' id) := by
  unfold lowerCondition
  infer_instance

/-! ## Operators -/

instance agrees_lowerAddressOf (operand : NodeId) [Above A operand] (span : Span)
    (expect : Expectation) :
    Agrees c P (lowerAddressOf walk operand span expect)
      (lowerAddressOf walk' operand span expect) := by
  unfold lowerAddressOf
  refine Agrees.before (fun types => ?_)
  infer_instance

instance agrees_lowerReceive (operand : NodeId) [Above A operand] (span : Span) :
    Agrees c P (lowerReceive walk operand span) (lowerReceive walk' operand span) := by
  unfold lowerReceive
  refine Agrees.before (fun channel => ?_)
  refine Agrees.before (fun _ => ?_)
  dsimp only
  refine Agrees.before (fun types => ?_)
  split <;> infer_instance

instance agrees_lowerUnary (op : UnaryOp) (operand : NodeId) [Above A operand] (span : Span)
    (expect : Expectation) :
    Agrees c P (lowerUnary walk op operand span expect)
      (lowerUnary walk' op operand span expect) := by
  unfold lowerUnary
  split <;> infer_instance

instance agrees_lowerDereference (inner : NodeId) [Above A inner] (span : Span) :
    Agrees c P (lowerDereference walk inner span) (lowerDereference walk' inner span) := by
  unfold lowerDereference
  refine Agrees.before (fun operand => ?_)
  split
  · infer_instance
  · refine Agrees.before (fun _ => ?_)
    dsimp only
    refine Agrees.before (fun types => ?_)
    split <;> infer_instance

/-! ## Members -/

instance agrees_lowerMember (object : NodeId) [Above A object] (name : String) (span : Span)
    (expect : Expectation) :
    Agrees c P (lowerMember walk object name span expect)
      (lowerMember walk' object name span expect) := by
  unfold lowerMember
  refine Agrees.before (fun object => ?_)
  split <;> infer_instance

/-! ## Access to parts of values -/

instance agrees_lowerPosition (index : NodeId) [Above A index] :
    Agrees c P (lowerPosition walk index) (lowerPosition walk' index) := by
  unfold lowerPosition
  infer_instance

instance agrees_lowerIndex (object index : NodeId) [Above A object] [Above A index] (span : Span) :
    Agrees c P (lowerIndex walk object index span) (lowerIndex walk' object index span) := by
  unfold lowerIndex
  refine Agrees.before (fun object => ?_)
  refine Agrees.before (fun _ => ?_)
  refine Agrees.before (fun types => ?_)
  dsimp only
  split
  · infer_instance
  · infer_instance
  · infer_instance
  · infer_instance
  · split
    · exact Agrees.before (fun _ => inferInstance)
    · exact Agrees.before (fun _ => inferInstance)
  · infer_instance

instance agrees_lowerSlice (object : NodeId) (low high max : Option NodeId) [Above A object]
    [Above A low] [Above A high] [Above A max] (span : Span) :
    Agrees c P (lowerSlice walk object low high max span)
      (lowerSlice walk' object low high max span) := by
  have position (index : Option NodeId) [Above A index] :
      Agrees c P (index.mapM (lowerPosition walk)) (index.mapM (lowerPosition walk')) :=
    agrees_option (fun _ _ => inferInstance)
  unfold lowerSlice
  refine Agrees.before (fun object => ?_)
  refine Agrees.before (fun _ => ?_)
  refine Agrees.before (fun found => ?_)
  split <;> infer_instance

instance agrees_lowerTypeAssertion (object : NodeId) (type : Option NodeId) [Above A object]
    [Above A type] (span : Span) :
    Agrees c P (lowerTypeAssertion walk object type span)
      (lowerTypeAssertion walk' object type span) := by
  unfold lowerTypeAssertion
  split
  · infer_instance
  · rename_i type _
    have : Above A type := above_optionMem rfl
    exact Agrees.before (fun object => inferInstance)

/-! ## Composite literals -/

theorem above_keyed {elements : List Element} (h : Above A elements) :
    Above A (elements.filterMap (fun e => e.key.map (·, e.value))) := by
  refine above_of_forall (fun x hx => ?_)
  obtain ⟨element, helement, heq⟩ := List.mem_filterMap.mp hx
  obtain ⟨key, hkey, rfl⟩ := Option.map_eq_some_iff.mp heq
  have := above_mem helement
  have hkey : Above A key := above_optionMem hkey
  have hvalue : Above A element.value := inferInstance
  exact ⟨List.forall_mem_append.mpr ⟨hkey.holds, hvalue.holds⟩⟩

instance agrees_lowerPositionalFields (elements : List Element) [h : Above A elements]
    (fields : List Field) :
    Agrees c P (lowerPositionalFields walk elements fields)
      (lowerPositionalFields walk' elements fields) := by
  induction elements generalizing h fields with
  | nil =>
    unfold lowerPositionalFields
    infer_instance
  | cons element elements ih =>
    obtain ⟨_, _⟩ := above_cons h
    unfold lowerPositionalFields
    cases fields <;> infer_instance

instance agrees_lowerKeyedField (type : TypeId) (fields : List Field) (key value : NodeId)
    [Above A value] :
    Agrees c P (lowerKeyedField walk type fields key value)
      (lowerKeyedField walk' type fields key value) := by
  unfold lowerKeyedField
  refine Agrees.before (fun span => ?_)
  refine .read ?_
  split
  · infer_instance
  · split <;> infer_instance

instance agrees_lowerFields (type : TypeId) (fields : List Field) (elements : List Element)
    [h : Above A elements] (span : Span) :
    Agrees c P (lowerFields walk type fields elements span)
      (lowerFields walk' type fields elements span) := by
  unfold lowerFields
  dsimp only
  have keyed := above_keyed h
  generalize elements.filterMap (fun e => e.key.map (·, e.value)) = entries at keyed
  have : Agrees c P (entries.mapM (fun (key, value) => lowerKeyedField walk type fields key value))
      (entries.mapM (fun (key, value) => lowerKeyedField walk' type fields key value)) :=
    agrees_each (fun (_, _) hentry => have := (above_pair hentry.holds).2; inferInstance)
  infer_instance

instance agrees_lowerIndexedFrom (type : TypeId) (next : Nat) (elements : List Element)
    [h : Above A elements] :
    Agrees c P (lowerIndexedFrom walk type next elements)
      (lowerIndexedFrom walk' type next elements) := by
  induction elements generalizing h next with
  | nil =>
    unfold lowerIndexedFrom
    infer_instance
  | cons element rest ih =>
    obtain ⟨_, _⟩ := above_cons h
    unfold lowerIndexedFrom
    dsimp only
    split
    · infer_instance
    · rename_i key hkey
      have : Above A key := above_optionMem hkey
      refine Agrees.before (fun operand => ?_)
      split <;> infer_instance

instance agrees_lowerIndexed (type : TypeId) (elements : List Element) [Above A elements] :
    Agrees c P (lowerIndexed walk type elements) (lowerIndexed walk' type elements) := by
  unfold lowerIndexed
  infer_instance

instance agrees_lowerMapEntry (keyType valueType : TypeId) (span : Span) (element : Element)
    [Above A element] :
    Agrees c P (lowerMapEntry walk keyType valueType span element)
      (lowerMapEntry walk' keyType valueType span element) := by
  unfold lowerMapEntry
  split
  · infer_instance
  · rename_i key hkey
    have : Above A key := above_optionMem hkey
    infer_instance

instance agrees_lowerElements (type : TypeId) (elements : List Element) [Above A elements]
    (span : Span) :
    Agrees c P (lowerElements walk type elements span) (lowerElements walk' type elements span) := by
  have entries (key value : TypeId) :
      Agrees c P (elements.mapM (lowerMapEntry walk key value span))
        (elements.mapM (lowerMapEntry walk' key value span)) :=
    agrees_each (fun _ _ => inferInstance)
  unfold lowerElements
  refine Agrees.before (fun types => ?_)
  split <;> infer_instance

instance agrees_lowerElementsInto (type : TypeId) (elements : List Element) [Above A elements]
    (span : Span) :
    Agrees c P (lowerElementsInto walk type elements span)
      (lowerElementsInto walk' type elements span) := by
  unfold lowerElementsInto
  refine Agrees.before (fun types => ?_)
  split <;> infer_instance

instance agrees_lowerIndexKey (key : NodeId) [Above A key] :
    Agrees c P (lowerIndexKey walk key) (lowerIndexKey walk' key) := by
  unfold lowerIndexKey
  refine Agrees.before (fun operand => ?_)
  split <;> infer_instance

instance agrees_lowerSliceElement (element : Element) [Above A element] :
    Agrees c P (lowerSliceElement walk element) (lowerSliceElement walk' element) := by
  unfold lowerSliceElement
  exact (agrees_option (fun _ _ => inferInstance)).bind (fun _ => inferInstance)

instance agrees_inferSlice (elements : List Element) [Above A elements] (span : Span) :
    Agrees c P (inferSlice walk elements span) (inferSlice walk' elements span) := by
  unfold inferSlice
  exact (agrees_each (fun _ _ => inferInstance)).bind (fun _ => inferInstance)

instance agrees_lowerSliceLiteral (elements : List Element) [Above A elements] (span : Span)
    (expect : Expectation) :
    Agrees c P (lowerSliceLiteral walk elements span expect)
      (lowerSliceLiteral walk' elements span expect) := by
  unfold lowerSliceLiteral
  refine Agrees.before (fun types => ?_)
  dsimp only
  split
  · infer_instance
  · split <;> infer_instance

instance agrees_lowerMapElement (key value : NodeId) [Above A key] [Above A value] :
    Agrees c P (lowerMapElement walk key value) (lowerMapElement walk' key value) := by
  unfold lowerMapElement
  infer_instance

instance agrees_inferMap (elements : List (NodeId × NodeId)) [Above A elements] (span : Span) :
    Agrees c P (inferMap walk elements span) (inferMap walk' elements span) := by
  unfold inferMap
  refine (agrees_each (fun (key, value) hentry => ?_)).bind (fun _ => inferInstance)
  obtain ⟨_, _⟩ := above_pair hentry.holds
  exact agrees_lowerMapElement key value

instance agrees_lowerBareComposite (elements : List Element) [h : Above A elements] (span : Span) :
    Agrees c P (lowerBareComposite walk elements span) (lowerBareComposite walk' elements span) := by
  have := above_keyed h
  unfold lowerBareComposite
  infer_instance

instance agrees_lowerTypedComposite (type : NodeId) [Above A type] (elements : List Element)
    [Above A elements] (span : Span) :
    Agrees c P (lowerTypedComposite walk type elements span)
      (lowerTypedComposite walk' type elements span) := by
  unfold lowerTypedComposite
  refine .read ?_
  split
  · rename_i element htype
    obtain ⟨_, _⟩ := above_pair (above_type htype).holds
    infer_instance
  · infer_instance

instance agrees_lowerComposite (type : Option NodeId) [Above A type] (elements : List Element)
    [Above A elements] (span : Span) (expect : Expectation) :
    Agrees c P (lowerComposite walk type elements span expect)
      (lowerComposite walk' type elements span expect) := by
  unfold lowerComposite
  split
  · rename_i type _
    have : Above A type := above_optionMem rfl
    infer_instance
  · infer_instance
  · infer_instance

/-! ## Calls -/

instance : HasNodes Argument where
  nodes
    | .node id => nodes id
    | .signed _ operand _ => nodes operand

instance agrees_lowerArgument (argument : Argument) [h : Above A argument] (expect : Expectation) :
    Agrees c P (lowerArgument walk argument expect) (lowerArgument walk' argument expect) := by
  cases argument with
  | node id =>
    have : Above A id := ⟨h.holds⟩
    unfold lowerArgument
    infer_instance
  | signed op operand span =>
    have : Above A operand := ⟨h.holds⟩
    unfold lowerArgument
    infer_instance

instance agrees_argumentInto (argument : Argument) [Above A argument] (target : TypeId) :
    Agrees c P (argumentInto walk argument target) (argumentInto walk' argument target) := by
  unfold argumentInto
  infer_instance

instance agrees_argumentByDefault (argument : Argument) [Above A argument] :
    Agrees c P (argumentByDefault walk argument) (argumentByDefault walk' argument) := by
  unfold argumentByDefault
  infer_instance

instance agrees_lowerSpreadArgument (sig : Signature) (argument : Argument) [Above A argument]
    (span : Span) :
    Agrees c P (lowerSpreadArgument walk sig argument span)
      (lowerSpreadArgument walk' sig argument span) := by
  unfold lowerSpreadArgument
  dsimp only
  refine Agrees.before (fun types => ?_)
  refine Agrees.before (fun operand => ?_)
  refine Agrees.before (fun types => ?_)
  split
  · split
    · split
      · infer_instance
      · refine Agrees.before (fun found => ?_)
        split <;> infer_instance
    · split
      · infer_instance
      · refine Agrees.before (fun found => ?_)
        split <;> infer_instance
  · infer_instance

instance agrees_lowerArgumentsFrom (sig : Signature) (spread : Bool) (index : Nat)
    (args : List Argument) [h : Above A args] :
    Agrees c P (lowerArgumentsFrom walk sig spread index args)
      (lowerArgumentsFrom walk' sig spread index args) := by
  induction args generalizing h index with
  | nil =>
    unfold lowerArgumentsFrom
    infer_instance
  | cons argument rest ih =>
    obtain ⟨_, _⟩ := above_cons h
    unfold lowerArgumentsFrom
    infer_instance

instance agrees_lowerArgumentList (sig : Signature) (args : List Argument) [Above A args]
    (spread : Bool) (span : Span) :
    Agrees c P (lowerArgumentList walk sig args spread span)
      (lowerArgumentList walk' sig args spread span) := by
  unfold lowerArgumentList
  infer_instance

instance agrees_lowerArguments (sig : Signature) (args : List Argument) [h : Above A args]
    (spread : Bool) (span : Span) :
    Agrees c P (lowerArguments walk sig args spread span)
      (lowerArguments walk' sig args spread span) := by
  unfold lowerArguments
  dsimp only
  split
  · obtain ⟨_, _⟩ := above_cons h
    infer_instance
  · infer_instance

/-- The elements of a literal without a type stand below the argument that the literal is. -/
theorem above_bareElements {argument : Argument} [h : Above A argument] {elements : List Element}
    (helements : bareElements? c.unit argument = some elements) : Above A elements := by
  cases argument with
  | signed op operand span => cases helements
  | node id =>
    have : Above A id := ⟨h.holds⟩
    unfold bareElements? at helements
    dsimp only at helements
    split at helements
    · rename_i hexpr
      obtain rfl := Option.some.inj helements
      exact ⟨(above_expr hexpr).holds⟩
    · rename_i hexpr
      obtain rfl := Option.some.inj helements
      exact (above_pair (above_expr hexpr).holds).2
    · cases helements

instance agrees_lowerConversion (callee : Operand) (args : List Argument) [h : Above A args]
    (span : Span) :
    Agrees c P (lowerConversion walk callee args span)
      (lowerConversion walk' callee args span) := by
  unfold lowerConversion
  split
  · obtain ⟨_, _⟩ := above_cons h
    refine .read ?_
    refine Agrees.before (fun types => ?_)
    split
    · rename_i helements _
      have := above_bareElements helements
      infer_instance
    · infer_instance
  · infer_instance

instance agrees_argumentType (argument : Argument) [Above A argument] :
    Agrees c P (argumentType walk argument) (argumentType walk' argument) := by
  unfold argumentType
  infer_instance

instance agrees_arguments (args : List Argument) [Above A args] (target : TypeId) :
    Agrees c P (args.mapM (argumentInto walk · target)) (args.mapM (argumentInto walk' · target)) :=
  agrees_each (fun _ _ => inferInstance)

instance agrees_lowerAppend (first : Argument) (rest : List Argument) [Above A first]
    [Above A rest] (spread : Bool) (span : Span) (expect : Expectation) :
    Agrees c P (lowerAppend walk first rest spread span expect)
      (lowerAppend walk' first rest spread span expect) := by
  unfold lowerAppend
  refine Agrees.before (fun slice => ?_)
  refine Agrees.before (fun types => ?_)
  split <;> infer_instance

instance agrees_lowerMake (type : Argument) (sizes : List Argument) [Above A type]
    [Above A sizes] (span : Span) :
    Agrees c P (lowerMake walk type sizes span) (lowerMake walk' type sizes span) := by
  unfold lowerMake
  refine Agrees.before (fun type => ?_)
  refine Agrees.before (fun types => ?_)
  split <;> infer_instance

instance agrees_lowerBuiltinParts (function : Builtin) (args : List Argument) [h : Above A args]
    (spread : Bool) (span : Span) (expect : Expectation) :
    Agrees c P (lowerBuiltinParts walk function args spread span expect)
      (lowerBuiltinParts walk' function args spread span expect) := by
  unfold lowerBuiltinParts
  split
  · obtain ⟨_, _⟩ := above_cons h
    infer_instance
  · obtain ⟨_, _⟩ := above_cons h
    infer_instance
  · obtain ⟨_, _⟩ := above_cons h
    infer_instance
  · obtain ⟨_, _⟩ := above_cons h
    infer_instance
  · obtain ⟨_, _⟩ := above_cons h
    infer_instance
  · obtain ⟨_, hrest⟩ := above_cons h
    obtain ⟨_, _⟩ := above_cons hrest
    refine Agrees.before (fun x => ?_)
    split
    · refine Agrees.before (fun types => ?_)
      split <;> infer_instance
  · obtain ⟨_, _⟩ := above_cons h
    refine Agrees.before (fun x => ?_)
    split
    · refine Agrees.before (fun types => ?_)
      split <;> infer_instance
  · obtain ⟨_, hrest⟩ := above_cons h
    obtain ⟨_, _⟩ := above_cons hrest
    infer_instance
  · obtain ⟨_, _⟩ := above_cons h
    infer_instance
  · infer_instance
  · obtain ⟨_, hrest⟩ := above_cons h
    obtain ⟨_, _⟩ := above_cons hrest
    infer_instance
  · obtain ⟨_, _⟩ := above_cons h
    refine Agrees.before (fun x => ?_)
    split
    · refine Agrees.before (fun found => ?_)
      split <;> infer_instance
  · obtain ⟨_, _⟩ := above_cons h
    refine Agrees.before (fun x => ?_)
    split
    · refine Agrees.before (fun found => ?_)
      split <;> infer_instance
  · infer_instance

instance agrees_callOperand (callee : Operand) (args : List Argument) [Above A args]
    (spread : Bool) (span : Span) (expect : Expectation) :
    Agrees c P (callOperand walk callee args spread span expect)
      (callOperand walk' callee args spread span expect) := by
  have operands : Agrees c P (args.mapM (lowerArgument walk · .none))
      (args.mapM (lowerArgument walk' · .none)) :=
    agrees_each (fun _ _ => inferInstance)
  unfold callOperand
  split
  · infer_instance
  · infer_instance
  · refine Agrees.before (fun holds => ?_)
    split
    · infer_instance
    · refine Agrees.before (fun types => ?_)
      split <;> infer_instance
  · infer_instance
  · infer_instance
  · infer_instance

instance agrees_lowerCall (callee : NodeId) (args : List NodeId) [Above A callee]
    [h : Above A args] (spread : Bool) (span : Span) (expect : Expectation) :
    Agrees c P (lowerCall walk callee args spread span expect)
      (lowerCall walk' callee args spread span expect) := by
  have : Above A (args.map Argument.node) := by
    refine above_of_forall (fun argument hargument => ?_)
    obtain ⟨id, hid, rfl⟩ := List.mem_map.mp hargument
    exact ⟨(above_mem hid).holds⟩
  unfold lowerCall
  infer_instance

instance agrees_lowerAmbiguousCommand (head : NodeId) (op : UnaryOp) (operand : NodeId)
    [Above A head] [h : Above A operand] (span : Span) (expect : Expectation) :
    Agrees c P (lowerAmbiguousCommand walk head op operand span expect)
      (lowerAmbiguousCommand walk' head op operand span expect) := by
  have signed (span : Span) : Above A [Argument.signed op operand span] :=
    above_of_forall (fun argument hargument => by
      rw [List.mem_singleton.mp hargument]
      exact ⟨h.holds⟩)
  unfold lowerAmbiguousCommand
  refine Agrees.before (fun head => ?_)
  refine Agrees.before (fun holds => ?_)
  split
  · infer_instance
  · split <;> infer_instance

/-! ## Blocks -/

instance agrees_lowerStatement (id : NodeId) [Above A id] :
    Agrees c P (lowerStatement walk id) (lowerStatement walk' id) := by
  unfold lowerStatement
  infer_instance

instance agrees_lowerStatements (ids : List NodeId) [Above A ids] :
    Agrees c P (lowerStatements walk ids) (lowerStatements walk' ids) := by
  unfold lowerStatements
  exact (agrees_each (fun _ _ => inferInstance)).bind (fun _ => inferInstance)

/-- The statements of a block stand below it; any other node is a block of itself. -/
instance agrees_lowerBlockStatements (id : NodeId) [h : Above A id] (kind : ScopeKind) :
    Agrees c P (lowerBlockStatements walk id kind) (lowerBlockStatements walk' id kind) := by
  unfold lowerBlockStatements
  refine .read ?_
  dsimp only
  split
  · rename_i statements hstmt
    have : Above A statements := ⟨(above_stmt hstmt).holds⟩
    infer_instance
  · have : Above A [id] := above_of_forall (fun _ hid => List.mem_singleton.mp hid ▸ h)
    infer_instance

instance agrees_lowerBlock (id : NodeId) [Above A id] (kind : ScopeKind) :
    Agrees c P (lowerBlock walk id kind) (lowerBlock walk' id kind) := by
  unfold lowerBlock
  infer_instance

instance agrees_lowerBody (id : NodeId) [Above A id] :
    Agrees c P (lowerBody walk id) (lowerBody walk' id) := by
  unfold lowerBody
  infer_instance

instance agrees_expressionStatement (operand : Operand) :
    Agrees c P (expressionStatement walk operand) (expressionStatement walk' operand) := by
  have : Above A ([] : List Argument) := above_of_forall (by simp)
  unfold expressionStatement
  dsimp only
  refine Agrees.before (fun x => ?_)
  split <;> infer_instance

/-! ## Lambdas and function literals -/

instance agrees_lowerAllResults (value : NodeId) [Above A value] (results : List TypeId)
    (expect : Expectation) :
    Agrees c P (lowerAllResults walk value results expect)
      (lowerAllResults walk' value results expect) := by
  unfold lowerAllResults
  infer_instance

instance agrees_lowerEachResult (values : List NodeId) [Above A values] (results : List TypeId) :
    Agrees c P (lowerEachResult walk values results) (lowerEachResult walk' values results) := by
  unfold lowerEachResult
  refine agrees_mapM (fun (value, result) hmem => ?_)
  have := above_mem (List.of_mem_zip hmem).1
  exact agrees_lowerInto value result

instance agrees_lowerLambdaStatement (value : NodeId) [Above A value] :
    Agrees c P (lowerLambdaStatement walk value) (lowerLambdaStatement walk' value) := by
  unfold lowerLambdaStatement
  infer_instance

instance agrees_lowerLambdaValues (values : List NodeId) [h : Above A values]
    (results : List TypeId) (span : Span) :
    Agrees c P (lowerLambdaValues walk values results span)
      (lowerLambdaValues walk' values results span) := by
  unfold lowerLambdaValues
  split
  · obtain ⟨_, _⟩ := above_cons h
    infer_instance
  · infer_instance

instance agrees_lowerLambdaExpressions (values : List NodeId) [Above A values]
    (results : List TypeId) (span : Span) :
    Agrees c P (lowerLambdaExpressions walk values results span)
      (lowerLambdaExpressions walk' values results span) := by
  have statements : Agrees c P (values.mapM (lowerLambdaStatement walk))
      (values.mapM (lowerLambdaStatement walk')) :=
    agrees_each (fun _ _ => inferInstance)
  unfold lowerLambdaExpressions
  split
  · infer_instance
  · refine Agrees.before (fun ids => ?_)
    refine Agrees.before (fun hoisted => ?_)
    dsimp only
    split <;> infer_instance

instance agrees_lowerLambdaBody (body : LambdaBody) [h : Above A body] (results : List TypeId)
    (span : Span) :
    Agrees c P (lowerLambdaBody walk body results span)
      (lowerLambdaBody walk' body results span) := by
  cases body with
  | expressions values =>
    have : Above A values := ⟨h.holds⟩
    unfold lowerLambdaBody
    infer_instance
  | block body =>
    have : Above A body := ⟨h.holds⟩
    unfold lowerLambdaBody
    infer_instance

instance agrees_putLiteral (signature : HostSignature) {part part' : Lower HostId}
    [Agrees c P part part'] (span : Span) :
    Agrees c P (putLiteral signature part span) (putLiteral signature part' span) := by
  unfold putLiteral
  refine Agrees.get (fun s => Agrees.before (fun body => ?_))
  refine Agrees.before (fun id => Agrees.get (fun s => ?_))
  infer_instance

instance agrees_lowerLambda (params : List String) (body : LambdaBody) [Above A body] (span : Span)
    (expect : Expectation) :
    Agrees c P (lowerLambda walk params body span expect)
      (lowerLambda walk' params body span expect) := by
  unfold lowerLambda
  split
  · infer_instance
  · refine Agrees.before (fun types => ?_)
    split <;> infer_instance

instance agrees_lowerFunctionLiteral (signature body : NodeId) [Above A signature] [Above A body]
    (span : Span) :
    Agrees c P (lowerFunctionLiteral walk signature body span)
      (lowerFunctionLiteral walk' signature body span) := by
  unfold lowerFunctionLiteral
  infer_instance

/-! ## Comprehensions -/

instance agrees_lowerYieldValue (value : NodeId) [Above A value] (type : Option TypeId) :
    Agrees c P (lowerYieldValue walk value type) (lowerYieldValue walk' value type) := by
  unfold lowerYieldValue
  infer_instance

instance agrees_lowerYieldStatement (frame : ComprehensionFrame) [h : Above A frame.yields] :
    Agrees c P (lowerYieldStatement walk frame) (lowerYieldStatement walk' frame) := by
  obtain ⟨yields, span, expected, withOk⟩ := frame
  unfold lowerYieldStatement
  refine Agrees.before (fun types => ?_)
  dsimp only at h ⊢
  cases yields with
  | list value =>
    have : Above A value := ⟨h.holds⟩
    infer_instance
  | map key value =>
    obtain ⟨_, _⟩ := above_pair h.holds
    infer_instance
  | existence => infer_instance
  | select value =>
    have : Above A value := ⟨h.holds⟩
    infer_instance

instance agrees_lowerYield (frame : ComprehensionFrame) [Above A frame.yields] :
    Agrees c P (lowerYield walk frame) (lowerYield walk' frame) := by
  unfold lowerYield
  infer_instance

instance agrees_lowerClauseBody (clause : ForClause) [Above A clause]
    {inner inner' : Lower (List HostId × Yielded)} [Agrees c P inner inner'] :
    Agrees c P (lowerClauseBody walk clause inner) (lowerClauseBody walk' clause inner') := by
  unfold lowerClauseBody
  refine (agrees_option (fun _ _ => inferInstance)).bind (fun init => ?_)
  refine (agrees_option (fun _ _ => inferInstance)).bind (fun guard => ?_)
  refine Agrees.before (fun hoisted => ?_)
  refine Agrees.before (fun x => ?_)
  split
  · split <;> infer_instance

instance agrees_lowerClauses (frame : ComprehensionFrame) [Above A frame.yields]
    (clauses : List ForClause) [h : Above A clauses] :
    Agrees c P (lowerClauses walk frame clauses) (lowerClauses walk' frame clauses) := by
  induction clauses generalizing h with
  | nil =>
    unfold lowerClauses
    infer_instance
  | cons clause rest ih =>
    obtain ⟨_, _⟩ := above_cons h
    unfold lowerClauses
    refine Agrees.before (fun source => ?_)
    refine Agrees.before (fun x => ?_)
    infer_instance

instance agrees_lowerComprehension (yields : Yield) (clauses : List ForClause) [Above A yields]
    [Above A clauses] (span : Span) (expect : Expectation) :
    Agrees c P (lowerComprehension walk yields clauses span expect)
      (lowerComprehension walk' yields clauses span expect) := by
  unfold lowerComprehension
  infer_instance

/-! ## Error wraps -/

instance agrees_lowerWrappedCall (inner : NodeId) [Above A inner] :
    Agrees c P (lowerWrappedCall walk inner) (lowerWrappedCall walk' inner) := by
  unfold lowerWrappedCall
  refine .read ?_
  split
  · infer_instance
  · refine Agrees.before (fun operand => ?_)
    refine Agrees.before (fun types => ?_)
    split <;> infer_instance

instance agrees_wrapFallback (call : HostId) (values : List TypeId) (default : Option NodeId)
    [Above A default] (span : Span) :
    Agrees c P (wrapFallback walk call values default span)
      (wrapFallback walk' call values default span) := by
  cases default with
  | none =>
    unfold wrapFallback
    split <;> infer_instance
  | some default =>
    have : Above A default := above_optionMem rfl
    unfold wrapFallback
    split <;> infer_instance

instance agrees_lowerErrorWrap (inner : NodeId) (policy : WrapPolicy) [Above A inner]
    [h : Above A policy] (span : Span) :
    Agrees c P (lowerErrorWrap walk inner policy span)
      (lowerErrorWrap walk' inner policy span) := by
  unfold lowerErrorWrap
  refine Agrees.before (fun call => ?_)
  refine Agrees.before (fun text => ?_)
  refine Agrees.before (fun types => ?_)
  cases resultsBeforeError? (types.resultsOf call.type) with
  | none => infer_instance
  | some values =>
    cases policy with
    | fallback default =>
      have : Above A default := ⟨h.holds⟩
      exact agrees_wrapFallback call.id values default span
    | raise => exact agrees_self
    | propagate => exact agrees_self

/-! ## Expressions -/

instance agrees_lowerGrouping (inner : NodeId) [Above A inner] (span : Span)
    (expect : Expectation) :
    Agrees c P (lowerGrouping walk inner span expect)
      (lowerGrouping walk' inner span expect) := by
  unfold lowerGrouping
  infer_instance

instance agrees_lowerExprKind (expression : Expr) [h : Above A expression] (span : Span)
    (expect : Expectation) :
    Agrees c P (lowerExprKind walk expression span expect)
      (lowerExprKind walk' expression span expect) := by
  unfold lowerExprKind
  cases expression with
  | identifier name => infer_instance
  | literal kind text => infer_instance
  | composite type elements =>
    obtain ⟨_, _⟩ := above_pair h.holds
    infer_instance
  | sliceLiteral elements =>
    have : Above A elements := ⟨h.holds⟩
    infer_instance
  | grouping inner =>
    have : Above A inner := ⟨h.holds⟩
    infer_instance
  | member object name =>
    have : Above A object := ⟨h.holds⟩
    infer_instance
  | index object index =>
    obtain ⟨_, _⟩ := above_pair h.holds
    infer_instance
  | slice object low high max =>
    obtain ⟨_, hrest⟩ := above_pair h.holds
    obtain ⟨_, hrest⟩ := above_pair hrest.holds
    obtain ⟨_, _⟩ := above_pair hrest.holds
    infer_instance
  | typeAssertion object type =>
    obtain ⟨_, _⟩ := above_pair h.holds
    infer_instance
  | call callee args spread =>
    obtain ⟨_, _⟩ := above_pair h.holds
    infer_instance
  | command head args =>
    obtain ⟨_, _⟩ := above_pair h.holds
    infer_instance
  | ambiguousCommand head op operand =>
    obtain ⟨_, _⟩ := above_pair h.holds
    infer_instance
  | dereference inner =>
    have : Above A inner := ⟨h.holds⟩
    infer_instance
  | unary op operand =>
    have : Above A operand := ⟨h.holds⟩
    infer_instance
  | binary op left right =>
    obtain ⟨_, _⟩ := above_pair h.holds
    infer_instance
  | functionLiteral signature body =>
    obtain ⟨_, _⟩ := above_pair h.holds
    infer_instance
  | lambda params body =>
    have : Above A body := ⟨h.holds⟩
    infer_instance
  | comprehension yields clauses =>
    obtain ⟨_, _⟩ := above_pair h.holds
    infer_instance
  | errorWrap inner policy =>
    obtain ⟨_, _⟩ := above_pair h.holds
    infer_instance

/-- A node that is no expression stands for a type. -/
theorem agrees_lowerExpr (id : NodeId) [Opens c A id]
    (type : Agrees c P (walk.type id) (walk'.type id)) (expect : Expectation) :
    Agrees c P (lowerExpr walk id expect) (lowerExpr walk' id expect) := by
  unfold lowerExpr
  refine Agrees.before (fun span => ?_)
  refine .read ?_
  split
  · rename_i expression hexpr
    have := above_expr hexpr
    infer_instance
  · infer_instance

end GoLowering.Lowering
