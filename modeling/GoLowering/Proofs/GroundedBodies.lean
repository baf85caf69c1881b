import GoLowering.Proofs.FormedBodies
import GoLowering.Proofs.GroundedExpressions

/-!
# Calls and bodies within the table

Elements and arguments are lowered for types that are parts of entries of the table. The names of
parameters, iterations and comprehensions are bound to such types too.
-/

namespace GoLowering.Lowering

open Surface

set_option synthInstance.maxSize 1000

variable {c : Context} {Γ : Fact} {walk : Walk} [walk.Grounds c] {α : Type} {span : Span}

/-! ## Elements of known types -/

instance brings_compositeOperand {type : TypeId} {elements : List HostElement}
    [Yields Γ (.inTable type)] :
    Brings c Γ (compositeOperand type elements span) (fun o => .inTable o.type) := by
  constructor
  unfold compositeOperand
  infer_instance

instance brings_lowerPositionalFields {elements : List Element} {fields : List Field}
    [h : Yields Γ (.each (fun f => .inTable f.type) fields)] :
    Brings c Γ (lowerPositionalFields walk elements fields) (fun _ => .nothing) := by
  constructor
  induction elements generalizing Γ fields with
  | nil =>
    unfold lowerPositionalFields
    infer_instance
  | cons element elements ih =>
    unfold lowerPositionalFields
    cases fields with
    | nil => infer_instance
    | cons field fields =>
      have hfield : Yields Γ (.inTable field.type) := ⟨fun hs => h.of hs field List.mem_cons_self⟩
      have hfields : Yields Γ (.each (fun f => .inTable f.type) fields) :=
        ⟨fun hs f hf => h.of hs f (List.mem_cons_of_mem field hf)⟩
      have {Γ : Fact} [Yields Γ (.each (fun f => .inTable f.type) fields)] :
          Brings c Γ (lowerPositionalFields walk elements fields) (fun _ => .nothing) := ⟨ih⟩
      infer_instance

instance brings_lowerKeyedField {type : TypeId} {fields : List Field} {key value : NodeId}
    [h : Yields Γ (.each (fun f => .inTable f.type) fields)] :
    Brings c Γ (lowerKeyedField walk type fields key value) (fun _ => .nothing) := by
  constructor
  unfold lowerKeyedField
  refine .skip (fun span => .skip (fun _ => ?_))
  split
  · infer_instance
  · split
    · infer_instance
    · rename_i field hfind
      have : Yields Γ (.inTable field.type) :=
        ⟨fun hs => h.of hs field (List.mem_of_find?_eq_some hfind)⟩
      infer_instance

instance brings_lowerFields {type : TypeId} {fields : List Field} {elements : List Element}
    [Yields Γ (.each (fun f => .inTable f.type) fields)] :
    Brings c Γ (lowerFields walk type fields elements span) (fun _ => .nothing) := by
  constructor
  unfold lowerFields
  dsimp only
  infer_instance

instance brings_lowerIndexedFrom {type : TypeId} {next : Nat} {elements : List Element}
    [h : Yields Γ (.inTable type)] :
    Brings c Γ (lowerIndexedFrom walk type next elements) (fun _ => .nothing) := by
  constructor
  induction elements generalizing Γ next with
  | nil =>
    unfold lowerIndexedFrom
    infer_instance
  | cons element rest ih =>
    have {Γ : Fact} {next : Nat} [Yields Γ (.inTable type)] :
        Brings c Γ (lowerIndexedFrom walk type next rest) (fun _ => .nothing) := ⟨ih⟩
    unfold lowerIndexedFrom
    dsimp only
    split
    · infer_instance
    · rename_i key hkey
      refine (Walk.Grounds.expr Γ key .none).grounds.bind (fun operand => ?_)
      split <;> infer_instance

instance brings_lowerIndexed {type : TypeId} {elements : List Element} [Yields Γ (.inTable type)] :
    Brings c Γ (lowerIndexed walk type elements) (fun _ => .nothing) := by
  constructor
  unfold lowerIndexed
  infer_instance

instance brings_lowerMapEntry {keyType valueType : TypeId} {element : Element}
    [Yields Γ (.inTable keyType)] [Yields Γ (.inTable valueType)] :
    Brings c Γ (lowerMapEntry walk keyType valueType span element) (fun _ => .nothing) := by
  constructor
  unfold lowerMapEntry
  split <;> infer_instance

/-- The types of the fields of a struct of the table are in the table. -/
theorem Grounds.fields {types : TypeTable} {id : TypeId} {fields : List Field} {m : Lower α}
    {P : α → Fact} [Yields Γ (.table types)] (hentry : types.get id = .struct fields)
    (hm : Grounds c (Γ.and (.each (fun f => .inTable f.type) fields)) m P) : Grounds c Γ m P :=
  .given ⟨fun hs _ hf => (inTable_of_entry (Γ := Γ) hentry (List.mem_map_of_mem hf)).of hs⟩ hm

instance brings_lowerElements {type : TypeId} {elements : List Element}
    [Yields Γ (.inTable type)] :
    Brings c Γ (lowerElements walk type elements span) (fun o => .inTable o.type) := by
  constructor
  unfold lowerElements
  refine brings_getTypes.grounds.bind (fun types => ?_)
  split
  · rename_i hshape
    exact .fields hshape inferInstance
  · rename_i hshape
    exact .part hshape List.mem_cons_self inferInstance
  · rename_i hshape
    exact .part hshape List.mem_cons_self inferInstance
  · rename_i key value hshape
    refine .parts [key, value] hshape (fun _ => id) ?_
    infer_instance
  · infer_instance
  · infer_instance

instance brings_lowerElementsInto {type : TypeId} {elements : List Element}
    [Yields Γ (.inTable type)] :
    Brings c Γ (lowerElementsInto walk type elements span) (fun o => .inTable o.type) := by
  constructor
  unfold lowerElementsInto
  refine brings_getTypes.grounds.bind (fun types => ?_)
  split
  · rename_i hshape
    exact .part hshape List.mem_cons_self inferInstance
  · infer_instance

/-! ## Literals without a type -/

instance brings_lowerIndexKey {key : NodeId} :
    Brings c Γ (lowerIndexKey walk key) (fun _ => .nothing) := by
  constructor
  unfold lowerIndexKey
  refine (Walk.Grounds.expr Γ key .none).grounds.bind (fun operand => ?_)
  split <;> infer_instance

instance brings_lowerSliceElement {element : Element} :
    Brings c Γ (lowerSliceElement walk element) (fun r => .inTable r.2.type) := by
  constructor
  unfold lowerSliceElement
  infer_instance

instance brings_inferSlice {elements : List Element} :
    Brings c Γ (inferSlice walk elements span) (fun o => .inTable o.type) := by
  constructor
  unfold inferSlice
  refine brings_mapM.grounds.bind (fun elements => ?_)
  refine brings_commonType.grounds.bind (fun element => brings_slice.grounds.bind (fun type => ?_))
  refine Grounds.bind (.mapM (P := fun _ => .nothing) (fun e => .inTable e.2.type)
    (fun e _ Δ => ?_)) (fun elements => ?_)
  · dsimp only
    infer_instance
  · infer_instance

instance brings_lowerSliceLiteral {elements : List Element} {expect : Expectation}
    [h : Yields Γ (.inTables expect.type.toList)] :
    Brings c Γ (lowerSliceLiteral walk elements span expect) (fun o => .inTable o.type) := by
  constructor
  unfold lowerSliceLiteral
  refine brings_getTypes.grounds.bind (fun types => ?_)
  dsimp only
  split
  · infer_instance
  · rename_i type htype
    have : Yields Γ (.inTable type) := ⟨fun hs => h.of hs type (by rw [htype]; exact List.mem_cons_self)⟩
    split <;> infer_instance

instance brings_lowerMapElement {key value : NodeId} :
    Brings c Γ (lowerMapElement walk key value)
      (fun r => (Fact.inTable r.1.type).and (.inTable r.2.type)) := by
  constructor
  unfold lowerMapElement
  infer_instance

instance brings_inferMap {elements : List (NodeId × NodeId)} :
    Brings c Γ (inferMap walk elements span) (fun o => .inTable o.type) := by
  constructor
  unfold inferMap
  refine Grounds.bind (P := .each (fun r => (Fact.inTable r.1.type).and (.inTable r.2.type)))
    inferInstance (fun elements => ?_)
  have hkeys : Yields (Γ.and (.each (fun r => (Fact.inTable r.1.type).and (.inTable r.2.type))
      elements)) (.each (fun r => .inTable r.1.type) elements) :=
    ⟨fun hs r hr => (hs.2 r hr).1⟩
  have hvalues : Yields (Γ.and (.each (fun r => (Fact.inTable r.1.type).and (.inTable r.2.type))
      elements)) (.each (fun r => .inTable r.2.type) elements) :=
    ⟨fun hs r hr => (hs.2 r hr).2⟩
  refine brings_commonType.grounds.bind (fun keyType => ?_)
  refine brings_commonType.grounds.bind (fun valueType => brings_map.grounds.bind (fun type => ?_))
  refine Grounds.bind (.mapM (P := fun _ => .nothing)
    (fun e => (Fact.inTable e.1.type).and (.inTable e.2.type)) (fun e _ Δ => ?_))
    (fun elements => ?_)
  · dsimp only
    infer_instance
  · infer_instance

instance brings_lowerBareComposite {elements : List Element} :
    Brings c Γ (lowerBareComposite walk elements span) (fun o => .inTable o.type) := by
  constructor
  unfold lowerBareComposite
  dsimp only
  infer_instance

instance brings_lowerTypedComposite {type : NodeId} {elements : List Element} :
    Brings c Γ (lowerTypedComposite walk type elements span) (fun o => .inTable o.type) := by
  constructor
  unfold lowerTypedComposite
  refine .read ?_
  split <;> infer_instance

instance brings_lowerComposite {type : Option NodeId} {elements : List Element}
    {expect : Expectation} [h : Yields Γ (.inTables expect.type.toList)] :
    Brings c Γ (lowerComposite walk type elements span expect) (fun o => .inTable o.type) := by
  constructor
  unfold lowerComposite
  split
  · infer_instance
  · infer_instance
  · rename_i expected hexpected
    have : Yields Γ (.inTable expected) :=
      ⟨fun hs => h.of hs expected (by rw [hexpected]; exact List.mem_cons_self)⟩
    infer_instance

/-! ## Arguments -/

instance brings_lowerArgument {argument : Argument} {expect : Expectation}
    [Yields Γ (.inTables expect.type.toList)] :
    Brings c Γ (lowerArgument walk argument expect) (fun o => .inTable o.type) := by
  constructor
  unfold lowerArgument
  split <;> infer_instance

instance brings_argumentInto {argument : Argument} {target : TypeId} [Yields Γ (.inTable target)] :
    Brings c Γ (argumentInto walk argument target) (fun _ => .nothing) := by
  constructor
  unfold argumentInto
  infer_instance

instance brings_argumentByDefault {argument : Argument} :
    Brings c Γ (argumentByDefault walk argument) (fun r => .inTable r.2) := by
  constructor
  unfold argumentByDefault
  infer_instance

instance typeless_failArgumentCount (expected got : Nat) (span : Span) :
    Typeless (failArgumentCount expected got span : Lower α) := by
  unfold failArgumentCount
  infer_instance

/-- The types of arguments are those of parameters, or of the elements of the last one. -/
instance inTable_parameterType {types : TypeTable} {sig : Signature} {index : Nat} {spread : Bool}
    [Yields Γ (.table types)] [h : Yields Γ (.signature sig)] :
    Yields Γ (.inTable (parameterType types sig index spread)) := by
  have of_param {found : Option TypeId} (hfound : ∀ type ∈ found, type ∈ sig.params) :
      Yields Γ (.inTable (found.getD TypeTable.invalid)) := by
    cases found with
    | none => exact inTable_invalid
    | some type => exact ⟨fun hs => (h.of hs).1 type (hfound type rfl)⟩
  have hlast : Yields Γ (.inTable (sig.params.getLast?.getD TypeTable.invalid)) :=
    of_param (fun type htype => List.mem_of_getLast? htype)
  unfold parameterType
  dsimp only
  split
  · split
    · rename_i element hget
      have : Yields Γ (.inTable element) := inTable_of_entry hget List.mem_cons_self
      exact inTable_ite
    · exact hlast
  · exact of_param (fun type htype => List.mem_of_getElem? htype)

instance typeless_spreadMismatch? (sig : Signature) (index : Nat) (results : List TypeId) :
    Typeless (spreadMismatch? sig index results) := by
  induction results generalizing index with
  | nil =>
    unfold spreadMismatch?
    infer_instance
  | cons result rest ih =>
    unfold spreadMismatch?
    dsimp only
    infer_instance

instance brings_lowerSpreadArgument {sig : Signature} {argument : Argument}
    [Yields Γ (.signature sig)] :
    Brings c Γ (lowerSpreadArgument walk sig argument span) (fun _ => .nothing) := by
  constructor
  unfold lowerSpreadArgument
  refine brings_getTypes.grounds.bind (fun types => ?_)
  dsimp only
  refine brings_lowerArgument.grounds.bind (fun operand => .skip (fun types => ?_))
  split
  · split
    all_goals
      split
      · infer_instance
      · refine .skip (fun mismatch => ?_)
        split <;> infer_instance
  · infer_instance

instance brings_lowerArgumentsFrom {sig : Signature} {spread : Bool} {index : Nat}
    {args : List Argument} [h : Yields Γ (.signature sig)] :
    Brings c Γ (lowerArgumentsFrom walk sig spread index args) (fun _ => .nothing) := by
  constructor
  induction args generalizing Γ index with
  | nil =>
    unfold lowerArgumentsFrom
    infer_instance
  | cons argument rest ih =>
    have {Γ : Fact} {index : Nat} [Yields Γ (.signature sig)] :
        Brings c Γ (lowerArgumentsFrom walk sig spread index rest) (fun _ => .nothing) := ⟨ih⟩
    unfold lowerArgumentsFrom
    dsimp only
    infer_instance

instance brings_lowerArgumentList {sig : Signature} {args : List Argument} {spread : Bool}
    [Yields Γ (.signature sig)] :
    Brings c Γ (lowerArgumentList walk sig args spread span) (fun _ => .nothing) := by
  constructor
  unfold lowerArgumentList
  dsimp only
  infer_instance

instance brings_lowerArguments {sig : Signature} {args : List Argument} {spread : Bool}
    [Yields Γ (.signature sig)] :
    Brings c Γ (lowerArguments walk sig args spread span) (fun _ => .nothing) := by
  constructor
  unfold lowerArguments
  dsimp only
  split <;> infer_instance

/-! ## Conversions -/

instance typeless_convertedConstant (operand : Operand) (target : TypeId) :
    Typeless (convertedConstant operand target) := by
  unfold convertedConstant
  refine .before (fun kind => ?_)
  split <;> infer_instance

instance brings_convertOperand {callee : HostId} {target : TypeId} {operand : Operand}
    [Yields Γ (.inTable target)] [Yields Γ (.inTable operand.type)] :
    Brings c Γ (convertOperand callee target operand span) (fun o => .inTable o.type) := by
  constructor
  unfold convertOperand
  refine .skip (fun _ => .skip (fun types => ?_))
  dsimp only
  infer_instance

instance brings_lowerConversion {callee : Operand} {args : List Argument}
    [Yields Γ (.inTable callee.type)] :
    Brings c Γ (lowerConversion walk callee args span) (fun o => .inTable o.type) := by
  constructor
  unfold lowerConversion
  split
  · refine .read (.skip (fun types => ?_))
    split <;> infer_instance
  · infer_instance

/-! ## Built-in functions -/

instance brings_argumentType {argument : Argument} :
    Brings c Γ (argumentType walk argument) .inTable := by
  constructor
  unfold argumentType
  infer_instance

instance brings_lowerAppend {first : Argument} {rest : List Argument} {spread : Bool}
    {expect : Expectation} [Yields Γ (.inTables expect.type.toList)] :
    Brings c Γ (lowerAppend walk first rest spread span expect) (fun r => .inTables r.2) := by
  constructor
  unfold lowerAppend
  refine brings_lowerArgument.grounds.bind (fun slice => ?_)
  refine brings_getTypes.grounds.bind (fun types => ?_)
  split
  · rename_i element hshape
    dsimp only
    exact .part hshape List.mem_cons_self inferInstance
  · infer_instance

instance brings_lowerMake {type : Argument} {sizes : List Argument} :
    Brings c Γ (lowerMake walk type sizes span) (fun r => .inTables r.2) := by
  constructor
  unfold lowerMake
  refine brings_argumentType.grounds.bind (fun type => .skip (fun types => ?_))
  split <;> infer_instance

instance brings_lowerBuiltinParts {function : Builtin} {args : List Argument} {spread : Bool}
    {expect : Expectation} [Yields Γ (.inTables expect.type.toList)] :
    Brings c Γ (lowerBuiltinParts walk function args spread span expect)
      (fun r => .inTables r.2) := by
  constructor
  unfold lowerBuiltinParts
  split
  -- What the others look at is the type of an argument.
  case h_6 =>
    refine brings_argumentByDefault.grounds.bind (fun map => ?_)
    refine brings_getTypes.grounds.bind (fun types => ?_)
    split
    · rename_i hshape
      exact .part hshape List.mem_cons_self inferInstance
    · infer_instance
  case h_7 | h_12 | h_13 =>
    refine brings_argumentByDefault.grounds.bind (fun argument => .skip (fun found => ?_))
    split <;> infer_instance
  all_goals infer_instance

/-! ## Calls -/

instance brings_callOperand {callee : Operand} {args : List Argument} {spread : Bool}
    {expect : Expectation} [Yields Γ (.inTable callee.type)]
    [Yields Γ (.inTables expect.type.toList)] :
    Brings c Γ (callOperand walk callee args spread span expect) (fun o => .inTable o.type) := by
  constructor
  unfold callOperand
  split
  · infer_instance
  · infer_instance
  · refine .skip (fun invalid => ?_)
    split
    · infer_instance
    · refine brings_getTypes.grounds.bind (fun types => ?_)
      split
      · rename_i hsig
        exact .signature hsig inferInstance
      · infer_instance
  · infer_instance
  · infer_instance
  · infer_instance

instance brings_lowerCall {callee : NodeId} {args : List NodeId} {spread : Bool}
    {expect : Expectation} [Yields Γ (.inTables expect.type.toList)] :
    Brings c Γ (lowerCall walk callee args spread span expect) (fun o => .inTable o.type) := by
  constructor
  unfold lowerCall
  infer_instance

instance typeless_isCallable (operand : Operand) : Typeless (isCallable operand) := by
  unfold isCallable
  split <;> infer_instance

instance brings_lowerAmbiguousCommand {head : NodeId} {op : UnaryOp} {operand : NodeId}
    {expect : Expectation} [Yields Γ (.inTables expect.type.toList)] :
    Brings c Γ (lowerAmbiguousCommand walk head op operand span expect)
      (fun o => .inTable o.type) := by
  constructor
  unfold lowerAmbiguousCommand
  refine (Walk.Grounds.expr Γ head .called).grounds.bind (fun head => .skip (fun callable => ?_))
  split
  · infer_instance
  · split <;> infer_instance

variable {call : HostId} {values : List TypeId} {text : String}

/-! ## Error wraps -/

instance brings_lowerWrappedCall {inner : NodeId} :
    Brings c Γ (lowerWrappedCall walk inner) (fun o => .inTable o.type) := by
  constructor
  unfold lowerWrappedCall
  refine .read ?_
  split
  · infer_instance
  · refine (Walk.Grounds.expr _ inner .called).grounds.bind (fun operand => ?_)
    refine brings_getTypes.grounds.bind (fun types => ?_)
    split
    · rename_i hsig
      exact .signature hsig inferInstance
    · infer_instance

instance typeless_declareError (span : Span) : Typeless (declareError span) := typeless_place _ _

instance typeless_assignResults (targets : List String) (call : HostId) (span : Span) :
    Typeless (assignResults targets call span) := by
  unfold assignResults
  infer_instance

instance typeless_addFrame (text : String) (span : Span) : Typeless (addFrame text span) := by
  unfold addFrame
  dsimp only
  infer_instance

instance typeless_onError (handler : List HostId) (span : Span) : Typeless (onError handler span) := by
  unfold onError
  infer_instance

instance inTables_namedResults [h : Yields Γ (.inTables values)] :
    Yields Γ (.each (fun p => .inTable p.type) (namedResults values)) := by
  refine ⟨fun hs param hparam => ?_⟩
  obtain ⟨i, hi, rfl⟩ := List.mem_mapIdx.mp hparam
  exact h.of hs _ (List.getElem_mem hi)

instance brings_wrapRaise [Yields Γ (.inTables values)] :
    Brings c Γ (wrapRaise call values text span) (fun o => .inTable o.type) := by
  constructor
  unfold wrapRaise
  dsimp only
  infer_instance

instance brings_wrapFallback {default : Option NodeId} [h : Yields Γ (.inTables values)] :
    Brings c Γ (wrapFallback walk call values default span) (fun o => .inTable o.type) := by
  constructor
  unfold wrapFallback
  dsimp only
  split
  · rename_i value
    have : Yields Γ (.inTable value) := ⟨fun hs => h.of hs value List.mem_cons_self⟩
    split <;> infer_instance
  · infer_instance

instance typeless_hoistTemporary (type : TypeId) (span : Span) (name : String) :
    Typeless (hoistTemporary type span name) := by
  unfold hoistTemporary
  infer_instance

instance typeless_propagateBlock (call : HostId) (targets : List String) (label text : String)
    (results : List TypeId) (span : Span) :
    Typeless (propagateBlock call targets label text results span) := by
  unfold propagateBlock
  infer_instance

instance typeless_errorResults? : Typeless errorResults? := by
  unfold errorResults?
  refine .before (fun s => ?_)
  split <;> infer_instance

instance brings_wrapPropagate [h : Yields Γ (.inTables values)] :
    Brings c Γ (wrapPropagate call values text span) (fun o => .inTable o.type) := by
  constructor
  unfold wrapPropagate
  refine .skip (fun found => ?_)
  split
  · infer_instance
  · infer_instance
  · rename_i results value
    have : Yields Γ (.inTable value) := ⟨fun hs => h.of hs value List.mem_cons_self⟩
    infer_instance
  · infer_instance

theorem inTables_resultsBeforeError {results : List TypeId} [h : Yields Γ (.inTables results)]
    (hvalues : resultsBeforeError? results = some values) : Yields Γ (.inTables values) := by
  unfold resultsBeforeError? at hvalues
  split at hvalues
  · obtain rfl := Option.some.inj hvalues
    exact ⟨fun hs id hid => h.of hs id (List.dropLast_subset results hid)⟩
  · cases hvalues

instance brings_lowerErrorWrap {inner : NodeId} {policy : WrapPolicy} :
    Brings c Γ (lowerErrorWrap walk inner policy span) (fun o => .inTable o.type) := by
  constructor
  unfold lowerErrorWrap
  refine brings_lowerWrappedCall.grounds.bind (fun call => .skip (fun text => ?_))
  refine brings_getTypes.grounds.bind (fun types => ?_)
  split
  · infer_instance
  · exact .given (inTables_resultsBeforeError ‹_›) inferInstance
  · exact .given (inTables_resultsBeforeError ‹_›) inferInstance
  · exact .given (inTables_resultsBeforeError ‹_›) inferInstance

/-! ## Blocks -/

instance brings_lowerStatement {id : NodeId} :
    Brings c Γ (lowerStatement walk id) (fun _ => .nothing) := by
  constructor
  unfold lowerStatement
  infer_instance

instance brings_lowerStatements {ids : List NodeId} :
    Brings c Γ (lowerStatements walk ids) (fun _ => .nothing) := by
  constructor
  unfold lowerStatements
  infer_instance

instance brings_lowerBlockStatements {id : NodeId} {kind : ScopeKind} :
    Brings c Γ (lowerBlockStatements walk id kind) (fun _ => .nothing) := by
  constructor
  unfold lowerBlockStatements
  refine .read ?_
  dsimp only
  split <;> infer_instance

instance brings_lowerBlock {id : NodeId} {kind : ScopeKind} :
    Brings c Γ (lowerBlock walk id kind) (fun _ => .nothing) := by
  constructor
  unfold lowerBlock
  infer_instance

instance brings_lowerBody {id : NodeId} : Brings c Γ (lowerBody walk id) (fun _ => .nothing) :=
  brings_lowerBlock

instance brings_bindParams {params : List HostParam}
    [Yields Γ (.each (fun p => .inTable p.type) params)] :
    Brings c Γ (bindParams params) (fun _ => .nothing) := by
  constructor
  unfold bindParams
  refine .forM (fun p => .inTable p.type) (fun param _ Δ => ?_)
  split <;> infer_instance

instance brings_expressionStatement {operand : Operand} [Yields Γ (.inTable operand.type)] :
    Brings c Γ (expressionStatement walk operand) (fun _ => .nothing) := by
  constructor
  unfold expressionStatement
  dsimp only
  refine .skip (fun kind => ?_)
  split <;> infer_instance

/-! ## Lambdas and function literals -/

instance typeless_resultsFit (got results : List TypeId) : Typeless (resultsFit got results) := by
  unfold resultsFit
  split <;> infer_instance

instance typeless_failResultCount (expected got : Nat) (span : Span) :
    Typeless (failResultCount expected got span : Lower α) := by
  unfold failResultCount
  infer_instance

section

variable {results : List TypeId}

instance brings_lowerAllResults {value : NodeId} {expect : Expectation}
    [Yields Γ (.inTables expect.type.toList)] :
    Brings c Γ (lowerAllResults walk value results expect) (fun _ => .nothing) := by
  constructor
  unfold lowerAllResults
  infer_instance

instance brings_lowerEachResult {nodes : List NodeId} [h : Yields Γ (.inTables results)] :
    Brings c Γ (lowerEachResult walk nodes results) (fun _ => .nothing) := by
  constructor
  unfold lowerEachResult
  have : Yields Γ (.each (fun e => .inTable e.2) (nodes.zip results)) :=
    ⟨fun hs e he => h.of hs e.2 (List.of_mem_zip he).2⟩
  refine (Grounds.mapM (P := fun _ => .nothing) (fun e => .inTable e.2) (fun e _ Δ => ?_)).weaken
    (fun _ => inferInstance)
  dsimp only
  infer_instance

instance brings_lowerLambdaStatement {value : NodeId} :
    Brings c Γ (lowerLambdaStatement walk value) (fun _ => .nothing) := by
  constructor
  unfold lowerLambdaStatement
  infer_instance

instance brings_lowerLambdaValues {nodes : List NodeId} [Yields Γ (.inTables results)] :
    Brings c Γ (lowerLambdaValues walk nodes results span) (fun _ => .nothing) := by
  constructor
  unfold lowerLambdaValues
  split <;> infer_instance

instance brings_lowerLambdaExpressions {nodes : List NodeId} [Yields Γ (.inTables results)] :
    Brings c Γ (lowerLambdaExpressions walk nodes results span) (fun _ => .nothing) := by
  constructor
  unfold lowerLambdaExpressions
  split
  · infer_instance
  · refine brings_lowerLambdaValues.grounds.bind (fun ids => .skip (fun hoisted => ?_))
    split <;> infer_instance

instance brings_lowerLambdaBody {body : LambdaBody} [Yields Γ (.inTables results)] :
    Brings c Γ (lowerLambdaBody walk body results span) (fun _ => .nothing) := by
  constructor
  unfold lowerLambdaBody
  split <;> infer_instance

end

theorem Grounds.putLiteral {signature : HostSignature} {part : Lower HostId}
    [Yields Γ (.each (fun p => .inTable p.type) signature.results)]
    (hpart : Grounds c Γ part (fun _ => .nothing)) :
    Grounds c Γ (putLiteral signature part span) (fun _ => .nothing) := by
  unfold Lowering.putLiteral
  refine .skip (fun s => ?_)
  dsimp only
  refine hpart.inFunction.bind (fun body => ?_)
  infer_instance

instance brings_lowerLambda {params : List String} {body : LambdaBody} {expect : Expectation}
    [h : Yields Γ (.inTables expect.type.toList)] :
    Brings c Γ (lowerLambda walk params body span expect) (fun o => .inTable o.type) := by
  constructor
  unfold lowerLambda
  split
  · infer_instance
  · rename_i type htype
    refine .given (φ := .inTable type) ⟨fun hs => h.of hs type (htype ▸ List.mem_cons_self)⟩ ?_
    refine brings_getTypes.grounds.bind (fun types => ?_)
    split
    · infer_instance
    · rename_i sig hsig
      split
      · infer_instance
      · dsimp only
        refine .signature hsig ?_
        -- The parameters have the types of the signature, one each.
        refine .given (φ := .each (fun p : HostParam => .inTable p.type)
          ((params.zip sig.params).map (fun (name, type) => ⟨some name, type⟩)))
          ⟨fun hs p hp => ?_⟩ ?_
        · obtain ⟨⟨name, type⟩, hpair, rfl⟩ := List.mem_map.mp hp
          exact hs.2.1 type (List.of_mem_zip hpair).2
        · exact (Grounds.putLiteral inferInstance).bind (fun id => inferInstance)

instance brings_lowerFunctionLiteral {signature body : NodeId} :
    Brings c Γ (lowerFunctionLiteral walk signature body span) (fun o => .inTable o.type) := by
  constructor
  unfold lowerFunctionLiteral
  refine brings_lowerSignature.grounds.bind (fun signature => ?_)
  exact (Grounds.putLiteral inferInstance).bind (fun id => inferInstance)

/-! ## Iteration -/

/-- The types of the keys and the values of an iteration. -/
abbrev Fact.rangePlan (plan : RangePlan) : Fact :=
  (Fact.inTables plan.keyType?.toList).and (.inTables plan.valueType?.toList)

section

variable {types : TypeTable} {method? : TypeId → String → Option Method} {plan : RangePlan}
  {type : TypeId}

theorem rangePlan_of_rangeTypes? {key : TypeId} {value : Option TypeId} [Yields Γ (.table types)]
    [Yields Γ (.inTable type)] (h : types.rangeTypes? type = some (key, value)) :
    Yields Γ (.rangePlan (.native key value)) := by
  suffices hparts : Yields Γ ((Fact.inTable key).and (.inTables value.toList)) from
    ⟨fun hs => ⟨List.forall_mem_singleton.mpr (hparts.of hs).1, (hparts.of hs).2⟩⟩
  have of_entry {id piece : TypeId} {entry : Ty} (hentry : types.get id = entry)
      (hpart : piece ∈ TypeTable.mentioned entry) : Yields Γ (.inTable piece) :=
    inTable_of_entry hentry hpart
  unfold TypeTable.rangeTypes? at h
  dsimp only at h
  split at h
  · rename_i element hget
    have := of_entry hget List.mem_cons_self
    cases h
    infer_instance
  · rename_i element length hget
    have := of_entry hget List.mem_cons_self
    cases h
    infer_instance
  · split at h
    · rename_i element length hshape
      have := of_entry hshape List.mem_cons_self
      cases h
      infer_instance
    · cases h
  · rename_i key value hget
    have := of_entry hget List.mem_cons_self
    have := of_entry hget (List.mem_cons_of_mem key List.mem_cons_self)
    cases h
    infer_instance
  · rename_i element direction hget
    have := of_entry hget List.mem_cons_self
    cases h
    infer_instance
  · split at h
    · cases h
      infer_instance
    · split at h
      · cases h
        infer_instance
      · cases h
  · cases h

theorem inTables_of_pulledTypes? {cursor value : TypeId} {key : Option TypeId}
    [Yields Γ (.table types)] (h : pulledTypes? types method? cursor = some (key, value)) :
    Yields Γ ((Fact.inTables key.toList).and (.inTable value)) := by
  obtain ⟨next, -, h⟩ := Option.bind_eq_some_iff.mp h
  obtain ⟨sig, hsig, h⟩ := Option.bind_eq_some_iff.mp h
  have hparts : Yields Γ (.signature sig) := signature_of_table hsig
  split at h
  · split at h
    · cases h
      exact ⟨fun hs => ⟨nofun, (hparts.of hs).2 value List.mem_cons_self⟩⟩
    · cases h
  · split at h
    · cases h
      refine ⟨fun hs => ⟨fun id hid => ?_, ?_⟩⟩
      · exact (hparts.of hs).2 id (List.mem_singleton.mp hid ▸ List.mem_cons_self)
      · exact (hparts.of hs).2 value (List.mem_cons_of_mem _ List.mem_cons_self)
    · cases h
  · cases h

theorem rangePlan_of_iterationBy? {method : Method} [Yields Γ (.table types)]
    (h : iterationBy? types method? method = some plan) : Yields Γ (.rangePlan plan) := by
  obtain ⟨sig, hsig, h⟩ := Option.bind_eq_some_iff.mp h
  split at h
  · obtain ⟨⟨key, value⟩, hpulled, h⟩ := Option.bind_eq_some_iff.mp h
    have hparts := inTables_of_pulledTypes? (Γ := Γ) hpulled
    cases h
    exact ⟨fun hs => ⟨(hparts.of hs).1, List.forall_mem_singleton.mpr (hparts.of hs).2⟩⟩
  · obtain ⟨callback, hcallback, h⟩ := Option.bind_eq_some_iff.mp h
    have hparts : Yields Γ (.signature callback) := signature_of_table hcallback
    split at h
    · cases h
      exact ⟨fun hs => ⟨nofun, (hparts.of hs).1⟩⟩
    · rename_i key value _
      cases h
      refine ⟨fun hs => ⟨fun id hid => ?_, fun id hid => ?_⟩⟩
      · exact (hparts.of hs).1 id (List.mem_singleton.mp hid ▸ List.mem_cons_self)
      · exact (hparts.of hs).1 id
          (List.mem_singleton.mp hid ▸ List.mem_cons_of_mem key List.mem_cons_self)
    · cases h
  · cases h

/-- What the values of a type are iterated by is in the table. -/
theorem rangePlan_of_rangePlan? [Yields Γ (.table types)] [Yields Γ (.inTable type)]
    (h : rangePlan? types method? type = some plan) : Yields Γ (.rangePlan plan) := by
  unfold rangePlan? at h
  split at h
  · rename_i key value hrange
    cases h
    exact rangePlan_of_rangeTypes? hrange
  · dsimp only at h
    have hplan : plan ∈ ((iterationMethods.filterMap (method? type)).filterMap
        (iterationBy? types method?)) := by
      rcases Option.or_eq_some_iff.mp h with hfind | ⟨-, hhead⟩
      · exact List.mem_of_find?_eq_some hfind
      · exact List.mem_of_mem_head? hhead
    obtain ⟨method, -, hmethod⟩ := List.mem_filterMap.mp hplan
    exact rangePlan_of_iterationBy? hmethod

instance brings_planRange [Yields Γ (.inTable type)] :
    Brings c Γ (planRange type span) .rangePlan := by
  constructor
  unfold planRange
  refine .skip (fun _ => brings_get.grounds.bind (fun s => ?_))
  split
  · rename_i plan hplan
    exact .pure (rangePlan_of_rangePlan? hplan)
  · infer_instance

instance brings_bindVariable {name : Option String} {type : Option TypeId}
    [h : Yields Γ (.inTables type.toList)] :
    Brings c Γ (bindVariable name type) (fun _ => .nothing) := by
  constructor
  unfold bindVariable
  split
  · rename_i name type
    have : Yields Γ (.inTable type) := inTable_of_some
    infer_instance
  · infer_instance

instance brings_bindRange {key value : Option String} [h : Yields Γ (.rangePlan plan)] :
    Brings c Γ (bindRange plan key value) (fun _ => .nothing) := by
  have hkey : Yields Γ (.inTables plan.keyType?.toList) := ⟨fun hs => (h.of hs).1⟩
  have hvalue : Yields Γ (.inTables plan.valueType?.toList) := ⟨fun hs => (h.of hs).2⟩
  constructor
  unfold bindRange
  dsimp only
  infer_instance

end

instance typeless_emitNative (source : HostId) (key value : Option String) (body : List HostId)
    (span : Span) : Typeless (emitNative source key value body span) := by
  unfold emitNative
  refine .before (fun keyNode => .before (fun valueNode => ?_))
  dsimp only
  split <;> infer_instance

instance typeless_emitPush (source : HostId) (method : String) (params : List HostParam)
    (body : List HostId) (span : Span) : Typeless (emitPush source method params body span) := by
  unfold emitPush
  infer_instance

instance typeless_emitPull (source : HostId) (method : String) (names : List String)
    (body : List HostId) (span : Span) : Typeless (emitPull source method names body span) := by
  unfold emitPull
  refine .before (fun iterator => .before (fun callee => .before (fun start => ?_)))
  refine .before (fun init => .before (fun lhs => .before (fun iterator => ?_)))
  refine .before (fun next => .before (fun next => .before (fun fetch => ?_)))
  infer_instance

instance typeless_emitRange (plan : RangePlan) (source : HostId) (key value : Option String)
    (body : List HostId) (span : Span) : Typeless (emitRange plan source key value body span) := by
  unfold emitRange
  dsimp only
  split <;> infer_instance

/-! ## Comprehensions -/

instance brings_lowerYieldValue {value : NodeId} {type : Option TypeId}
    [Yields Γ (.inTables type.toList)] :
    Brings c Γ (lowerYieldValue walk value type) (fun r => .inTable r.2) := by
  constructor
  unfold lowerYieldValue
  infer_instance

abbrev Fact.yielded (yielded : Yielded) : Fact :=
  (Fact.inTable yielded.key).and (.inTable yielded.value)

section

variable {frame : ComprehensionFrame}

/-- The parts of the type that is expected of a comprehension are in the table. -/
theorem inTable_of_expected {types : TypeTable} {expected : Option TypeId} {entry : Ty}
    {piece : TypeId} [Yields Γ (.table types)] (h : types.shape <$> expected = some entry)
    (hpart : piece ∈ TypeTable.mentioned entry) : Yields Γ (.inTable piece) := by
  obtain ⟨type, -, hshape⟩ := Option.map_eq_some_iff.mp h
  exact inTable_of_entry hshape hpart

instance brings_lowerYieldStatement [Yields Γ (.inTables frame.expected.toList)] :
    Brings c Γ (lowerYieldStatement walk frame) (fun r => .yielded r.2) := by
  constructor
  unfold lowerYieldStatement
  refine brings_getTypes.grounds.bind (fun types => ?_)
  dsimp only
  split
  · split
    · rename_i element hexpected
      exact .given (inTable_of_expected hexpected List.mem_cons_self) inferInstance
    · infer_instance
  · split
    · rename_i key value hexpected
      refine .given (inTable_of_expected hexpected List.mem_cons_self) ?_
      refine .given (φ := .inTable value) (inTable_of_expected hexpected
        (List.mem_cons_of_mem key List.mem_cons_self)) ?_
      infer_instance
    · infer_instance
  · infer_instance
  · infer_instance

instance brings_lowerYield [Yields Γ (.inTables frame.expected.toList)] :
    Brings c Γ (lowerYield walk frame) (fun r => .yielded r.2) := by
  constructor
  unfold lowerYield
  infer_instance

theorem Grounds.lowerClauseBody {K : Fact} {clause : ForClause}
    {inner : Lower (List HostId × Yielded)} [Yields Γ K]
    (hinner : ∀ Δ [Yields Δ K], Grounds c Δ inner (fun r => .yielded r.2)) :
    Grounds c Γ (lowerClauseBody walk clause inner) (fun r => .yielded r.2) := by
  have {Δ : Fact} [Yields Δ K] : Brings c Δ inner (fun r => .yielded r.2) := ⟨hinner Δ⟩
  unfold Lowering.lowerClauseBody
  refine brings_optionMapM.grounds.bind (fun init => ?_)
  refine brings_optionMapM.grounds.bind (fun guard => .skip (fun hoisted => ?_))
  refine Brings.grounds.bind (fun inner => ?_)
  dsimp only
  split <;> infer_instance

theorem grounds_lowerClauses (clauses : List ForClause) :
    ∀ Γ [Yields Γ (.inTables frame.expected.toList)],
      Grounds c Γ (lowerClauses walk frame clauses) (fun r => .yielded r.2) := by
  induction clauses with
  | nil =>
    intro Γ _
    unfold lowerClauses
    infer_instance
  | cons clause rest ih =>
    intro Γ _
    unfold lowerClauses
    refine (Walk.Grounds.expr Γ clause.source .none).grounds.bind (fun source => ?_)
    refine brings_defaultValue.grounds.bind (fun value => ?_)
    dsimp only
    refine brings_planRange.grounds.bind (fun plan => ?_)
    split
    · infer_instance
    · refine .skip (fun hoisted => ?_)
      refine Grounds.bind (Grounds.inScope (brings_bindRange.grounds.bind (fun _ =>
        Grounds.lowerClauseBody ih))) (fun body => ?_)
      infer_instance

instance brings_comprehensionResults {yielded : Yielded} [h : Yields Γ (.yielded yielded)] :
    Brings c Γ (comprehensionResults frame yielded) (.each (fun p => .inTable p.type)) := by
  have hkey : Yields Γ (.inTable yielded.key) := ⟨fun hs => (h.of hs).1⟩
  have hvalue : Yields Γ (.inTable yielded.value) := ⟨fun hs => (h.of hs).2⟩
  constructor
  unfold comprehensionResults
  dsimp only
  split
  · infer_instance
  · infer_instance
  · infer_instance
  · refine .pure ?_
    split <;> infer_instance

instance typeless_lowerEmptyResult (frame : ComprehensionFrame) (results : List HostParam) :
    Typeless (lowerEmptyResult frame results) := by
  unfold lowerEmptyResult
  split <;> infer_instance

end

instance brings_lowerComprehension {yields : Yield} {clauses : List ForClause}
    {expect : Expectation} [Yields Γ (.inTables expect.type.toList)] :
    Brings c Γ (lowerComprehension walk yields clauses span expect) (fun o => .inTable o.type) := by
  constructor
  unfold lowerComprehension
  dsimp only
  refine (grounds_lowerClauses clauses Γ).inFunction.bind (fun loops => ?_)
  infer_instance

/-! ## Expressions -/

instance brings_lowerGrouping {inner : NodeId} {expect : Expectation}
    [Yields Γ (.inTables expect.type.toList)] :
    Brings c Γ (lowerGrouping walk inner span expect) (fun o => .inTable o.type) := by
  constructor
  unfold lowerGrouping
  infer_instance

instance brings_lowerExprKind {expression : Expr} {expect : Expectation}
    [Yields Γ (.inTables expect.type.toList)] :
    Brings c Γ (lowerExprKind walk expression span expect) (fun o => .inTable o.type) := by
  constructor
  unfold lowerExprKind
  split <;> infer_instance

instance brings_lowerExpr {id : NodeId} {expect : Expectation}
    [Yields Γ (.inTables expect.type.toList)] :
    Brings c Γ (lowerExpr walk id expect) (fun o => .inTable o.type) := by
  constructor
  unfold lowerExpr
  refine .skip (fun span => .read ?_)
  split <;> infer_instance

end GoLowering.Lowering
