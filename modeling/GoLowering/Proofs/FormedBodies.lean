import GoLowering.Proofs.FormedExpressions

/-!
# Calls, bodies and nodes

The elements of a literal are expressions. So are the arguments of a call, but for two: the single
argument whose results are passed on, and what a call of an operand of invalid type is given. A `?`
makes a block, which is an operand where the call has no values and a statement that is hoisted
otherwise; only groupings pass it on. What becomes of bodies are lists of nodes that are there.
-/

namespace GoLowering.Lowering

open Surface

set_option synthInstance.maxSize 1000

variable {c : Context} {Γ : Fact} {walk : Walk} [walk.Forms c] {α : Type}

/-! ## Elements of known types -/

instance provides_compositeOperand {type : TypeId} {elements : List HostElement} {span : Span}
    [Yields Γ (.each .element elements)] :
    Provides c Γ (compositeOperand type elements span) (fun o => .inline o.id) := by
  constructor
  unfold compositeOperand
  infer_instance

instance provides_lowerPositionalFields {elements : List Element} {fields : List Field} :
    Provides c Γ (lowerPositionalFields walk elements fields) (.each .element) := by
  constructor
  induction elements generalizing Γ fields with
  | nil =>
    unfold lowerPositionalFields
    infer_instance
  | cons element elements ih =>
    unfold lowerPositionalFields
    cases fields with
    | nil => infer_instance
    | cons field fields =>
      have {Γ : Fact} : Provides c Γ (lowerPositionalFields walk elements fields)
          (.each .element) := ⟨ih⟩
      infer_instance

instance provides_lowerKeyedField {type : TypeId} {fields : List Field} {key value : NodeId} :
    Provides c Γ (lowerKeyedField walk type fields key value) .element := by
  constructor
  unfold lowerKeyedField
  refine .skip (fun span => .read ?_)
  split
  · infer_instance
  · split <;> infer_instance

instance provides_lowerFields {type : TypeId} {fields : List Field} {elements : List Element}
    {span : Span} :
    Provides c Γ (lowerFields walk type fields elements span) (.each .element) := by
  constructor
  unfold lowerFields
  dsimp only
  infer_instance

theorem isSome_of_indexValue? {constant : Option Constant} {index : Nat}
    (h : indexValue? constant = some index) : constant.isSome := by
  cases constant with
  | none => cases h
  | some value => rfl

instance provides_lowerIndexedFrom {type : TypeId} {next : Nat} {elements : List Element} :
    Provides c Γ (lowerIndexedFrom walk type next elements) (fun r => .each .element r.1) := by
  constructor
  induction elements generalizing Γ next with
  | nil =>
    unfold lowerIndexedFrom
    infer_instance
  | cons element rest ih =>
    have {Γ : Fact} {next : Nat} : Provides c Γ (lowerIndexedFrom walk type next rest)
        (fun r => .each .element r.1) := ⟨ih⟩
    unfold lowerIndexedFrom
    dsimp only
    split
    · infer_instance
    · rename_i key hkey
      refine (Walk.Forms.expr Γ key .none).forms.bind (fun operand => ?_)
      split
      · rename_i hindex
        have := inline_of_constant (c := c) (Γ := Γ.and (.operand c operand)) (o := operand)
          (isSome_of_indexValue? hindex)
        infer_instance
      · infer_instance

instance provides_lowerIndexed {type : TypeId} {elements : List Element} :
    Provides c Γ (lowerIndexed walk type elements) (fun r => .each .element r.1) := by
  constructor
  unfold lowerIndexed
  infer_instance

instance provides_lowerMapEntry {keyType valueType : TypeId} {span : Span} {element : Element} :
    Provides c Γ (lowerMapEntry walk keyType valueType span element) .element := by
  constructor
  unfold lowerMapEntry
  split <;> infer_instance

instance provides_lowerElements {type : TypeId} {elements : List Element} {span : Span} :
    Provides c Γ (lowerElements walk type elements span) (fun o => .inline o.id) := by
  constructor
  unfold lowerElements
  refine .skip (fun types => ?_)
  split <;> infer_instance

instance provides_lowerElementsInto {type : TypeId} {elements : List Element} {span : Span} :
    Provides c Γ (lowerElementsInto walk type elements span) (fun o => .inline o.id) := by
  constructor
  unfold lowerElementsInto
  refine .skip (fun types => ?_)
  split <;> infer_instance

/-! ## Literals without a type -/

instance provides_lowerIndexKey {key : NodeId} : Provides c Γ (lowerIndexKey walk key) .inline := by
  constructor
  unfold lowerIndexKey
  refine (Walk.Forms.expr Γ key .none).forms.bind (fun operand => ?_)
  split
  · rename_i hconstant
    have := inline_of_constant (c := c) (Γ := Γ.and (.operand c operand)) (o := operand)
      (hconstant ▸ rfl)
    infer_instance
  · infer_instance

instance provides_lowerSliceElement {element : Element} :
    Provides c Γ (lowerSliceElement walk element)
      (fun r => (Fact.each .inline r.1.toList).and (.operand c r.2)) := by
  constructor
  unfold lowerSliceElement
  infer_instance

instance provides_inferSlice {elements : List Element} {span : Span} :
    Provides c Γ (inferSlice walk elements span) (fun o => .inline o.id) := by
  constructor
  unfold inferSlice
  refine provides_mapM.forms.bind (fun elements => .skip (fun element => .skip (fun type => ?_)))
  refine Forms.bind (.mapM (P := .element) (fun e => (Fact.each .inline e.1.toList).and
    (.operand c e.2)) (fun e _ Δ => ?_)) (fun elements => ?_)
  · dsimp only
    infer_instance
  · infer_instance

instance provides_lowerSliceLiteral {elements : List Element} {span : Span} {expect : Expectation} :
    Provides c Γ (lowerSliceLiteral walk elements span expect) (fun o => .inline o.id) := by
  constructor
  unfold lowerSliceLiteral
  refine .skip (fun types => ?_)
  dsimp only
  split
  · infer_instance
  · split <;> infer_instance

instance provides_lowerMapElement {key value : NodeId} :
    Provides c Γ (lowerMapElement walk key value)
      (fun r => (Fact.operand c r.1).and (.operand c r.2)) := by
  constructor
  unfold lowerMapElement
  infer_instance

instance provides_inferMap {elements : List (NodeId × NodeId)} {span : Span} :
    Provides c Γ (inferMap walk elements span) (fun o => .inline o.id) := by
  constructor
  unfold inferMap
  refine provides_mapM.forms.bind (fun elements => ?_)
  refine .skip (fun keyType => .skip (fun valueType => .skip (fun type => ?_)))
  refine Forms.bind (.mapM (P := .element) (fun e => (Fact.operand c e.1).and (.operand c e.2))
    (fun e _ Δ => ?_)) (fun elements => ?_)
  · dsimp only
    infer_instance
  · infer_instance

instance provides_lowerBareComposite {elements : List Element} {span : Span} :
    Provides c Γ (lowerBareComposite walk elements span) (fun o => .inline o.id) := by
  constructor
  unfold lowerBareComposite
  dsimp only
  infer_instance

instance provides_lowerTypedComposite {type : NodeId} {elements : List Element} {span : Span} :
    Provides c Γ (lowerTypedComposite walk type elements span) (fun o => .inline o.id) := by
  constructor
  unfold lowerTypedComposite
  refine .read ?_
  split <;> infer_instance

instance provides_lowerComposite {type : Option NodeId} {elements : List Element} {span : Span}
    {expect : Expectation} :
    Provides c Γ (lowerComposite walk type elements span expect) (fun o => .inline o.id) := by
  constructor
  unfold lowerComposite
  split <;> infer_instance

/-! ## Arguments -/

instance provides_lowerArgument {argument : Argument} {expect : Expectation} :
    Provides c Γ (lowerArgument walk argument expect) (.operand c) := by
  constructor
  unfold lowerArgument
  split <;> infer_instance

instance provides_argumentInto {argument : Argument} {target : TypeId} :
    Provides c Γ (argumentInto walk argument target) .inline := by
  constructor
  unfold argumentInto
  infer_instance

instance provides_argumentByDefault {argument : Argument} :
    Provides c Γ (argumentByDefault walk argument) (fun r => .inline r.1) := by
  constructor
  unfold argumentByDefault
  infer_instance

instance idle_failArgumentCount (expected got : Nat) (span : Span) :
    Idle (failArgumentCount expected got span : Lower α) := by
  unfold failArgumentCount
  infer_instance

instance idle_spreadMismatch? (sig : Signature) (index : Nat) (results : List TypeId) :
    Idle (spreadMismatch? sig index results) := by
  induction results generalizing index with
  | nil =>
    unfold spreadMismatch?
    infer_instance
  | cons result rest ih =>
    unfold spreadMismatch?
    dsimp only
    infer_instance

instance provides_lowerSpreadArgument {sig : Signature} {argument : Argument} {span : Span} :
    Provides c Γ (lowerSpreadArgument walk sig argument span) (.each (.loose c)) := by
  constructor
  unfold lowerSpreadArgument
  refine .skip (fun types => ?_)
  dsimp only
  refine provides_lowerArgument.forms.bind (fun operand => .skip (fun types => ?_))
  split
  · split
    all_goals
      split
      · infer_instance
      · refine .skip (fun mismatch => ?_)
        split <;> infer_instance
  · infer_instance

instance provides_lowerArgumentsFrom {sig : Signature} {spread : Bool} {index : Nat}
    {args : List Argument} :
    Provides c Γ (lowerArgumentsFrom walk sig spread index args) (.each .inline) := by
  constructor
  induction args generalizing Γ index with
  | nil =>
    unfold lowerArgumentsFrom
    infer_instance
  | cons argument rest ih =>
    have {Γ : Fact} {index : Nat} : Provides c Γ (lowerArgumentsFrom walk sig spread index rest)
        (.each .inline) := ⟨ih⟩
    unfold lowerArgumentsFrom
    dsimp only
    infer_instance

instance provides_lowerArgumentList {sig : Signature} {args : List Argument} {spread : Bool}
    {span : Span} :
    Provides c Γ (lowerArgumentList walk sig args spread span) (.each .inline) := by
  constructor
  unfold lowerArgumentList
  dsimp only
  infer_instance

instance provides_lowerArguments {sig : Signature} {args : List Argument} {spread : Bool}
    {span : Span} :
    Provides c Γ (lowerArguments walk sig args spread span) (.each (.loose c)) := by
  constructor
  unfold lowerArguments
  dsimp only
  split <;> infer_instance

/-! ## Conversions -/

instance idle_convertedConstant (operand : Operand) (target : TypeId) :
    Idle (convertedConstant operand target) := by
  unfold convertedConstant
  refine .before (fun kind => ?_)
  split <;> infer_instance

instance provides_convertOperand {callee : HostId} {target : TypeId} {operand : Operand}
    {span : Span} [Yields Γ (.inline callee)] [Yields Γ (.operand c operand)] :
    Provides c Γ (convertOperand callee target operand span) (fun o => .inline o.id) := by
  constructor
  unfold convertOperand
  refine provides_checkValue.forms.bind (fun _ => .skip (fun types => ?_))
  dsimp only
  infer_instance

instance provides_lowerConversion {callee : Operand} {args : List Argument} {span : Span}
    [Yields Γ (.inline callee.id)] :
    Provides c Γ (lowerConversion walk callee args span) (fun o => .inline o.id) := by
  constructor
  unfold lowerConversion
  split
  · refine .read (.skip (fun types => ?_))
    split <;> infer_instance
  · infer_instance

/-! ## Built-in functions -/

instance provides_argumentType {argument : Argument} :
    Provides c Γ (argumentType walk argument) (fun _ => .nothing) := by
  constructor
  unfold argumentType
  infer_instance

instance provides_lowerAppend {first : Argument} {rest : List Argument} {spread : Bool}
    {span : Span} {expect : Expectation} :
    Provides c Γ (lowerAppend walk first rest spread span expect)
      (fun r => .each .inline r.1) := by
  constructor
  unfold lowerAppend
  refine provides_lowerArgument.forms.bind (fun slice => .skip (fun types => ?_))
  split
  · dsimp only
    infer_instance
  · infer_instance

instance provides_lowerMake {type : Argument} {sizes : List Argument} {span : Span} :
    Provides c Γ (lowerMake walk type sizes span) (fun r => .each .inline r.1) := by
  constructor
  unfold lowerMake
  refine provides_argumentType.forms.bind (fun type => .skip (fun types => ?_))
  split <;> infer_instance

instance provides_lowerBuiltinParts {function : Builtin} {args : List Argument} {spread : Bool}
    {span : Span} {expect : Expectation} :
    Provides c Γ (lowerBuiltinParts walk function args spread span expect)
      (fun r => .each .inline r.1) := by
  constructor
  unfold lowerBuiltinParts
  split
  -- What the others look at is the type of an argument.
  case h_6 | h_7 | h_12 | h_13 =>
    refine provides_argumentByDefault.forms.bind (fun argument => .skip (fun found => ?_))
    split <;> infer_instance
  all_goals infer_instance

/-! ## Calls -/

instance provides_callOperand {callee : Operand} {args : List Argument} {spread : Bool}
    {span : Span} {expect : Expectation} [Yields Γ (.operand c callee)] :
    Provides c Γ (callOperand walk callee args spread span expect) (fun o => .inline o.id) := by
  have hinline (hmode : callee.mode ≠ .noValue) : Yields Γ (.inline callee.id) :=
    inline_of_mode (c := c) hmode
  constructor
  unfold callOperand
  split
  · rename_i hmode
    have := hinline (by rw [hmode]; nofun)
    infer_instance
  · rename_i hmode
    have := hinline (by rw [hmode]; nofun)
    infer_instance
  · rename_i hmode
    have := hinline (by rw [hmode]; nofun)
    refine .skip (fun invalid => ?_)
    split
    · infer_instance
    · refine .skip (fun types => ?_)
      split <;> infer_instance
  · infer_instance
  · infer_instance
  · infer_instance

instance provides_lowerCall {callee : NodeId} {args : List NodeId} {spread : Bool} {span : Span}
    {expect : Expectation} :
    Provides c Γ (lowerCall walk callee args spread span expect) (fun o => .inline o.id) := by
  constructor
  unfold lowerCall
  infer_instance

instance idle_isCallable (operand : Operand) : Idle (isCallable operand) := by
  unfold isCallable
  split <;> infer_instance

instance provides_lowerAmbiguousCommand {head : NodeId} {op : UnaryOp} {operand : NodeId}
    {span : Span} {expect : Expectation} :
    Provides c Γ (lowerAmbiguousCommand walk head op operand span expect)
      (fun o => .inline o.id) := by
  constructor
  unfold lowerAmbiguousCommand
  refine (Walk.Forms.expr Γ head .called).forms.bind (fun head => .skip (fun callable => ?_))
  split
  · infer_instance
  · split <;> infer_instance

variable {call : HostId} {values : List TypeId} {text : String} {span : Span}

/-! ## Error wraps -/

instance provides_lowerWrappedCall {inner : NodeId} :
    Provides c Γ (lowerWrappedCall walk inner) (.operand c) := by
  constructor
  unfold lowerWrappedCall
  refine .read ?_
  split
  · infer_instance
  · refine (Walk.Forms.expr Γ inner .called).forms.bind (fun operand => .skip (fun types => ?_))
    split
    · rename_i hmode _
      have := inline_of_mode (c := c) (Γ := Γ.and (.operand c operand)) (o := operand)
        (by rw [hmode]; nofun)
      infer_instance
    · infer_instance

instance provides_declareError : Provides c Γ (declareError span) .inline := by
  have {Γ : Fact} : Yields Γ (.fits c (.varDecl ⟨[Names.err], some TypeTable.error, [], none⟩)) :=
    yields_varDecl (List.forall_mem_singleton.mpr inferInstance)
  constructor
  unfold declareError
  infer_instance

instance provides_assignResults {targets : List String} [Yields Γ (.inline call)] :
    Provides c Γ (assignResults targets call span) .inline := by
  constructor
  unfold assignResults
  infer_instance

instance provides_addFrame : Provides c Γ (addFrame text span) .inline := by
  constructor
  unfold addFrame
  dsimp only
  infer_instance

instance provides_onError {handler : List HostId} [Yields Γ (.each .node handler)] :
    Provides c Γ (onError handler span) .node := by
  constructor
  unfold onError
  infer_instance

theorem declares_namedResults (values : List TypeId) :
    ∀ name ∈ (namedResults values).filterMap (·.name), c.Declares name := by
  intro name hname
  obtain ⟨param, hparam, hname⟩ := List.mem_filterMap.mp hname
  obtain ⟨i, _, hi⟩ := List.mem_mapIdx.mp hparam
  rw [← hi] at hname
  exact .reserved (.inr ⟨i, (Option.some.inj hname).symm⟩)

instance provides_wrapRaise [Yields Γ (.inline call)] :
    Provides c Γ (wrapRaise call values text span) (fun o => .inline o.id) := by
  have {Γ : Fact} {body : List HostId} [Yields Γ (.each .node body)] :
      Provides c Γ (immediateCall (namedResults values) body span) (fun o => .inline o.id) :=
    ⟨forms_immediateCall (declares_namedResults values)⟩
  constructor
  unfold wrapRaise
  dsimp only
  infer_instance

instance provides_wrapFallback {default : Option NodeId} [Yields Γ (.inline call)] :
    Provides c Γ (wrapFallback walk call values default span) (fun o => .inline o.id) := by
  constructor
  unfold wrapFallback
  dsimp only
  split
  · rename_i value
    have {Γ : Fact} {body : List HostId} [Yields Γ (.each .node body)] :
        Provides c Γ (immediateCall (namedResults [value]) body span) (fun o => .inline o.id) :=
      ⟨forms_immediateCall (declares_namedResults [value])⟩
    split <;> infer_instance
  · infer_instance

instance provides_hoistTemporary {type : TypeId} {name : String} [hname : c.Declares name] :
    Provides c Γ (hoistTemporary type span name) (fun _ => .nothing) := by
  have {Γ : Fact} : Yields Γ (.fits c (.varDecl ⟨[name], some type, [], none⟩)) :=
    yields_varDecl (List.forall_mem_singleton.mpr hname)
  constructor
  unfold hoistTemporary
  infer_instance

theorem forms_propagateBlock {targets : List String} {label : String} {results : List TypeId}
    [Yields Γ (.inline call)] (hpropagates : c.unit.Propagates) :
    Forms c Γ (propagateBlock call targets label text results span)
      (fun id => (Fact.node id).and (.block c id)) := by
  have {Γ : Fact} {statements : List HostId} [Yields Γ (.each .node statements)] :
      Provides c Γ (place (.block statements) span)
        (fun id => (Fact.node id).and (.block c id)) :=
    ⟨forms_addNode (fun hid hkind => ⟨hid, hid, ⟨statements, hkind⟩, hpropagates⟩)⟩
  unfold propagateBlock
  infer_instance

instance idle_errorResults? : Idle errorResults? := by
  unfold errorResults?
  refine .before (fun s => ?_)
  split <;> infer_instance

/-- A call without values becomes the block in which it is made. -/
theorem forms_resultOperand_block {block : HostId} [h : Yields Γ (.block c block)] :
    Forms c Γ (resultOperand block [] span) (.operand c) := by
  refine .idle (fun s o s' hΓ hrun => ?_)
  unfold resultOperand at hrun
  obtain ⟨type, s₁, htype, hrun⟩ := bind_ok.mp hrun
  obtain ⟨rfl, rfl⟩ := pure_ok.mp hrun
  obtain ⟨hid, rfl⟩ := Prod.mk.inj htype
  obtain rfl := Except.ok.inj hid
  obtain ⟨hnode, hblock⟩ := h.of hΓ
  exact ⟨hnode, .inr ⟨rfl, rfl, (s.types.get_intern (.tuple [])).2, hblock⟩⟩

instance idle_notePropagation (call : HostId) (names : List String) :
    Idle (notePropagation call names) :=
  idle_modify (fun _ => rfl) (fun _ => rfl) (fun _ => rfl) (fun _ => rfl)

theorem forms_wrapPropagate [Yields Γ (.inline call)] (hpropagates : c.unit.Propagates) :
    Forms c Γ (wrapPropagate call values text span) (.operand c) := by
  have {Γ : Fact} {targets : List String} {label : String} {results : List TypeId}
      [Yields Γ (.inline call)] :
      Provides c Γ (propagateBlock call targets label text results span)
        (fun id => (Fact.node id).and (.block c id)) :=
    ⟨forms_propagateBlock hpropagates⟩
  have {Γ : Fact} {block : HostId} [Yields Γ (.block c block)] :
      Provides c Γ (resultOperand block [] span) (.operand c) :=
    ⟨forms_resultOperand_block⟩
  unfold wrapPropagate
  refine .skip (fun found => ?_)
  split
  · infer_instance
  · infer_instance
  · refine provides_freshName.forms.bind (fun temporary => ?_)
    refine .knowing (p := c.Declares temporary) (fun htemporary => ?_)
    infer_instance
  · infer_instance

theorem forms_lowerErrorWrap {id inner : NodeId} {policy : WrapPolicy}
    (hexpr : c.unit.expr? id = some (.errorWrap inner policy)) :
    Forms c Γ (lowerErrorWrap walk inner policy span) (.operand c) := by
  unfold lowerErrorWrap
  refine provides_lowerWrappedCall.forms.bind (fun call => .skip (fun text => ?_))
  refine .types (o := call) (fun types => ?_)
  split
  · infer_instance
  all_goals
    rename_i results hresults
    -- The block of a call without values has no error for its last result.
    have := inline_of_type (Γ := (Γ.and (.operand c call)).and (.when (types.get call.type ≠
      .tuple []) (.inline call.id))) (fun htype => by
        rw [TypeTable.resultsOf, htype] at hresults
        cases hresults)
  · infer_instance
  · infer_instance
  · exact forms_wrapPropagate ⟨id, inner, hexpr⟩

/-! ## Blocks -/

instance provides_lowerStatement {id : NodeId} :
    Provides c Γ (lowerStatement walk id) (.each .node) := by
  constructor
  unfold lowerStatement
  infer_instance

instance provides_lowerStatements {ids : List NodeId} :
    Provides c Γ (lowerStatements walk ids) (.each .node) := by
  constructor
  unfold lowerStatements
  infer_instance

instance provides_lowerBlockStatements {id : NodeId} {kind : ScopeKind} :
    Provides c Γ (lowerBlockStatements walk id kind) (.each .node) := by
  constructor
  unfold lowerBlockStatements
  refine .read ?_
  dsimp only
  split <;> infer_instance

instance provides_lowerBlock {id : NodeId} {kind : ScopeKind} :
    Provides c Γ (lowerBlock walk id kind) .node := by
  constructor
  unfold lowerBlock
  infer_instance

instance provides_lowerBody {id : NodeId} : Provides c Γ (lowerBody walk id) .node :=
  provides_lowerBlock

instance idle_bindParams (params : List HostParam) : Idle (bindParams params) := by
  have (param : HostParam) : Idle (match param.name with
      | some name => bind name (.variable param.type)
      | none => pure () : Lower Unit) := by
    split <;> infer_instance
  unfold bindParams
  infer_instance

/-- An operand that is no block is an expression. -/
theorem Forms.kindOf {β : Type} {o : Operand} {f : HostKind → Lower β} {P : β → Fact}
    [h : Yields Γ (.operand c o)]
    (hf : ∀ kind, Forms c (Γ.and (.when (∀ statements, kind ≠ .block statements) (.inline o.id)))
      (f kind) P) :
    Forms c Γ (kindOf o.id >>= f) P :=
  ⟨fun {s} hs hΓ => (hf (s.tree.kind o.id)).run hs ⟨hΓ, fun hkind =>
    ⟨(h.of hΓ).1, (h.of hΓ).2.resolve_right (fun hblock =>
      hblock.2.2.2.kind.elim (fun statements he => hkind statements he))⟩⟩⟩

instance provides_expressionStatement {operand : Operand} [h : Yields Γ (.operand c operand)] :
    Provides c Γ (expressionStatement walk operand)
      (fun id => (Fact.node id).and (.simple c id)) := by
  have hinline (hmode : operand.mode ≠ .noValue) : Yields Γ (.inline operand.id) :=
    inline_of_mode (c := c) hmode
  have hnode : Yields Γ (.node operand.id) := ⟨fun hs => (h.of hs).1⟩
  constructor
  unfold expressionStatement
  dsimp only
  refine .kindOf (o := operand) (fun kind => ?_)
  split
  · infer_instance
  · rename_i kind _ _ _ hkind
    have : Yields (Γ.and (.when (∀ statements, kind ≠ .block statements) (.inline operand.id)))
        (.inline operand.id) := ⟨fun hs => hs.2 hkind⟩
    infer_instance
  · rename_i hmode
    have := hinline (by rw [hmode]; nofun)
    infer_instance
  · rename_i hmode
    have := hinline (by rw [hmode]; nofun)
    infer_instance
  · infer_instance
  · rename_i hmode _
    have := hinline (by rw [hmode]; nofun)
    infer_instance
  · infer_instance
  · infer_instance

/-! ## Lambdas and function literals -/

instance provides_resultsFit {got results : List TypeId} :
    Provides c Γ (resultsFit got results)
      (fun fits => .known (fits = true → got.length = results.length)) := by
  constructor
  unfold resultsFit
  split
  · rename_i hlength
    have {Γ : Fact} {fits : Bool} :
        Yields Γ (.known (fits = true → got.length = results.length)) :=
      ⟨fun _ _ => beq_iff_eq.mp hlength⟩
    infer_instance
  · exact .pure ⟨fun _ => nofun⟩

instance idle_failResultCount (expected got : Nat) (span : Span) :
    Idle (failResultCount expected got span : Lower α) := by
  unfold failResultCount
  infer_instance

theorem forms_lowerAllResults {value : NodeId} {results : List TypeId} {expect : Expectation}
    (hresults : 1 < results.length) :
    Forms c Γ (lowerAllResults walk value results expect) .inline := by
  unfold lowerAllResults
  refine (Walk.Forms.expr Γ value expect).forms.bind (fun operand => ?_)
  refine .types (o := operand) (fun types => ?_)
  refine provides_resultsFit.forms.bind (fun fits => ?_)
  refine .knowing (p := fits = true → (types.resultsOf operand.type).length = results.length)
    (fun hfits => ?_)
  split
  · rename_i htrue
    have := inline_of_type (Γ := (Γ.and (.operand c operand)).and (.when (types.get operand.type ≠
      .tuple []) (.inline operand.id))) (fun htype => by
        have hlength := hfits htrue
        rw [TypeTable.resultsOf, htype] at hlength
        exact absurd (Nat.lt_of_lt_of_eq hresults hlength.symm) (Nat.not_lt_zero 1))
    infer_instance
  · infer_instance

instance provides_lowerEachResult {values : List NodeId} {results : List TypeId} :
    Provides c Γ (lowerEachResult walk values results) (.each .inline) := by
  constructor
  unfold lowerEachResult
  infer_instance

instance provides_lowerLambdaStatement {value : NodeId} :
    Provides c Γ (lowerLambdaStatement walk value) (.each .node) := by
  constructor
  unfold lowerLambdaStatement
  infer_instance

instance provides_lowerLambdaValues {values : List NodeId} {results : List TypeId} :
    Provides c Γ (lowerLambdaValues walk values results span) (.each .inline) := by
  constructor
  unfold lowerLambdaValues
  split
  · rename_i single hresults
    have {Γ : Fact} : Provides c Γ (lowerAllResults walk single results .none) .inline :=
      ⟨forms_lowerAllResults (of_decide_eq_true hresults)⟩
    infer_instance
  · infer_instance

instance provides_lowerLambdaExpressions {values : List NodeId} {results : List TypeId} :
    Provides c Γ (lowerLambdaExpressions walk values results span) .node := by
  constructor
  unfold lowerLambdaExpressions
  split
  · infer_instance
  · refine provides_lowerLambdaValues.forms.bind (fun ids => ?_)
    refine provides_takeHoisted.forms.bind (fun hoisted => ?_)
    split <;> infer_instance

instance provides_lowerLambdaBody {body : LambdaBody} {results : List TypeId} :
    Provides c Γ (lowerLambdaBody walk body results span) .node := by
  constructor
  unfold lowerLambdaBody
  split <;> infer_instance

theorem forms_putLiteral {signature : HostSignature} {part : Lower HostId}
    (hnames : ∀ name ∈ signature.names, c.Declares name) (hpart : Forms c Γ part .node) :
    Forms c Γ (putLiteral signature part span) .inline := by
  have {Γ : Fact} {body : HostId} [Yields Γ (.node body)] :
      Yields Γ (.fits c (.functionLiteral signature body)) :=
    yields_functionLiteral hnames
  unfold putLiteral
  refine .skip (fun s => ?_)
  dsimp only
  refine hpart.inFunction.bind (fun body => ?_)
  infer_instance

/-- The signature of a lambda has the names that the lambda is written with. -/
theorem mem_lambdaNames {params : List String} {types results : List TypeId} {variadic : Bool}
    {name : String}
    (h : name ∈ HostSignature.names ⟨(params.zip types).map (fun (name, type) => ⟨some name, type⟩),
      results.map (⟨none, ·⟩), variadic⟩) : name ∈ params := by
  obtain ⟨param, hparam, hname⟩ := List.mem_filterMap.mp h
  rcases List.mem_append.mp hparam with hparam | hparam
  · obtain ⟨⟨found, type⟩, hpair, rfl⟩ := List.mem_map.mp hparam
    obtain rfl := Option.some.inj hname
    exact (List.of_mem_zip hpair).1
  · obtain ⟨type, -, rfl⟩ := List.mem_map.mp hparam
    cases hname

theorem forms_lowerLambda {params : List String} {body : LambdaBody} {expect : Expectation}
    (hnames : ∀ name ∈ params, c.Declares name) :
    Forms c Γ (lowerLambda walk params body span expect) (fun o => .inline o.id) := by
  unfold lowerLambda
  split
  · infer_instance
  · refine .skip (fun types => ?_)
    split
    · infer_instance
    · split
      · infer_instance
      · dsimp only
        exact (forms_putLiteral (fun name hname => hnames name (mem_lambdaNames hname))
          inferInstance).bind (fun id => inferInstance)

instance provides_lowerFunctionLiteral {signature body : NodeId} :
    Provides c Γ (lowerFunctionLiteral walk signature body span) (fun o => .inline o.id) := by
  constructor
  unfold lowerFunctionLiteral
  refine provides_lowerSignature.forms.bind (fun signature => ?_)
  refine .knowing (p := ∀ name ∈ signature.1.names, c.Declares name) (fun hnames => ?_)
  exact (forms_putLiteral hnames inferInstance).bind (fun id => inferInstance)

/-! ## Iteration -/

instance idle_planRange (type : TypeId) (span : Span) : Idle (planRange type span) := by
  unfold planRange
  refine .before (fun c => .before (fun s => ?_))
  split <;> infer_instance

instance idle_bindVariable (name : Option String) (type : Option TypeId) :
    Idle (bindVariable name type) := by
  unfold bindVariable
  split <;> infer_instance

instance idle_bindRange (plan : RangePlan) (key value : Option String) :
    Idle (bindRange plan key value) := by
  unfold bindRange
  dsimp only
  infer_instance

theorem forms_identNodes {names : List String} (hnames : ∀ name ∈ names, c.Declares name) :
    Forms c Γ (names.mapM identNode) (.each (.declarable c)) := by
  have : Yields Γ (.each (fun _ => .nothing) names) := ⟨fun _ _ _ => trivial⟩
  refine .mapM (fun _ => .nothing) (fun name hname Δ => ?_)
  have := hnames name hname
  infer_instance

theorem forms_optionIdentNode {name : Option String} (hname : ∀ n ∈ name, c.Declares n) :
    Forms c Γ (name.mapM identNode) (fun id => .each (.declarable c) id.toList) := by
  cases name with
  | none => exact .pure yields_none
  | some name =>
    have := hname name rfl
    exact forms_map

section

variable {source : HostId} {key value : Option String} {method : String} {body : List HostId}
  [Yields Γ (.inline source)] [Yields Γ (.each .node body)]

theorem forms_emitNative (hkey : ∀ name ∈ key, c.Declares name)
    (hvalue : ∀ name ∈ value, c.Declares name) :
    Forms c Γ (emitNative source key value body span) .node := by
  unfold emitNative
  refine (forms_optionIdentNode hkey).bind (fun keyNode => ?_)
  refine (forms_optionIdentNode hvalue).bind (fun valueNode => ?_)
  dsimp only
  split <;> infer_instance

theorem forms_emitPush {params : List HostParam}
    (hparams : ∀ name ∈ params.filterMap (·.name), c.Declares name) :
    Forms c Γ (emitPush source method params body span) .inline := by
  have {Γ : Fact} {body : HostId} [Yields Γ (.node body)] :
      Yields Γ (.fits c (.functionLiteral ⟨params, [], false⟩ body)) :=
    yields_functionLiteral (fun name hname => hparams name (by
      rwa [HostSignature.names, List.append_nil] at hname))
  unfold emitPush
  infer_instance

theorem forms_emitPull {names : List String} (hnames : ∀ name ∈ names, c.Declares name) :
    Forms c Γ (emitPull source method names body span) .node := by
  have hlhs : ∀ name ∈ names ++ [Names.ok], c.Declares name :=
    List.forall_mem_append.mpr ⟨hnames, List.forall_mem_singleton.mpr inferInstance⟩
  unfold emitPull
  refine provides_declarableNode.forms.bind (fun iterator => ?_)
  refine provides_selectorNode.forms.bind (fun callee => ?_)
  refine provides_callNode.forms.bind (fun start => ?_)
  refine provides_defineNode.forms.bind (fun init => ?_)
  refine (forms_identNodes hlhs).bind (fun lhs => ?_)
  refine provides_identNode.forms.bind (fun iterator => ?_)
  refine provides_selectorNode.forms.bind (fun next => ?_)
  refine provides_callNode.forms.bind (fun next => ?_)
  refine provides_place.forms.bind (fun fetch => ?_)
  infer_instance

/-- The names of an iteration are its own. -/
theorem boundNames_mem (plan : RangePlan) (hkey : ∀ name ∈ key, c.Declares name)
    (hvalue : ∀ name ∈ value, c.Declares name) :
    (∀ name ∈ (plan.boundNames key value).1, c.Declares name) ∧
      ∀ name ∈ (plan.boundNames key value).2, c.Declares name := by
  unfold RangePlan.boundNames
  split
  · exact ⟨nofun, hkey⟩
  · exact ⟨hkey, hvalue⟩

theorem declares_getD {name : Option String} (h : ∀ n ∈ name, c.Declares n) :
    c.Declares (name.getD Names.blank) := by
  cases name with
  | none => exact declares_blank
  | some name => exact h name rfl

theorem forms_emitRange {plan : RangePlan} (hkey : ∀ name ∈ key, c.Declares name)
    (hvalue : ∀ name ∈ value, c.Declares name) :
    Forms c Γ (emitRange plan source key value body span) .node := by
  obtain ⟨hkey, hvalue⟩ := boundNames_mem plan hkey hvalue
  unfold emitRange
  dsimp only
  split
  · exact forms_emitNative hkey hvalue
  · rename_i keyType valueType
    refine (forms_emitPush ?_).weaken (fun _ => inferInstance)
    intro name hname
    obtain ⟨param, hparam, hname⟩ := List.mem_filterMap.mp hname
    rcases List.mem_append.mp hparam with hparam | hparam
    · obtain ⟨type, -, rfl⟩ := List.mem_map.mp hparam
      exact Option.some.inj hname ▸ declares_getD hkey
    · obtain rfl := List.mem_singleton.mp hparam
      exact Option.some.inj hname ▸ declares_getD hvalue
  · refine forms_emitPull (List.forall_mem_append.mpr
      ⟨fun name hname => ?_, List.forall_mem_singleton.mpr (declares_getD hvalue)⟩)
    obtain ⟨type, -, rfl⟩ := List.mem_map.mp hname
    exact declares_getD hkey

end

/-! ## Comprehensions -/

instance provides_lowerYieldValue {value : NodeId} {type : Option TypeId} :
    Provides c Γ (lowerYieldValue walk value type) (fun r => .inline r.1) := by
  constructor
  unfold lowerYieldValue
  infer_instance

instance provides_lowerYieldStatement {frame : ComprehensionFrame} :
    Provides c Γ (lowerYieldStatement walk frame) (fun r => .inline r.1) := by
  constructor
  unfold lowerYieldStatement
  refine .skip (fun types => ?_)
  dsimp only
  split <;> infer_instance

instance provides_lowerYield {frame : ComprehensionFrame} :
    Provides c Γ (lowerYield walk frame) (fun r => .each .node r.1) := by
  constructor
  unfold lowerYield
  infer_instance

/-- What stands in a header is loose. -/
theorem forms_header {id : NodeId} (hshort : c.unit.ShortHeaders → c.unit.isShort id = true) :
    Forms c Γ (walk.statement id)
      (fun r => (Fact.each .node r.toList).and (.each (.loose c) r.toList)) :=
  (Walk.Forms.statement Γ id).forms.weaken (fun r => ⟨fun hs => ⟨hs.2.1, fun part hpart =>
    ⟨hs.2.1 part hpart, by
      by_cases hheaders : c.unit.ShortHeaders
      · exact (hs.2.2 part hpart (hshort hheaders)).2.imp_right (fun h _ => h)
      · exact .inr (absurd · hheaders)⟩⟩⟩)

theorem forms_headers {init : Option NodeId}
    (hshort : c.unit.ShortHeaders → ∀ id ∈ init.toList, c.unit.isShort id = true) :
    Forms c Γ (init.mapM walk.statement)
      (fun r => (Fact.each .node r.join.toList).and (.each (.loose c) r.join.toList)) := by
  cases init with
  | none => exact .pure ⟨fun _ => ⟨nofun, nofun⟩⟩
  | some id =>
    exact forms_map (h := (forms_header (fun h => hshort h id List.mem_cons_self)).bind
      (fun r => .pure yields_last))

theorem forms_lowerClauseBody {clause : ForClause} {inner : Lower (List HostId × Yielded)}
    (hshort : c.unit.ShortHeaders → ∀ id ∈ clause.init.toList, c.unit.isShort id = true)
    (hinner : ∀ Δ, Forms c Δ inner (fun r => .each .node r.1)) :
    Forms c Γ (lowerClauseBody walk clause inner) (fun r => .each .node r.1) := by
  unfold lowerClauseBody
  refine (forms_headers hshort).bind (fun init => ?_)
  refine provides_optionMapM.forms.bind (fun guard => ?_)
  refine provides_takeHoisted.forms.bind (fun hoisted => ?_)
  refine (hinner _).bind (fun inner => ?_)
  dsimp only
  split <;> infer_instance

theorem forms_lowerClauses {frame : ComprehensionFrame} (clauses : List ForClause) :
    (∀ clause ∈ clauses, ∀ name ∈ clause.names, c.Declares name) →
    (c.unit.ShortHeaders → ∀ clause ∈ clauses, ∀ id ∈ clause.init.toList,
      c.unit.isShort id = true) →
    ∀ Γ, Forms c Γ (lowerClauses walk frame clauses) (fun r => .each .node r.1) := by
  induction clauses with
  | nil =>
    intro _ _ Γ
    unfold lowerClauses
    infer_instance
  | cons clause rest ih =>
    intro hnames hshort Γ
    obtain ⟨hclause, hrest⟩ := List.forall_mem_cons.mp hnames
    obtain ⟨hkey, hvalue⟩ := List.forall_mem_append.mp hclause
    have hinner : ∀ Δ, Forms c Δ (lowerClauses walk frame rest) (fun r => .each .node r.1) :=
      ih hrest (fun h => (List.forall_mem_cons.mp (hshort h)).2)
    unfold lowerClauses
    refine (Walk.Forms.expr Γ clause.source .none).forms.bind (fun source => ?_)
    refine provides_defaultValue.forms.bind (fun value => ?_)
    dsimp only
    refine .skip (fun plan => ?_)
    split
    · infer_instance
    · refine provides_takeHoisted.forms.bind (fun hoisted => ?_)
      refine Forms.bind (Forms.inScope (.skip (fun _ => forms_lowerClauseBody
        (fun h => (List.forall_mem_cons.mp (hshort h)).1) hinner))) (fun body => ?_)
      refine (forms_emitRange (fun name hname => hkey name (Option.mem_toList.mpr hname))
        (fun name hname => hvalue name (Option.mem_toList.mpr hname))).bind (fun loop => ?_)
      infer_instance

instance provides_comprehensionResults {frame : ComprehensionFrame} {yielded : Yielded} :
    Provides c Γ (comprehensionResults frame yielded)
      (fun results => .known (∀ name ∈ results.filterMap (·.name), c.Declares name)) := by
  have hresult : c.Declares Names.result := .reserved (.inr ⟨0, rfl⟩)
  constructor
  unfold comprehensionResults
  dsimp only
  split
  · refine .skip (fun type => .pure ⟨fun _ => List.forall_mem_singleton.mpr hresult⟩)
  · refine .skip (fun type => .pure ⟨fun _ => List.forall_mem_singleton.mpr hresult⟩)
  · exact .pure ⟨fun _ => List.forall_mem_singleton.mpr inferInstance⟩
  · refine .pure ⟨fun _ => List.forall_mem_cons.mpr ⟨hresult, ?_⟩⟩
    split
    · exact List.forall_mem_singleton.mpr inferInstance
    · nofun

instance provides_lowerEmptyResult {frame : ComprehensionFrame} {results : List HostParam} :
    Provides c Γ (lowerEmptyResult frame results) (.each .node) := by
  constructor
  unfold lowerEmptyResult
  split <;> infer_instance

theorem forms_lowerComprehension {yields : Yield} {clauses : List ForClause}
    {expect : Expectation} (hnames : ∀ clause ∈ clauses, ∀ name ∈ clause.names, c.Declares name)
    (hshort : c.unit.ShortHeaders → ∀ clause ∈ clauses, ∀ id ∈ clause.init.toList,
      c.unit.isShort id = true) :
    Forms c Γ (lowerComprehension walk yields clauses span expect) (fun o => .inline o.id) := by
  unfold lowerComprehension
  dsimp only
  refine (forms_lowerClauses clauses hnames hshort Γ).inFunction.bind (fun loops => ?_)
  refine provides_comprehensionResults.forms.bind (fun results => ?_)
  refine .knowing (p := ∀ name ∈ results.filterMap (·.name), c.Declares name) (fun hresults => ?_)
  refine provides_lowerEmptyResult.forms.bind (fun start => ?_)
  refine provides_returnNode.forms.bind (fun done => ?_)
  exact forms_immediateCall hresults

/-! ## Expressions -/

instance provides_lowerGrouping {inner : NodeId} {expect : Expectation} :
    Provides c Γ (lowerGrouping walk inner span expect) (.operand c) := by
  constructor
  unfold lowerGrouping
  refine (Walk.Forms.expr Γ inner expect).forms.bind (fun operand => .skip (fun invalid => ?_))
  split
  · infer_instance
  · rename_i hvalue
    have := inline_of_mode (c := c) (Γ := Γ.and (.operand c operand)) (o := operand) (by
      intro hmode
      simp [Operand.isValue, hmode] at hvalue)
    infer_instance

theorem forms_lowerExprKind {id : NodeId} {expression : Expr} {expect : Expectation}
    (hexpr : c.unit.expr? id = some expression) :
    Forms c Γ (lowerExprKind walk expression span expect) (.operand c) := by
  have hnames : ∀ name ∈ SourceUnit.exprNames expression, c.Declares name := fun name hname =>
    .source id ((SourceUnit.namesAt_expr hexpr).symm ▸ hname)
  cases expression with
  | lambda params body => exact (forms_lowerLambda hnames).weaken (fun _ => inferInstance)
  | comprehension yields clauses =>
    refine (forms_lowerComprehension (fun clause hclause name hname => hnames name
      (List.mem_flatMap.mpr ⟨clause, hclause, hname⟩)) (fun h clause hclause part hpart =>
        h id part ?_)).weaken (fun _ => inferInstance)
    rw [SourceUnit.headersAt_comprehension hexpr]
    exact List.mem_flatMap.mpr ⟨clause, hclause, hpart⟩
  | errorWrap inner policy => exact forms_lowerErrorWrap hexpr
  | _ =>
    unfold lowerExprKind
    infer_instance

instance provides_lowerExpr {id : NodeId} {expect : Expectation} :
    Provides c Γ (lowerExpr walk id expect) (.operand c) := by
  constructor
  unfold lowerExpr
  refine .skip (fun span => .read ?_)
  split
  · rename_i hexpr
    exact forms_lowerExprKind hexpr
  · infer_instance

end GoLowering.Lowering
