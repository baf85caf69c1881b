import GoLowering.Proofs.BalancedExpressions

/-!
# Balances of composite literals and calls

The elements of a literal and the arguments of a call weigh what the literal or the call weighs.
-/

namespace GoLowering.Lowering

open Surface Walk.Balanced

/-- What an element of a composite literal weighs. -/
noncomputable def Watch.element (w : Watch) (e : HostElement) : ℕ∞ :=
  w.values e.key.toList + w.value e.value

theorem Watch.values_flatMap {α : Type} (w : Watch) (f : α → List HostId) (xs : List α) :
    w.values (xs.flatMap f) = (xs.map (fun x => w.values (f x))).sum := by
  induction xs with
  | nil => rfl
  | cons x xs ih => rw [List.flatMap_cons, values_append, ih, List.map_cons, List.sum_cons]

theorem Watch.kind_composite (w : Watch) (type : Option TypeId) (elements : List HostElement) :
    w.kind (.composite type elements) = (elements.map w.element).sum := by
  simp only [kind, HostKind.unlisted, HostKind.listed, HostKind.children, values_flatMap,
    entries_nil, add_zero]
  exact congrArg List.sum (List.map_congr_left (fun e _ => by simp [element]))

variable (w : Watch) {walk : Walk} [walk.Balanced w]

/-! ## Elements of known types -/

omit [walk.Balanced w] in
theorem balances_compositeOperand (type : TypeId) (elements : List HostElement) (span : Span) :
    w.Balances ((elements.map w.element).sum) (compositeOperand type elements span) w.operand := by
  unfold compositeOperand
  exact .finish (.placing (w.kind_composite _ _).symm) (fun _ _ => rfl)

theorem balances_lowerPositionalFields (elements : List Element) (fields : List Field) :
    w.Balances 0 (lowerPositionalFields walk elements fields)
      (fun es => (es.map w.element).sum) := by
  induction elements generalizing fields with
  | nil => exact .pure (fun _ => rfl)
  | cons element elements ih =>
    cases fields with
    | nil => exact .pure (fun _ => rfl)
    | cons field fields =>
      unfold lowerPositionalFields
      refine .wholly (balances_lowerInto w _ _) (fun value => ?_)
      exact .next (ih fields) (fun es => .pure (fun _ => by simp [Watch.element, add_comm]))

theorem balances_lowerKeyedField (type : TypeId) (fields : List Field) (key value : NodeId) :
    w.Balances 0 (lowerKeyedField walk type fields key value) w.element := by
  unfold lowerKeyedField
  refine .skip (fun span => .read (fun c => ?_))
  split
  · exact .skip (fun text => .failing)
  · split
    · exact .skip (fun name => .failing)
    · refine .next (.placing (by simp)) (fun key => ?_)
      exact .next (balances_lowerInto w _ _) (fun value => .pure (fun _ => by
        simp [Watch.element, add_comm]))

theorem balances_lowerFields (type : TypeId) (fields : List Field) (elements : List Element)
    (span : Span) :
    w.Balances 0 (lowerFields walk type fields elements span)
      (fun es => (es.map w.element).sum) := by
  unfold lowerFields
  dsimp only
  split
  · split
    · exact balances_lowerPositionalFields w _ _
    · exact .failing
  · split
    · exact .failing
    · exact .forEach (fun entry => balances_lowerKeyedField w _ _ _ _) _

theorem balances_lowerIndexedFrom (type : TypeId) (next : Nat) (elements : List Element) :
    w.Balances 0 (lowerIndexedFrom walk type next elements)
      (fun r => (r.1.map w.element).sum) := by
  induction elements generalizing next with
  | nil => exact .pure (fun _ => rfl)
  | cons element rest ih =>
    unfold lowerIndexedFrom
    have tail (r : Option HostId × Nat) : w.Balances (w.values r.1.toList)
        (do let value ← lowerInto walk element.value type
            let later ← lowerIndexedFrom walk type (indexAfter r.2) rest
            return (⟨r.1, value⟩ :: later.1, max (indexAfter r.2) later.2))
        (fun r => (r.1.map w.element).sum) := by
      refine .next (balances_lowerInto w _ _) (fun value => ?_)
      exact .next (ih _) (fun r => .pure (fun _ => by simp [Watch.element]; ac_rfl))
    dsimp only
    split
    · exact .returned ((tail _).given (fun _ => rfl))
    · refine .wholly (balances_expr _ _) (fun operand => ?_)
      split
      · exact .returned (.opened ((tail _).given (fun _ => by simp)))
      · exact .failing

theorem balances_lowerMapEntry (keyType valueType : TypeId) (span : Span) (element : Element) :
    w.Balances 0 (lowerMapEntry walk keyType valueType span element) w.element := by
  unfold lowerMapEntry
  split
  · exact .failing
  · refine .wholly (balances_lowerInto w _ _) (fun key => ?_)
    exact .next (balances_lowerInto w _ _) (fun value => .pure (fun _ => by
      simp [Watch.element, add_comm]))

theorem balances_lowerElements (type : TypeId) (elements : List Element) (span : Span) :
    w.Balances 0 (lowerElements walk type elements span) w.operand := by
  unfold lowerElements
  refine .skip (fun types => ?_)
  split
  · exact .wholly (balances_lowerFields w _ _ _ _) (fun es => balances_compositeOperand w _ _ _)
  · exact .wholly (balances_lowerIndexedFrom w _ _ _) (fun r => balances_compositeOperand w _ _ _)
  · refine .wholly (balances_lowerIndexedFrom w _ _ _) (fun r => ?_)
    dsimp only
    split
    · exact .failing
    · exact balances_compositeOperand w _ _ _
  · exact .wholly (.forEach (balances_lowerMapEntry w _ _ _) _) (fun es =>
      balances_compositeOperand w _ _ _)
  · exact balances_compositeOperand w _ [] _
  · exact .skip (fun name => .failing)

theorem balances_lowerElementsInto (type : TypeId) (elements : List Element) (span : Span) :
    w.Balances 0 (lowerElementsInto walk type elements span) w.operand := by
  unfold lowerElementsInto
  refine .skip (fun types => ?_)
  split
  · split
    · refine .wholly (balances_lowerElements w _ _ _) (fun inner => .opened ?_)
      exact .finish (.placing (by simp)) (fun _ _ => rfl)
    · exact balances_lowerElements w _ _ _
  · exact balances_lowerElements w _ _ _

/-! ## Literals without a type -/

theorem balances_lowerIndexKey (key : NodeId) :
    w.Balances 0 (lowerIndexKey walk key) w.value := by
  unfold lowerIndexKey
  refine .wholly (balances_expr _ _) (fun operand => ?_)
  split
  · exact .opened (.pure (fun _ => rfl))
  · exact .failing

theorem balances_lowerSliceElement (element : Element) :
    w.Balances 0 (lowerSliceElement walk element)
      (fun r => w.values r.1.toList + w.operand r.2) := by
  unfold lowerSliceElement
  refine .wholly (.optionMapM (balances_lowerIndexKey w) _) (fun key => ?_)
  exact .next (balances_expr _ _) (fun value => .pure (fun _ => add_comm _ _))

theorem balances_inferSlice (elements : List Element) (span : Span) :
    w.Balances 0 (inferSlice walk elements span) w.operand := by
  unfold inferSlice
  refine .wholly (.forEach (balances_lowerSliceElement w) _) (fun elements => ?_)
  refine .skip (fun element => .skip (fun type => ?_))
  refine .wholly (.mapM (W := w.element) (fun r => ?_) elements) (fun es =>
    balances_compositeOperand w _ _ _)
  exact .spend (balances_coerce _ _) (add_comm _ _) (fun value => .pure (fun _ => add_comm _ _))

theorem balances_lowerSliceLiteral (elements : List Element) (span : Span)
    (expect : Expectation) :
    w.Balances 0 (lowerSliceLiteral walk elements span expect) w.operand := by
  unfold lowerSliceLiteral
  refine .skip (fun types => ?_)
  extract_lets bare
  have bare : w.Balances 0 bare w.operand := by
    unfold bare
    split
    · exact .failing
    · exact balances_inferSlice w _ _
  split
  · exact bare
  · split
    · exact balances_lowerElementsInto w _ _ _
    · exact balances_lowerElementsInto w _ _ _
    · split
      · exact .skip (fun type => balances_lowerElementsInto w _ _ _)
      · exact bare
    · exact bare

theorem balances_lowerMapElement (key value : NodeId) :
    w.Balances 0 (lowerMapElement walk key value) (fun r => w.operand r.1 + w.operand r.2) := by
  unfold lowerMapElement
  refine .wholly (balances_expr _ _) (fun key => ?_)
  exact .next (balances_expr _ _) (fun value => .pure (fun _ => add_comm _ _))

theorem balances_inferMap (elements : List (NodeId × NodeId)) (span : Span) :
    w.Balances 0 (inferMap walk elements span) w.operand := by
  unfold inferMap
  refine .wholly (.forEach (fun entry => balances_lowerMapElement w _ _) _) (fun elements => ?_)
  refine .skip (fun keyType => .skip (fun valueType => .skip (fun type => ?_)))
  refine .wholly (.mapM (W := w.element) (fun r => ?_) elements) (fun es =>
    balances_compositeOperand w _ _ _)
  refine .bind (balances_coerce _ _) (fun key => ?_)
  exact .spend (balances_coerce _ _) (add_comm _ _) (fun value => .pure (fun _ => by
    simp [Watch.element, add_comm]))

theorem balances_lowerBareComposite (elements : List Element) (span : Span) :
    w.Balances 0 (lowerBareComposite walk elements span) w.operand := by
  unfold lowerBareComposite
  dsimp only
  split
  · exact .failing
  · split
    · exact .failing
    · exact balances_inferMap w _ _

theorem balances_lowerTypedComposite (type : NodeId) (elements : List Element) (span : Span) :
    w.Balances 0 (lowerTypedComposite walk type elements span) w.operand := by
  unfold lowerTypedComposite
  refine .read (fun c => ?_)
  split
  · refine .pass (balances_type _) (fun element => ?_)
    refine .wholly (balances_lowerIndexedFrom w _ _ _) (fun r => .skip (fun type => ?_))
    exact balances_compositeOperand w _ _ _
  · exact .pass (balances_type _) (fun type => balances_lowerElementsInto w _ _ _)

theorem balances_lowerComposite (type : Option NodeId) (elements : List Element) (span : Span)
    (expect : Expectation) :
    w.Balances 0 (lowerComposite walk type elements span expect) w.operand := by
  unfold lowerComposite
  split
  · exact balances_lowerTypedComposite w _ _ _
  · exact balances_lowerBareComposite w _ _
  · refine .skip (fun types => ?_)
    split
    · exact balances_lowerElementsInto w _ _ _
    · split
      · exact .skip (fun type => balances_lowerElementsInto w _ _ _)
      · exact balances_lowerBareComposite w _ _

/-! ## Arguments -/

theorem balances_lowerArgument (argument : Argument) (expect : Expectation) :
    w.Balances 0 (lowerArgument walk argument expect) w.operand := by
  cases argument with
  | node id => exact balances_expr _ _
  | signed op operand span => exact balances_lowerUnary w _ _ _ _

theorem balances_argumentInto (argument : Argument) (target : TypeId) :
    w.Balances 0 (argumentInto walk argument target) w.value := by
  unfold argumentInto
  exact .wholly (balances_lowerArgument w _ _) (fun operand => balances_coerce _ _)

theorem balances_argumentByDefault (argument : Argument) :
    w.Balances 0 (argumentByDefault walk argument) (fun r => w.value r.1) := by
  unfold argumentByDefault
  exact .wholly (balances_lowerArgument w _ _) (fun operand => balances_defaultValue _)

theorem balances_lowerSpreadArgument (sig : Signature) (argument : Argument) (span : Span) :
    w.Balances 0 (lowerSpreadArgument walk sig argument span) w.values := by
  unfold lowerSpreadArgument
  extract_lets count
  refine .skip (fun types => .wholly (balances_lowerArgument w _ _) (fun operand => ?_))
  refine .skip (fun types => ?_)
  split
  · extract_lets fits
    split
    · exact .failing
    · refine .skip (fun mismatch => ?_)
      split
      · exact .failing
      · exact .opened (.pure (fun _ => by simp))
  · split
    · exact .finish (balances_coerce _ _) (fun _ _ => by simp)
    · exact .failing

theorem balances_lowerArgumentsFrom (sig : Signature) (spread : Bool) (index : Nat)
    (args : List Argument) :
    w.Balances 0 (lowerArgumentsFrom walk sig spread index args) w.values := by
  induction args generalizing index with
  | nil => exact .pure (fun _ => rfl)
  | cons argument rest ih =>
    unfold lowerArgumentsFrom
    refine .skip (fun types => .wholly (balances_argumentInto w _ _) (fun id => ?_))
    exact .next (ih _) (fun ids => .pure (fun _ => by simp [add_comm]))

theorem balances_lowerArguments (sig : Signature) (args : List Argument) (spread : Bool)
    (span : Span) :
    w.Balances 0 (lowerArguments walk sig args spread span) w.values := by
  unfold lowerArguments
  dsimp only
  split
  · exact balances_lowerSpreadArgument w _ _ _
  · unfold lowerArgumentList
    extract_lets count variadic countFits
    split
    · exact balances_lowerArgumentsFrom w _ _ _ _
    · exact .failing

/-! ## Conversions -/

omit [walk.Balanced w] in
theorem balances_convertOperand (callee : HostId) (target : TypeId) (operand : Operand)
    (span : Span) :
    w.Balances (⊤ * w.value callee + w.operand operand)
      (convertOperand callee target operand span) w.operand := by
  unfold convertOperand
  refine .skip (fun _ => .skip (fun types => ?_))
  extract_lets untyped convert
  have converted (value : Option Constant) (hvalue : value.isSome → operand.isInert) :
      w.Balances (⊤ * w.value callee + w.operand operand) (convert value) w.operand := by
    refine .skip (fun big => ?_)
    cases hinert : operand.isInert with
    | true =>
      -- A constant is made of constants.
      have called (argument : HostId) : w.Balances (⊤ * w.value argument + ⊤ * w.value callee)
          (do let id ← place (.call callee [argument] false) span
              return .ofConstant id target value span) w.operand :=
        .finish (.placeInert (fun _ => by simp [mul_add, add_comm])) (fun _ h =>
          Watch.operand_eq_top_mul h)
      rw [Watch.operand_inert hinert]
      refine .swap ?_
      split
      · refine .given (.bind (balances_defaultValue operand).inert (fun r => .returned (called _)))
          (fun _ => ?_)
        rw [Watch.operand_inert hinert, ← mul_assoc, ENat.top_mul ENat.top_ne_zero]
      · exact .returned (called _)
    | false =>
      obtain rfl : value = none := by
        by_contra hne
        rw [hvalue (Option.isSome_iff_ne_none.mpr hne)] at hinert
        cases hinert
      have called (argument : HostId) : w.Balances (w.value argument + ⊤ * w.value callee)
          (do let id ← place (.call callee [argument] false) span
              return .ofConstant id target none span) w.operand := by
        refine .swap (.voiding ?_)
        exact .finish (.placing (by simp)) (fun _ _ => rfl)
      refine .swap ?_
      split
      · exact .bind (balances_defaultValue operand) (fun r => .returned (called _))
      · exact .opening (.returned (called _))
  refine .read (fun c => ?_)
  split
  · exact .voided (.finish (balances_materialize _ _) (fun _ _ => rfl))
  · split
    · rename_i huntyped
      simp only [untyped, Bool.and_eq_true] at huntyped
      exact .skip (fun value => converted value (fun _ => by simp [Operand.isInert, huntyped.1]))
    · exact .returned (converted none (fun h => by cases h))

/-- A type that is converted to may be dropped. -/
theorem balances_lowerConversion (callee : Operand) (hmode : callee.mode = .type)
    (args : List Argument) (span : Span) :
    w.Balances (w.operand callee) (lowerConversion walk callee args span) w.operand := by
  have hinert : callee.isInert := by simp [Operand.isInert, hmode]
  unfold lowerConversion
  split
  · refine .read (fun c => .skip (fun types => ?_))
    split
    · exact .dropped hinert (balances_lowerElementsInto w _ _ _)
    · refine .next (balances_lowerArgument w _ _) (fun operand => .swap ?_)
      exact (balances_convertOperand w _ _ _ _).given (fun _ => by
        rw [Watch.operand_inert hinert])
  · exact .failing

/-! ## Built-in functions -/

theorem balances_argumentType (argument : Argument) :
    w.Balances 0 (argumentType walk argument) (fun _ => 0) := by
  unfold argumentType
  refine .wholly (balances_lowerArgument w _ _) (fun operand => ?_)
  split
  · rename_i hmode
    exact .dropped (by simp [Operand.isInert, eq_of_beq hmode]) (.pure (fun _ => rfl))
  · exact .failing

theorem balances_lowerAppend (first : Argument) (rest : List Argument) (spread : Bool)
    (span : Span) (expect : Expectation) :
    w.Balances 0 (lowerAppend walk first rest spread span expect) (fun r => w.values r.1) := by
  unfold lowerAppend
  refine .wholly (balances_lowerArgument w _ _) (fun slice => .skip (fun types => ?_))
  split
  · refine .wholly (balances_coerce _ _) (fun id => ?_)
    split
    · exact .failing
    · extract_lets target
      refine .next (.forEach (fun argument => balances_argumentInto w _ _) _) (fun ids => ?_)
      exact .pure (fun _ => by simp [Watch.values, add_comm])
  · exact .failing

theorem balances_lowerMake (type : Argument) (sizes : List Argument) (span : Span) :
    w.Balances 0 (lowerMake walk type sizes span) (fun r => w.values r.1) := by
  unfold lowerMake
  refine .pass (balances_argumentType w _) (fun type => .skip (fun types => ?_))
  have made : w.Balances 0
      (do let node ← typeNode type
          let sizes ← sizes.mapM (argumentInto walk · TypeTable.int)
          return (node :: sizes, [type])) (fun r => w.values r.1) := by
    refine .wholly (.scaffolding (by simp)) (fun node => ?_)
    refine .next (.forEach (fun argument => balances_argumentInto w _ _) _) (fun ids => ?_)
    exact .pure (fun _ => by simp [Watch.values, add_comm])
  split
  · exact made
  · exact made
  · exact made
  · exact .failing

theorem balances_lowerBuiltinParts (function : Builtin) (args : List Argument) (spread : Bool)
    (span : Span) (expect : Expectation) :
    w.Balances 0 (lowerBuiltinParts walk function args spread span expect)
      (fun r => w.values r.1) := by
  unfold lowerBuiltinParts
  have single (id : HostId) (types : List TypeId) :
      w.Balances (w.value id) (pure ([id], types)) (fun r => w.values r.1) :=
    .pure (fun _ => by simp)
  have pair (id id' : HostId) (types : List TypeId) :
      w.Balances (w.value id' + w.value id) (pure ([id, id'], types)) (fun r => w.values r.1) :=
    .pure (fun _ => by simp [add_comm])
  have length (capacity : Bool) (arg : Argument) : w.Balances 0
      (do let value ← argumentByDefault walk arg
          if hasLength (← getTypes) value.2 capacity then return ([value.1], [TypeTable.int])
          else failOperation function.name value.2 span) (fun r => w.values r.1) := by
    refine .wholly (balances_argumentByDefault w _) (fun r => .skip (fun types => ?_))
    split
    · exact single _ _
    · exact .failing
  split
  · exact length _ _
  · exact length _ _
  · exact balances_lowerAppend w _ _ _ _ _
  · split
    · exact balances_lowerMake w _ _ _
    · exact .failing
  · refine .pass (balances_argumentType w _) (fun type => .skip (fun pointer => ?_))
    exact .wholly (.scaffolding (by simp)) (fun id => single _ _)
  · refine .wholly (balances_argumentByDefault w _) (fun r => .skip (fun types => ?_))
    split
    · exact .next (balances_argumentInto w _ _) (fun key => pair _ _ _)
    · exact .failing
  · refine .wholly (balances_argumentByDefault w _) (fun r => .skip (fun types => ?_))
    split
    · exact single _ _
    · exact single _ _
    · exact .failing
  · refine .wholly (balances_argumentByDefault w _) (fun target => ?_)
    exact .next (balances_argumentByDefault w _) (fun source => pair _ _ _)
  · exact .wholly (balances_argumentInto w _ _) (fun id => single _ _)
  · exact .pure (fun _ => rfl)
  · refine .wholly (balances_argumentByDefault w _) (fun real => ?_)
    refine .next (balances_argumentByDefault w _) (fun imag => .skip (fun kind => ?_))
    exact pair _ _ _
  · refine .wholly (balances_argumentByDefault w _) (fun r => .skip (fun kind => ?_))
    split
    · exact single _ _
    · split
      · exact single _ _
      · exact .failing
    · exact .failing
  · refine .wholly (balances_argumentByDefault w _) (fun r => .skip (fun kind => ?_))
    split
    · exact single _ _
    · split
      · exact single _ _
      · exact .failing
    · exact .failing
  · exact .failing

/-! ## Calls -/

theorem balances_callOperand (callee : Operand) (args : List Argument) (spread : Bool)
    (span : Span) (expect : Expectation) :
    w.Balances (w.operand callee) (callOperand walk callee args spread span expect)
      w.operand := by
  unfold callOperand
  split
  · rename_i hmode
    exact balances_lowerConversion w callee hmode _ _
  · refine .opened (.next (balances_lowerBuiltinParts w _ _ _ _ _) (fun r => ?_))
    exact .wholly (.placing (by simp [add_comm])) (fun id => balances_resultOperand _ _ _)
  · refine .opened (.skip (fun invalid => ?_))
    split
    · refine .next (.forEach (fun argument => balances_lowerArgument w _ _) _) (fun operands => ?_)
      have called : w.Balances (w.values (operands.map (·.id)) + w.value callee.id)
          (do let id ← place (.call callee.id (operands.map (·.id)) spread) span
              return .value id callee.type span) w.operand :=
        .finish (.placing (by simp [add_comm])) (fun _ _ => rfl)
      refine called.given (fun hne => ?_)
      rw [Watch.operands_eq_values (fun he => hne (by rw [he, top_add]))]
    · refine .skip (fun types => ?_)
      split
      · refine .next (balances_lowerArguments w _ _ _ _) (fun ids => ?_)
        exact .wholly (.placing (by simp [add_comm])) (fun id => balances_resultOperand _ _ _)
      · exact .failing
  · exact .failing
  · exact .failing
  · exact .failing

theorem balances_lowerCall (callee : NodeId) (args : List NodeId) (spread : Bool) (span : Span)
    (expect : Expectation) :
    w.Balances 0 (lowerCall walk callee args spread span expect) w.operand := by
  unfold lowerCall
  exact .wholly (balances_expr _ _) (fun callee => balances_callOperand w _ _ _ _ _)

theorem balances_lowerAmbiguousCommand (head : NodeId) (op : UnaryOp) (operand : NodeId)
    (span : Span) (expect : Expectation) :
    w.Balances 0 (lowerAmbiguousCommand walk head op operand span expect) w.operand := by
  unfold lowerAmbiguousCommand
  refine .wholly (balances_expr _ _) (fun head => .skip (fun callable => ?_))
  split
  · exact .skip (fun span => balances_callOperand w _ _ _ _ _)
  · split
    · exact .next (balances_expr _ _) (fun operand => .swap (balances_lowerBinary _ _ _ _))
    · exact .failing

end GoLowering.Lowering
