import GoLowering.Proofs.BalancedOperands

/-!
# Balances of expressions

Every part of the lowering of an expression gives a result that weighs what is hoisted for it and
below it, provided that the parts of the walk do so.
-/

namespace GoLowering.Lowering

open Surface Walk.Balanced

/-! ## Names -/

section

variable {w : Watch}

theorem balances_typeOperand (type : TypeId) (span : Span) :
    w.Balances 0 (typeOperand type span) w.operand := by
  unfold typeOperand
  exact .wholly (.placeInert (by simp)) (fun id => .pure (fun _ => rfl))

/-- A name may be dropped, whatever is known of it. -/
theorem balances_namedOperand (name : String) (type : TypeId) (span : Span) :
    w.Balances 0 (namedOperand name type span) (fun o => ⊤ * w.value o.id) := by
  unfold namedOperand
  exact .wholly (.placeInert (by simp)) (fun id => .pure (fun _ => rfl))

theorem balances_symbolOperand (name : String) (symbol : Symbol) (span : Span) :
    w.Balances 0 (symbolOperand name symbol span) w.operand := by
  unfold symbolOperand
  split
  · exact balances_typeOperand _ _
  · exact (balances_namedOperand _ _ _).giving (fun _ => Watch.operand_eq_top_mul)
  · exact (balances_namedOperand _ _ _).finish (fun _ h => Watch.operand_eq_top_mul h)

theorem balances_memberNode (package : Option String) (name : String) (span : Span) :
    w.Balances 0 (memberNode package name span) (fun id => ⊤ * w.value id) := by
  unfold memberNode
  split <;> exact .placeInert (by simp)

theorem balances_resolvedOperand (resolution : Resolution) (package : Option String)
    (name : String) (span : Span) :
    w.Balances 0 (resolvedOperand resolution package name span) w.operand := by
  unfold resolvedOperand
  split
  · exact (balances_memberNode _ _ _).finish (fun _ h => Watch.operand_eq_top_mul h)
  · exact (balances_memberNode _ _ _).finish (fun _ h => Watch.operand_eq_top_mul h)
  · exact (balances_namedOperand _ _ _).finish (fun _ h => Watch.operand_eq_top_mul h)
  · exact balances_typeOperand _ _
  · exact (balances_namedOperand _ _ _).finish (fun _ h => Watch.operand_eq_top_mul h)
  · exact (balances_namedOperand _ _ _).finish (fun _ h => Watch.operand_eq_top_mul h)

theorem balances_resultOperand (call : HostId) (results : List TypeId) (span : Span) :
    w.Balances (w.value call) (resultOperand call results span) w.operand := by
  unfold resultOperand
  split
  · exact .pure (fun _ => rfl)
  · refine .skip (fun type => .pure (fun _ => Watch.operand_live ?_))
    cases results <;> rfl

theorem balances_immediateCall (results : List HostParam) (body : List HostId) (span : Span) :
    w.Balances (w.entries body) (immediateCall results body span) w.operand := by
  unfold immediateCall
  refine .wholly (.scaffolding (by simp)) (fun body => ?_)
  refine .wholly (.placing (by simp)) (fun literal => ?_)
  exact .wholly (.placing (by simp)) (fun call => balances_resultOperand _ _ _)

theorem balances_zeroValue (type : TypeId) : w.Balances 0 (zeroValue type) w.value := by
  unfold zeroValue
  refine .skip (fun types => ?_)
  split
  · split
    · exact .scaffolding (by simp)
    · split
      · exact .scaffolding (by simp)
      · split <;> exact .scaffolding (by simp)
  all_goals exact .scaffolding (by simp)

theorem balances_lowerLiteral (kind : Surface.LiteralKind) (text : String) (span : Span) :
    w.Balances 0 (lowerLiteral kind text span) w.operand := by
  unfold lowerLiteral
  split
  · exact .wholly (.placeInert (by simp)) (fun id => .pure (fun _ => rfl))
  · exact .failing

end

variable (w : Watch) {walk : Walk} [walk.Balanced w]

theorem balances_nameOperand? (name : String) (span : Span) :
    w.Balances 0 (nameOperand? walk name span) (fun r => r.elim 0 w.operand) := by
  unfold nameOperand?
  refine .get (fun s => ?_)
  split
  · exact (balances_symbolOperand _ _ _).finish (fun _ _ => rfl)
  · exact balances_unbound? name span

theorem balances_lowerIdentifier (name : String) (span : Span) :
    w.Balances 0 (lowerIdentifier walk name span) w.operand := by
  unfold lowerIdentifier
  split
  · exact .failing
  · refine .wholly (balances_nameOperand? w name span) (fun found => ?_)
    split
    · exact .pure (fun _ => rfl)
    · dsimp only
      split
      · exact .returned .failing
      · refine .wholly (balances_nameOperand? w _ span) (fun fallback => ?_)
        split
        · exact .pure (fun _ => rfl)
        · exact .failing

/-! ## Types -/

theorem balances_lowerParams (variadic : Bool) (params : List Param) :
    w.Balances 0 (lowerParams walk variadic params) (fun _ => 0) := by
  induction params with
  | nil => exact .pure (fun _ => rfl)
  | cons param rest ih =>
    unfold lowerParams
    refine .pass (balances_type _) (fun type => ?_)
    dsimp only
    split
    · exact .skip (fun type => .finish ih (fun _ _ => rfl))
    · exact .returned (.finish ih (fun _ _ => rfl))

theorem balances_lowerSignature (id : NodeId) :
    w.Balances 0 (lowerSignature walk id) (fun _ => 0) := by
  unfold lowerSignature
  refine .read (fun c => ?_)
  split
  · refine .pass (balances_lowerParams w _ _) (fun params => ?_)
    refine .pass (balances_lowerParams w _ _) (fun results => ?_)
    exact .skip (fun type => .pure (fun _ => rfl))
  · exact .skip (fun _ => .skip (fun _ => .failing))

theorem balances_arrayLength (id : NodeId) :
    w.Balances 0 (arrayLength walk id) (fun _ => 0) := by
  unfold arrayLength
  refine .wholly (balances_expr id .none) (fun operand => ?_)
  split
  · rename_i n _ hconstant
    refine .dropped (by simp [Operand.isInert, hconstant]) ?_
    split
    · exact .pure (fun _ => rfl)
    · exact .failing
  · exact .skip (fun text => .failing)

theorem balances_lowerField (field : FieldSpec) :
    w.Balances 0 (lowerField walk field) (fun _ => 0) := by
  unfold lowerField
  refine .pass (balances_type _) (fun type => ?_)
  split
  · exact .pure (fun _ => rfl)
  · exact .skip (fun types => .pure (fun _ => rfl))

theorem balances_lowerInterfaceMethod (method : MethodSpec) :
    w.Balances 0 (lowerInterfaceMethod walk method) (fun _ => 0) := by
  unfold lowerInterfaceMethod
  exact (balances_lowerSignature w _).finish (fun _ _ => rfl)

theorem balances_typeOfExpression (id : NodeId) :
    w.Balances 0 (typeOfExpression walk id) (fun _ => 0) := by
  unfold typeOfExpression
  refine .skip (fun span => .read (fun c => ?_))
  split
  · exact balances_typeOfName _ _
  · refine .read (fun c => ?_)
    split
    · exact .skip (fun path => .still (fun _ _ _ _ _ => rfl))
    · exact .skip (fun text => .failing)
  · exact .pass (balances_type _) (fun target => .still (fun _ _ _ _ _ => rfl))
  · exact balances_type _
  · exact .skip (fun text => .failing)

theorem balances_lowerType (id : NodeId) : w.Balances 0 (lowerType walk id) (fun _ => 0) := by
  unfold lowerType
  refine .skip (fun span => .read (fun c => ?_))
  split
  · exact balances_typeOfExpression w _
  · exact balances_typeOfName _ _
  · exact .skip (fun path => .still (fun _ _ _ _ _ => rfl))
  · exact .pass (balances_type _) (fun target => .still (fun _ _ _ _ _ => rfl))
  · exact .pass (balances_type _) (fun element => .still (fun _ _ _ _ _ => rfl))
  · exact .pass (balances_arrayLength w _) (fun length =>
      .pass (balances_type _) (fun element => .still (fun _ _ _ _ _ => rfl)))
  · exact .failing
  · exact .pass (balances_type _) (fun key =>
      .pass (balances_type _) (fun value => .still (fun _ _ _ _ _ => rfl)))
  · exact .pass (balances_type _) (fun element => .still (fun _ _ _ _ _ => rfl))
  · exact (balances_lowerSignature w _).finish (fun _ _ => rfl)
  · exact .pass (.passEach (balances_lowerField w) _) (fun fields =>
      .still (fun _ _ _ _ _ => rfl))
  · exact .pass (.passEach (balances_lowerInterfaceMethod w) _) (fun methods =>
      .still (fun _ _ _ _ _ => rfl))

/-! ## Values in typed places -/

theorem balances_lowerInto (id : NodeId) (target : TypeId) :
    w.Balances 0 (lowerInto walk id target) w.value := by
  unfold lowerInto
  exact .wholly (balances_expr _ _) (fun operand => balances_coerce _ _)

theorem balances_lowerByDefault (id : NodeId) :
    w.Balances 0 (lowerByDefault walk id) (fun r => w.value r.1) := by
  unfold lowerByDefault
  exact .wholly (balances_expr _ _) (fun operand => balances_defaultValue _)

theorem balances_lowerCondition (id : NodeId) :
    w.Balances 0 (lowerCondition walk id) w.value := by
  unfold lowerCondition
  refine .wholly (balances_expr _ _) (fun operand => .skip (fun boolean => ?_))
  split
  · exact (balances_defaultValue _).finish (fun _ _ => rfl)
  · exact .skip (fun name => .failing)

/-! ## Operators -/

theorem balances_lowerAddressOf (operand : NodeId) (span : Span) (expect : Expectation) :
    w.Balances 0 (lowerAddressOf walk operand span expect) w.operand := by
  unfold lowerAddressOf
  refine .skip (fun types => .wholly (balances_expr _ _) (fun inner => ?_))
  refine .skip (fun _ => .skip (fun type => .opened ?_))
  exact .finish (.placing (by simp)) (fun _ _ => rfl)

theorem balances_lowerReceive (operand : NodeId) (span : Span) :
    w.Balances 0 (lowerReceive walk operand span) w.operand := by
  unfold lowerReceive
  refine .wholly (balances_expr _ _) (fun channel => .skip (fun _ => ?_))
  dsimp only
  refine .skip (fun types => ?_)
  split
  · exact .opened (.finish (.placing (by simp)) (fun _ _ => rfl))
  · exact .opened (.finish (.placing (by simp)) (fun _ _ => rfl))
  · exact .failing

theorem balances_lowerUnary (op : UnaryOp) (operand : NodeId) (span : Span)
    (expect : Expectation) :
    w.Balances 0 (lowerUnary walk op operand span expect) w.operand := by
  unfold lowerUnary
  split
  · exact balances_lowerAddressOf w _ _ _
  · exact balances_lowerReceive w _ _
  · exact .wholly (balances_expr _ _) (fun operand => balances_lowerUnaryOperand _ _ _)

theorem balances_lowerDereference (inner : NodeId) (span : Span) :
    w.Balances 0 (lowerDereference walk inner span) w.operand := by
  unfold lowerDereference
  refine .wholly (balances_expr _ _) (fun operand => ?_)
  split
  · rename_i hmode
    refine .dropped (by simp [Operand.isInert, eq_of_beq hmode]) (.skip (fun type => ?_))
    exact .wholly (.placeInert (by simp)) (fun id => .pure (fun _ => rfl))
  · refine .skip (fun _ => ?_)
    dsimp only
    refine .skip (fun types => ?_)
    split
    · exact .opened (.finish (.placing (by simp)) (fun _ _ => rfl))
    · exact .opened (.finish (.placing (by simp)) (fun _ _ => rfl))
    · exact .failing

/-! ## Members -/

theorem balances_lowerPackageMember (path name : String) (span : Span) :
    w.Balances 0 (lowerPackageMember path name span) w.operand := by
  unfold lowerPackageMember
  refine .read (fun c => ?_)
  dsimp only
  split
  · exact balances_resolvedOperand _ _ _ _
  · split
    · exact balances_resolvedOperand _ _ _ _
    · exact .failing

theorem balances_lowerMethodExpression (object : Operand) (name : String) (span : Span) :
    w.Balances (w.operand object) (lowerMethodExpression object name span) w.operand := by
  unfold lowerMethodExpression
  refine .skip (fun found => ?_)
  split
  · exact .skip (fun type => .failing)
  · refine .skip (fun types => ?_)
    split
    · exact .failing
    · refine .skip (fun type => .skip (fun types => .opened ?_))
      dsimp only
      split
      · exact .wholly (.scaffolding (by simp)) (fun receiver =>
          .finish (.placing (by simp)) (fun _ _ => rfl))
      · exact .returned (.finish (.placing (by simp)) (fun _ _ => rfl))

theorem balances_lowerProperty (object : HostId) (method : Method) (span : Span)
    (expect : Expectation) :
    w.Balances (w.value object) (lowerProperty object method span expect) w.operand := by
  unfold lowerProperty
  refine .wholly (.placing (by simp)) (fun selector => .skip (fun types => ?_))
  split
  · exact .wholly (.placing (by simp)) (fun call => balances_resultOperand _ _ _)
  · exact .pure (fun _ => rfl)

theorem balances_lowerValueMember (object : Operand) (name : String) (span : Span)
    (expect : Expectation) :
    w.Balances (w.operand object) (lowerValueMember object name span expect) w.operand := by
  unfold lowerValueMember
  refine .wholly (balances_defaultValue _) (fun r => .skip (fun types => ?_))
  have select (name : String) (type : TypeId) : w.Balances (w.value r.1)
      (do return .value (← place (.selector r.1 name) span) type span) w.operand :=
    .finish (.placing (by simp)) (fun _ _ => rfl)
  dsimp only
  split
  · exact select _ _
  · split
    · exact select _ _
    · refine .skip (fun found => ?_)
      split
      · exact select _ _
      · refine .skip (fun found => ?_)
        split
        · exact balances_lowerProperty w _ _ _ _
        · exact .failing

theorem balances_lowerMember (object : NodeId) (name : String) (span : Span)
    (expect : Expectation) :
    w.Balances 0 (lowerMember walk object name span expect) w.operand := by
  unfold lowerMember
  refine .wholly (balances_expr _ _) (fun object => ?_)
  split
  · rename_i hmode
    exact .dropped (by simp [Operand.isInert, hmode]) (balances_lowerPackageMember w _ _ _)
  · exact balances_lowerMethodExpression w _ _ _
  · exact balances_lowerValueMember w _ _ _ _

/-! ## Access to parts of values -/

theorem balances_lowerPosition (index : NodeId) :
    w.Balances 0 (lowerPosition walk index) w.value := by
  unfold lowerPosition
  refine .wholly (balances_expr _ _) (fun operand => ?_)
  refine .wholly (balances_defaultValue _) (fun r => .skip (fun kind => .skip (fun invalid => ?_)))
  split
  · exact .pure (fun _ => rfl)
  · exact .skip (fun name => .failing)

theorem balances_lowerIndex (object index : NodeId) (span : Span) :
    w.Balances 0 (lowerIndex walk object index span) w.operand := by
  unfold lowerIndex
  refine .wholly (balances_expr _ _) (fun object => .skip (fun _ => .skip (fun types => ?_)))
  have select (index : HostId) (element : TypeId) (commaOk : Bool) :
      w.Balances (w.value index + w.operand object)
        (do let r ← defaultValue object
            let id ← place (.index r.1 index) span
            return { Operand.value id element span with commaOk }) w.operand := by
    refine .swap (.bind (balances_defaultValue _) (fun id => ?_))
    exact .finish (.placing (by simp)) (fun _ _ => rfl)
  dsimp only
  split
  · exact .next (balances_lowerInto w _ _) (fun _ => .returned (select _ _ _))
  · exact .next (balances_lowerPosition w _) (fun _ => .returned (select _ _ _))
  · exact .next (balances_lowerPosition w _) (fun _ => .returned (select _ _ _))
  · exact .next (balances_lowerByDefault w _) (fun _ => .returned (select _ _ _))
  · split
    · exact .next (balances_lowerPosition w _) (fun _ => .returned (select _ _ _))
    · exact .failing
  · exact .failing

theorem balances_lowerSlice (object : NodeId) (low high max : Option NodeId) (span : Span) :
    w.Balances 0 (lowerSlice walk object low high max span) w.operand := by
  unfold lowerSlice
  refine .wholly (balances_expr _ _) (fun object => .skip (fun _ => .skip (fun found => ?_)))
  split
  · exact .failing
  · refine .next (.optionMapM (balances_lowerPosition w) _) (fun low => ?_)
    refine .next (.optionMapM (balances_lowerPosition w) _) (fun high => ?_)
    refine .next (.optionMapM (balances_lowerPosition w) _) (fun max => ?_)
    refine .spend (E := w.values max.toList + (w.values high.toList + w.values low.toList))
      (balances_defaultValue _) ?_ (fun r => ?_)
    · simp only [Watch.values]
      abel
    · refine .finish (.placing ?_) (fun _ _ => rfl)
      simp only [Watch.kind, HostKind.unlisted, HostKind.listed, HostKind.children,
        Watch.values_cons, Watch.values_append, Watch.entries_nil]
      abel

theorem balances_lowerTypeAssertion (object : NodeId) (type : Option NodeId) (span : Span) :
    w.Balances 0 (lowerTypeAssertion walk object type span) w.operand := by
  unfold lowerTypeAssertion
  split
  · exact .failing
  · refine .wholly (balances_expr _ _) (fun object => .skip (fun _ => .skip (fun types => ?_)))
    split
    · refine .opened (.pass (balances_type _) (fun target => ?_))
      exact .finish (.placing (by simp)) (fun _ _ => rfl)
    · exact .failing

end GoLowering.Lowering
