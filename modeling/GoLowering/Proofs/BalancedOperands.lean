import GoLowering.Proofs.Balances

/-!
# What becomes of operands

What is made of operands in typed places and in operations weighs as much as they do.
-/

namespace GoLowering.Lowering

open Surface

variable {w : Watch}

/-! ## Numbers of registered types -/

theorem balances_bigFromText (name text : String) (base : Option String) :
    w.Balances 0 (bigFromText name text base) w.value := by
  unfold bigFromText
  refine .skip (fun type => .skip (fun pointer => ?_))
  refine .next (.scaffolding (by simp)) (fun new => ?_)
  refine .next (.scaffolding (by simp)) (fun typeArgument => ?_)
  refine .wholly (.scaffolding (by simp [add_comm])) (fun fresh => ?_)
  refine .wholly (.scaffolding (by simp)) (fun setString => ?_)
  refine .next (.scaffolding (by simp)) (fun digits => ?_)
  refine .next (.forEach (fun text => .scaffolding (by simp)) _) (fun base => ?_)
  refine .wholly (.scaffolding (by simp [Watch.values, add_comm, add_left_comm]))
    (fun parse => ?_)
  refine .next (.scaffolding (by simp)) (fun value => ?_)
  refine .next (.scaffolding (by simp)) (fun blank => ?_)
  refine .wholly (.scaffolding (by simp; ac_rfl)) (fun define => ?_)
  refine .next (.scaffolding (by simp)) (fun value => ?_)
  refine .bind (.scaffolding (by simp)) (fun ret => .listing ?_)
  refine .given (.listing ?_) (fun _ => add_comm _ _)
  refine .wholly (.scaffolding (by simp)) (fun body => ?_)
  exact .wholly (.scaffolding (by simp)) (fun literal => .scaffolding (by simp))

theorem balances_bigInteger (n : Int) : w.Balances 0 (bigInteger n) w.value := by
  unfold bigInteger
  split
  · refine .next (.scaffolding (by simp)) (fun newInt => ?_)
    exact .next (.scaffolding (by simp)) (fun literal => .scaffolding (by simp [add_comm]))
  · exact balances_bigFromText _ _ _

theorem balances_bigRational (r : Rat) : w.Balances 0 (bigRational r) w.value := by
  unfold bigRational
  split
  · refine .next (.scaffolding (by simp)) (fun newRat => ?_)
    refine .next (.scaffolding (by simp)) (fun num => ?_)
    exact .next (.scaffolding (by simp)) (fun den => .scaffolding (by
      simp; ac_rfl))
  · exact balances_bigFromText _ _ _

theorem balances_initializerCall (package initializer : String) (value : HostId) (span : Span) :
    w.Balances (w.value value) (initializerCall package initializer value span) w.value := by
  unfold initializerCall
  exact .next (.scaffolding (by simp)) (fun callee => .placing (by simp))

theorem balances_materialize (operand : Operand) (target : TypeId) :
    w.Balances (w.operand operand) (materialize operand target) w.value := by
  unfold materialize
  dsimp only
  refine .read (fun c => ?_)
  split
  · exact .failing
  · split
    · rename_i n hconstant
      have hinert : operand.isInert := by simp [Operand.isInert, hconstant]
      refine .skip (fun big => ?_)
      split
      · exact .opened (balances_initializerCall _ _ _ _)
      · exact .dropped hinert (.next (balances_bigInteger _) (fun value => by
            simpa using balances_initializerCall _ _ _ _))
      · exact .failing
    · rename_i r hconstant
      have hinert : operand.isInert := by simp [Operand.isInert, hconstant]
      split
      · exact .dropped hinert (.wholly (balances_bigRational _) (fun value => balances_initializerCall _ _ _ _))
      · exact .failing
    · exact .failing

/-! ## Values in typed places -/

theorem balances_defaultValue (operand : Operand) :
    w.Balances (w.operand operand) (defaultValue operand) (fun r => w.value r.1) := by
  unfold defaultValue
  refine .skip (fun _ => ?_)
  split
  · exact .failing
  · refine .skip (fun big => ?_)
    split
    · refine .skip (fun found => ?_)
      split
      · exact (balances_materialize _ _).finish (fun _ _ => rfl)
      · exact .failing
    · refine .skip (fun types => .opened ?_)
      split
      · dsimp only
        split
        · exact .failing
        · exact .pure (fun _ => rfl)
      · exact .pure (fun _ => rfl)

theorem balances_coerce (operand : Operand) (target : TypeId) :
    w.Balances (w.operand operand) (coerce operand target) w.value := by
  unfold coerce
  refine .skip (fun _ => .skip (fun types => ?_))
  have kept : w.Balances (w.operand operand) (pure operand.id) w.value :=
    .opened (.pure (fun _ => rfl))
  dsimp only
  split
  · exact kept
  · split
    · split
      · exact kept
      · exact .failing
    · refine .read (fun c => ?_)
      split
      · exact balances_materialize _ _
      · refine .skip (fun big => ?_)
        split
        · split
          · exact (balances_defaultValue _).finish (fun _ _ => rfl)
          · exact .failing
        · split
          · exact .failing
          · refine .skip (fun fits => ?_)
            split
            · exact kept
            · exact .failing

theorem balances_coerceOrDefault (operand : Operand) (target : Option TypeId) :
    w.Balances (w.operand operand) (coerceOrDefault operand target) (fun r => w.value r.1) := by
  unfold coerceOrDefault
  split
  · exact (balances_coerce _ _).finish (fun _ _ => rfl)
  · exact balances_defaultValue _

/-! ## Operators of registered types -/

theorem balances_lowerRegisteredBinary (op : BinaryOp) (target : TypeId) (left right : Operand)
    (span : Span) :
    w.Balances (w.operand left + w.operand right) (lowerRegisteredBinary op target left right span)
      w.operand := by
  unfold lowerRegisteredBinary
  refine .read (fun c => ?_)
  split
  · refine .bind (balances_coerce left target) (fun left => ?_)
    refine .join (fun k => if op.isShift then (do k (← pure (← defaultValue right).1))
        else (do k (← coerce right target)))
      (J := fun right => w.value left + w.value right) (fun right => ?_) (fun k hk => ?_)
    · refine .next (.scaffolding (by simp)) (fun receiver => ?_)
      refine .bind (.scaffolding (by simp)) (fun receiver => ?_)
      refine .bind (.scaffolding (by simp)) (fun callee => ?_)
      exact .finish (.placing (by simp)) (fun _ _ => rfl)
    · split
      · exact .spend (balances_defaultValue right) (add_comm _ _) (fun r =>
          .returned ((hk r.1).given (fun _ => add_comm _ _)))
      · exact .spend (balances_coerce right target) (add_comm _ _) (fun right =>
          (hk right).given (fun _ => add_comm _ _))
  · exact .failing

theorem balances_methodStatement (object : HostId) (method : String) (args : List HostId)
    (span : Span) :
    w.Balances (w.value object + w.values args) (methodStatement object method args span)
      w.value := by
  unfold methodStatement
  refine .bind (.scaffolding (by simp)) (fun callee => ?_)
  exact .wholly (.scaffolding (by simp)) (fun call => .placing (by simp))

theorem balances_lowerRegisteredAssign (op : BinaryOp) (target value : Operand) (span : Span) :
    w.Balances (w.operand target + w.operand value) (lowerRegisteredAssign op target value span)
      w.value := by
  unfold lowerRegisteredAssign
  split
  · refine .opening (.join (fun k => if op.isShift then (do k (← pure (← defaultValue value).1))
        else (do k (← coerce value target.type)))
      (J := fun argument => w.value target.id + w.value argument) (fun argument => ?_)
      (fun k hk => ?_))
    · exact (balances_methodStatement _ _ _ _).given (fun _ => by simp)
    · split
      · exact .spend (balances_defaultValue value) (add_comm _ _) (fun r =>
          .returned ((hk r.1).given (fun _ => add_comm _ _)))
      · exact .spend (balances_coerce value _) (add_comm _ _) (fun argument =>
          (hk argument).given (fun _ => add_comm _ _))
  · exact .failing

theorem balances_lowerRegisteredIncDec (target : Operand) (increment : Bool) (span : Span) :
    w.Balances (w.operand target) (lowerRegisteredIncDec target increment span) w.value := by
  unfold lowerRegisteredIncDec
  exact .opened ((balances_methodStatement _ _ _ _).given (fun _ => by simp))

theorem balances_lowerRegisteredUnary (op : UnaryOp) (operand : Operand) (span : Span) :
    w.Balances (w.operand operand) (lowerRegisteredUnary op operand span) w.operand := by
  unfold lowerRegisteredUnary
  split
  · refine .opened (.wholly (.scaffolding (by simp)) (fun callee => ?_))
    exact .finish (.placing (by simp)) (fun _ _ => rfl)
  · exact .failing

/-! ## Operators -/

/-- An untyped constant may be dropped. -/
theorem untypedConstant?_isInert {operand : Operand} ⦃c : Context⦄ ⦃s : State⦄
    ⦃found : Option (BasicType × Constant)⦄ ⦃s' : State⦄
    (h : untypedConstant? operand c s = (.ok found, s')) : found.isSome → operand.isInert := by
  intro hfound
  cases hconstant : operand.constant with
  | some value => simp [Operand.isInert, hconstant]
  | none =>
    unfold untypedConstant? at h
    rw [hconstant] at h
    obtain ⟨types, s₁, -, h⟩ := bind_ok.mp h
    obtain ⟨rfl, -⟩ := pure_ok.mp h
    cases hfound

theorem balances_foldedNode (operand : Operand) (hinert : operand.isInert) :
    w.Balances (w.operand operand) (foldedNode operand) (fun id => ⊤ * w.value id) := by
  have kept : w.Balances (w.operand operand) (pure operand.id) (fun id => ⊤ * w.value id) :=
    .pure (fun _ => (Watch.operand_inert hinert).symm)
  unfold foldedNode
  split
  · refine .skip (fun big => ?_)
    split
    · exact .dropped hinert (.given (.inert (.scaffolding rfl)) (by simp))
    · exact kept
  · exact kept

/-- Operands that are not folded are still held. -/
theorem balances_foldBinary? (op : BinaryOp) (left right : Operand) (span : Span) :
    w.Balances (w.operand left + w.operand right) (foldBinary? op left right span)
      (fun r => r.elim (w.operand left + w.operand right) w.operand) := by
  unfold foldBinary?
  refine .knowing untypedConstant?_isInert (fun leftFound hleft => ?_)
  refine .knowing untypedConstant?_isInert (fun rightFound hright => ?_)
  split
  · split
    · exact .pure (fun _ => rfl)
    · split
      · exact .failing
      · dsimp only
        split
        · refine .dropping (hleft rfl) (.dropped (hright rfl) (.skip (fun text => ?_)))
          exact .wholly (.placeInert (by simp)) (fun id => .pure (fun _ => rfl))
        · refine .bind (balances_foldedNode left (hleft rfl)) (fun l => ?_)
          refine .spend (balances_foldedNode right (hright rfl)) (add_comm _ _) (fun r => ?_)
          refine .wholly (.placeInert (fun _ => ?_)) (fun id => .pure (fun _ => rfl))
          simp [mul_add, add_comm]
  · exact .pure (fun _ => rfl)

/-! ## Host operations -/

theorem balances_unify (left right : Operand) (span : Span) :
    w.Balances (w.operand left + w.operand right) (unify left right span)
      (fun r => w.value r.1 + w.value r.2.1) := by
  unfold unify
  refine .skip (fun types => ?_)
  have kept (type : TypeId) : w.Balances (w.operand left + w.operand right)
      (pure (left.id, right.id, type)) (fun r => w.value r.1 + w.value r.2.1) :=
    .opening (.swap (.opening (.pure (fun _ => add_comm _ _))))
  split
  · refine .bind (balances_coerce left _) (fun l => ?_)
    exact .swap (.opening (.pure (fun _ => add_comm _ _)))
  · refine .opening (.swap ?_)
    exact .bind (balances_coerce right _) (fun r => .pure (fun _ => add_comm _ _))
  · split
    · exact kept _
    · exact .failing
  · refine .skip (fun _ => .skip (fun _ => ?_))
    split
    · exact kept _
    · split
      · exact kept _
      · exact .failing

theorem balances_lowerComparison (op : BinaryOp) (left right : Operand) (span : Span) :
    w.Balances (w.operand left + w.operand right) (lowerComparison op left right span)
      w.operand := by
  unfold lowerComparison
  have compared (l r : HostId) : w.Balances (w.value l + w.value r)
      (do let id ← place (.binary op l r) span
          return .value id (TypeTable.basic .untypedBool) span) w.operand :=
    .finish (.placing (by simp)) (fun _ _ => rfl)
  dsimp only
  split
  · exact .failing
  · refine .bind (balances_coerce left _) (fun l => .returned ?_)
    exact .swap (.opening (.swap (compared _ _)))
  · refine .opening (.swap ?_)
    exact .bind (balances_coerce right _) (fun r => .returned (.swap (compared _ _)))
  · refine .wholly (balances_unify left right span) (fun r => ?_)
    refine .skip (fun kind => ?_)
    split
    · exact .failing
    · exact .returned (compared _ _)

theorem balances_lowerShift (op : BinaryOp) (left right : Operand) (span : Span) :
    w.Balances (w.operand left + w.operand right) (lowerShift op left right span) w.operand := by
  unfold lowerShift
  dsimp only
  refine .skip (fun kind => ?_)
  split
  · exact .failing
  · refine .swap (.bind (balances_defaultValue right) (fun amount => ?_))
    refine .skip (fun kind => ?_)
    split
    · exact .failing
    · refine .swap (.bind (balances_defaultValue left) (fun value => ?_))
      exact .finish (.placing (by simp)) (fun _ _ => rfl)

theorem balances_lowerArithmetic (op : BinaryOp) (left right : Operand) (span : Span) :
    w.Balances (w.operand left + w.operand right) (lowerArithmetic op left right span)
      w.operand := by
  unfold lowerArithmetic
  refine .wholly (balances_unify left right span) (fun r => ?_)
  have tail (valid : Bool) : w.Balances (w.value r.1 + w.value r.2.1)
      (if valid then (do
          let id ← place (.binary op r.1 r.2.1) span
          return .value id r.2.2 span)
        else failOperation op.symbol r.2.2 span) w.operand := by
    split
    · exact .finish (.placing (by simp)) (fun _ _ => rfl)
    · exact .failing
  dsimp only
  split
  · exact .skip (fun valid => tail valid)
  · exact .skip (fun kind => .returned (tail _))

theorem balances_lowerBinary (op : BinaryOp) (left right : Operand) (span : Span) :
    w.Balances (w.operand left + w.operand right) (lowerBinary op left right span) w.operand := by
  unfold lowerBinary
  refine .skip (fun _ => .skip (fun _ => .skip (fun _ => .skip (fun _ => ?_))))
  split
  · refine .opening (.swap (.opening (.finish (.scaffolding ?_) (fun _ _ => rfl))))
    simp [add_comm]
  · refine .wholly (balances_foldBinary? op left right span) (fun folded => ?_)
    split
    · exact .pure (fun _ => rfl)
    · refine .skip (fun target => ?_)
      split
      · exact balances_lowerRegisteredBinary _ _ _ _ _
      · split
        · exact balances_lowerShift _ _ _ _
        · split
          · exact balances_lowerComparison _ _ _ _
          · exact balances_lowerArithmetic _ _ _ _

/-! ## Unary operators -/

theorem balances_foldUnary (op : UnaryOp) (operand : Operand) (value : Constant) (span : Span)
    (hinert : operand.isInert) :
    w.Balances (w.operand operand) (foldUnary op operand value span) w.operand := by
  unfold foldUnary
  split
  · exact .failing
  · rename_i folded _
    dsimp only
    split
    · exact .dropped hinert (.wholly (.placeInert (by simp)) (fun id => .pure (fun _ => rfl)))
    · refine .skip (fun big => ?_)
      split
      · exact .dropped hinert (.skip (fun text =>
          .wholly (.placeInert (by simp)) (fun id => .pure (fun _ => rfl))))
      · refine .wholly (.placeInert (fun _ => ?_)) (fun id => .pure (fun _ => rfl))
        simp [Watch.operand_inert hinert]

theorem balances_lowerUnaryOperand (op : UnaryOp) (operand : Operand) (span : Span) :
    w.Balances (w.operand operand) (lowerUnaryOperand op operand span) w.operand := by
  unfold lowerUnaryOperand
  refine .skip (fun _ => .skip (fun types => ?_))
  split
  · rename_i value hconstant _
    exact balances_foldUnary _ _ _ _ (by simp [Operand.isInert, hconstant])
  · refine .read (fun c => ?_)
    split
    · exact balances_lowerRegisteredUnary _ _ _
    · refine .skip (fun has => ?_)
      split
      · exact .opened (.finish (.placing (by simp)) (fun _ _ => rfl))
      · exact .failing

end GoLowering.Lowering
