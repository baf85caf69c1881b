import GoLowering.Proofs.BinaryOperations
import GoLowering.Proofs.HeaderOrder

/-!
# Operators on registered types

The host has no operators on the registered types: their values are structures, which it compares
field by field and does not compute with. Each form of the source that applies an operator looks
on its own whether the type of an operand is registered, and then calls the method that stands for
the operator. `dispatched_iff` says which forms do so: all but a switch, an assignment with an
operator whose target has another type, and a binary operation on a failed operand.
-/

namespace GoLowering

/-- A node that calls a method of what another node stands for. -/
def HostTree.CallsMethod (t : HostTree) (id receiver : HostId) (method : String)
    (args : List HostId) : Prop :=
  ∃ callee, t.kind id = .call callee args false ∧ t.kind callee = .selector receiver method

/-- The nodes by which the host compares or computes itself. -/
def HostKind.IsNativeOperation : HostKind → Prop
  | binary .. | unary .. | incDec .. | assign _ (.compound _) _ | switch _ (some _) _ => True
  | _ => False

namespace Lowering

open Surface

variable {walk : Walk} {c : Context} {s s₁ s' : State} {id : HostId} {span : Span}

/-! ## Forms with operators -/

/-- A form of the source that applies an operator to values. -/
inductive OperatorUse where
  | binary (op : BinaryOp) (left right : NodeId)
  /-- An operation that is written as a command, `x -y` where `x` cannot be called. -/
  | command (op : UnaryOp) (head operand : NodeId)
  | unary (op : UnaryOp) (operand : NodeId)
  | compound (op : BinaryOp) (target value : NodeId)
  | step (target : NodeId) (increment : Bool)
  /-- The cases are compared with the tag. -/
  | switch (init : Option NodeId) (tag : NodeId) (clauses : List CaseClause)

/-- What a binary operator takes as its second argument: the count of a shift has a type of its
own. -/
def argument (op : BinaryOp) (operand : Operand) (target : TypeId) : Lower HostId :=
  if op.isShift then Prod.fst <$> defaultValue operand else coerce operand target

namespace OperatorUse

/-- The operands of a form; a command that is a call has none. -/
def evaluate (walk : Walk) : OperatorUse → Lower (List Operand)
  | binary _ left right => do
    let left ← walk.expr left .none
    let right ← walk.expr right .none
    return [left, right]
  | command _ head operand => do
    let head ← walk.expr head .called
    if ← isCallable head then
      return []
    else
      let operand ← walk.expr operand .none
      return [head, operand]
  | unary _ operand | step operand _ => do
    let operand ← walk.expr operand .none
    return [operand]
  | compound op target value => do
    let target ← walk.expr target .none
    checkValue target
    let value ← walk.expr value (.maybe (if op.isShift then none else some target.type))
    return [target, value]
  | switch init tag _ => inScope .block (do
    let _ ← init.mapM walk.statement
    let (id, type) ← lowerByDefault walk tag
    return [.value id type .synthetic])

def lower (walk : Walk) (span : Span) : OperatorUse → Lower HostId
  | binary op left right => Operand.id <$> lowerExprKind walk (.binary op left right) span .none
  | command op head operand =>
    Operand.id <$> lowerAmbiguousCommand walk head op operand span .none
  | unary op operand => do
    let operand ← walk.expr operand .none
    Operand.id <$> lowerUnaryOperand op operand span
  | compound op target value => lowerAssignment walk [target] (.compound op) [value] span
  | step target increment => lowerIncDec walk target increment span
  | switch init tag clauses => lowerSwitch walk init (some tag) clauses span

/-- The binary operator of an expression. -/
def binaryOp? : OperatorUse → Option BinaryOp
  | binary op .. => some op
  | command op .. => op.asBinary?
  | _ => none

/-- Whether a form is a call of the method of its operator, with both operands as values of one
registered type. -/
inductive Dispatched (c : Context) (s s' : State) (id : HostId) :
    OperatorUse → List Operand → Prop
  | binary {use : OperatorUse} {op : BinaryOp} {left right : Operand} {target : TypeId}
      {entry : RegisteredType} {method : String} {leftId rightId receiver type : HostId}
      {s₁ s₂ : State} (huse : use.binaryOp? = some op) (htarget : target ∈ [left.type, right.type])
      (hentry : c.registry.get? target = some entry) (hmethod : op.method? = some method)
      (hleft : coerce left target c s = (.ok leftId, s₁))
      (hright : argument op right target c s₁ = (.ok rightId, s₂))
      (hcall : s'.tree.CallsMethod id receiver (method ++ entry.binarySuffix) [leftId, rightId])
      (hreceiver : s'.tree.kind receiver = .paren type)
      (htype : s'.tree.kind type = .typeExpression target) :
      Dispatched c s s' id use [left, right]
  | unary {op : UnaryOp} {x : NodeId} {operand : Operand} {method : String}
      (hmethod : op.method? = some method) (hcall : s'.tree.CallsMethod id operand.id method []) :
      Dispatched c s s' id (.unary op x) [operand]
  | compound {op : BinaryOp} {t v : NodeId} {target value : Operand} {method : String}
      {call valueId : HostId} {s₁ : State} (hmethod : op.assignMethod? = some method)
      (hvalue : argument op value target.type c s = (.ok valueId, s₁))
      (hstatement : s'.tree.kind id = .expression call)
      (hcall : s'.tree.CallsMethod call target.id method [valueId]) :
      Dispatched c s s' id (.compound op t v) [target, value]
  | step {t : NodeId} {increment : Bool} {target : Operand} {call : HostId}
      (hstatement : s'.tree.kind id = .expression call)
      (hcall : s'.tree.CallsMethod call target.id (if increment then "Gop_Inc" else "Gop_Dec") []) :
      Dispatched c s s' id (.step t increment) [target]

/-- The forms that leave the operator to the host although the type of an operand is registered. -/
def Forgets (c : Context) (s : State) : OperatorUse → List Operand → Prop
  | binary .., operands | command .., operands =>
    ∃ operand ∈ operands, s.types.isInvalid operand.type = true
  | compound .., target :: _ => c.registry.get? target.type = none
  | switch .., _ => True
  | _, _ => False

end OperatorUse

/-! ## Method calls -/

theorem callsMethod_of_made {object callee : HostId} {method : String} {args : List HostId}
    {s₂ : State} (hcallee : Made s s₁ (.selector object method) callee)
    (hcall : Made s₁ s₂ (.call callee args false) id) (hgrows : s₂.tree.Grows s'.tree) :
    s'.tree.CallsMethod id object method args :=
  ⟨callee, hcall.kind_of_grows hgrows, hcallee.kind_of_grows (hcall.grows.trans hgrows)⟩

theorem argument_ok {β : Type} {op : BinaryOp} {operand : Operand} {target : TypeId}
    {f : HostId → Lower β} {b : β}
    (h : (if op.isShift then defaultValue operand >>= fun value => pure value.1 >>= f
      else coerce operand target >>= f) c s = (.ok b, s')) :
    ∃ id s₁, argument op operand target c s = (.ok id, s₁) ∧ f id c s₁ = (.ok b, s') := by
  unfold argument
  split at h
  · rename_i hshift
    obtain ⟨value, s₁, hvalue, h⟩ := bind_ok.mp h
    exact ⟨value.1, s₁, by rw [if_pos hshift]; exact map_ok.mpr ⟨value, hvalue, rfl⟩, h⟩
  · rename_i hshift
    obtain ⟨id, s₁, hid, h⟩ := bind_ok.mp h
    exact ⟨id, s₁, by rw [if_neg hshift]; exact hid, h⟩

theorem methodStatement_ok {object : HostId} {method : String} {args : List HostId}
    (h : methodStatement object method args span c s = (.ok id, s')) :
    ∃ call, s'.tree.kind id = .expression call ∧ s'.tree.CallsMethod call object method args := by
  unfold methodStatement at h
  obtain ⟨callee, s₁, hcallee, h⟩ := bind_ok.mp h
  obtain ⟨call, s₂, hcall, h⟩ := bind_ok.mp h
  have hmade := addNode_ok h
  exact ⟨call, hmade.kind,
    callsMethod_of_made (addNode_ok hcallee) (addNode_ok hcall) hmade.grows⟩

/-- A binary operation on a registered type is a call of a method of the type. -/
theorem lowerRegisteredBinary_ok {use : OperatorUse} {op : BinaryOp} {target : TypeId}
    {left right r : Operand} (huse : use.binaryOp? = some op)
    (htarget : target ∈ [left.type, right.type])
    (h : lowerRegisteredBinary op target left right span c s = (.ok r, s')) :
    use.Dispatched c s s' r.id [left, right] := by
  unfold lowerRegisteredBinary at h
  rw [run_read] at h
  cases hentry : c.registry.get? target with
  | none =>
    rw [hentry] at h
    exact absurd h Fails.fails
  | some entry =>
    cases hmethod : op.method? with
    | none =>
      rw [hentry, hmethod] at h
      exact absurd h Fails.fails
    | some method =>
      rw [hentry, hmethod] at h
      obtain ⟨leftId, s₁, hleft, h⟩ := bind_ok.mp h
      obtain ⟨rightId, s₂, hright, h⟩ := argument_ok h
      obtain ⟨type, s₃, htype, h⟩ := bind_ok.mp h
      obtain ⟨receiver, s₄, hreceiver, h⟩ := bind_ok.mp h
      obtain ⟨callee, s₅, hcallee, h⟩ := bind_ok.mp h
      obtain ⟨call, s₆, hcall, h⟩ := bind_ok.mp h
      obtain ⟨rfl, rfl⟩ := pure_ok.mp h
      have hcalleeMade := addNode_ok hcallee
      have hcallMade := addNode_ok hcall
      have hreceiverMade := addNode_ok hreceiver
      have hafter := hcalleeMade.grows.trans hcallMade.grows
      exact .binary huse htarget hentry hmethod hleft hright
        (callsMethod_of_made hcalleeMade hcallMade (.refl _))
        (hreceiverMade.kind_of_grows hafter)
        ((addNode_ok htype).kind_of_grows (hreceiverMade.grows.trans hafter))

theorem lowerRegisteredUnary_ok {op : UnaryOp} {operand r : Operand} {x : NodeId}
    (h : lowerRegisteredUnary op operand span c s = (.ok r, s')) :
    OperatorUse.Dispatched c s s' r.id (.unary op x) [operand] := by
  unfold lowerRegisteredUnary at h
  cases hmethod : op.method? with
  | none =>
    rw [hmethod] at h
    exact absurd h Fails.fails
  | some method =>
    rw [hmethod] at h
    obtain ⟨callee, s₁, hcallee, h⟩ := bind_ok.mp h
    obtain ⟨call, s₂, hcall, h⟩ := bind_ok.mp h
    obtain ⟨rfl, rfl⟩ := pure_ok.mp h
    exact .unary hmethod (callsMethod_of_made (addNode_ok hcallee) (addNode_ok hcall) (.refl _))

theorem lowerRegisteredAssign_ok {op : BinaryOp} {target value : Operand} {t v : NodeId}
    (h : lowerRegisteredAssign op target value span c s = (.ok id, s')) :
    OperatorUse.Dispatched c s s' id (.compound op t v) [target, value] := by
  unfold lowerRegisteredAssign at h
  cases hmethod : op.assignMethod? with
  | none =>
    rw [hmethod] at h
    exact absurd h Fails.fails
  | some method =>
    rw [hmethod] at h
    obtain ⟨valueId, s₁, hvalue, h⟩ := argument_ok h
    obtain ⟨call, hstatement, hcall⟩ := methodStatement_ok h
    exact .compound hmethod hvalue hstatement hcall

/-! ## Each form -/

/-- Whether the type of an operand is registered. -/
def HasRegistered (c : Context) (operands : List Operand) : Prop :=
  ∃ operand ∈ operands, (c.registry.get? operand.type).isSome = true

/-- The operator of a registered type is taken if an operand has that type. -/
theorem run_operatorType? {left right : Operand} (h : HasRegistered c [left, right]) :
    ∃ target ∈ [left.type, right.type],
      operatorType? left right c s = (.ok (some target), s) := by
  unfold operatorType?
  by_cases hleft : (c.registry.get? left.type).isSome = true
  · exact ⟨left.type, List.mem_cons_self .., by rw [run_read, if_pos hleft]; rfl⟩
  · have hright : (c.registry.get? right.type).isSome = true := by
      obtain ⟨operand, hmem, hregistered⟩ := h
      rcases List.mem_cons.mp hmem with rfl | hmem
      · exact absurd hregistered hleft
      · rwa [← List.mem_singleton.mp hmem]
    exact ⟨right.type, List.mem_cons_of_mem _ (List.mem_cons_self ..), by
      rw [run_read, if_neg hleft, if_pos hright]; rfl⟩

variable (huntyped : ∀ type, (c.registry.get? type).isSome = true → s.types.isUntyped type = false)

include huntyped

/-- A value of a registered type is no untyped constant. -/
theorem foldBinary?_registered {op : BinaryOp} {left right r : Operand}
    (hregistered : HasRegistered c [left, right]) :
    foldBinary? op left right span c s ≠ (.ok (some r), s') := by
  intro h
  have hconstant {operand : Operand} {constant : BasicType × Constant}
      (h : constantOf? s.types operand = some constant) :
    s.types.isUntyped operand.type = true := by
    unfold constantOf? at h
    split at h
    · split at h
      · rename_i hboth
        exact (Bool.and_eq_true_iff.mp hboth).2
      · cases h
    · cases h
  rcases foldBinary?_ok h with ⟨hnone, -⟩ | ⟨_, _, _, _, _, hleft, hright, -⟩
  · cases hnone
  · obtain ⟨operand, hmem, hoperand⟩ := hregistered
    have hboth : s.types.isUntyped operand.type = true := by
      simp only [List.mem_cons, List.not_mem_nil, or_false] at hmem
      rcases hmem with rfl | rfl
      · exact hconstant hleft
      · exact hconstant hright
    rw [huntyped _ hoperand] at hboth
    cases hboth

/-- A binary operation on a value of a registered type is a method call, unless an operand has
failed. -/
theorem lowerBinary_registered {use : OperatorUse} {op : BinaryOp} {left right r : Operand}
    (huse : use.binaryOp? = some op) (hregistered : HasRegistered c [left, right])
    (h : lowerBinary op left right span c s = (.ok r, s')) :
    ((s.types.isInvalid left.type || s.types.isInvalid right.type) = true ∧
        s'.tree.kind r.id = .binary op left.id right.id) ∨
      (s.types.isInvalid left.type || s.types.isInvalid right.type) = false ∧
        use.Dispatched c s s' r.id [left, right] := by
  rcases lowerBinary_ok h with ⟨hinvalid, hnode⟩ | ⟨hvalid, h⟩
  · exact .inl ⟨hinvalid, (addNode_ok hnode).kind⟩
  · refine .inr ⟨hvalid, ?_⟩
    rcases h with hfold | ⟨-, h⟩
    · exact absurd hfold (foldBinary?_registered huntyped hregistered)
    · obtain ⟨target, htarget, hrun⟩ := run_operatorType? (s := s) hregistered
      rcases h with ⟨target', htarget', h⟩ | ⟨hnone, -⟩
      · obtain rfl : target' = target := by cases hrun.symm.trans htarget'; rfl
        exact lowerRegisteredBinary_ok huse htarget h
      · cases hrun.symm.trans hnone

omit huntyped

theorem lowerUnaryOperand_registered {op : UnaryOp} {operand r : Operand} {x : NodeId}
    (huntyped : s.types.isUntyped operand.type = false)
    (hregistered : (c.registry.get? operand.type).isSome = true)
    (h : lowerUnaryOperand op operand span c s = (.ok r, s')) :
    OperatorUse.Dispatched c s s' r.id (.unary op x) [operand] := by
  unfold lowerUnaryOperand at h
  obtain ⟨_, s₁, hvalue, hrest⟩ := bind_ok.mp h
  obtain rfl := Reads.ok hvalue
  clear h
  obtain ⟨_, _, ⟨⟩, h⟩ := bind_ok.mp hrest
  rw [huntyped] at h
  have hcall : lowerRegisteredUnary op operand span c s₁ = (.ok r, s') := by
    cases hconstant : operand.constant <;>
      · rw [hconstant] at h
        dsimp only at h
        rwa [run_read, if_pos hregistered] at h
  exact lowerRegisteredUnary_ok hcall

/-- An assignment with an operator is a method call just in case the type of its target is
registered. -/
theorem lowerCompound_ok {op : BinaryOp} {target value : NodeId} {operands : List Operand}
    (hoperands : (OperatorUse.compound op target value).evaluate walk c s = (.ok operands, s₁))
    (h : lowerCompound walk op [target] [value] span c s = (.ok id, s')) :
    ∃ t v, operands = [t, v] ∧
      ((c.registry.get? t.type).isSome = true ∧
          OperatorUse.Dispatched c s₁ s' id (.compound op target value) operands ∨
        c.registry.get? t.type = none ∧
          ∃ argument, s'.tree.kind id = .assign [t.id] (.compound op) [argument]) := by
  obtain ⟨t, s₂, htarget, hrest⟩ := bind_ok.mp hoperands
  obtain ⟨_, s₃, hcheck, hrest⟩ := bind_ok.mp hrest
  obtain ⟨v, s₄, hvalue, hrest⟩ := bind_ok.mp hrest
  obtain ⟨rfl, rfl⟩ := pure_ok.mp hrest
  refine ⟨t, v, rfl, ?_⟩
  unfold lowerCompound at h
  dsimp only at h
  rw [run_bind, htarget] at h
  dsimp only at h
  rw [run_bind, hcheck] at h
  dsimp only at h
  rw [run_bind, hvalue] at h
  dsimp only at h
  rw [run_read] at h
  by_cases hregistered : (c.registry.get? t.type).isSome = true
  · rw [if_pos hregistered] at h
    exact .inl ⟨hregistered, lowerRegisteredAssign_ok h⟩
  · rw [if_neg hregistered] at h
    obtain ⟨_, _, -, h⟩ := bind_ok.mp h
    obtain ⟨argument, _, -, h⟩ := bind_ok.mp h
    exact .inr ⟨by simpa using hregistered, argument.1, (addNode_ok h).kind⟩

/-- A switch is left to the host, whatever it compares. -/
theorem lowerSwitch_ok {init : Option NodeId} {tag : NodeId} {clauses : List CaseClause}
    (h : lowerSwitch walk init (some tag) clauses span c s = (.ok id, s')) :
    ∃ first compared cases, s'.tree.kind id = .switch first (some compared) cases := by
  unfold lowerSwitch at h
  obtain ⟨kind, s₁, hkind, h⟩ := bind_ok.mp h
  obtain ⟨s₂, hkind, -⟩ := inScope_ok.mp hkind
  obtain ⟨first, _, -, hkind⟩ := bind_ok.mp hkind
  obtain ⟨compared, _, htag, hkind⟩ := bind_ok.mp hkind
  obtain ⟨tag, -, rfl⟩ := map_ok.mp htag
  obtain ⟨cases, _, -, hkind⟩ := bind_ok.mp hkind
  obtain ⟨rfl, -⟩ := pure_ok.mp hkind
  exact ⟨first.join, tag.1, cases, (addNode_ok h).kind⟩

/-! ## All forms -/

namespace OperatorUse

/-- A method call is no operation of the host. -/
theorem Dispatched.not_isNativeOperation {use : OperatorUse} {operands : List Operand}
    (h : use.Dispatched c s s' id operands) : ¬(s'.tree.kind id).IsNativeOperation := by
  have hcall {receiver : HostId} {method : String} {args : List HostId}
      (h : s'.tree.CallsMethod id receiver method args) :
      ¬(s'.tree.kind id).IsNativeOperation := by
    obtain ⟨callee, hcall, -⟩ := h
    rw [hcall]
    exact fun h => h
  cases h with
  | binary _ _ _ _ _ _ h _ _ => exact hcall h
  | unary _ h => exact hcall h
  | compound _ _ h _ => rw [h]; exact fun h => h
  | step h _ => rw [h]; exact fun h => h

/-- What becomes of a binary operation whose operands are known. -/
theorem forgets_or_dispatched_binary {use : OperatorUse} {op : BinaryOp} {left right r : Operand}
    (huse : use.binaryOp? = some op)
    (hforgets : use.Forgets c s [left, right] ↔
      ∃ operand ∈ [left, right], s.types.isInvalid operand.type = true)
    (huntyped : ∀ type, (c.registry.get? type).isSome = true → s.types.isUntyped type = false)
    (hregistered : HasRegistered c [left, right])
    (h : lowerBinary op left right span c s = (.ok r, s')) :
    (use.Forgets c s [left, right] ∧ (s'.tree.kind r.id).IsNativeOperation) ∨
      ¬use.Forgets c s [left, right] ∧ use.Dispatched c s s' r.id [left, right] := by
  have hinvalid : use.Forgets c s [left, right] ↔
      (s.types.isInvalid left.type || s.types.isInvalid right.type) = true := by
    rw [hforgets]
    simp
  rw [hinvalid, Bool.not_eq_true]
  rcases lowerBinary_registered huntyped huse hregistered h with ⟨hinvalid, hnode⟩ | hdispatched
  · exact .inl ⟨hinvalid, by rw [hnode]; trivial⟩
  · exact .inr hdispatched

/-- A form with an operand of a registered type is left to the host or becomes a method call. -/
theorem forgets_or_dispatched {use : OperatorUse} {operands : List Operand}
    (hoperands : use.evaluate walk c s = (.ok operands, s₁))
    (huntyped : ∀ type, (c.registry.get? type).isSome = true → s₁.types.isUntyped type = false)
    (hregistered : HasRegistered c operands)
    (h : use.lower walk span c s = (.ok id, s')) :
    (use.Forgets c s₁ operands ∧ (s'.tree.kind id).IsNativeOperation) ∨
      ¬use.Forgets c s₁ operands ∧ use.Dispatched c s₁ s' id operands := by
  cases use with
  | binary op left right =>
    obtain ⟨l, s₂, hleft, hrest⟩ := bind_ok.mp hoperands
    obtain ⟨r, s₃, hright, hrest⟩ := bind_ok.mp hrest
    obtain ⟨rfl, rfl⟩ := pure_ok.mp hrest
    obtain ⟨result, hbinary, rfl⟩ := map_ok.mp h
    change (do
      let left ← walk.expr left .none
      let right ← walk.expr right .none
      lowerBinary op left right span : Lower Operand) c s = (.ok result, s') at hbinary
    rw [run_bind, hleft] at hbinary
    dsimp only at hbinary
    rw [run_bind, hright] at hbinary
    exact forgets_or_dispatched_binary rfl .rfl huntyped hregistered hbinary
  | command op head operand =>
    obtain ⟨l, s₂, hhead, hrest⟩ := bind_ok.mp hoperands
    obtain ⟨callable, s₃, hcallable, hrest⟩ := bind_ok.mp hrest
    obtain ⟨result, hcommand, rfl⟩ := map_ok.mp h
    unfold lowerAmbiguousCommand at hcommand
    rw [run_bind, hhead] at hcommand
    dsimp only at hcommand
    rw [run_bind, hcallable] at hcommand
    cases callable with
    | true =>
      obtain ⟨rfl, rfl⟩ := pure_ok.mp hrest
      obtain ⟨_, hmem, -⟩ := hregistered
      cases hmem
    | false =>
      obtain ⟨r, s₄, hoperand, hrest⟩ := bind_ok.mp hrest
      obtain ⟨rfl, rfl⟩ := pure_ok.mp hrest
      dsimp only at hcommand
      rw [if_neg Bool.false_ne_true] at hcommand
      cases hop : op.asBinary? with
      | none =>
        rw [hop] at hcommand
        exact absurd hcommand Fails.fails
      | some binary =>
        rw [hop] at hcommand
        dsimp only at hcommand
        rw [run_bind, hoperand] at hcommand
        exact forgets_or_dispatched_binary hop .rfl huntyped hregistered hcommand
  | unary op operand =>
    obtain ⟨o, s₂, hoperand, hrest⟩ := bind_ok.mp hoperands
    obtain ⟨rfl, rfl⟩ := pure_ok.mp hrest
    obtain ⟨_, hmem, hregistered⟩ := hregistered
    obtain rfl := List.mem_singleton.mp hmem
    dsimp only [lower] at h
    rw [run_bind, hoperand] at h
    obtain ⟨result, hunary, rfl⟩ := map_ok.mp h
    exact .inr ⟨fun h => h,
      lowerUnaryOperand_registered (huntyped _ hregistered) hregistered hunary⟩
  | compound op target value =>
    obtain ⟨t, v, rfl, ⟨ht, hdispatched⟩ | ⟨ht, argument, hnode⟩⟩ := lowerCompound_ok hoperands h
    · refine .inr ⟨fun hforgets => ?_, hdispatched⟩
      rw [show c.registry.get? t.type = none from hforgets] at ht
      cases ht
    · exact .inl ⟨ht, by rw [hnode]; trivial⟩
  | step target increment =>
    obtain ⟨t, s₂, htarget, hrest⟩ := bind_ok.mp hoperands
    obtain ⟨rfl, rfl⟩ := pure_ok.mp hrest
    obtain ⟨_, hmem, hregistered⟩ := hregistered
    obtain rfl := List.mem_singleton.mp hmem
    dsimp only [lower] at h
    unfold lowerIncDec at h
    rw [run_bind, htarget] at h
    obtain ⟨_, s₃, hcheck, h⟩ := bind_ok.mp h
    rw [run_read, if_pos hregistered] at h
    obtain ⟨call, hstatement, hcall⟩ := methodStatement_ok h
    exact .inr ⟨fun h => h, .step hstatement hcall⟩
  | switch init tag clauses =>
    obtain ⟨first, compared, cases, hnode⟩ := lowerSwitch_ok h
    exact .inl ⟨trivial, by rw [hnode]; trivial⟩

/-- An operator with an operand of a registered type is a call of the method that stands for it
just in case its form is not one of those that forget about it, and those have it as an operation
of the host. -/
theorem dispatched_iff {use : OperatorUse} {operands : List Operand}
    (hoperands : use.evaluate walk c s = (.ok operands, s₁))
    (huntyped : ∀ type, (c.registry.get? type).isSome = true → s₁.types.isUntyped type = false)
    (hregistered : HasRegistered c operands)
    (h : use.lower walk span c s = (.ok id, s')) :
    (use.Dispatched c s₁ s' id operands ↔ ¬use.Forgets c s₁ operands) ∧
      ((s'.tree.kind id).IsNativeOperation ↔ use.Forgets c s₁ operands) := by
  rcases forgets_or_dispatched hoperands huntyped hregistered h with
    ⟨hforgets, hnative⟩ | ⟨hforgets, hdispatched⟩
  · exact ⟨iff_of_false (fun hd => hd.not_isNativeOperation hnative) (not_not.mpr hforgets),
      iff_of_true hnative hforgets⟩
  · exact ⟨iff_of_true hdispatched hforgets,
      iff_of_false hdispatched.not_isNativeOperation hforgets⟩

/-! ## A registered type -/

/-- A table with a type `Number` of a package. -/
def numberTypes : TypeTable :=
  let (fields, types) := TypeTable.initial.struct []
  let (number, types) := types.declareNamed (some "numbers") "Number"
  types.define number fields

def number : TypeId := ⟨33⟩

/-- The nodes of `func f(x Number) { switch x { case 1: } }`, where the type `Number` is
registered. -/
def numberSample : Context :=
  let sample := Context.sample
    [.type (.named none "Number"), .type (.func [⟨some "x", ⟨0⟩⟩] [] false),
      .expr (.identifier "x"), .expr (.literal .int "1"),
      .stmt (.switch none (some ⟨2⟩) [⟨[⟨3⟩], false, []⟩]), .stmt (.block [⟨4⟩]),
      .stmt (.function ⟨none, "f", ⟨1⟩, some ⟨5⟩, none⟩)]
    [⟨6⟩]
  { sample with
    env := sample.env.define "Number" (.type number)
    registry := Registry.empty.register
      ⟨number, "numbers", "Number", "", some "Number_Init", none, none⟩ }

/-- Inside of the function. -/
def numberState : State := .inside numberTypes [] [("x", number)]

/-- `x == 1` -/
def numberEquality : OperatorUse := .binary .equal ⟨2⟩ ⟨3⟩

/-- `x == 1` is a call of the method `Gop_EQ`. -/
theorem dispatched_iff_equality :
    ∃ left right s₁ s',
      numberEquality.evaluate (walkWithin 1) numberSample numberState = (.ok [left, right], s₁) ∧
      HasRegistered numberSample [left, right] ∧
      numberEquality.lower (walkWithin 1) .synthetic numberSample numberState = (.ok ⟨7⟩, s') ∧
      numberEquality.Dispatched numberSample s₁ s' ⟨7⟩ [left, right] ∧
      ¬(s'.tree.kind ⟨7⟩).IsNativeOperation := by
  have hevaluate : numberEquality.evaluate (walkWithin 1) numberSample numberState =
      (.ok [.value ⟨0⟩ number .synthetic,
        .ofConstant ⟨1⟩ (TypeTable.basic .untypedInt) (some (.int 1)) .synthetic],
        { numberState with tree := ⟨#[⟨.identifier "x", none⟩, ⟨.literal "1", none⟩]⟩ }) := rfl
  have hlower : numberEquality.lower (walkWithin 1) .synthetic numberSample numberState =
      (.ok ⟨7⟩, _) := Prod.ext (by decide +kernel) rfl
  have hregistered : HasRegistered numberSample [.value ⟨0⟩ number .synthetic,
      .ofConstant ⟨1⟩ (TypeTable.basic .untypedInt) (some (.int 1)) .synthetic] :=
    ⟨_, List.mem_cons_self .., rfl⟩
  have huntyped (type : TypeId) (h : (numberSample.registry.get? type).isSome = true) :
      numberTypes.isUntyped type = false := by
    obtain ⟨entry, hentry⟩ := Option.isSome_iff_exists.mp h
    unfold Registry.get? at hentry
    have htype : entry.type = type := by simpa using List.find?_some hentry
    rw [← htype, List.mem_singleton.mp (List.mem_of_find?_eq_some hentry)]
    decide +kernel
  obtain ⟨hdispatched, hnative⟩ := dispatched_iff hevaluate huntyped hregistered hlower
  have hremembers : ¬numberEquality.Forgets numberSample numberState [.value ⟨0⟩ number .synthetic,
      .ofConstant ⟨1⟩ (TypeTable.basic .untypedInt) (some (.int 1)) .synthetic] := by
    rintro ⟨operand, hmem, hinvalid⟩
    simp only [List.mem_cons, List.not_mem_nil, or_false] at hmem
    rcases hmem with rfl | rfl <;> exact absurd hinvalid (by decide +kernel)
  exact ⟨_, _, _, _, hevaluate, hregistered, hlower, hdispatched.mpr hremembers,
    mt hnative.mp hremembers⟩

/-- A switch on a value of a registered type is left to the host. -/
theorem switch_compares_registered :
    (numberSample.registry.get? number).isSome = true ∧
      ∃ out, lowerUnitWith numberSample.unit numberSample.sources ⟨numberTypes, numberSample.env⟩
          numberSample.settings numberSample.registry = .ok out ∧
        ∃ f ∈ out.file.declarations, ∃ body statement tag value,
          out.file.tree.kind f =
            .function ⟨none, "f", ⟨[⟨some "x", number⟩], [], false⟩, body, none⟩ ∧
          out.file.tree.kind body = .block [statement] ∧
          out.file.tree.kind statement = .switch none (some tag) [⟨some [value], []⟩] ∧
          out.file.tree.kind tag = .identifier "x" :=
  ⟨by decide +kernel, _, lowerUnitWith_ok.mpr ⟨by decide +kernel, rfl⟩, ⟨6⟩, by decide +kernel,
    ⟨5⟩, ⟨4⟩, ⟨0⟩, ⟨3⟩, by decide +kernel, by decide +kernel, by decide +kernel, by decide +kernel⟩

end OperatorUse

end Lowering

end GoLowering
