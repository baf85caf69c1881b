import GoLowering.Proofs.Frame

/-!
# Parts that change nothing, and parts that fail

A part that reads only (`Reads`) ends in the state that it starts from. A part that reports a
problem (`Fails`) has no result.
-/

namespace GoLowering.Lowering

open Surface

/-- A part that changes nothing. -/
class Reads {α : Type} (m : Lower α) : Prop where
  state_eq (c : Context) (s : State) : (m c s).2 = s

section

variable {α β : Type}

instance (a : α) : Reads (pure a : Lower α) := ⟨fun _ _ => rfl⟩

instance (problem : Problem) (span : Span) : Reads (fail problem span : Lower α) :=
  ⟨fun _ _ => rfl⟩

instance reads_bind {m : Lower α} {f : α → Lower β} [hm : Reads m] [h : ∀ a, Reads (f a)] :
    Reads (m >>= f) where
  state_eq c s := by
    have hs := hm.state_eq c s
    rw [run_bind]
    rcases hr : m c s with ⟨r, s₁⟩
    rw [hr] at hs
    cases r with
    | error e => exact hs
    | ok a => exact ((h a).state_eq c s₁).trans hs

instance : Reads (read : Lower Context) := ⟨fun _ _ => rfl⟩

instance : Reads (get : Lower State) := ⟨fun _ _ => rfl⟩

instance {p : Prop} [Decidable p] {m n : Lower α} [hm : Reads m] [hn : Reads n] :
    Reads (if p then m else n) := by
  split
  · exact hm
  · exact hn

theorem Reads.ok {m : Lower α} [hm : Reads m] {c : Context} {s s' : State} {a : α}
    (h : m c s = (.ok a, s')) : s' = s := by
  have hs := hm.state_eq c s
  rwa [h] at hs

instance (span : Span) : Reads (textAt span) := by
  unfold textAt
  infer_instance

instance (id : NodeId) : Reads (spanOf id) := by
  unfold spanOf
  infer_instance

instance (id : NodeId) : Reads (textOf id) := by
  unfold textOf
  infer_instance

instance : Reads getTypes := by
  unfold getTypes
  infer_instance

instance (operand : Operand) : Reads (checkValue operand) := by
  have hvalue : Reads (do
      match (← getTypes).get operand.type with
      | .tuple elements => fail (.resultCountMismatch 1 elements.length) operand.span
      | _ => return ()) := by
    refine reads_bind (h := fun types => ?_)
    split <;> infer_instance
  unfold checkValue
  split <;> first | exact hvalue | infer_instance

instance (type : TypeId) : Reads (isUntypedBig type) := by
  unfold isUntypedBig
  refine reads_bind (h := fun types => ?_)
  split <;> infer_instance

instance (type : TypeId) : Reads (basicOf? type) := by
  unfold basicOf?
  infer_instance

instance (type : TypeId) : Reads (bigDefault? type) := by
  unfold bigDefault?
  infer_instance

instance (source target : TypeId) : Reads (assignable source target) := by
  unfold assignable
  infer_instance

instance (left right : Operand) : Reads (operatorType? left right) := by
  unfold operatorType?
  infer_instance

end

/-- A part that never runs to its end. -/
class Fails {α : Type} (m : Lower α) : Prop where
  fails {c : Context} {s s' : State} {a : α} : m c s ≠ (.ok a, s')

section

variable {α β : Type}

instance (failure : Failure) : Fails (throw failure : Lower α) := ⟨nofun⟩

instance (problem : Problem) (span : Span) : Fails (fail problem span : Lower α) := ⟨nofun⟩

instance {m : Lower α} {f : α → Lower β} [hf : ∀ a, Fails (f a)] : Fails (m >>= f) where
  fails h := by
    obtain ⟨a, s₁, -, h⟩ := bind_ok.mp h
    exact (hf a).fails h

instance {m : Lower α} {f : α → Lower β} [hm : Fails m] : Fails (m >>= f) where
  fails h := by
    obtain ⟨a, s₁, h, -⟩ := bind_ok.mp h
    exact hm.fails h

instance {p : Prop} [Decidable p] {m n : Lower α} [hm : Fails m] [hn : Fails n] :
    Fails (if p then m else n) := by
  split
  · exact hm
  · exact hn

instance (operand : Operand) (target : TypeId) :
    Fails (failMismatch operand target : Lower α) := by
  unfold failMismatch
  dsimp only
  infer_instance

instance (operand : Operand) : Fails (failOverflow operand : Lower α) := by
  unfold failOverflow
  infer_instance

instance (operator : String) (type : TypeId) (span : Span) :
    Fails (failOperation operator type span : Lower α) := by
  unfold failOperation
  infer_instance

instance (op : BinaryOp) (left right : Operand) (span : Span) (error : FoldError) :
    Fails (failFold op left right span error : Lower α) := by
  cases error <;> (unfold failFold; infer_instance)

instance (operand : Operand) : Fails (failIndex operand : Lower α) := by
  unfold failIndex
  infer_instance

instance (expected got : Nat) (span : Span) : Fails (failArgumentCount expected got span : Lower α) := by
  unfold failArgumentCount
  infer_instance

instance (expected got : Nat) (span : Span) : Fails (failResultCount expected got span : Lower α) := by
  unfold failResultCount
  infer_instance

instance (owner name : String) (span : Span) : Fails (failMember owner name span : Lower α) := by
  unfold failMember
  infer_instance

instance (left right : Nat) (span : Span) : Fails (failCount left right span : Lower α) := by
  unfold failCount
  infer_instance

end

end GoLowering.Lowering
