import Mathlib.Data.Finset.Card
import Mathlib.Logic.Relation
import GoLowering.Surface.Syntax

/-!
# Nodes of nodes

The nodes that a node of a unit refers to. In a unit without cycles every node is higher than
those that it refers to (`SourceUnit.height_lt`), and none is higher than there are nodes.
-/

namespace GoLowering.Surface

/-- Syntax that refers to nodes. -/
class HasNodes (α : Type) where
  nodes : α → List NodeId

export HasNodes (nodes)

variable {α β : Type} [HasNodes α] [HasNodes β]

instance : HasNodes NodeId := ⟨fun id => [id]⟩

instance : HasNodes (Option α) := ⟨fun a => a.toList.flatMap nodes⟩

instance : HasNodes (List α) := ⟨fun as => as.flatMap nodes⟩

instance : HasNodes (α × β) := ⟨fun (a, b) => nodes a ++ nodes b⟩

instance : HasNodes Element := ⟨fun element => nodes (element.key, element.value)⟩

instance : HasNodes LambdaBody where
  nodes
    | .expressions values => nodes values
    | .block body => nodes body

instance : HasNodes ForClause := ⟨fun clause => nodes (clause.source, clause.init, clause.guard)⟩

instance : HasNodes Yield where
  nodes
    | .list value => nodes value
    | .map key value => nodes (key, value)
    | .existence => []
    | .select value => nodes value

instance : HasNodes WrapPolicy where
  nodes
    | .raise | .propagate => []
    | .fallback default => nodes default

instance : HasNodes Expr where
  nodes
    | .identifier _ | .literal .. => []
    | .composite type elements => nodes (type, elements)
    | .sliceLiteral elements => nodes elements
    | .grouping inner => nodes inner
    | .member object _ => nodes object
    | .index object index => nodes (object, index)
    | .slice object low high max => nodes (object, low, high, max)
    | .typeAssertion object type => nodes (object, type)
    | .call callee args _ => nodes (callee, args)
    | .command head args => nodes (head, args)
    | .ambiguousCommand head _ operand => nodes (head, operand)
    | .dereference inner => nodes inner
    | .unary _ operand => nodes operand
    | .binary _ left right => nodes (left, right)
    | .functionLiteral signature body => nodes (signature, body)
    | .lambda _ body => nodes body
    | .comprehension yields clauses => nodes (yields, clauses)
    | .errorWrap inner policy => nodes (inner, policy)

instance : HasNodes ValueSpec := ⟨fun spec => nodes (spec.type, spec.values)⟩

instance : HasNodes Receiver := ⟨fun receiver => nodes receiver.type⟩

instance : HasNodes FunctionDecl := ⟨fun decl => nodes (decl.receiver, decl.signature, decl.body)⟩

instance : HasNodes CaseClause := ⟨fun clause => nodes (clause.values, clause.body)⟩

instance : HasNodes SelectClause := ⟨fun clause => nodes (clause.comm, clause.body)⟩

instance : HasNodes Stmt where
  nodes
    | .expression value => nodes value
    | .assign lhs _ rhs => nodes (lhs, rhs)
    | .incDec target _ => nodes target
    | .send channel value => nodes (channel, value)
    | .varDecl spec | .constDecl spec => nodes spec
    | .typeDecl _ type _ _ => nodes type
    | .function decl => nodes decl
    | .importPackage .. | .branch .. => []
    | .block statements => nodes statements
    | .ifElse init condition thenBlock elseBranch => nodes (init, condition, thenBlock, elseBranch)
    | .loop init condition post body => nodes (init, condition, post, body)
    | .range key value _ source body => nodes (key, value, source, body)
    | .forPhrase clause body => nodes (clause, body)
    | .switch init tag clauses => nodes (init, tag, clauses)
    | .typeSwitch init _ subject clauses => nodes (init, subject, clauses)
    | .select clauses => nodes clauses
    | .go call | .defer call => nodes call
    | .ret values => nodes values
    | .labeled _ body => nodes body

instance : HasNodes Param := ⟨fun param => nodes param.type⟩

instance : HasNodes FieldSpec := ⟨fun field => nodes field.type⟩

instance : HasNodes MethodSpec := ⟨fun method => nodes method.signature⟩

instance : HasNodes TypeExpr where
  nodes
    | .named .. => []
    | .pointer target => nodes target
    | .slice element => nodes element
    | .array length element => nodes (length, element)
    | .map key value => nodes (key, value)
    | .chan _ element => nodes element
    | .func params results _ => nodes (params, results)
    | .struct fields => nodes fields
    | .interface methods => nodes methods

instance : HasNodes NodeKind where
  nodes
    | .expr e => nodes e
    | .stmt s => nodes s
    | .type t => nodes t

namespace SourceUnit

/-- The nodes that a node refers to; one that is missing refers to none. -/
def children (unit : SourceUnit) (id : NodeId) : List NodeId :=
  match unit.get? id with
  | some node => HasNodes.nodes node.kind
  | none => []

/-- No node leads back to itself. -/
def Acyclic (unit : SourceUnit) : Prop :=
  ∀ id, ¬Relation.TransGen (fun a b => b ∈ unit.children a) id id

/-- Whether every node refers to earlier nodes only. -/
def isOrdered (unit : SourceUnit) : Bool :=
  (List.range unit.nodes.size).all (fun i => (unit.children ⟨i⟩).all (·.index < i))

open Classical in
/-- The positions of the nodes that a node leads to. -/
noncomputable def reached (unit : SourceUnit) (id : NodeId) : Finset Nat :=
  (Finset.range unit.nodes.size).filter
    (fun i => Relation.TransGen (fun a b => b ∈ unit.children a) id ⟨i⟩)

/-- The number of nodes that stand below a node, itself counted in; nothing for one that is
missing. -/
noncomputable def height (unit : SourceUnit) (id : NodeId) : Nat :=
  if id.index < unit.nodes.size then (unit.reached id).card + 1 else 0

variable {unit : SourceUnit} {a b : NodeId}

theorem mem_reached {i : Nat} : i ∈ unit.reached a ↔
    i < unit.nodes.size ∧ Relation.TransGen (fun a b => b ∈ unit.children a) a ⟨i⟩ := by
  simp [reached]

theorem index_lt_of_mem_children (h : b ∈ unit.children a) : a.index < unit.nodes.size := by
  unfold children SourceUnit.get? at h
  split at h
  · rename_i hnode
    exact (Array.getElem?_eq_some_iff.mp hnode).1
  · cases h

theorem acyclic_of_isOrdered (h : unit.isOrdered) : unit.Acyclic := by
  have step {a b : NodeId} (hab : b ∈ unit.children a) : b.index < a.index := by
    have ha := List.all_eq_true.mp h a.index (List.mem_range.mpr (index_lt_of_mem_children hab))
    exact of_decide_eq_true (List.all_eq_true.mp ha b hab)
  have run {a b : NodeId} (hab : Relation.TransGen (fun a b => b ∈ unit.children a) a b) :
      b.index < a.index := by
    induction hab with
    | single hab => exact step hab
    | tail _ hbc ih => exact Nat.lt_trans (step hbc) ih
  exact fun id hcycle => Nat.lt_irrefl _ (run hcycle)

/-- A node does not lead to itself, but all else that it is among leads past it. -/
theorem height_lt (acyclic : unit.Acyclic) (h : b ∈ unit.children a) :
    unit.height b < unit.height a := by
  have ha : unit.height a = (unit.reached a).card + 1 := if_pos (index_lt_of_mem_children h)
  rw [ha]
  by_cases hb : b.index < unit.nodes.size
  · rw [show unit.height b = (unit.reached b).card + 1 from if_pos hb]
    refine Nat.succ_lt_succ (Finset.card_lt_card (Finset.ssubset_iff_of_subset ?_ |>.mpr ?_))
    · intro i hi
      obtain ⟨hsize, hpath⟩ := mem_reached.mp hi
      exact mem_reached.mpr ⟨hsize, hpath.head h⟩
    · refine ⟨b.index, mem_reached.mpr ⟨hb, .single h⟩, fun hmem => ?_⟩
      exact acyclic b (mem_reached.mp hmem).2
  · rw [show unit.height b = 0 from if_neg hb]
    exact Nat.succ_pos _

theorem height_le (acyclic : unit.Acyclic) (a : NodeId) : unit.height a ≤ unit.nodes.size := by
  unfold height
  split
  · rename_i ha
    have hlt : (unit.reached a).card < (Finset.range unit.nodes.size).card := by
      refine Finset.card_lt_card (Finset.ssubset_iff_of_subset ?_ |>.mpr ?_)
      · intro i hi
        exact Finset.mem_range.mpr (mem_reached.mp hi).1
      · exact ⟨a.index, Finset.mem_range.mpr ha, fun hmem => acyclic a (mem_reached.mp hmem).2⟩
    rw [Finset.card_range] at hlt
    exact hlt
  · exact Nat.zero_le _

end SourceUnit

end GoLowering.Surface
