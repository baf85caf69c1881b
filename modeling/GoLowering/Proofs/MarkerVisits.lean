import GoLowering.Proofs.MarkerOrder
import GoLowering.Proofs.PrintableUnits

/-!
# Visits that are deep enough

The visit for markers goes down a tree by a depth, and by up to two steps for a node and its parts:
the statements of a function literal on one line, and the branches of an `if`. The nodes that a
lowering makes come after what they refer to. So what is found in a node is the same from a depth on
that goes with its place (`settledAt`), and the visit of a whole tree never comes to its end
(`isDeepEnough`).
-/

namespace GoLowering

namespace Marking

/-- From a depth on, visits that may go deeper find the same. -/
def SameFrom (found : Nat → List HostId) (depth : Nat) : Prop :=
  ∀ d ≥ depth, ∀ d' ≥ depth, found d = found d'

namespace SameFrom

variable {found next : Nat → List HostId} {depth depth' : Nat}

theorem mono (h : SameFrom found depth) (hle : depth ≤ depth') : SameFrom found depth' :=
  fun d hd d' hd' => h d (hle.trans hd) d' (hle.trans hd')

theorem congr (h : SameFrom next depth) (heq : ∀ d, found d = next d) : SameFrom found depth :=
  fun d hd d' hd' => by rw [heq, heq, h d hd d' hd']

/-- A visit that leaves the next step to another one. -/
theorem step (h : SameFrom next depth) (hnext : ∀ d, found (d + 1) = next d) :
    SameFrom found (depth + 1) := by
  intro d hd d' hd'
  obtain ⟨d, rfl⟩ := Nat.exists_eq_add_one_of_ne_zero (n := d) (by omega)
  obtain ⟨d', rfl⟩ := Nat.exists_eq_add_one_of_ne_zero (n := d') (by omega)
  rw [hnext, hnext, h d (by omega) d' (by omega)]

theorem cons (h : SameFrom found depth) (id : HostId) : SameFrom (fun d => id :: found d) depth :=
  fun d hd d' hd' => congrArg (id :: ·) (h d hd d' hd')

theorem append (h : SameFrom found depth) (h' : SameFrom next depth) :
    SameFrom (fun d => found d ++ next d) depth :=
  fun d hd d' hd' => congrArg₂ (· ++ ·) (h d hd d' hd') (h' d hd d' hd')

theorem flatMap {α : Type} {xs : List α} {found : Nat → α → List HostId}
    (h : ∀ x ∈ xs, SameFrom (found · x) depth) : SameFrom (fun d => xs.flatMap (found d)) depth :=
  fun d hd d' hd' => List.flatMap_congr (fun x hx => h x hx d hd d' hd')

end SameFrom

variable {tree : HostTree}

/-- Both visits of a node find the same from a depth on. -/
def SettledAt (tree : HostTree) (depth : Nat) (id : HostId) : Prop :=
  SameFrom (inlineStops tree · id) depth ∧ SameFrom (statementStops tree · id) depth

/-- The visit of a tree for markers is never at its end: no greater depth finds anything else. -/
def IsDeepEnough (tree : HostTree) : Prop :=
  ∀ id, ∀ depth ≥ depthBound tree,
    statementStops tree depth id = statementStops tree (depthBound tree) id ∧
      inlineStops tree depth id = inlineStops tree (depthBound tree) id

theorem sameFrom_parts {parts : List HostKind.Part} {depth : Nat}
    (h : ∀ part ∈ parts, ∀ x ∈ tree.shown part, SettledAt tree depth x) :
    SameFrom (fun d => parts.flatMap (tree.partStops (inlineStops tree d) (statementStops tree d)))
      depth := by
  refine .flatMap (fun part hpart => ?_)
  cases part with
  | package _ | type _ => exact fun _ _ _ _ => rfl
  | inline x => exact (h _ hpart x (List.mem_singleton_self x)).1
  | statement x => exact (h _ hpart x (List.mem_singleton_self x)).2
  | body id => exact .flatMap (fun x hx => (h _ hpart x hx).2)

/-- There are no statements on a line in a node that has lines of its own. -/
theorem inlineStops_eq_nil {id : HostId} (h : (tree.kind id).isInline = false) (depth : Nat) :
    inlineStops tree depth id = [] := by
  cases depth with
  | zero => rfl
  | succ depth =>
    cases hkind : tree.kind id <;>
      simp_all [inlineStops, inlineChildren, HostKind.children, HostKind.isInline]

end Marking

namespace Lowering.Context.Formed

open Marking

variable {c : Context} {tree : HostTree} (hformed : c.Formed tree)
include hformed

theorem shown_lt (types : TypeTable) {id x : HostId} {part : HostKind.Part}
    (hid : id.index < tree.size) (hpart : part ∈ (tree.kind id).parts types)
    (hx : x ∈ tree.shown part) : x.index < id.index := by
  obtain ⟨child, hchild, hreaches⟩ := HostTree.reaches_shown hpart hx
  have hlt := hformed.child_lt hid hchild
  exact (hformed.reaches_le (hlt.trans hid) hreaches).trans_lt hlt

/-- What follows an `else` is older than the `if`. -/
theorem sameFrom_branch {id branch : HostId} (hid : id.index < tree.size)
    (hbranch : (tree.kind id).elseBranch? = some branch)
    (ih : ∀ x : HostId, x.index < id.index → SettledAt tree (2 * id.index) x) :
    SameFrom (fun d => (tree.statements branch).flatMap (statementStops tree d))
      (2 * id.index) := by
  have hlt := hformed.child_lt hid (HostKind.mem_children_of_branch hbranch)
  refine .flatMap (fun x hx => (ih x ?_).2)
  exact (hformed.reaches_le (hlt.trans hid) (HostTree.reaches_statements hx)).trans_lt hlt

/-- What is found in an `if` and its branches is the same from a depth on. Each branch that is an `if`
takes one step and stands at least one place before. -/
theorem sameFrom_ifStops {id : HostId} (hid : id.index < tree.size)
    (ih : ∀ x : HostId, x.index < id.index → SettledAt tree (2 * x.index + 2) x)
    {init : Option HostId} {condition thenBranch : HostId} {elseBranch : Option HostId}
    (hkind : tree.kind id = .ifElse init condition thenBranch elseBranch) :
    SameFrom (ifStops tree · init condition thenBranch elseBranch) (2 * id.index + 1) := by
  induction hn : id.index using Nat.strong_induction_on
    generalizing id init condition thenBranch elseBranch with
  | _ n branches =>
    subst hn
    have hbelow (x : HostId) (hx : x.index < id.index) : SettledAt tree (2 * id.index) x :=
      ⟨(ih x hx).1.mono (by omega), (ih x hx).2.mono (by omega)⟩
    refine .step (.append (sameFrom_parts (fun part hpart x hx => ?_)) ?_)
      (ifStops_succ .initial · init condition thenBranch elseBranch)
    · refine hbelow x (hformed.shown_lt .initial hid ?_ hx)
      rw [hkind, HostKind.parts_eq]
      exact List.mem_append_right _ hpart
    · cases elseBranch with
      | none => exact fun _ _ _ _ => rfl
      | some branch =>
        have hbranch : (tree.kind id).elseBranch? = some branch := by rw [hkind]; rfl
        have hlt := hformed.child_lt hid (HostKind.mem_children_of_branch hbranch)
        by_cases hif : (tree.kind branch).isIf
        · obtain ⟨init', condition', thenBranch', elseBranch', hkind'⟩ := HostKind.exists_of_isIf hif
          have hsame := branches branch.index hlt (hlt.trans hid)
            (fun x hx => ih x (hx.trans hlt)) hkind' rfl
          exact (hsame.mono (by omega)).congr (fun d => elseStops_if rfl hkind')
        · exact (hformed.sameFrom_branch hid hbranch hbelow).congr
            (fun d => elseStops_of_not_isIf rfl (Bool.eq_false_iff.mpr hif))

/-- Both visits of a node find the same from a depth on that goes with its place. -/
theorem settledAt {id : HostId} (hid : id.index < tree.size) :
    SettledAt tree (2 * id.index + 2) id := by
  induction hn : id.index using Nat.strong_induction_on generalizing id with
  | _ n ih =>
    subst hn
    have below (x : HostId) (hx : x.index < id.index) : SettledAt tree (2 * x.index + 2) x :=
      ih x.index hx (hx.trans hid) rfl
    have hparts : SameFrom (fun d => ((tree.kind id).markedParts .initial).flatMap
        (tree.partStops (inlineStops tree d) (statementStops tree d))) (2 * id.index) := by
      refine sameFrom_parts (fun part hpart x hx => ?_)
      have hlt := hformed.shown_lt .initial hid
        (by rw [HostKind.parts_eq]; exact List.mem_append_right _ hpart) hx
      exact ⟨(below x hlt).1.mono (by omega), (below x hlt).2.mono (by omega)⟩
    by_cases hinline : (tree.kind id).isInline
    · have hline : SameFrom (inlineStops tree · id) (2 * id.index + 1) :=
        hparts.step (fun d => inlineStops_succ .initial d hinline)
      exact ⟨hline.mono (by omega),
        (hline.cons id).step (fun d => statementStops_inline d hinline)⟩
    · have hinline := Bool.eq_false_iff.mpr hinline
      refine ⟨fun d _ d' _ => by simp only [inlineStops_eq_nil hinline], ?_⟩
      by_cases hif : (tree.kind id).isIf
      · obtain ⟨init, condition, thenBranch, elseBranch, hkind⟩ := HostKind.exists_of_isIf hif
        exact ((hformed.sameFrom_ifStops hid below hkind).cons id).step (fun d => by
          simp only [statementStops, hkind])
      · have hif := Bool.eq_false_iff.mpr hif
        by_cases hfunction : (tree.kind id).isFunction
        · have hnothing (d : Nat) : statementStops tree (d + 1) id = [id] := by
            cases hkind : tree.kind id <;> simp_all [HostKind.isFunction, statementStops,
              inlineStops_eq_nil]
          have hsame : SameFrom (fun _ => [id]) (2 * id.index + 1) := fun _ _ _ _ => rfl
          exact hsame.step hnothing
        · exact ((hparts.cons id).step (fun d => statementStops_succ .initial d hinline hif
            (Bool.eq_false_iff.mpr hfunction))).mono (by omega)

/-- The visit of a tree that a lowering has made is deep enough. -/
theorem isDeepEnough : IsDeepEnough tree := by
  intro id depth hdepth
  have hbound : Marking.depthBound tree = 3 * tree.size + 3 := rfl
  by_cases hid : id.index < tree.size
  · obtain ⟨hinline, hstatement⟩ := hformed.settledAt hid
    exact ⟨hstatement depth (by omega) _ (by omega), hinline depth (by omega) _ (by omega)⟩
  · have hkind : tree.kind id = .block [] := by
      have hnone : tree.get? id = none := Array.getElem?_eq_none (Nat.le_of_not_lt hid)
      rw [HostTree.kind, hnone]
    obtain ⟨depth, rfl⟩ := Nat.exists_eq_add_one_of_ne_zero (n := depth) (by omega)
    have hinline : (tree.kind id).isInline = false := by rw [hkind]; rfl
    rw [hbound]
    exact ⟨by simp only [statementStops, hkind, List.flatMap_nil],
      by simp only [inlineStops_eq_nil hinline]⟩

end Lowering.Context.Formed

end GoLowering
