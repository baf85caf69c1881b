import Mathlib.Data.List.Perm.Subperm

/-!
# Descents that end

Going from a node to the next ones, again and again, may or may not come to an end. Where it does,
and every node on the way is one of finitely many, it comes to an end within as many levels
(`settles_iff_within`), for no node can be met again below itself.
-/

namespace GoLowering

/-- Every way down from a node ends, and all nodes on it are good. -/
inductive Settles {α : Type} (next : α → List α) (good : α → Prop) : α → Prop where
  | intro {x : α} (hgood : good x) (hnext : ∀ y ∈ next x, Settles next good y) :
    Settles next good x

/-- Every way down from a node ends within some levels, and all nodes on it are good. -/
def SettlesWithin {α : Type} (next : α → List α) (good : α → Prop) : Nat → α → Prop
  | 0, _ => False
  | depth + 1, x => good x ∧ ∀ y ∈ next x, SettlesWithin next good depth y

section

variable {α : Type} {next : α → List α} {good : α → Prop}

instance SettlesWithin.decidable [DecidablePred good] :
    (depth : Nat) → (x : α) → Decidable (SettlesWithin next good depth x)
  | 0, _ => inferInstanceAs (Decidable False)
  | depth + 1, x =>
    have (y : α) : Decidable (SettlesWithin next good depth y) := decidable depth y
    inferInstanceAs (Decidable (good x ∧ ∀ y ∈ next x, SettlesWithin next good depth y))

theorem Settles.isGood {x : α} (h : Settles next good x) : good x := by
  cases h with
  | intro hgood _ => exact hgood

theorem Settles.of_mem {x y : α} (h : Settles next good x) (hy : y ∈ next x) :
    Settles next good y := by
  cases h with
  | intro _ hnext => exact hnext y hy

theorem settles_iff {x : α} :
    Settles next good x ↔ good x ∧ ∀ y ∈ next x, Settles next good y :=
  ⟨fun h => ⟨h.isGood, fun _ hy => h.of_mem hy⟩, fun h => .intro h.1 h.2⟩

namespace SettlesWithin

theorem imp {good' : α → Prop} (himp : ∀ x, good x → good' x) {depth : Nat} {x : α}
    (h : SettlesWithin next good depth x) : SettlesWithin next good' depth x := by
  induction depth generalizing x with
  | zero => exact h.elim
  | succ depth ih => exact ⟨himp x h.1, fun y hy => ih (h.2 y hy)⟩

variable {depth depth' : Nat} {x : α}

theorem succ (h : SettlesWithin next good depth x) : SettlesWithin next good (depth + 1) x := by
  induction depth generalizing x with
  | zero => exact h.elim
  | succ depth ih => exact ⟨h.1, fun y hy => ih (h.2 y hy)⟩

theorem mono (h : SettlesWithin next good depth x) (hle : depth ≤ depth') :
    SettlesWithin next good depth' x := by
  induction hle with
  | refl => exact h
  | step _ ih => exact ih.succ

theorem settles (h : SettlesWithin next good depth x) : Settles next good x := by
  induction depth generalizing x with
  | zero => exact h.elim
  | succ depth ih => exact ⟨h.1, fun y hy => ih (h.2 y hy)⟩

/-- A node that takes all levels has a different node below it on each of them. -/
theorem exists_chain (h : SettlesWithin next good (depth + 1) x)
    (hnot : ¬ SettlesWithin next good depth x) :
    ∃ xs : List α, xs.length = depth + 1 ∧ xs.Nodup ∧
      ∀ y ∈ xs, SettlesWithin next good (depth + 1) y := by
  induction depth generalizing x with
  | zero => exact ⟨[x], rfl, by simp, by simpa using h⟩
  | succ depth ih =>
    obtain ⟨y, hy, hynot⟩ : ∃ y ∈ next x, ¬ SettlesWithin next good depth y := by
      by_contra hall
      simp only [not_exists, not_and, not_not] at hall
      exact hnot ⟨h.1, hall⟩
    obtain ⟨xs, hlength, hnodup, hxs⟩ := ih (h.2 y hy) hynot
    have hx : x ∉ xs := fun hmem => hnot (hxs x hmem)
    refine ⟨x :: xs, by simp [hlength], List.nodup_cons.mpr ⟨hx, hnodup⟩, ?_⟩
    intro z hz
    rcases List.mem_cons.mp hz with rfl | hz
    · exact h
    · exact (hxs z hz).succ

/-- When there are only so many good nodes, a way down that ends takes no more levels. -/
theorem of_card {nodes : List α} (hnodes : ∀ y, good y → y ∈ nodes)
    (h : SettlesWithin next good depth x) : SettlesWithin next good nodes.length x := by
  rcases Nat.le_total depth nodes.length with hle | hle
  · exact h.mono hle
  · obtain ⟨more, rfl⟩ := Nat.exists_eq_add_of_le hle
    clear hle
    induction more with
    | zero => exact h
    | succ more ih =>
      by_contra hnot
      have hmore : SettlesWithin next good (nodes.length + more + 1) x := h
      obtain ⟨xs, hlength, hnodup, hxs⟩ := exists_chain hmore (fun hless => hnot (ih hless))
      have hsub : xs ⊆ nodes := fun y hy => hnodes y (hxs y hy).1
      have hle : xs.length ≤ nodes.length := (hnodup.subperm hsub).length_le
      omega

end SettlesWithin

/-- The levels below finitely many nodes are bounded together. -/
theorem SettlesWithin.exists_common {xs : List α}
    (h : ∀ x ∈ xs, ∃ depth, SettlesWithin next good depth x) :
    ∃ depth, ∀ x ∈ xs, SettlesWithin next good depth x := by
  induction xs with
  | nil => exact ⟨0, by simp⟩
  | cons x xs ih =>
    obtain ⟨depth, hx⟩ := h x List.mem_cons_self
    obtain ⟨depth', hxs⟩ := ih (fun y hy => h y (List.mem_cons_of_mem x hy))
    refine ⟨max depth depth', fun y hy => ?_⟩
    rcases List.mem_cons.mp hy with rfl | hy
    · exact hx.mono (Nat.le_max_left depth depth')
    · exact (hxs y hy).mono (Nat.le_max_right depth depth')

theorem Settles.exists_within {x : α} (h : Settles next good x) :
    ∃ depth, SettlesWithin next good depth x := by
  induction h with
  | intro hgood _ ih =>
    obtain ⟨depth, hbelow⟩ := SettlesWithin.exists_common ih
    exact ⟨depth + 1, hgood, hbelow⟩

theorem settles_iff_within {x : α} {nodes : List α} (hnodes : ∀ y, good y → y ∈ nodes) :
    Settles next good x ↔ SettlesWithin next good nodes.length x := by
  constructor
  · intro h
    obtain ⟨depth, hwithin⟩ := h.exists_within
    exact hwithin.of_card hnodes
  · exact SettlesWithin.settles

end

end GoLowering
