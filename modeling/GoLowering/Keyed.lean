/-!
# Values by key

Finite maps kept as lists of pairs. A key is there at most once as long as pairs are put in
by `set`, which keeps the place of a key that is there.
-/

namespace GoLowering

abbrev Keyed (κ α : Type) := List (κ × α)

namespace Keyed

variable {κ α : Type} [BEq κ]

/-- Puts a value under a key, in the place of the one before, or at the end. -/
def set (entries : Keyed κ α) (key : κ) (value : α) : Keyed κ α :=
  match entries with
  | [] => [(key, value)]
  | (k, v) :: rest => if key == k then (key, value) :: rest else (k, v) :: set rest key value

@[simp] theorem lookup_set_self [LawfulBEq κ] (entries : Keyed κ α) (key : κ) (value : α) :
    (set entries key value).lookup key = some value := by
  induction entries with
  | nil => simp [set]
  | cons entry rest ih =>
    obtain ⟨k, v⟩ := entry
    simp only [set]
    split
    · simp
    · rename_i h
      simp [List.lookup_cons, h, ih]

theorem lookup_set_of_ne [LawfulBEq κ] {entries : Keyed κ α} {key other : κ} {value : α}
    (h : other ≠ key) : (set entries key value).lookup other = entries.lookup other := by
  have hb : (other == key) = false := by simpa using h
  induction entries with
  | nil => simp [set, List.lookup_cons, hb]
  | cons entry rest ih =>
    obtain ⟨k, v⟩ := entry
    simp only [set]
    split
    · rename_i hk
      simp only [beq_iff_eq] at hk
      subst hk
      simp [List.lookup_cons, hb]
    · simp [List.lookup_cons, ih]

theorem mem_of_lookup [LawfulBEq κ] {entries : Keyed κ α} {key : κ} {value : α}
    (h : entries.lookup key = some value) : (key, value) ∈ entries := by
  obtain ⟨before, after, rfl, -⟩ := List.lookup_eq_some_iff.mp h
  exact List.mem_append_right _ List.mem_cons_self

theorem mem_set {entries : Keyed κ α} {key : κ} {value : α} {entry : κ × α}
    (h : entry ∈ set entries key value) : entry ∈ entries ∨ entry = (key, value) := by
  induction entries with
  | nil => exact .inr (List.mem_singleton.mp h)
  | cons first rest ih =>
    unfold set at h
    split at h
    · exact (List.mem_cons.mp h).symm.imp_left (List.mem_cons_of_mem first)
    · rcases List.mem_cons.mp h with rfl | h
      · exact .inl List.mem_cons_self
      · exact (ih h).imp_left (List.mem_cons_of_mem first)

end Keyed

end GoLowering
