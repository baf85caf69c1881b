import Mathlib.Data.List.Nodup
import GoLowering.Outline

/-!
# Order of an outline

The declarations of an outline come out by rank and keep their order within a rank
(`Outline.declarations_eq`), the places of the output come out in the order they were kept
(`Places.values_eq`), and no name that is not repeatable is taken twice (`Outline.Sound`).
-/

namespace GoLowering

/-! ## Sorting by rank -/

section

variable {α : Type} (rank : α → Nat)

/-- The elements of each rank below a bound, one rank after the other. -/
def byRank (bound : Nat) (xs : List α) : List α :=
  (List.range bound).flatMap (fun r => xs.filter (fun x => rank x = r))

theorem mem_byRank {bound : Nat} {xs : List α} {x : α} :
    x ∈ byRank rank bound xs ↔ x ∈ xs ∧ rank x < bound := by
  simp [byRank, and_comm]

theorem byRank_succ (bound : Nat) (xs : List α) :
    byRank rank (bound + 1) xs = byRank rank bound xs ++ xs.filter (fun x => rank x = bound) := by
  simp [byRank, List.range_succ]

/-- An element comes after those of smaller rank and before the others. -/
theorem byRank_cons {bound : Nat} {x : α} (xs : List α) (h : rank x < bound) :
    ∃ rest, byRank rank bound xs = byRank rank (rank x) xs ++ rest ∧
      byRank rank bound (x :: xs) = byRank rank (rank x) xs ++ x :: rest ∧
      ∀ y ∈ rest, rank x ≤ rank y := by
  induction bound with
  | zero => exact absurd h (Nat.not_lt_zero _)
  | succ bound ih =>
    rcases Nat.lt_succ_iff_lt_or_eq.mp h with h | h
    · obtain ⟨rest, h₁, h₂, h₃⟩ := ih h
      refine ⟨rest ++ xs.filter (fun y => rank y = bound), ?_, ?_, fun y hy => ?_⟩
      · rw [byRank_succ, h₁, List.append_assoc]
      · rw [byRank_succ, h₂, List.filter_cons_of_neg (by simp; omega)]
        simp
      · rcases List.mem_append.mp hy with hy | hy
        · exact h₃ y hy
        · have := (List.mem_filter.mp hy).2
          simp at this
          omega
    · subst h
      refine ⟨xs.filter (fun y => rank y = rank x), byRank_succ .., ?_, fun y hy => ?_⟩
      · rw [byRank_succ, List.filter_cons_of_pos (by simp)]
        congr 1
        unfold byRank
        refine List.flatMap_congr (fun r hr => ?_)
        rw [List.filter_cons_of_neg]
        have := List.mem_range.mp hr
        simp
        omega
      · have := (List.mem_filter.mp hy).2
        simp at this
        omega

theorem append_split {p : α → Bool} {as bs cs ds : List α} (h : as ++ bs = cs ++ ds)
    (has : ∀ a ∈ as, p a) (hbs : ∀ b ∈ bs, p b = false) (hcs : ∀ c ∈ cs, p c)
    (hds : ∀ d ∈ ds, p d = false) : as = cs ∧ bs = ds := by
  have hfilter := congrArg (List.filter p) h
  rw [List.filter_append, List.filter_append, List.filter_eq_self.mpr has,
    List.filter_eq_self.mpr hcs, List.filter_eq_nil_iff.mpr (by simpa using hbs),
    List.filter_eq_nil_iff.mpr (by simpa using hds), List.append_nil, List.append_nil] at hfilter
  subst hfilter
  exact ⟨rfl, List.append_cancel_left h⟩

/-- A stable sort puts one rank after the other. -/
theorem mergeSort_eq_byRank {bound : Nat} {xs : List α} (h : ∀ x ∈ xs, rank x < bound) :
    xs.mergeSort (fun x y => rank x ≤ rank y) = byRank rank bound xs := by
  induction xs with
  | nil => simp [byRank]
  | cons x xs ih =>
    have htrans (a b c : α) (hab : decide (rank a ≤ rank b)) (hbc : decide (rank b ≤ rank c)) :
        decide (rank a ≤ rank c) := by
      simp at hab hbc ⊢
      omega
    have htotal (a b : α) : decide (rank a ≤ rank b) || decide (rank b ≤ rank a) := by
      simp
      omega
    obtain ⟨before, after, hsort, hrest, hbefore⟩ := List.mergeSort_cons htrans htotal x xs
    obtain ⟨rest, h₁, h₂, h₃⟩ := byRank_cons rank xs (h x List.mem_cons_self)
    have hafter : ∀ y ∈ after, rank x ≤ rank y := by
      have hsorted := List.pairwise_mergeSort htrans htotal (x :: xs)
      rw [hsort] at hsorted
      have hx := (List.pairwise_cons.mp (List.pairwise_append.mp hsorted).2.1).1
      simpa using hx
    rw [hsort, h₂]
    have hsplit : before ++ after = byRank rank (rank x) xs ++ rest := by
      rw [← hrest, ← h₁]
      exact ih (fun y hy => h y (List.mem_cons_of_mem _ hy))
    obtain ⟨rfl, rfl⟩ := append_split (p := fun y => decide (rank y < rank x)) hsplit
      (fun y hy => by simpa using hbefore y hy) (fun y hy => by simpa using hafter y hy)
      (fun y hy => by simpa using ((mem_byRank rank).mp hy).2) (fun y hy => by simpa using h₃ y hy)
    rfl

end

/-! ## Places -/

namespace Places

variable {κ α : Type}

/-- The keys in the order that their places were kept. -/
def keys (places : Places κ α) : List κ := places.map Prod.fst

variable [DecidableEq κ]

/-- What has been filled in the place of a key. -/
def filled (places : Places κ α) (key : κ) : List α := (places.lookup key).getD []

theorem filled_cons (k : κ) (vs : List α) (places : Places κ α) (key : κ) :
    filled ((k, vs) :: places) key = if key = k then vs else filled places key := by
  unfold filled
  by_cases h : key = k
  · simp [h]
  · have hb : (key == k) = false := by simpa using h
    simp [List.lookup_cons, hb, h]

theorem keys_fill_of_mem {places : Places κ α} {key : κ} (values : List α)
    (h : key ∈ places.keys) : (places.fill key values).keys = places.keys := by
  induction places with
  | nil => simp [keys] at h
  | cons entry rest ih =>
    obtain ⟨k, vs⟩ := entry
    unfold fill
    split
    · simp [keys]
    · rename_i hne
      have hrest : key ∈ keys rest := by
        simpa [keys, Ne.symm hne] using h
      simpa [keys] using ih hrest

theorem fill_of_not_mem {places : Places κ α} {key : κ} (values : List α)
    (h : key ∉ places.keys) : places.fill key values = places ++ [(key, values)] := by
  induction places with
  | nil => rfl
  | cons entry rest ih =>
    obtain ⟨k, vs⟩ := entry
    have hne : key ≠ k ∧ key ∉ keys rest := by simpa [keys] using h
    rw [fill, if_neg (Ne.symm hne.1), ih hne.2]
    rfl

theorem mem_keys_fill {places : Places κ α} {key other : κ} {values : List α} :
    other ∈ (places.fill key values).keys ↔ other ∈ places.keys ∨ other = key := by
  by_cases h : key ∈ places.keys
  · rw [keys_fill_of_mem values h]
    exact ⟨.inl, fun hother => hother.elim id (fun he => he ▸ h)⟩
  · rw [fill_of_not_mem values h]
    simp [keys]

theorem filled_fill_self (places : Places κ α) (key : κ) (values : List α) :
    (places.fill key values).filled key = places.filled key ++ values := by
  induction places with
  | nil => simp [fill, filled]
  | cons entry rest ih =>
    obtain ⟨k, vs⟩ := entry
    unfold fill
    split
    · rename_i h
      simp [filled_cons, h]
    · rename_i h
      rw [filled_cons, filled_cons, if_neg (Ne.symm h), if_neg (Ne.symm h), ih]

theorem filled_fill_of_ne (places : Places κ α) {key other : κ} (values : List α)
    (h : other ≠ key) : (places.fill key values).filled other = places.filled other := by
  induction places with
  | nil => simp [fill, filled_cons, h]
  | cons entry rest ih =>
    obtain ⟨k, vs⟩ := entry
    unfold fill
    split
    · rename_i hk
      subst hk
      rw [filled_cons, filled_cons, if_neg h, if_neg h]
    · rw [filled_cons, filled_cons, ih]

section

variable (places : Places κ α) (key other : κ) (values : List α)

/-- A place that is new comes last. -/
theorem keys_fill :
    (places.fill key values).keys =
      if key ∈ places.keys then places.keys else places.keys ++ [key] := by
  by_cases h : key ∈ places.keys
  · rw [if_pos h, keys_fill_of_mem values h]
  · rw [if_neg h, fill_of_not_mem values h]
    simp [keys]

theorem filled_fill :
    (places.fill key values).filled other =
      places.filled other ++ if key = other then values else [] := by
  by_cases h : key = other
  · subst h
    rw [if_pos rfl, filled_fill_self]
  · rw [if_neg h, filled_fill_of_ne places values (Ne.symm h), List.append_nil]

theorem nodup_keys_fill (h : places.keys.Nodup) : (places.fill key values).keys.Nodup := by
  rw [keys_fill]
  split
  · exact h
  · rename_i hnew
    refine List.nodup_append.mpr ⟨h, List.nodup_singleton key, ?_⟩
    intro a ha b hb hab
    exact hnew (List.mem_singleton.mp hb ▸ hab ▸ ha)

end

theorem mem_values_fill {places : Places κ α} {key : κ} {values : List α} {value : α} :
    value ∈ (places.fill key values).values ↔ value ∈ values ∨ value ∈ places.values := by
  induction places with
  | nil => simp [fill, Places.values]
  | cons entry rest ih =>
    simp only [Places.values] at ih
    simp only [fill, Places.values]
    split
    · simp only [List.flatMap_cons, List.mem_append]
      tauto
    · simp only [List.flatMap_cons, List.mem_append, ih]
      tauto

/-- A place that is kept holds nothing yet. -/
theorem values_fill_nil (places : Places κ α) (key : κ) :
    (places.fill key []).values = places.values := by
  induction places with
  | nil => rfl
  | cons entry rest ih =>
    simp only [Places.values] at ih
    simp only [fill, Places.values]
    split
    · simp only [List.flatMap_cons, List.append_nil]
    · simp only [List.flatMap_cons, ih]

/-- What comes out is what the places hold, in the order that they were kept. -/
theorem values_eq {places : Places κ α} (h : places.keys.Nodup) :
    places.values = places.keys.flatMap places.filled := by
  induction places with
  | nil => rfl
  | cons entry rest ih =>
    obtain ⟨k, vs⟩ := entry
    obtain ⟨hk, hrest⟩ := List.nodup_cons.mp h
    have hsame : (keys rest).flatMap (filled ((k, vs) :: rest)) =
        (keys rest).flatMap (filled rest) := by
      refine List.flatMap_congr (fun key hkey => ?_)
      have hne : key ≠ k := fun he => hk (he ▸ hkey)
      rw [filled_cons, if_neg hne]
    change vs ++ values rest = filled ((k, vs) :: rest) k ++ (keys rest).flatMap _
    rw [hsame, ← ih hrest, filled_cons, if_pos rfl]

theorem filled_of_mem {places : Places κ α} (h : places.keys.Nodup) {place : κ × List α}
    (hplace : place ∈ places) : places.filled place.1 = place.2 := by
  induction places with
  | nil => cases hplace
  | cons entry rest ih =>
    obtain ⟨k, vs⟩ := entry
    obtain ⟨hk, hrest⟩ := List.nodup_cons.mp h
    rw [filled_cons]
    rcases List.mem_cons.mp hplace with rfl | hplace
    · rw [if_pos rfl]
    · have hmem : place.1 ∈ keys rest := List.mem_map.mpr ⟨place, hplace, rfl⟩
      have hne : place.1 ≠ k := fun he => hk (he ▸ hmem)
      rw [if_neg hne]
      exact ih hrest hplace

end Places

/-! ## Places of an outline -/

namespace Outline

variable {κ α : Type}

/-- The statements that have a place of the output. -/
def placed (o : Outline κ α) : List κ := o.types.keys ++ o.constants.keys ++ o.functions.keys

/-- No statement has two places of one kind. -/
structure PlacedOnce (o : Outline κ α) : Prop where
  types : o.types.keys.Nodup
  constants : o.constants.keys.Nodup
  functions : o.functions.keys.Nodup

variable [DecidableEq κ] {o : Outline κ α}

/-- What the places of a statement hold. -/
def held (o : Outline κ α) (key : κ) : List α :=
  o.types.filled key ++ o.constants.filled key ++ o.functions.filled key

theorem PlacedOnce.fillAll (h : o.PlacedOnce) (kind : DeclKind) (key : κ) (values : List α) :
    (o.fillAll kind key values).PlacedOnce := by
  cases kind with
  | type => exact ⟨Places.nodup_keys_fill _ _ _ h.types, h.constants, h.functions⟩
  | const | var => exact ⟨h.types, Places.nodup_keys_fill _ _ _ h.constants, h.functions⟩
  | func | method | entry =>
    exact ⟨h.types, h.constants, Places.nodup_keys_fill _ _ _ h.functions⟩

theorem mem_held_fillAll {kind : DeclKind} {key other : κ} {values : List α} {value : α} :
    value ∈ (o.fillAll kind key values).held other ↔
      value ∈ o.held other ∨ key = other ∧ value ∈ values := by
  by_cases h : key = other <;> cases kind <;>
    simp only [Outline.fillAll, held, Places.filled_fill, h, if_true, if_false, List.mem_append,
      List.append_nil, true_and, false_and, or_false] <;>
    tauto

end Outline

/-! ## Names that are taken -/

namespace Outline

variable {κ α : Type}

/-- The declarations that are not repeatable are those that are taken, and no two of them have
the same name for the same receiver. -/
structure Sound (o : Outline κ α) : Prop where
  taken : o.taken = o.declared.filter (!·.isRepeatable)
  distinct : o.taken.Pairwise (fun a b => ¬(a.receiver = b.receiver ∧ a.name = b.name))

theorem sound_empty : (empty : Outline κ α).Sound := ⟨rfl, .nil⟩

theorem isNamed_iff {receiver : Option String} {name : String} {d : Declaration} :
    d.isNamed receiver name ↔ d.receiver = receiver ∧ d.name = name := by
  simp [Declaration.isNamed]

/-- What a declaration adds. -/
def adding (o : Outline κ α) (d : Declaration) : Outline κ α :=
  { o with
    declared := o.declared ++ [d]
    taken := if d.isRepeatable then o.taken else o.taken ++ [d] }

/-- A declaration is repeatable, or its name has not been taken. -/
def Fresh (o : Outline κ α) (d : Declaration) : Prop :=
  d.isRepeatable ∨ ∀ taken ∈ o.taken, ¬(taken.receiver = d.receiver ∧ taken.name = d.name)

/-- Only a declaration without a conflict goes through. -/
theorem declare_ok {o o' : Outline κ α} {d : Declaration} (h : o.declare d = .ok o') :
    o' = o.adding d ∧ o.Fresh d := by
  unfold declare at h
  split at h
  · rename_i hd
    cases h
    exact ⟨by simp [adding, hd], .inl hd⟩
  · rename_i hd
    split at h
    · cases h
    · rename_i hnone
      cases h
      refine ⟨by simp [adding, hd], .inr (fun taken ht hsame => ?_)⟩
      exact List.find?_eq_none.mp hnone taken ht (isNamed_iff.mpr hsame)

theorem Sound.adding {o : Outline κ α} {d : Declaration} (ho : o.Sound) (h : o.Fresh d) :
    (o.adding d).Sound := by
  by_cases hd : d.isRepeatable
  · exact ⟨by simp [Outline.adding, hd, ho.taken], by simpa [Outline.adding, hd] using ho.distinct⟩
  · refine ⟨by simp [Outline.adding, hd, ho.taken], ?_⟩
    simp only [Outline.adding, hd, Bool.false_eq_true, if_false]
    refine List.pairwise_append.mpr ⟨ho.distinct, List.pairwise_singleton _ _, ?_⟩
    intro a ha b hb
    rw [List.mem_singleton.mp hb]
    exact h.resolve_left hd a ha

theorem rank_lt (d : Declaration) : d.kind.rank < 4 := by
  cases d.kind <;> decide

/-- Declarations come out by rank, and in the order they were declared within a rank. -/
theorem declarations_eq (o : Outline κ α) :
    o.declarations = byRank (·.kind.rank) 4 o.declared :=
  mergeSort_eq_byRank _ (fun d _ => rank_lt d)

end Outline

end GoLowering
