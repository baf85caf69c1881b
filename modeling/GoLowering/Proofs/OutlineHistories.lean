import Mathlib.Data.List.Induction
import GoLowering.Outline.Indexed
import GoLowering.Proofs.OutlineOrder

/-!
# Histories of an outline

Declarations are made and places of the output are kept and filled in any order. What an outline
holds then can be read off the operations:

* a declaration is refused just in case it is not repeatable and one that is not repeatable either
  has been accepted for its name and receiver, and that one is the answer
  (`Outline.declare_error_iff`);
* the declarations come out in a stable sort by rank (`Outline.isStableSort_declarations`);
* each group of the output holds what has been filled in it, by the first operation on its place and
  then in the order of the filling (`Outline.values_performAll`);
* an index of places among the declarations finds the names that are taken
  (`IndexedDeclarations.agrees_performAll`).

`Outline.outline_follows_requests` puts them together. A repeatable declaration is accepted
whatever has been declared before, also for a name that is taken; entries are listed but not found;
and what is filled in twice comes out twice (`Outline.repetitions_and_entries`).
-/

namespace GoLowering

/-! ## Stable sorts -/

/-- The second list is the first one in the order of a rank, elements of one rank in the order that
they have in the first. -/
structure IsStableSort {β : Type} (rank : β → Nat) (xs ys : List β) : Prop where
  perm : ys.Perm xs
  sorted : ys.Pairwise (fun a b => rank a ≤ rank b)
  stable : ∀ r, ys.filter (fun a => rank a = r) = xs.filter (fun a => rank a = r)

theorem filter_byRank {β : Type} (rank : β → Nat) (bound r : Nat) (xs : List β) :
    (byRank rank bound xs).filter (fun a => rank a = r) =
      if r < bound then xs.filter (fun a => rank a = r) else [] := by
  induction bound with
  | zero => rfl
  | succ bound ih =>
    rw [byRank_succ, List.filter_append, ih, List.filter_filter]
    by_cases hr : r = bound
    · subst hr
      simp
    · have hnone : xs.filter (fun a => decide (rank a = r) && decide (rank a = bound)) = [] := by
        refine List.filter_eq_nil_iff.mpr (fun a _ => ?_)
        simp
        omega
      rw [hnone, List.append_nil]
      by_cases hlt : r < bound
      · rw [if_pos hlt, if_pos (by omega)]
      · rw [if_neg hlt, if_neg (by omega)]

/-! ## What the operations say -/

namespace OutlineRequest

variable {κ α : Type}

/-- The place of a group that an operation keeps, and what it puts there. -/
def kept? (group : OutputGroup) : OutlineRequest κ α → Option (κ × List α)
  | .reserve kind key => if kind.group = group then some (key, []) else none
  | .fill kind key value => if kind.group = group then some (key, [value]) else none
  | .declare _ | .setEntry .. => none

/-- What an operation fills in a group, in whichever place. -/
def value? (group : OutputGroup) : OutlineRequest κ α → Option α
  | .fill kind _ value => if kind.group = group then some value else none
  | .declare _ | .reserve .. | .setEntry .. => none

def entry? : OutlineRequest κ α → Option α
  | .setEntry _ value => some value
  | .declare _ | .reserve .. | .fill .. => none

/-- The entry that is put out: the one that is set last. -/
def lastEntry? (requests : List (OutlineRequest κ α)) : Option α :=
  (requests.filterMap entry?).getLast?

theorem flatMap_kept (requests : List (OutlineRequest κ α)) (group : OutputGroup) :
    (requests.filterMap (kept? group)).flatMap Prod.snd =
      requests.filterMap (value? group) := by
  induction requests with
  | nil => rfl
  | cons request rest ih =>
    cases request with
    | declare d => exact ih
    | reserve kind key =>
      rw [List.filterMap_cons_none (f := value? group) rfl, ← ih]
      by_cases h : kind.group = group
      · simp [kept?, h]
      · simp [kept?, h]
    | fill kind key value =>
      by_cases h : kind.group = group
      · simpa [kept?, value?, h] using ih
      · simpa [kept?, value?, h] using ih
    | setEntry d value => exact ih

end OutlineRequest

namespace Places

variable {κ α : Type} [DecidableEq κ]

/-- The places in the order of the first entry for each, with what is put there in the order that it
is put there. -/
def inOrder (entries : List (κ × List α)) : List α :=
  (entries.map Prod.fst).eraseDups.flatMap fun key =>
    (entries.filter (fun entry => entry.1 = key)).flatMap Prod.snd

/-- Keeps or fills one place after the other. -/
def fillEach (places : Places κ α) (entries : List (κ × List α)) : Places κ α :=
  entries.foldl (fun places entry => places.fill entry.1 entry.2) places

variable (places : Places κ α) (key other : κ) (values : List α) (entries : List (κ × List α))

theorem values_fill_perm :
    (places.fill key values).values.Perm (places.values ++ values) := by
  induction places with
  | nil => simp [fill, Places.values]
  | cons entry rest ih =>
    obtain ⟨k, vs⟩ := entry
    unfold fill
    split
    · calc (vs ++ values) ++ Places.values rest
          = vs ++ (values ++ Places.values rest) := List.append_assoc ..
        List.Perm _ (vs ++ (Places.values rest ++ values)) :=
          List.perm_append_comm.append_left vs
        _ = Places.values ((k, vs) :: rest) ++ values := (List.append_assoc ..).symm
    · calc List.Perm (vs ++ Places.values (fill rest key values))
            (vs ++ (Places.values rest ++ values)) := ih.append_left vs
        _ = Places.values ((k, vs) :: rest) ++ values := (List.append_assoc ..).symm

theorem fillEach_snoc (entry : κ × List α) :
    places.fillEach (entries ++ [entry]) = (places.fillEach entries).fill entry.1 entry.2 := by
  simp [fillEach]

omit places in
theorem keys_fillEach : (fillEach [] entries).keys = (entries.map Prod.fst).eraseDups := by
  induction entries using List.reverseRecOn with
  | nil => rfl
  | append_singleton entries entry ih =>
    rw [fillEach_snoc, keys_fill, ih, List.map_append, List.eraseDups_append]
    by_cases h : entry.1 ∈ entries.map Prod.fst
    · simp [h, List.removeAll]
    · simp [h, List.removeAll, List.eraseDups_cons]

theorem nodup_keys_fillEach (h : places.keys.Nodup) : (places.fillEach entries).keys.Nodup := by
  induction entries generalizing places with
  | nil => exact h
  | cons entry rest ih => exact ih _ (nodup_keys_fill places entry.1 entry.2 h)

theorem filled_fillEach :
    (places.fillEach entries).filled key =
      places.filled key ++ (entries.filter (fun entry => entry.1 = key)).flatMap Prod.snd := by
  induction entries generalizing places with
  | nil => exact (List.append_nil _).symm
  | cons entry rest ih =>
    change ((places.fill entry.1 entry.2).fillEach rest).filled key = _
    rw [ih, filled_fill]
    by_cases h : entry.1 = key
    · simp [h]
    · simp [h]

theorem values_fillEach_perm :
    (places.fillEach entries).values.Perm (places.values ++ entries.flatMap Prod.snd) := by
  induction entries generalizing places with
  | nil => simp [fillEach]
  | cons entry rest ih =>
    calc List.Perm ((places.fill entry.1 entry.2).fillEach rest).values
          ((places.fill entry.1 entry.2).values ++ rest.flatMap Prod.snd) := ih _
      List.Perm _ ((places.values ++ entry.2) ++ rest.flatMap Prod.snd) :=
        (values_fill_perm places entry.1 entry.2).append_right _
      _ = places.values ++ (entry :: rest).flatMap Prod.snd := by
        rw [List.append_assoc, List.flatMap_cons]

omit places in
/-- What comes out is what has been put in, by the first entry for each place. -/
theorem values_fillEach : (fillEach [] entries).values = inOrder entries := by
  rw [values_eq (nodup_keys_fillEach [] entries .nil), keys_fillEach, inOrder]
  refine List.flatMap_congr (fun key _ => ?_)
  rw [filled_fillEach]
  rfl

end Places

namespace Outline

variable {κ α : Type} {o : Outline κ α} {d taken : Declaration} {receiver : Option String}
  {name : String}

/-! ## Declarations -/

/-- No two declarations have taken one name for one receiver. -/
def Distinct (o : Outline κ α) : Prop :=
  o.taken.Pairwise (fun a b => ¬(a.receiver = b.receiver ∧ a.name = b.name))

theorem distinct_empty : (empty : Outline κ α).Distinct := .nil

theorem Distinct.adding (h : o.Distinct) (hfresh : o.Fresh d) : (o.adding d).Distinct := by
  unfold Distinct Outline.adding
  split
  · exact h
  · rename_i hd
    refine List.pairwise_append.mpr ⟨h, List.pairwise_singleton _ d, ?_⟩
    intro a ha b hb
    rw [List.mem_singleton.mp hb]
    exact hfresh.resolve_left hd a ha

theorem lookup?_eq_some_iff (h : o.Distinct) :
    o.lookup? receiver name = some d ↔ d ∈ o.taken ∧ d.receiver = receiver ∧ d.name = name := by
  constructor
  · intro hd
    exact ⟨List.mem_of_find?_eq_some hd, isNamed_iff.mp (List.find?_some hd)⟩
  · rintro ⟨hd, rfl, rfl⟩
    obtain ⟨before, after, hsplit⟩ := List.append_of_mem hd
    have hpairwise := h
    rw [Distinct, hsplit] at hpairwise
    refine List.find?_eq_some_iff_append.mpr
      ⟨isNamed_iff.mpr ⟨rfl, rfl⟩, before, after, hsplit, fun other hother => ?_⟩
    have hdiffer := (List.pairwise_append.mp hpairwise).2.2 other hother d List.mem_cons_self
    simpa [← isNamed_iff] using hdiffer

/-- Only a declaration that is not repeatable is refused, for the one that has taken its name. -/
theorem declare_error_iff (h : o.Distinct) :
    o.declare d = .error taken ↔
      d.isRepeatable = false ∧ taken ∈ o.taken ∧ taken.receiver = d.receiver ∧
        taken.name = d.name := by
  rw [← lookup?_eq_some_iff h]
  unfold declare
  by_cases hd : d.isRepeatable
  · simp [hd]
  · cases hlookup : o.lookup? d.receiver d.name with
    | none => simp [hd]
    | some other => simp [hd]

theorem isStableSort_declarations (o : Outline κ α) :
    IsStableSort (·.kind.rank) o.declared o.declarations where
  perm := List.mergeSort_perm _ _
  sorted := by
    have htrans (a b c : Declaration) (hab : decide (a.kind.rank ≤ b.kind.rank))
        (hbc : decide (b.kind.rank ≤ c.kind.rank)) : decide (a.kind.rank ≤ c.kind.rank) := by
      simp only [decide_eq_true_eq] at hab hbc ⊢
      omega
    have htotal (a b : Declaration) :
        decide (a.kind.rank ≤ b.kind.rank) || decide (b.kind.rank ≤ a.kind.rank) := by
      simp only [Bool.or_eq_true, decide_eq_true_eq]
      omega
    exact (List.pairwise_mergeSort htrans htotal o.declared).imp (fun hle => of_decide_eq_true hle)
  stable r := by
    rw [declarations_eq, filter_byRank]
    split
    · rfl
    · refine (List.filter_eq_nil_iff.mpr (fun d _ => ?_)).symm
      have := rank_lt d
      simp only [decide_eq_true_eq]
      omega

section

variable [DecidableEq κ] {requests : List (OutlineRequest κ α)}

/-- The declaration that an operation makes, unless it is refused. -/
def acceptedBy (o : Outline κ α) : OutlineRequest κ α → List Declaration
  | .declare d =>
    match o.declare d with
    | .ok _ => [d]
    | .error _ => []
  | .reserve .. | .fill .. | .setEntry .. => []

/-- What an operation adds to the declarations. -/
def recordedBy (o : Outline κ α) : OutlineRequest κ α → List Declaration
  | .declare d => o.acceptedBy (.declare d)
  | .setEntry d _ => [d]
  | .reserve .. | .fill .. => []

/-- The declarations that are accepted. -/
def accepted (o : Outline κ α) : List (OutlineRequest κ α) → List Declaration
  | [] => []
  | request :: rest => o.acceptedBy request ++ (o.perform request).accepted rest

/-- The declarations that are accepted and those of entries, in the order that they are made. -/
def recorded (o : Outline κ α) : List (OutlineRequest κ α) → List Declaration
  | [] => []
  | request :: rest => o.recordedBy request ++ (o.perform request).recorded rest

theorem declared_fillAll (o : Outline κ α) (kind : DeclKind) (key : κ) (values : List α) :
    (o.fillAll kind key values).declared = o.declared := by
  cases kind <;> rfl

theorem taken_fillAll (o : Outline κ α) (kind : DeclKind) (key : κ) (values : List α) :
    (o.fillAll kind key values).taken = o.taken := by
  cases kind <;> rfl

/-- A declaration is refused, which leaves the outline as it is, or it is added. -/
theorem perform_declare (o : Outline κ α) (d : Declaration) :
    ((∃ taken, o.declare d = .error taken) ∧ o.acceptedBy (.declare d) = [] ∧
        o.perform (.declare d) = o) ∨
      (o.Fresh d ∧ o.acceptedBy (.declare d) = [d] ∧ o.perform (.declare d) = o.adding d) := by
  simp only [acceptedBy, perform]
  cases h : o.declare d with
  | error taken => exact .inl ⟨⟨taken, rfl⟩, rfl, rfl⟩
  | ok o' =>
    obtain ⟨hadding, hfresh⟩ := declare_ok h
    exact .inr ⟨hfresh, rfl, hadding⟩

theorem declared_perform (o : Outline κ α) (request : OutlineRequest κ α) :
    (o.perform request).declared = o.declared ++ o.recordedBy request := by
  cases request with
  | declare d =>
    obtain ⟨-, haccepted, hperform⟩ | ⟨-, haccepted, hperform⟩ := o.perform_declare d
    · rw [hperform, recordedBy, haccepted, List.append_nil]
    · rw [hperform, recordedBy, haccepted]
      rfl
  | reserve kind key => simp [perform, reserve, declared_fillAll, recordedBy]
  | fill kind key value => simp [perform, fill, declared_fillAll, recordedBy]
  | setEntry d value => rfl

theorem taken_perform (o : Outline κ α) (request : OutlineRequest κ α) :
    (o.perform request).taken =
      o.taken ++ (o.acceptedBy request).filter (!·.isRepeatable) := by
  cases request with
  | declare d =>
    obtain ⟨-, haccepted, hperform⟩ | ⟨-, haccepted, hperform⟩ := o.perform_declare d
    · rw [hperform, haccepted, List.filter_nil, List.append_nil]
    · rw [hperform, haccepted]
      by_cases hd : d.isRepeatable
      · simp [adding, hd]
      · simp [adding, hd]
  | reserve kind key => simp [perform, reserve, taken_fillAll, acceptedBy]
  | fill kind key value => simp [perform, fill, taken_fillAll, acceptedBy]
  | setEntry d value => simp [perform, setEntry, acceptedBy]

theorem Distinct.perform (h : o.Distinct) (request : OutlineRequest κ α) :
    (o.perform request).Distinct := by
  cases request with
  | declare d =>
    obtain ⟨-, -, hperform⟩ | ⟨hfresh, -, hperform⟩ := o.perform_declare d
    · rwa [hperform]
    · rw [hperform]
      exact h.adding hfresh
  | reserve kind key =>
    change List.Pairwise _ (o.fillAll kind key []).taken
    rwa [taken_fillAll]
  | fill kind key value =>
    change List.Pairwise _ (o.fillAll kind key [value]).taken
    rwa [taken_fillAll]
  | setEntry d value => exact h

theorem Distinct.performAll (h : o.Distinct) (requests : List (OutlineRequest κ α)) :
    (o.performAll requests).Distinct := by
  induction requests generalizing o with
  | nil => exact h
  | cons request rest ih => exact ih (h.perform request)

theorem declared_performAll (o : Outline κ α) (requests : List (OutlineRequest κ α)) :
    (o.performAll requests).declared = o.declared ++ o.recorded requests := by
  induction requests generalizing o with
  | nil => exact (List.append_nil _).symm
  | cons request rest ih =>
    calc ((o.perform request).performAll rest).declared
        = (o.perform request).declared ++ (o.perform request).recorded rest := ih _
      _ = o.declared ++ o.recorded (request :: rest) := by
        rw [declared_perform, List.append_assoc, recorded]

theorem taken_performAll (o : Outline κ α) (requests : List (OutlineRequest κ α)) :
    (o.performAll requests).taken =
      o.taken ++ (o.accepted requests).filter (!·.isRepeatable) := by
  induction requests generalizing o with
  | nil => exact (List.append_nil _).symm
  | cons request rest ih =>
    calc ((o.perform request).performAll rest).taken
        = (o.perform request).taken ++
            ((o.perform request).accepted rest).filter (!·.isRepeatable) := ih _
      _ = o.taken ++ (o.accepted (request :: rest)).filter (!·.isRepeatable) := by
        rw [taken_perform, List.append_assoc, ← List.filter_append, accepted]

/-- The names that are taken are those of what has been accepted. -/
theorem mem_taken_performAll :
    d ∈ ((empty : Outline κ α).performAll requests).taken ↔
      d ∈ (empty : Outline κ α).accepted requests ∧ d.isRepeatable = false := by
  rw [taken_performAll]
  simp [empty]

/-! ## Output -/

theorem places_fillAll (o : Outline κ α) (kind : DeclKind) (key : κ) (values : List α)
    (group : OutputGroup) :
    (o.fillAll kind key values).places group =
      if kind.group = group then (o.places group).fill key values else o.places group := by
  cases kind <;> cases group <;> rfl

theorem entry_fillAll (o : Outline κ α) (kind : DeclKind) (key : κ) (values : List α) :
    (o.fillAll kind key values).entry = o.entry := by
  cases kind <;> rfl

theorem places_perform (o : Outline κ α) (request : OutlineRequest κ α) (group : OutputGroup) :
    (o.perform request).places group =
      (o.places group).fillEach (request.kept? group).toList := by
  cases request with
  | declare d =>
    obtain ⟨-, -, hperform⟩ | ⟨-, -, hperform⟩ := o.perform_declare d
    · rw [hperform]
      rfl
    · rw [hperform]
      cases group <;> rfl
  | reserve kind key =>
    simp only [perform, reserve, places_fillAll, OutlineRequest.kept?]
    split <;> rfl
  | fill kind key value =>
    simp only [perform, fill, places_fillAll, OutlineRequest.kept?]
    split <;> rfl
  | setEntry d value => cases group <;> rfl

theorem places_performAll (o : Outline κ α) (requests : List (OutlineRequest κ α))
    (group : OutputGroup) :
    (o.performAll requests).places group =
      (o.places group).fillEach (requests.filterMap (OutlineRequest.kept? group)) := by
  induction requests generalizing o with
  | nil => rfl
  | cons request rest ih =>
    change ((o.perform request).performAll rest).places group = _
    rw [ih, places_perform]
    cases h : request.kept? group with
    | none => simp [h, Places.fillEach]
    | some entry => simp [h, Places.fillEach]

/-- A group of the output by the first operation on each place, and then in the order of the
filling. -/
theorem values_performAll (requests : List (OutlineRequest κ α)) (group : OutputGroup) :
    (((empty : Outline κ α).performAll requests).places group).values =
      Places.inOrder (requests.filterMap (OutlineRequest.kept? group)) := by
  rw [places_performAll, ← Places.values_fillEach]
  cases group <;> rfl

/-- Whatever is filled in a group comes out of it, once for each filling. -/
theorem inOrder_perm (requests : List (OutlineRequest κ α)) (group : OutputGroup) :
    (Places.inOrder (requests.filterMap (OutlineRequest.kept? group))).Perm
      (requests.filterMap (OutlineRequest.value? group)) := by
  rw [← Places.values_fillEach, ← OutlineRequest.flatMap_kept]
  exact Places.values_fillEach_perm [] _

theorem entry_perform (o : Outline κ α) (request : OutlineRequest κ α) :
    (o.perform request).entry = request.entry?.or o.entry := by
  cases request with
  | declare d =>
    obtain ⟨-, -, hperform⟩ | ⟨-, -, hperform⟩ := o.perform_declare d
    · rw [hperform]
      rfl
    · rw [hperform]
      rfl
  | reserve kind key => exact entry_fillAll ..
  | fill kind key value => exact entry_fillAll ..
  | setEntry d value => rfl

theorem entry_performAll (requests : List (OutlineRequest κ α)) :
    ((empty : Outline κ α).performAll requests).entry = OutlineRequest.lastEntry? requests := by
  induction requests using List.reverseRecOn with
  | nil => rfl
  | append_singleton requests request ih =>
    rw [performAll, List.foldl_append]
    change ((empty.performAll requests).perform request).entry = _
    rw [entry_perform, ih]
    cases h : request.entry? with
    | none => simp [OutlineRequest.lastEntry?, h]
    | some value => simp [OutlineRequest.lastEntry?, h]

end

end Outline

/-! ## The index -/

namespace IndexedDeclarations

variable {κ α : Type} {s : IndexedDeclarations} {o : Outline κ α}

/-- The declarations are those of the outline, and the index has the places of the names that are
taken. -/
structure Agrees (s : IndexedDeclarations) (o : Outline κ α) : Prop where
  declared : s.declared = o.declared
  found : ∀ receiver name,
    (s.index.lookup (receiver, name)).map (s.declared[·]?) = (o.lookup? receiver name).map some

theorem agrees_empty : empty.Agrees (Outline.empty : Outline κ α) := ⟨rfl, fun _ _ => rfl⟩

theorem Agrees.found_some (h : s.Agrees o) {receiver : Option String} {name : String} {place : Nat}
    (hplace : s.index.lookup (receiver, name) = some place) :
    ∃ d, o.lookup? receiver name = some d ∧ s.declared[place]? = some d := by
  have hfound := h.found receiver name
  rw [hplace, Option.map_some] at hfound
  obtain ⟨d, hd, hget⟩ := Option.map_eq_some_iff.mp hfound.symm
  exact ⟨d, hd, hget.symm⟩

theorem Agrees.lookup? (h : s.Agrees o) (receiver : Option String) (name : String) :
    s.lookup? receiver name = o.lookup? receiver name := by
  unfold IndexedDeclarations.lookup?
  cases hplace : s.index.lookup (receiver, name) with
  | none =>
    have hfound := h.found receiver name
    rw [hplace] at hfound
    exact (Option.map_eq_none_iff.mp hfound.symm).symm
  | some place =>
    obtain ⟨d, hd, hget⟩ := h.found_some hplace
    rw [hd, Option.map_some, List.getD_eq_getElem?_getD, hget, Option.getD_some]

/-- A place in the index holds its declaration also when more are added. -/
theorem Agrees.found_append (h : s.Agrees o) (more : List Declaration) (receiver : Option String)
    (name : String) :
    (s.index.lookup (receiver, name)).map ((s.declared ++ more)[·]?) =
      (o.lookup? receiver name).map some := by
  rw [← h.found receiver name]
  cases hplace : s.index.lookup (receiver, name) with
  | none => rfl
  | some place =>
    obtain ⟨d, -, hget⟩ := h.found_some hplace
    obtain ⟨hlt, -⟩ := List.getElem?_eq_some_iff.mp hget
    rw [Option.map_some, Option.map_some, List.getElem?_append_left hlt]

theorem Agrees.declare_error_iff (h : s.Agrees o) (d taken : Declaration) :
    s.declare d = .error taken ↔ o.declare d = .error taken := by
  unfold declare Outline.declare
  rw [h.lookup?]
  by_cases hd : d.isRepeatable
  · simp [hd]
  · cases o.lookup? d.receiver d.name with
    | none => simp [hd]
    | some other => simp [hd]

/-- A name that is new is found at the end. -/
theorem Agrees.adding (h : s.Agrees o) {d : Declaration}
    (hnew : o.lookup? d.receiver d.name = none) :
    Agrees ⟨s.declared ++ [d], s.index.set (d.receiver, d.name) s.declared.length⟩
      { o with declared := o.declared ++ [d], taken := o.taken ++ [d] } where
  declared := by rw [h.declared]
  found receiver name := by
    by_cases hkey : (receiver, name) = (d.receiver, d.name)
    · obtain ⟨rfl, rfl⟩ := Prod.mk.injEq .. ▸ hkey
      have hself : Declaration.isNamed d.receiver d.name d := Outline.isNamed_iff.mpr ⟨rfl, rfl⟩
      have hnone : o.taken.find? (Declaration.isNamed d.receiver d.name) = none := hnew
      simp [Outline.lookup?, List.find?_append, hnone, hself]
    · have hother : Declaration.isNamed receiver name d = false := by
        rw [← Bool.not_eq_true, Outline.isNamed_iff]
        rintro ⟨rfl, rfl⟩
        exact hkey rfl
      rw [Keyed.lookup_set_of_ne hkey, h.found_append]
      simp [Outline.lookup?, List.find?_append, hother]

variable [DecidableEq κ]

theorem Agrees.perform (h : s.Agrees o) (request : OutlineRequest κ α) :
    (s.perform request).Agrees (o.perform request) := by
  cases request with
  | declare d =>
    simp only [IndexedDeclarations.perform, Outline.perform, declare, Outline.declare, h.lookup?]
    by_cases hd : d.isRepeatable
    · simp only [hd, if_true]
      exact ⟨congrArg (· ++ [d]) h.declared, h.found_append [d]⟩
    · cases hlookup : o.lookup? d.receiver d.name with
      | none => simpa only [hd, if_false, Bool.false_eq_true] using h.adding hlookup
      | some taken => simpa only [hd, if_false, Bool.false_eq_true] using h
  | reserve kind key => cases kind <;> exact ⟨h.declared, h.found⟩
  | fill kind key value => cases kind <;> exact ⟨h.declared, h.found⟩
  | setEntry d value => exact ⟨congrArg (· ++ [d]) h.declared, h.found_append [d]⟩

theorem agrees_performAll (requests : List (OutlineRequest κ α)) (h : s.Agrees o) :
    (s.performAll requests).Agrees (o.performAll requests) := by
  induction requests generalizing s o with
  | nil => exact h
  | cons request rest ih => exact ih (h.perform request)

end IndexedDeclarations

/-! ## Histories -/

namespace Outline

/-- What an outline refuses, finds, lists and puts out after any operations. -/
theorem outline_follows_requests {κ α : Type} [DecidableEq κ]
    (requests : List (OutlineRequest κ α)) :
    let start : Outline κ α := empty
    let o := start.performAll requests
    let indexed := IndexedDeclarations.empty.performAll requests
    -- which declarations are refused, and that nothing is changed by one that is
    (∀ d taken, o.declare d = .error taken ↔
      d.isRepeatable = false ∧ taken ∈ start.accepted requests ∧ taken.isRepeatable = false ∧
        taken.receiver = d.receiver ∧ taken.name = d.name) ∧
    (∀ d taken, o.declare d = .error taken → o.perform (.declare d) = o) ∧
    -- what is found
    (∀ receiver name d, o.lookup? receiver name = some d ↔
      d ∈ start.accepted requests ∧ d.isRepeatable = false ∧ d.receiver = receiver ∧
        d.name = name) ∧
    -- what is listed
    IsStableSort (·.kind.rank) (start.recorded requests) o.declarations ∧
    -- what is put out
    o.typeOutput = Places.inOrder (requests.filterMap (OutlineRequest.kept? .types)) ∧
    o.constantOutput = Places.inOrder (requests.filterMap (OutlineRequest.kept? .values)) ∧
    o.functionOutput =
      Places.inOrder (requests.filterMap (OutlineRequest.kept? .functions)) ++
        (OutlineRequest.lastEntry? requests).toList ∧
    (∀ group, (Places.inOrder (requests.filterMap (OutlineRequest.kept? group))).Perm
      (requests.filterMap (OutlineRequest.value? group))) ∧
    -- the same with an index, whose places are those of the declarations that are found
    (∀ d taken, indexed.declare d = .error taken ↔ o.declare d = .error taken) ∧
    indexed.declared = o.declared ∧
    ∀ receiver name, (indexed.index.lookup (receiver, name)).map (indexed.declared[·]?) =
      (o.lookup? receiver name).map some := by
  intro start o indexed
  have hdistinct : o.Distinct := distinct_empty.performAll requests
  have hagrees : indexed.Agrees o :=
    IndexedDeclarations.agrees_performAll requests IndexedDeclarations.agrees_empty
  refine ⟨fun d taken => ?_, fun d taken hd => ?_, fun receiver name d => ?_, ?_,
    values_performAll requests .types, values_performAll requests .values, ?_,
    inOrder_perm requests, hagrees.declare_error_iff, hagrees.declared, hagrees.found⟩
  · rw [declare_error_iff hdistinct, mem_taken_performAll, and_assoc]
  · simp only [perform, hd]
  · rw [lookup?_eq_some_iff hdistinct, mem_taken_performAll, and_assoc]
  · have hdeclared : o.declared = start.recorded requests := declared_performAll start requests
    exact hdeclared ▸ isStableSort_declarations o
  · rw [← values_performAll, ← entry_performAll]
    rfl

/-- A variable has the name `init`, which is accepted for a function all the same. An entry is
listed, although it has not been accepted and is not found. A value that is filled in twice comes
out twice. -/
theorem repetitions_and_entries :
    let start : Outline Nat Nat := empty
    let first := Declaration.plain "init" .var Span.synthetic
    let second := Declaration.plain "init" .func Span.synthetic
    let main := Declaration.plain "main" .entry Span.synthetic
    (first ∈ start.accepted [.declare first] ∧ first.isRepeatable = false ∧
      first.receiver = second.receiver ∧ first.name = second.name ∧
      ∃ o, (start.performAll [.declare first]).declare second = .ok o) ∧
    (start.accepted [.setEntry main 0] = [] ∧
      (start.performAll [.setEntry main 0]).declarations = [main] ∧
      (start.performAll [.setEntry main 0]).lookup? none "main" = none) ∧
    (start.performAll [.fill .var 1 2, .fill .var 1 2]).constantOutput = [2, 2] := by
  intro start first second main
  refine ⟨⟨List.mem_singleton_self first, by decide, rfl, rfl, _, rfl⟩, ⟨rfl, ?_, rfl⟩, rfl⟩
  exact List.mergeSort_singleton main

end Outline

end GoLowering
