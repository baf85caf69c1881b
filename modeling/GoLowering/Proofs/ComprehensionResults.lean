import GoLowering.Proofs.NestedLoops

/-!
# What comprehensions give

The statement in the middle of the loops of a comprehension puts an element or an entry at the end
of the result, or returns (`IsYield`). From the runs of the loops it follows what the call of the
function literal gives (`exists_call_eq`): a list of what is yielded for the combinations, a map of
the pairs in which later ones win, whether there is a combination, or what the first one yields.
-/

namespace GoLowering

open Completion

/-- What a comprehension makes of its combinations, with expressions of the host. -/
inductive YieldForm
  | list (value : HostId)
  | map (key item : HostId)
  | existence
  | select (value : HostId) (type : TypeId) (withOk : Bool)
  deriving DecidableEq, Repr

namespace YieldForm

/-- The expressions that are evaluated for each combination. -/
def operands : YieldForm → List HostId
  | list value => [value]
  | map key item => [key, item]
  | existence => []
  | select value _ _ => [value]

end YieldForm

section

variable {A : Type} {t : HostTree} {types : TypeTable}

/-- The results of a comprehension with some combinations. -/
def Evaluation.Yields (E : Evaluation A t types) (found : List (Variables A)) :
    YieldForm → List (Datum A) → Prop
  | .list value, results => results = [.list (found.map (E.value value))]
  | .map key item, results => ∃ entries, results = [.map entries] ∧ ∀ k x,
      Datum.Holds entries k x ↔ ∃ earlier last later, found = earlier ++ last :: later ∧
        E.value key last = k ∧ E.value item last = x ∧ ∀ v ∈ later, E.value key v ≠ k
  | .existence, results => results = [.bool !found.isEmpty]
  | .select value type withOk, results =>
      results = ((found.head?.map (E.value value)).getD (E.zero type)) ::
        if withOk then [.bool !found.isEmpty] else []

namespace HostTree

variable (t types)

/-- The statement for one combination. -/
def IsYield : YieldForm → HostId → Prop
  | .list value, id => ∃ target call append result, t.kind id = .assign [target] .plain [call] ∧
      t.kind target = .identifier Names.result ∧
      t.kind call = .call append [result, value] false ∧
      t.kind append = .identifier "append" ∧ t.kind result = .identifier Names.result
  | .map key item, id => ∃ slot result, t.kind id = .assign [slot] .plain [item] ∧
      t.kind slot = .index result key ∧ t.kind result = .identifier Names.result
  | .existence, id => ∃ found, t.kind id = .ret [found] ∧ t.kind found = .literal "true"
  | .select value _ withOk, id => ∃ found, t.kind id = .ret (value :: found) ∧
      if withOk then ∃ ok, found = [ok] ∧ t.kind ok = .literal "true" else found = []

/-- The statement that makes a map before the loops. -/
def IsStart : YieldForm → List HostId → Prop
  | .map _ _, start => ∃ id target empty type key item, start = [id] ∧
      t.kind id = .assign [target] .plain [empty] ∧ t.kind target = .identifier Names.result ∧
      t.kind empty = .composite (some type) [] ∧ types.shape type = .map key item
  | _, start => start = []

end HostTree

/-- The results that the function of a comprehension declares. -/
def YieldForm.HasResults (types : TypeTable) : YieldForm → List HostParam → Prop
  | .list _, results => ∃ type element, results = [⟨some Names.result, type⟩] ∧
      types.shape type = .slice element
  | .map _ _, results => ∃ type, results = [⟨some Names.result, type⟩]
  | .existence, results => results = [⟨some Names.ok, TypeTable.bool⟩]
  | .select _ type withOk, results => results = ⟨some Names.result, type⟩ ::
      if withOk then [⟨some Names.ok, TypeTable.bool⟩] else []

/-- The call of the function that a comprehension becomes. -/
structure HostTree.IsComprehension (t : HostTree) (types : TypeTable) (form : YieldForm)
    (clauses : List LoopClause) (call : HostId) : Prop where
  parts : ∃ literal body results start loops done innermost,
    t.kind call = .call literal [] false ∧
    t.kind literal = .functionLiteral ⟨[], results, false⟩ body ∧
    t.kind body = .block (start ++ loops ++ [done]) ∧ t.kind done = .ret [] ∧
    form.HasResults types results ∧ t.IsStart types form start ∧
    t.IsNest innermost clauses loops ∧ t.IsYield form innermost

namespace Evaluation

variable {E : Evaluation A t types} {σ : Type} {front outer : Store A} {v : Variables A}

/-! ## The statement for one combination -/

theorem Blind.eq_inside {id : HostId} {frame : StoreFrame A} (h : E.Blind id)
    (hinside : Inside front outer v) (hframe : Store.HasOnlyResults frame) :
    E.value id (Store.visible (front ++ frame :: outer)) = E.value id v :=
  h _ _ (hinside.alike_results hframe)

/-- Assigning to the result. -/
theorem assign_result (hinside : Inside front outer v) (datum new : Datum A) :
    (front ++ [(Names.result, datum)] :: outer).assign Names.result new =
      some (front ++ [(Names.result, new)] :: outer) := by
  rw [Store.assign_below hinside.result]
  rfl

theorem visible_result (hinside : Inside front outer v) (datum : Datum A) :
    Store.visible (front ++ [(Names.result, datum)] :: outer) Names.result = some datum := by
  rw [Store.visible_append, hinside.result, Option.none_or]
  rfl

theorem run_assign_result {id target value : HostId} {datum : Datum A}
    (hid : t.kind id = .assign [target] .plain [value])
    (htarget : t.kind target = .identifier Names.result) (hinside : Inside front outer v)
    (depth : Nat) :
    E.run (depth + 1) id (front ++ [(Names.result, datum)] :: outer) =
      some (.next (front ++ [(Names.result,
        E.value value (Store.visible (front ++ [(Names.result, datum)] :: outer)))] :: outer)) := by
  have htargets : t.targets? id = some [Names.result] := by
    simp [HostTree.targets?, hid, HostTree.name?, htarget]
  have hdeclares : t.declares id = false := by
    rw [HostTree.declares, hid]
  have hassigned (w : Variables A) : E.assigned id w = [E.value value w] := by
    rw [assigned, hid]
    exact Datum.spread_of_length rfl
  rw [run_simple htargets, runSimple, htargets, hdeclares, hassigned]
  have hupdate (new : Datum A) : Store.updateAll (front ++ [(Names.result, datum)] :: outer)
      [(Names.result, new)] = some (front ++ [(Names.result, new)] :: outer) := by
    have hblank : Names.result ≠ Names.blank := by decide
    rw [Store.updateAll, List.foldlM_cons, Store.update, if_neg hblank, assign_result hinside]
    rfl
  exact congrArg (Option.map next) (hupdate _)

theorem run_list_yield {value id : HostId} (hyield : t.IsYield (.list value) id)
    (hblind : E.Blind value) (hinside : Inside front outer v) (depth : Nat)
    (items : List (Datum A)) :
    E.run (depth + 1) id (front ++ [(Names.result, .list items)] :: outer) =
      some (.next (front ++ [(Names.result, .list (items ++ [E.value value v]))] :: outer)) := by
  obtain ⟨target, call, append, result, hid, htarget, hcall, happend, hresult⟩ := hyield
  have hframe : Store.HasOnlyResults [(Names.result, Datum.list items)] :=
    .singleton (.inl rfl)
  have hfree : Store.visible (front ++ [(Names.result, .list items)] :: outer) "append" = none :=
    (hinside.alike_results hframe "append" (by decide) (by decide)).trans hinside.append
  have hvalue : E.value call (Store.visible (front ++ [(Names.result, .list items)] :: outer)) =
      .list (items ++ [E.value value v]) := by
    rw [E.value_append hcall happend hfree,
      E.value_identifier hresult (visible_result hinside _), hblind.eq_inside hinside hframe]
    rfl
  rw [run_assign_result hid htarget hinside, hvalue]

theorem run_map_yield {key item id : HostId} (hyield : t.IsYield (.map key item) id)
    (hkey : E.Blind key) (hitem : E.Blind item) (hinside : Inside front outer v) (depth : Nat)
    (entries : List (Datum A × Datum A)) :
    E.run (depth + 1) id (front ++ [(Names.result, .map entries)] :: outer) =
      some (.next (front ++
        [(Names.result, .map ((E.value key v, E.value item v) :: entries))] :: outer)) := by
  obtain ⟨slot, result, hid, hslot, hresult⟩ := hyield
  have hframe : Store.HasOnlyResults [(Names.result, Datum.map entries)] :=
    .singleton (.inl rfl)
  have htargets : t.targets? id = none := by
    simp [HostTree.targets?, hid, HostTree.name?, hslot]
  have hname : t.name? result = some Names.result := by
    rw [HostTree.name?, hresult]
  rw [run, hid]
  dsimp only
  rw [runSimple, htargets, putElement, hid]
  dsimp only
  rw [hslot]
  dsimp only
  rw [hname, hkey.eq_inside hinside hframe, hitem.eq_inside hinside hframe]
  simp only [Option.bind_eq_bind, Option.bind_some, visible_result hinside, Datum.put?,
    assign_result hinside, Option.map_some]

theorem value_found {found : HostId} {frame : StoreFrame A}
    (hfound : t.kind found = .literal "true") (hinside : Inside front outer v)
    (hframe : Store.HasOnlyResults frame) :
    E.value found (Store.visible (front ++ frame :: outer)) = .bool true :=
  E.value_true hfound
    ((hinside.alike_results hframe "true" (by decide) (by decide)).trans hinside.truth)

theorem run_existence_yield {id : HostId} {frame : StoreFrame A}
    (hyield : t.IsYield .existence id) (hinside : Inside front outer v)
    (hframe : Store.HasOnlyResults frame)
    (depth : Nat) :
    E.run (depth + 1) id (front ++ frame :: outer) =
      some (.done (some [.bool true]) (front ++ frame :: outer)) := by
  obtain ⟨found, hid, hfound⟩ := hyield
  rw [run, hid]
  dsimp only
  rw [values, List.map_singleton, value_found hfound hinside hframe]

theorem run_select_yield {value id : HostId} {type : TypeId} {withOk : Bool}
    {frame : StoreFrame A} (hyield : t.IsYield (.select value type withOk) id)
    (hblind : E.Blind value) (hinside : Inside front outer v)
    (hframe : Store.HasOnlyResults frame)
    (depth : Nat) :
    E.run (depth + 1) id (front ++ frame :: outer) =
      some (.done (some (E.value value v :: if withOk then [.bool true] else []))
        (front ++ frame :: outer)) := by
  obtain ⟨found, hid, hfound⟩ := hyield
  rw [run, hid]
  dsimp only
  rw [values, List.map_cons, hblind.eq_inside hinside hframe]
  cases withOk with
  | false =>
    obtain rfl : found = [] := hfound
    rfl
  | true =>
    obtain ⟨ok, rfl, hok⟩ := hfound
    rw [List.map_singleton, value_found hok hinside hframe]
    rfl

/-! ## The call -/

theorem inside_function {store : Store A} (happend : store.visible "append" = none)
    (htruth : store.visible "true" = none) : Inside [[]] store store.visible :=
  ⟨fun _ _ _ => rfl, rfl, rfl, happend, htruth⟩

/-- The results of a function that returns at its end unless it has returned before. -/
def returned (E : Evaluation A t types) (results : List HostParam) (store : σ → Store A) :
    Completion σ (Option (List (Datum A))) → List (Datum A)
  | .next s | .done none s => E.namedResults results (store s)
  | .done (some values) _ => Datum.spread results.length values

/-- The results of a function whose body is nested loops with something before them. -/
theorem call_nest (frame : σ → StoreFrame A)
    {act : Variables A → σ → Completion σ (Option (List (Datum A)))} {clauses : List LoopClause}
    {call literal body done innermost : HostId} {results : List HostParam}
    {start loops : List HostId} {store : Store A} {first : σ}
    {exit : Completion σ (Option (List (Datum A)))} {depth : Nat}
    (hframe : ∀ s, Store.HasOnlyResults (frame s))
    (hinnermost : ∀ {front v}, Inside front store v → ∀ depth s,
      E.run (depth + 1) innermost (front ++ frame s :: store) =
        some ((act v s).map (front ++ frame · :: store)))
    (hcall : t.kind call = .call literal [] false)
    (hliteral : t.kind literal = .functionLiteral ⟨[], results, false⟩ body)
    (hbody : t.kind body = .block (start ++ loops ++ [done])) (hdone : t.kind done = .ret [])
    (hnest : t.IsNest innermost clauses loops)
    (hstart : ∀ depth, runAll (E.run (depth + 1)) start ([] :: E.resultFrame results :: store) =
      some (.next ([] :: frame first :: store)))
    (hclauses : ∀ clause ∈ clauses, E.IsOrdinary clause)
    (happend : store.visible "append" = none) (htruth : store.visible "true" = none)
    (hexit : runAll (fun v s => some (act v s)) (E.combinations clauses store.visible) first =
      some exit) (hdepth : 4 * clauses.length + 1 < depth) :
    E.call depth call store = some (E.returned results (frame · :: store) exit, store) := by
  obtain ⟨depth, rfl⟩ : ∃ d, depth = d + 2 := ⟨depth - 2, by omega⟩
  have hloops := run_nest hframe hinnermost hnest hclauses (inside_function happend htruth)
    (show 4 * clauses.length < depth + 1 by omega) first
  have hrun := hstart depth
  rw [hexit] at hloops
  rw [Evaluation.call, hcall]
  dsimp only
  rw [hliteral]
  dsimp only
  rw [run, hbody]
  unfold inBlock
  dsimp only
  rw [runAll_append, runAll_append, hrun, andThen]
  rw [List.singleton_append] at hloops
  rw [hloops]
  rcases exit with s | ⟨_ | values, s⟩
  · rw [Option.map_some, Completion.map, andThen, runAll_singleton, run, hdone]
    rfl
  · rfl
  · rfl

theorem runAll_next {α : Type} (ρ : Type) (f : σ → α → σ) (as : List α) (s : σ) :
    runAll (fun a s => some (.next (f s a) : Completion σ ρ)) as s =
      some (.next (as.foldl f s)) := by
  induction as generalizing s with
  | nil => rfl
  | cons a as ih => exact ih (f s a)

theorem foldl_concat {α β : Type} (f : α → β) (as : List α) :
    as.foldl (fun bs a => bs ++ [f a]) [] = as.map f := by
  rw [List.foldl_append_eq_append (f := fun a => [f a]), List.nil_append, ← List.flatMap_def,
    ← List.map_eq_flatMap]

/-- A step that returns is the only one. -/
theorem runAll_done {α : Type} {ρ : Type} (f : α → ρ) (as : List α) (s : σ) :
    runAll (fun a s => some (.done (f a) s : Completion σ ρ)) as s =
      some ((as.head?.map (fun a => .done (f a) s)).getD (.next s)) := by
  cases as <;> rfl

/-- Later entries of a map win. -/
theorem holds_pairs (found : List (Variables A)) (key item : HostId) (k x : Datum A) :
    Datum.Holds (found.map (fun v => (E.value key v, E.value item v))).reverse k x ↔
      ∃ earlier last later, found = earlier ++ last :: later ∧
        E.value key last = k ∧ E.value item last = x ∧ ∀ v ∈ later, E.value key v ≠ k := by
  constructor
  · rintro ⟨newer, older, hentries, hnewer⟩
    rw [List.reverse_eq_iff, List.reverse_append, List.reverse_cons, List.append_assoc,
      List.singleton_append, List.map_eq_append_iff] at hentries
    obtain ⟨earlier, rest, rfl, -, hrest⟩ := hentries
    obtain ⟨last, later, rfl, hlast, hlater⟩ := List.map_eq_cons_iff.mp hrest
    obtain ⟨hkey, hitem⟩ := Prod.mk.inj hlast
    refine ⟨earlier, last, later, rfl, hkey, hitem, fun v hv => ?_⟩
    have hmem : (E.value key v, E.value item v) ∈ newer.reverse :=
      hlater ▸ List.mem_map_of_mem hv
    exact hnewer _ (List.mem_reverse.mp hmem)
  · rintro ⟨earlier, last, later, rfl, rfl, rfl, hlater⟩
    refine ⟨(later.map (fun v => (E.value key v, E.value item v))).reverse,
      (earlier.map (fun v => (E.value key v, E.value item v))).reverse, ?_, ?_⟩
    · rw [List.map_append, List.map_cons, List.reverse_append, List.reverse_cons,
        List.append_assoc, List.singleton_append]
    · intro entry hentry
      obtain ⟨v, hv, rfl⟩ := List.mem_map.mp (List.mem_reverse.mp hentry)
      exact hlater v hv

section

variable {clauses : List LoopClause} {call : HostId} {store : Store A} {depth : Nat}
  (hclauses : ∀ clause ∈ clauses, E.IsOrdinary clause) (happend : store.visible "append" = none)
  (htruth : store.visible "true" = none) (hdepth : 4 * clauses.length + 1 < depth)

include hclauses happend htruth hdepth

theorem call_list {value : HostId} (h : t.IsComprehension types (.list value) clauses call)
    (hvalue : E.Blind value) : E.call depth call store =
      some ([.list ((E.combinations clauses store.visible).map (E.value value))], store) := by
  obtain ⟨literal, body, results, start, loops, done, innermost, hcall, hliteral, hbody, hdone,
    ⟨type, element, rfl, hshape⟩, rfl, hnest, hyield⟩ := h.parts
  have hexit := runAll_next (Option (List (Datum A)))
    (fun items v => items ++ [E.value value v]) (E.combinations clauses store.visible) []
  rw [foldl_concat] at hexit
  have hrun := call_nest (fun items => [(Names.result, .list items)])
    (fun _ => .singleton (.inl rfl))
    (fun hinside => run_list_yield hyield hvalue hinside)
    hcall hliteral hbody hdone hnest
    (fun depth => by simp [resultFrame, runAll, E.zero_slice hshape])
    hclauses happend htruth hexit hdepth
  rw [hrun]
  simp [returned, namedResults, Store.visible]

theorem call_map {key item : HostId} (h : t.IsComprehension types (.map key item) clauses call)
    (hkey : E.Blind key) (hitem : E.Blind item) : E.call depth call store =
      some ([.map ((E.combinations clauses store.visible).map
        (fun v => (E.value key v, E.value item v))).reverse], store) := by
  obtain ⟨literal, body, results, start, loops, done, innermost, hcall, hliteral, hbody, hdone,
    ⟨type, rfl⟩, ⟨id, target, empty, mapType, keyType, itemType, rfl, hid, htarget, hempty, hshape⟩,
    hnest, hyield⟩ := h.parts
  have hexit := runAll_next (Option (List (Datum A)))
    (fun entries v => (E.value key v, E.value item v) :: entries)
    (E.combinations clauses store.visible) []
  rw [List.foldl_flip_cons_eq_append, List.append_nil] at hexit
  have hstart (depth : Nat) : runAll (E.run (depth + 1)) [id]
      ([] :: E.resultFrame [⟨some Names.result, type⟩] :: store) =
      some (.next ([] :: [(Names.result, .map [])] :: store)) := by
    rw [runAll_singleton]
    refine (run_assign_result hid htarget (inside_function happend htruth) depth).trans ?_
    rw [E.value_emptyMap hempty hshape]
    rfl
  have hrun := call_nest (fun entries => [(Names.result, .map entries)])
    (fun _ => .singleton (.inl rfl))
    (fun hinside => run_map_yield hyield hkey hitem hinside)
    hcall hliteral hbody hdone hnest hstart hclauses happend htruth hexit hdepth
  rw [hrun]
  simp [returned, namedResults, Store.visible]

theorem call_existence (h : t.IsComprehension types .existence clauses call) :
    E.call depth call store =
      some ([.bool !(E.combinations clauses store.visible).isEmpty], store) := by
  obtain ⟨literal, body, results, start, loops, done, innermost, hcall, hliteral, hbody, hdone,
    rfl, rfl, hnest, hyield⟩ := h.parts
  have hframe : Store.HasOnlyResults [(Names.ok, (Datum.bool false : Datum A))] :=
    .singleton (.inr rfl)
  have hexit := runAll_done (fun _ => some [(Datum.bool true : Datum A)])
    (E.combinations clauses store.visible) ()
  have hrun := call_nest (fun _ => [(Names.ok, .bool false)]) (fun _ => hframe)
    (fun hinside depth _ => run_existence_yield hyield hinside hframe depth)
    hcall hliteral hbody hdone hnest
    (fun depth => by simp [resultFrame, runAll, E.zero_bool])
    hclauses happend htruth hexit hdepth
  rw [hrun]
  cases E.combinations clauses store.visible <;> rfl

theorem call_select {value : HostId} {type : TypeId} {withOk : Bool}
    (h : t.IsComprehension types (.select value type withOk) clauses call)
    (hvalue : E.Blind value) : E.call depth call store =
      some ((((E.combinations clauses store.visible).head?.map (E.value value)).getD
        (E.zero type)) ::
          if withOk then [.bool !(E.combinations clauses store.visible).isEmpty] else [],
        store) := by
  obtain ⟨literal, body, results, start, loops, done, innermost, hcall, hliteral, hbody, hdone,
    rfl, rfl, hnest, hyield⟩ := h.parts
  have hframe : Store.HasOnlyResults ((Names.result, E.zero type) ::
      if withOk then [(Names.ok, .bool false)] else []) := by
    refine .cons (.inl rfl) ?_
    cases withOk with
    | false => exact fun _ _ _ => rfl
    | true => exact .singleton (.inr rfl)
  have hexit := runAll_done
    (fun v => some (E.value value v :: if withOk then [.bool true] else []))
    (E.combinations clauses store.visible) ()
  have hrun := call_nest (fun _ => (Names.result, E.zero type) ::
      if withOk then [(Names.ok, .bool false)] else []) (fun _ => hframe)
    (fun hinside depth _ => run_select_yield hyield hvalue hinside hframe depth)
    hcall hliteral hbody hdone hnest
    (fun depth => by cases withOk <;> simp [resultFrame, runAll, E.zero_bool])
    hclauses happend htruth hexit hdepth
  rw [hrun]
  refine congrArg (fun results => some (results, store)) ?_
  cases E.combinations clauses store.visible with
  | nil => cases withOk <;> rfl
  | cons v found =>
    refine (Datum.spread_of_length ?_).trans ?_ <;> cases withOk <;> rfl

/-- What the call of a comprehension gives. -/
theorem exists_call_eq {form : YieldForm} (h : t.IsComprehension types form clauses call)
    (hform : ∀ id ∈ form.operands, E.Blind id) : ∃ results,
      E.call depth call store = some (results, store) ∧
        E.Yields (E.combinations clauses store.visible) form results := by
  cases form with
  | list value =>
    exact ⟨_, call_list hclauses happend htruth hdepth h (hform value List.mem_cons_self), rfl⟩
  | map key item =>
    refine ⟨_, call_map hclauses happend htruth hdepth h (hform key List.mem_cons_self)
      (hform item (List.mem_cons_of_mem _ List.mem_cons_self)), _, rfl, holds_pairs _ key item⟩
  | existence => exact ⟨_, call_existence hclauses happend htruth hdepth h, rfl⟩
  | select value type withOk =>
    exact ⟨_, call_select hclauses happend htruth hdepth h (hform value List.mem_cons_self), rfl⟩

end

end Evaluation

end

end GoLowering
