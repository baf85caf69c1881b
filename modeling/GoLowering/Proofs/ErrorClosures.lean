import GoLowering.Proofs.ErrorBlocks

/-!
# Error wraps that are called at once

`f()!` and `f()?:x` become the call of a function literal with named results. To call it is to make
the call of `f` once: without an error its other results are the results, in their order, and with
one, `!` panics with a frame of the error and `?:` goes on to its default
(`Effects.call_errorClosure`). None of this depends on variables of reserved names around the
literal, so wraps may stand inside of each other (`Effects.blindTo_checked`).
-/

namespace GoLowering

/-- The names that the function literals of error wraps declare. -/
def Names.IsReserved (name : String) : Prop := name = Names.err ∨ ∃ n, name = Names.resultAt n

theorem Names.isReserved_of_mem_results {count : Nat} {name : String}
    (h : name ∈ Names.results count) : Names.IsReserved name := by
  obtain ⟨n, -, rfl⟩ := List.mem_map.mp h
  exact .inr ⟨n, rfl⟩

theorem Names.isReserved_of_mem_zip {A : Type} {count : Nat} {data : List (Datum A)} :
    ∀ name ∈ ((Names.results count).zip data).map Prod.fst, Names.IsReserved name := by
  intro name hname
  obtain ⟨entry, hentry, rfl⟩ := List.mem_map.mp hname
  exact isReserved_of_mem_results (List.of_mem_zip hentry).1

/-- No reserved name is that of something predeclared. -/
theorem Names.not_isReserved {name : String}
    (h : name.toList.take 6 ≠ ['_', 'g', 'o', 'p', '_', 'r']) (herr : name ≠ Names.err) :
    ¬Names.IsReserved name := by
  rintro (rfl | ⟨n, rfl⟩)
  · exact herr rfl
  · exact Names.resultAt_ne h rfl

/-- Whether an expression calls a function literal at once that makes a call, hands out its results
but for the error at the end, and runs a handler on an error. -/
def HostTree.IsErrorClosure (t : HostTree) (id call : HostId) (values : List TypeId)
    (handler : List HostId) : Prop :=
  ∃ literal block declare assign check done, t.kind id = .call literal [] false ∧
    t.kind literal = .functionLiteral ⟨[], Lowering.namedResults values, false⟩ block ∧
    t.kind block = .block [declare, assign, check, done] ∧
    t.IsErrorCheck call (Names.results values.length) handler declare assign check ∧
    t.kind done = .ret []

/-- Whether a statement panics with the error. -/
def HostTree.IsPanic (t : HostTree) (id : HostId) : Prop :=
  ∃ call callee error, t.kind id = .expression call ∧ t.kind call = .call callee [error] false ∧
    t.kind callee = .identifier "panic" ∧ t.kind error = .identifier Names.err

/-! ## Results by names -/

theorem Lowering.namedResults_eq (values : List TypeId) : Lowering.namedResults values =
    List.zipWith (fun name type => ⟨some name, type⟩) (Names.results values.length) values := by
  refine List.ext_getElem ?_ (fun i h _ => ?_)
  · simp [Lowering.namedResults, Names.length_results]
  · simp [Lowering.namedResults, Names.results]

namespace Effects

open Completion

variable {A W : Type} {t : HostTree} {types : TypeTable} {E : Effects A W t types}

section

variable {names : List String} {values : List TypeId}

theorem filterMap_name (h : names.length = values.length) :
    (List.zipWith (fun name type => (⟨some name, type⟩ : HostParam)) names values).filterMap
      (·.name) = names := by
  induction names generalizing values with
  | nil => rfl
  | cons name names ih =>
    obtain ⟨value, values, rfl⟩ := List.exists_cons_of_length_pos (l := values) (by simp [← h])
    exact congrArg (name :: ·) (ih (Nat.succ.inj h))

theorem resultFrame_zipWith (h : names.length = values.length) :
    E.resultFrame (List.zipWith (fun name type => ⟨some name, type⟩) names values) =
      names.zip (values.map E.zero) := by
  induction names generalizing values with
  | nil => rfl
  | cons name names ih =>
    obtain ⟨value, values, rfl⟩ := List.exists_cons_of_length_pos (l := values) (by simp [← h])
    exact congrArg ((name, E.zero value) :: ·) (ih (Nat.succ.inj h))

theorem namedResults_zipWith {store : Store A} {data : List (Datum A)}
    (h : names.length = values.length) (hdata : names.map store.visible = data.map some) :
    E.namedResults (List.zipWith (fun name type => ⟨some name, type⟩) names values) store =
      data := by
  induction names generalizing values data with
  | nil =>
    obtain rfl := List.map_eq_nil_iff.mp hdata.symm
    rfl
  | cons name names ih =>
    obtain ⟨value, values, rfl⟩ := List.exists_cons_of_length_pos (l := values) (by simp [← h])
    obtain ⟨datum, data, rfl, hdatum, hdata⟩ := List.map_eq_cons_iff.mp hdata.symm
    refine congrArg₂ List.cons ?_ (ih (Nat.succ.inj h) hdata.symm)
    change (store.visible name).getD _ = datum
    rw [← hdatum]
    rfl

end

/-! ## Calls -/

/-- An expression is evaluated, whose last value is an error: without an error its other values are
given, and with one something else is done. -/
def checked (E : Effects A W t types) (call : HostId)
    (onError : Datum A → Machine A W → Option (Reply A × Machine A W)) (m : Machine A W) :
    Option (Reply A × Machine A W) :=
  match E.eval call m with
  | some (.values data, m') =>
    data.getLast?.bind (fun error =>
      if E.isNil error then some (.values data.dropLast, m') else onError error m')
  | reply => reply

variable {depth : Nat} {statement call : HostId} {values : List TypeId} {handler : List HostId}
  {m m' : Machine A W} {results : List (Datum A)} {error : Datum A}
  {onError : Datum A → Machine A W → Option (Reply A × Machine A W)}

/-- A reply passes the scopes that it leaves. -/
theorem returned_returning {params : List HostParam} {outer inner : StoreFrame A}
    (reply : Option (Reply A × Machine A W)) :
    E.returned params
      ((returning (reply.map (Prod.map id (fun m => (m.enter outer).enter inner)))).map
        (Completion.map Machine.leave)) = reply := by
  rcases reply with _ | ⟨data | datum, m⟩ <;> rfl

section

variable (depth) {declare assign check : HostId}
  (hcheck : t.IsErrorCheck call (Names.results values.length) handler declare assign check)
  (hreply : E.eval call m = some (.values (results ++ [error]), m'))

include hcheck hreply

/-- When the error is checked, the results of the call are in their variables. -/
theorem runList_results {rest : List HostId}
    (hblind : Machine.BlindTo Names.IsReserved (E.eval call))
    (hresults : results.length = values.length) :
    runList t (E.run (depth + 1)) none (declare :: assign :: rest)
        ((m.enter ((Names.results values.length).zip (values.map E.zero))).enter []) =
      runList t (E.run (depth + 1)) none rest
        ((m'.enter ((Names.results values.length).zip results)).enter [(Names.err, error)]) := by
  have hlength := Names.length_results values.length
  have heval : E.eval call (m.enter ((Names.results values.length).zip (values.map E.zero))) =
      some (.values (results ++ [error]),
        m'.enter ((Names.results values.length).zip (values.map E.zero))) := by
    rw [hblind.enter Names.isReserved_of_mem_zip, hreply]
    rfl
  have htargets : ∀ target ∈ Names.results values.length,
      target ≠ Names.blank ∧ target ≠ Names.err := by
    refine fun target htarget => ⟨?_, ?_⟩
    · rintro rfl
      exact Names.blank_notMem_results _ htarget
    · rintro rfl
      exact Names.err_notMem_results _ htarget
  have hstore : (m'.enter ((Names.results values.length).zip (values.map E.zero))).store.updateAll
      ((Names.results values.length).zip results) =
        some ((Names.results values.length).zip results :: m'.store) :=
    Store.updateAll_zip_self (Names.nodup_results _) (Names.blank_notMem_results _)
      (by rw [List.length_map, hlength]) (by rw [hresults, hlength])
  exact (runList_call_values hcheck hblind (.inl rfl) heval (by rw [hresults, hlength]) htargets
    hstore :)

theorem run_check_results (hnil : m.store.visible "nil" = none) :
    E.run (depth + 2) check
        ((m'.enter ((Names.results values.length).zip results)).enter [(Names.err, error)]) =
      if E.isNil error then
        some (.next ((m'.enter ((Names.results values.length).zip results)).enter
          [(Names.err, error)]))
      else inScope (runList t (E.run depth) none handler)
        ((m'.enter ((Names.results values.length).zip results)).enter [(Names.err, error)]) := by
  refine run_check hcheck (Machine.Adds.visible_eq_none (.enter Names.isReserved_of_mem_zip)
    (Names.not_isReserved (by decide) (by decide)) ?_)
  exact Machine.visible_eq_none_of_names (E.names_eval hreply) hnil

end

/-- To call the function literal is to make the call in it once, and what its handler does if there
is an error. -/
theorem call_errorClosure (h : t.IsErrorClosure statement call values handler)
    (hblind : Machine.BlindTo Names.IsReserved (E.eval call))
    (hnil : m.store.visible "nil" = none)
    (hcount : ∀ data m', E.eval call m = some (.values data, m') →
      data.length = values.length + 1)
    (hhandler : ∀ results error m', E.eval call m = some (.values (results ++ [error]), m') →
      results.length = values.length → ∃ frame,
        inScope (runList t (E.run depth) none handler)
            ((m'.enter ((Names.results values.length).zip results)).enter [(Names.err, error)]) =
          returning ((onError error m').map (Prod.map id
            (fun m => (m.enter ((Names.results values.length).zip results)).enter frame)))) :
    E.call (depth + 3) statement m = E.checked call onError m := by
  obtain ⟨literal, block, declare, assign, check, done, hcall, hliteral, hblock, hcheck, hdone⟩ := h
  have hlength := Names.length_results values.length
  have hrun : E.call (depth + 3) statement m = E.returned (Lowering.namedResults values)
      (inScope (runList t (E.run (depth + 2)) none [declare, assign, check, done])
        (m.enter ((Names.results values.length).zip (values.map E.zero)))) := by
    rw [Effects.call, hcall]
    dsimp only
    rw [hliteral]
    dsimp only
    rw [run_block hblock, Lowering.namedResults_eq, resultFrame_zipWith hlength]
  have heval : E.eval call (m.enter ((Names.results values.length).zip (values.map E.zero))) = _ :=
    hblind.enter Names.isReserved_of_mem_zip m
  rw [hrun, inScope, checked]
  rcases hreply : E.eval call m with _ | ⟨data | datum, m'⟩
  · rw [hreply] at heval
    rw [runList_call_none hcheck hblind (.inl rfl) heval]
    rfl
  · obtain rfl | ⟨results, error, rfl⟩ := data.eq_nil_or_concat'
    · cases hcount _ _ hreply
    have hresults : results.length = values.length := by
      have hdata := hcount _ _ hreply
      rw [List.length_append] at hdata
      exact Nat.succ.inj hdata
    dsimp only
    rw [runList_results (depth + 1) hcheck hreply hblind hresults, List.getLast?_concat,
      List.dropLast_concat, Option.bind_some]
    have hrunCheck := run_check_results depth hcheck hreply hnil
    cases herror : E.isNil error with
    | true =>
      rw [herror, if_pos rfl] at hrunCheck
      rw [runList_next hrunCheck, runList_leaves (run_ret_none hdone ▸ .returns _ _),
        run_ret_none hdone, if_pos rfl]
      have hnamed : E.namedResults (Lowering.namedResults values)
          ((Names.results values.length).zip results :: m'.store) = results := by
        rw [Lowering.namedResults_eq]
        exact namedResults_zipWith hlength
          (Store.visible_zip (Names.nodup_results values.length) (hresults.trans hlength.symm))
      exact congrArg (fun data => some (Reply.values data, m')) hnamed
    | false =>
      obtain ⟨frame, hrunHandler⟩ := hhandler results error m' hreply hresults
      rw [herror, if_neg Bool.false_ne_true, hrunHandler] at hrunCheck
      rw [runList_leaves (hrunCheck ▸ leaves_returning _), hrunCheck, returned_returning,
        if_neg Bool.false_ne_true]
  · rw [hreply] at heval
    rw [runList_call_panics hcheck hblind (.inl rfl) heval]
    rfl

/-! ## Handlers -/

/-- What is done on an error that panics with a frame of it. -/
def raising (E : Effects A W t types) (text path : String) (line : Nat) (function : String)
    (error : Datum A) (m : Machine A W) : Option (Reply A × Machine A W) :=
  some (.panics (E.newFrame error text path line function), m)

theorem run_raising {frame panic : HostId} {text path function : String} {line : Nat}
    (hframe : t.IsFrame frame text path line function) (hpanic : t.IsPanic panic)
    (hfree : m.store.visible "panic" = none) :
    inScope (runList t (E.run (depth + 1)) none [frame, panic]) (m.enter [(Names.err, error)]) =
      some (.done (.panics (E.newFrame error text path line function))
        (m.enter [(Names.err, E.newFrame error text path line function)])) := by
  obtain ⟨value, callee, argument, hstatement, hcall, hcallee, hargument⟩ := hpanic
  have hframed : ((m.enter [(Names.err, E.newFrame error text path line function)]).enter
      []).store.visible "panic" = none := by
    rw [Machine.visible_enter List.not_mem_nil, Machine.visible_enter_singleton (by decide), hfree]
  have hvalue := E.eval_panic hcall hcallee hframed (E.eval_identifier hargument rfl)
  have hrun : E.run (depth + 1) panic _ = _ := run_expression_panics hstatement hvalue
  rw [inScope, runList_next (run_frame hframe), runList_leaves (hrun ▸ .panics _ _), hrun]
  rfl

/-- What is done on an error that returns the value of an expression. -/
theorem run_fallback {statement fallback : HostId} {outer inner : StoreFrame A}
    {reply : Option (Reply A × Machine A W)} (h : t.kind statement = .ret [fallback])
    (hfallback : E.eval fallback (((m.enter outer).enter inner).enter []) =
      reply.map (Prod.map id (fun m => ((m.enter outer).enter inner).enter []))) :
    inScope (runList t (E.run (depth + 1)) none [statement]) ((m.enter outer).enter inner) =
      returning (reply.map (Prod.map id (fun m => (m.enter outer).enter inner))) := by
  have hrun : E.run (depth + 1) statement (((m.enter outer).enter inner).enter []) = _ := run_ret h
  rw [inScope, runList_leaves (hrun ▸ leaves_returning _), hrun, evalAll_singleton, hfallback]
  rcases reply with _ | ⟨data | datum, m⟩ <;> rfl

/-- Reserved names make no difference to what is done around a call if they make none to the call
and to what is done on an error. -/
theorem blindTo_checked (hcall : Machine.BlindTo Names.IsReserved (E.eval call))
    (hError : ∀ error, Machine.BlindTo Names.IsReserved (onError error)) :
    Machine.BlindTo Names.IsReserved (E.checked call onError) := by
  intro add hadd m
  rw [checked, checked, hcall add hadd m]
  rcases E.eval call m with _ | ⟨data | datum, m'⟩
  · rfl
  · change data.getLast?.bind _ = Option.map _ (data.getLast?.bind _)
    rcases data.getLast? with _ | error
    · rfl
    · simp only [Option.bind_some]
      split
      · rfl
      · exact hError error add hadd m'
  · rfl

/-- Whether an expression has a number of values and an error behind them, and does not see some
names. -/
structure GivesError (E : Effects A W t types) (hidden : String → Prop) (call : HostId)
    (count : Nat) : Prop where
  blind : Machine.BlindTo hidden (E.eval call)
  count {m m' : Machine A W} {data : List (Datum A)}
    (h : E.eval call m = some (.values data, m')) : data.length = count + 1

/-- Whether the call of a function literal makes a call once and handles its error, on machines of
some sort. It sees no reserved names either, so that it may be a part of what is wrapped. -/
structure Closes (E : Effects A W t types) (sort : Machine A W → Prop) (statement call : HostId)
    (onError : Datum A → Machine A W → Option (Reply A × Machine A W)) : Prop where
  call_eq {m : Machine A W} (h : sort m) {depth : Nat} (hdepth : 4 ≤ depth) :
    E.call depth statement m = E.checked call onError m
  blind : Machine.BlindTo Names.IsReserved (E.checked call onError)

theorem closes_raise {frame panic : HostId} {text path function : String} {line : Nat}
    (h : t.IsErrorClosure statement call values [frame, panic])
    (hframe : t.IsFrame frame text path line function) (hpanic : t.IsPanic panic)
    (hcall : E.GivesError Names.IsReserved call values.length) :
    E.Closes (fun m => m.store.visible "nil" = none ∧ m.store.visible "panic" = none) statement call
      (E.raising text path line function) := by
  refine ⟨?_, blindTo_checked hcall.blind (fun _ _ _ _ => rfl)⟩
  rintro m ⟨hnil, hfree⟩ depth hdepth
  obtain ⟨depth, rfl⟩ := Nat.exists_eq_add_of_le' hdepth
  refine call_errorClosure h hcall.blind hnil (fun _ _ => hcall.count) ?_
  intro results error m' hreply _
  refine ⟨_, run_raising hframe hpanic (Machine.Adds.visible_eq_none
    (.enter Names.isReserved_of_mem_zip) (Names.not_isReserved (by decide) (by decide)) ?_)⟩
  exact Machine.visible_eq_none_of_names (E.names_eval hreply) hfree

/-- An expression that sees no reserved names is evaluated for a default. -/
theorem closes_fallback {ret fallback : HostId}
    (h : t.IsErrorClosure statement call values [ret]) (hret : t.kind ret = .ret [fallback])
    (hcall : E.GivesError Names.IsReserved call values.length)
    (hfallback : Machine.BlindTo Names.IsReserved (E.eval fallback)) :
    E.Closes (fun m => m.store.visible "nil" = none) statement call (fun _ => E.eval fallback) := by
  refine ⟨?_, blindTo_checked hcall.blind (fun _ => hfallback)⟩
  intro m hnil depth hdepth
  obtain ⟨depth, rfl⟩ := Nat.exists_eq_add_of_le' hdepth
  refine call_errorClosure h hcall.blind hnil (fun _ _ => hcall.count) ?_
  intro results error m' _ _
  refine ⟨_, run_fallback hret ?_⟩
  rw [hfallback.enter (List.forall_mem_nil _),
    hfallback.enter (List.forall_mem_singleton.mpr (.inl rfl)),
    hfallback.enter Names.isReserved_of_mem_zip, Option.map_map, Option.map_map]
  rfl

theorem closes_zero {ret fallback : HostId} {type : TypeId}
    (h : t.IsErrorClosure statement call values [ret]) (hret : t.kind ret = .ret [fallback])
    (hcall : E.GivesError Names.IsReserved call values.length)
    (hzero : types.SpellsZero type (t.kind fallback)) :
    E.Closes (fun m => m.store.visible "nil" = none ∧
        (t.kind fallback = .literal "false" → m.store.visible "false" = none)) statement call
      (fun _ m => some (.values [E.zero type], m)) := by
  refine ⟨?_, blindTo_checked hcall.blind (fun _ _ _ _ => rfl)⟩
  rintro m ⟨hnil, hfalse⟩ depth hdepth
  obtain ⟨depth, rfl⟩ := Nat.exists_eq_add_of_le' hdepth
  refine call_errorClosure h hcall.blind hnil (fun _ _ => hcall.count) ?_
  intro results error m' hreply _
  have hfree {name : String} (hname : ¬Names.IsReserved name)
      (hm : m.store.visible name = none) : (((m'.enter ((Names.results values.length).zip
        results)).enter [(Names.err, error)]).enter []).store.visible name = none := by
    refine Machine.Adds.visible_eq_none (.enter (List.forall_mem_nil _)) hname
      (Machine.Adds.visible_eq_none (.enter (List.forall_mem_singleton.mpr (.inl rfl))) hname
        (Machine.Adds.visible_eq_none (.enter Names.isReserved_of_mem_zip) hname ?_))
    exact Machine.visible_eq_none_of_names (E.names_eval hreply) hm
  refine ⟨_, run_fallback hret ?_⟩
  exact E.eval_zero hzero (hfree (Names.not_isReserved (by decide) (by decide)) hnil)
    (fun hkind => hfree (Names.not_isReserved (by decide) (by decide)) (hfalse hkind))

end Effects

namespace Lowering

open Surface

variable {walk : Walk} {c : Context} {s s' final : State} {call : HostId} {values : List TypeId}
  {text : String} {span : Span} {r : Operand}

theorem filterMap_namedResults (values : List TypeId) :
    (namedResults values).filterMap (·.name) = Names.results values.length := by
  rw [namedResults_eq]
  exact Effects.filterMap_name (Names.length_results _)

theorem wrapRaise_ok (hrun : wrapRaise call values text span c s = (.ok r, s'))
    (hfinal : s'.Precedes final) :
    ∃ frame panic, final.tree.IsErrorClosure r.id call values [frame, panic] ∧
      final.tree.IsFrame frame text (displayPath c.sources c.settings span.file)
        (c.sources.lineColumn span.file span.start).1 s.frameName ∧
      final.tree.IsPanic panic := by
  obtain ⟨declare, s₁, hdeclare, hrun⟩ := bind_ok.mp hrun
  obtain ⟨assign, s₂, hassign, hrun⟩ := bind_ok.mp hrun
  obtain ⟨frame, s₃, hframe, hrun⟩ := bind_ok.mp hrun
  obtain ⟨callee, s₄, hcallee, hrun⟩ := bind_ok.mp hrun
  obtain ⟨error, s₅, herror, hrun⟩ := bind_ok.mp hrun
  obtain ⟨value, s₆, hvalue, hrun⟩ := bind_ok.mp hrun
  obtain ⟨panic, s₇, hpanic, hrun⟩ := bind_ok.mp hrun
  obtain ⟨check, s₈, hcheck, hrun⟩ := bind_ok.mp hrun
  obtain ⟨done, s₉, hdone, hrun⟩ := bind_ok.mp hrun
  have h₉ := (precedes_run hrun).trans hfinal
  have h₈ := (precedes_run hdone).trans h₉
  have h₇ := (precedes_run hcheck).trans h₈
  have h₆ := (precedes_run hpanic).trans h₇
  have h₅ := (precedes_run hvalue).trans h₆
  have h₄ := (precedes_run herror).trans h₅
  have h₃ := (precedes_run hcallee).trans h₄
  have h₂ := (precedes_run hframe).trans h₃
  have h₁ := (precedes_run hassign).trans h₂
  obtain ⟨literal, block, hcall, hliteral, hblock⟩ := immediateCall_ok hrun hfinal
  have hassigned := assignResults_ok hassign h₂
  rw [filterMap_namedResults] at hassigned
  have hframed := addFrame_ok hframe h₃
  rw [(extends_run hassign).frameName, (extends_run hdeclare).frameName] at hframed
  exact ⟨frame, panic, ⟨literal, block, declare, assign, check, done, hcall, hliteral, hblock,
    ⟨kind_addNode hdeclare h₁, hassigned, onError_ok hcheck h₈⟩, kind_addNode hdone h₉⟩, hframed,
    ⟨value, callee, error, kind_addNode hpanic h₇, kind_addNode hvalue h₆, kind_addNode hcallee h₄,
      kind_addNode herror h₅⟩⟩

/-- How the default of a wrap is lowered, or its zero value if there is none. -/
def LoweredDefault (walk : Walk) (c : Context) (s s' : State) (type : TypeId) (id : HostId) :
    Option NodeId → Prop
  | some node => lowerInto walk node type c s = (.ok id, s')
  | none => zeroValue type c s = (.ok id, s')

theorem wrapFallback_ok [walk.Keeps extension] {default : Option NodeId}
    (hrun : wrapFallback walk call values default span c s = (.ok r, s'))
    (hfinal : s'.Precedes final) :
    ∃ value fallback statement s₁, values = [value] ∧
      LoweredDefault walk c s s₁ value fallback default ∧ s₁.Precedes final ∧
      final.tree.IsErrorClosure r.id call [value] [statement] ∧
      final.tree.kind statement = .ret [fallback] := by
  unfold wrapFallback at hrun
  split at hrun
  · rename_i value
    obtain ⟨fallback, s₁, hfallback, hrun⟩ : ∃ fallback s₁,
        LoweredDefault walk c s s₁ value fallback default ∧ (do
          let declare ← declareError span
          let assign ← assignResults [Names.result] call span
          let fallback ← place (.ret [fallback]) span
          let check ← onError [fallback] span
          let done ← place (.ret []) span
          immediateCall (namedResults [value]) [declare, assign, check, done] span) c s₁ =
            (.ok r, s') := by
      cases default <;> exact bind_ok.mp hrun
    obtain ⟨declare, s₂, hdeclare, hrun⟩ := bind_ok.mp hrun
    obtain ⟨assign, s₃, hassign, hrun⟩ := bind_ok.mp hrun
    obtain ⟨statement, s₄, hstatement, hrun⟩ := bind_ok.mp hrun
    obtain ⟨check, s₅, hcheck, hrun⟩ := bind_ok.mp hrun
    obtain ⟨done, s₆, hdone, hrun⟩ := bind_ok.mp hrun
    have h₆ := (precedes_run hrun).trans hfinal
    have h₅ := (precedes_run hdone).trans h₆
    have h₄ := (precedes_run hcheck).trans h₅
    have h₃ := (precedes_run hstatement).trans h₄
    have h₂ := (precedes_run hassign).trans h₃
    have h₁ := (precedes_run hdeclare).trans h₂
    obtain ⟨literal, block, hcall, hliteral, hblock⟩ := immediateCall_ok hrun hfinal
    exact ⟨value, fallback, statement, s₁, rfl, hfallback, h₁,
      ⟨literal, block, declare, assign, check, done, hcall, hliteral, hblock,
        ⟨kind_addNode hdeclare h₂, assignResults_ok hassign h₃, onError_ok hcheck h₅⟩,
        kind_addNode hdone h₆⟩, kind_addNode hstatement h₄⟩
  · exact absurd hrun Fails.fails

/-- A wrap that is lowered is put around a call, the results of which end in an error. -/
theorem lowerErrorWrap_ok {inner : NodeId} {policy : WrapPolicy}
    (hrun : lowerErrorWrap walk inner policy span c s = (.ok r, s')) :
    ∃ call s₁ values, lowerWrappedCall walk inner c s = (.ok call, s₁) ∧
      resultsBeforeError? (s₁.types.resultsOf call.type) = some values ∧
      (match policy with
        | .raise => wrapRaise call.id values (c.sources.slice (c.unit.span inner)) span
        | .fallback default => wrapFallback walk call.id values default span
        | .propagate => wrapPropagate call.id values (c.sources.slice (c.unit.span inner)) span)
          c s₁ = (.ok r, s') := by
  obtain ⟨call, s₁, hcall, hrun⟩ := bind_ok.mp hrun
  obtain ⟨_, _, ⟨⟩, hrun⟩ := bind_ok.mp hrun
  obtain ⟨_, _, ⟨⟩, hrun⟩ := bind_ok.mp hrun
  refine ⟨call, s₁, ?_⟩
  cases hresults : resultsBeforeError? (s₁.types.resultsOf call.type) with
  | none =>
    rw [hresults] at hrun
    exact absurd hrun Fails.fails
  | some values =>
    rw [hresults] at hrun
    refine ⟨values, hcall, rfl, ?_⟩
    cases policy <;> exact hrun

/-! ## A call that fails -/

/-- The nodes of `g()`. -/
def failingSample : Context :=
  .sample [.expr (.identifier "g"), .expr (.call ⟨0⟩ [] false)] []

/-- A function with some results, where a variable `g func() (int, error)` is known. -/
def failingState (results : List TypeId) : State :=
  .inside ⟨TypeTable.initial.entries ++ #[.func ⟨[], [TypeTable.int, TypeTable.error], false⟩]⟩
    results [("g", ⟨32⟩)]

/-- Whether an expression is a name or a literal. -/
def isName : HostKind → Bool
  | .identifier _ | .literal _ => true
  | _ => false

/-- Only names and literals are compared, and only they are arguments. -/
def hasNames (t : HostTree) : HostKind → Bool
  | .binary _ left right => isName (t.kind left) && isName (t.kind right)
  | .call _ args _ => args.all (fun arg => isName (t.kind arg))
  | _ => true

/-- The value of a name or a literal; literals are not told apart. -/
def nameEffect (t : HostTree) (id : HostId) (m : Machine Unit Nat) :
    Option (Reply Unit × Machine Unit Nat) :=
  match t.kind id with
  | .identifier name => (m.store.visible name).map (fun datum => (.values [datum], m))
  | _ => some (.values [.atom ()], m)

def textLiteral? (t : HostTree) (id : HostId) : Option String :=
  match t.kind id with
  | .literal literal => Quoted.interpreted? literal
  | _ => none

def lineLiteral? (t : HostTree) (id : HostId) : Option Nat :=
  match t.kind id with
  | .literal literal =>
    match Literal.integer? literal with
    | some (.int n) => some n.toNat
    | _ => none
  | _ => none

def isAtom : Datum Unit → Bool
  | .atom () => true
  | _ => false

def framed (error : Datum Unit) (text path : String) (line : Nat) (function : String) :
    Datum Unit :=
  .tuple [error, .text (runesOf text), .text (runesOf path), .int line, .text (runesOf function)]

/-- The effects of expressions where every function but `panic` and `NewFrame` gives the number of
calls so far and an error. -/
def failingEffect (t : HostTree) (id : HostId) (m : Machine Unit Nat) :
    Option (Reply Unit × Machine Unit Nat) :=
  match t.kind id with
  | .binary _ left _ =>
    match nameEffect t left m with
    | some (.values [datum], m) => some (.values [.bool (!isAtom datum)], m)
    | reply => reply
  | .call callee args _ =>
    match t.kind callee, args with
    | .qualified _ _, [error, text, path, line, function] =>
      match nameEffect t error m, textLiteral? t text, textLiteral? t path, lineLiteral? t line,
        textLiteral? t function with
      | some (.values [datum], m), some text, some path, some line, some function =>
        some (.values [framed datum text path line function], m)
      | _, _, _, _, _ => none
    | _, [argument] =>
      match nameEffect t argument m with
      | some (.values [datum], m) => some (.panics datum, m)
      | reply => reply
    | _, _ => some (.values [.int m.world, .text []], { m with world := m.world + 1 })
  | _ => nameEffect t id m

theorem failingEffect_of_isName {t : HostTree} {id : HostId} {m : Machine Unit Nat}
    (h : isName (t.kind id) = true) : failingEffect t id m = nameEffect t id m := by
  unfold failingEffect
  split
  · rename_i hkind
    rw [hkind] at h
    cases h
  · rename_i hkind
    rw [hkind] at h
    cases h
  · rfl

theorem nameEffect_store {t : HostTree} {id : HostId} {m m' : Machine Unit Nat} {reply : Reply Unit}
    (h : nameEffect t id m = some (reply, m')) : m' = m := by
  unfold nameEffect at h
  split at h
  · rename_i name _
    cases hvisible : m.store.visible name with
    | none =>
      rw [hvisible] at h
      cases h
    | some datum =>
      rw [hvisible] at h
      exact (Prod.mk.inj (Option.some.inj h)).2.symm
  · exact (Prod.mk.inj (Option.some.inj h)).2.symm

theorem failingEffect_store {t : HostTree} {id : HostId} {m m' : Machine Unit Nat}
    {reply : Reply Unit} (h : failingEffect t id m = some (reply, m')) : m'.store = m.store := by
  unfold failingEffect at h
  split at h
  · split at h
    · rename_i hname
      obtain ⟨-, rfl⟩ := Prod.mk.inj (Option.some.inj h)
      rw [nameEffect_store hname]
    · rw [nameEffect_store h]
  · split at h
    · split at h
      · rename_i hname _ _ _ _
        obtain ⟨-, rfl⟩ := Prod.mk.inj (Option.some.inj h)
        rw [nameEffect_store hname]
      · cases h
    · split at h
      · rename_i hname
        obtain ⟨-, rfl⟩ := Prod.mk.inj (Option.some.inj h)
        rw [nameEffect_store hname]
      · rw [nameEffect_store h]
    · obtain ⟨-, rfl⟩ := Prod.mk.inj (Option.some.inj h)
      rfl
  · rw [nameEffect_store h]

def failingEffects (t : HostTree) (types : TypeTable)
    (hnames : t.nodes.all (hasNames t ·.kind) = true) : Effects Unit Nat t types where
  eval := failingEffect t
  zero _ := .atom ()
  isNil := isAtom
  newFrame := framed
  names_eval h := by rw [Machine.names, Machine.names, failingEffect_store h]
  eval_identifier h hbound := by
    rw [failingEffect_of_isName (by rw [h]; rfl), nameEffect, h]
    dsimp only
    rw [hbound]
    rfl
  eval_zero h _ _ := by
    generalize hkind : t.kind _ = kind at h
    cases h <;> rw [failingEffect, hkind] <;> dsimp only <;> rw [nameEffect, hkind]
  eval_notNil {id _ _ _ _} h _ _ hoperand := by
    have hleft := HostTree.all_kinds (p := hasNames t) rfl hnames id
    rw [h, hasNames, Bool.and_eq_true] at hleft
    rw [failingEffect_of_isName hleft.1] at hoperand
    rw [failingEffect, h]
    dsimp only
    rw [hoperand]
  eval_panic {id _ _ _ _} h hcallee _ hargument := by
    have hargs := HostTree.all_kinds (p := hasNames t) rfl hnames id
    rw [h, hasNames, List.all_cons, Bool.and_eq_true] at hargs
    rw [failingEffect_of_isName hargs.1] at hargument
    rw [failingEffect, h]
    dsimp only
    rw [hcallee]
    dsimp only
    rw [hargument]
  eval_newFrame h hcallee herror htext htextValue hpath hpathValue hline hfunction
      hfunctionValue := by
    rename_i id _ _ _ _ _ _ _ _ _ _ _ _ _ _ line
    have hargs := HostTree.all_kinds (p := hasNames t) rfl hnames id
    rw [h, hasNames, List.all_cons, Bool.and_eq_true] at hargs
    rw [failingEffect_of_isName hargs.1] at herror
    have hlineValue : Literal.integer? (toString line) = some (.int line) :=
      Literal.integer?_repr line
    rw [failingEffect, h]
    dsimp only
    rw [hcallee]
    dsimp only
    rw [herror, textLiteral?, htext, textLiteral?, hpath, lineLiteral?, hline, textLiteral?,
      hfunction]
    dsimp only
    rw [htextValue, hpathValue, hlineValue, hfunctionValue]
    rfl

theorem grows_failingState (results : List TypeId) :
    TypeTable.initial.Grows (failingState results).types :=
  TypeTable.Begins.grows ⟨_, Array.toList_append.symm⟩

def raisedCall : Except Failure Operand × State :=
  lowerErrorWrap (walkWithin 2) ⟨1⟩ .raise .synthetic failingSample (failingState [])

/-- What is called by `g()!`, and how many results it has before its error. -/
def failingCall? (results : List TypeId) : Option (HostId × Nat) :=
  match lowerWrappedCall (walkWithin 2) ⟨1⟩ failingSample (failingState results) with
  | (.ok call, s) =>
    (resultsBeforeError? (s.types.resultsOf call.type)).map (fun values => (call.id, values.length))
  | _ => none

section

variable {t : HostTree} {callee : HostId} (h : t.kind call = .call callee [] false)
  (hcallee : t.kind callee = .identifier "g")

include h hcallee

theorem failingEffect_call (m : Machine Unit Nat) : failingEffect t call m =
    some (.values [.int m.world, .text []], { m with world := m.world + 1 }) := by
  rw [failingEffect, h]
  dsimp only
  rw [hcallee]

/-- A call of a function by its name sees no names around it. -/
theorem givesError_failingEffects (hidden : String → Prop) (types : TypeTable)
    (hnames : t.nodes.all (hasNames t ·.kind) = true) :
    (failingEffects t types hnames).GivesError hidden call 1 := by
  refine ⟨fun add hadd m => ?_, fun {m m' data} hreply => ?_⟩
  · change failingEffect t call (add m) = (failingEffect t call m).map _
    rw [failingEffect_call h hcallee, failingEffect_call h hcallee]
    cases hadd <;> rfl
  · obtain ⟨hdata, -⟩ :=
      Prod.mk.inj (Option.some.inj ((failingEffect_call h hcallee m).symm.trans hreply))
    rw [← Reply.values.inj hdata]
    rfl

end

/-! ## What the calls do -/

/-- To call what a wrap with `!` or `?:` becomes is to make the wrapped call once. Without an error
its other results are given in their order. With one, `!` panics with a frame of the error, and `?:`
goes on to its default, which is the zero value of the result if none is written, unless the type of
the result is remote. -/
theorem errorClosure_results_iff {depth : Nat} {inner : NodeId} {policy : WrapPolicy}
    (hgrows : TypeTable.initial.Grows s.types)
    (hrun : lowerErrorWrap (walkWithin depth) inner policy span c s = (.ok r, s'))
    (hfinal : s'.Precedes final) :
    ∃ call s₁ values, lowerWrappedCall (walkWithin depth) inner c s = (.ok call, s₁) ∧
      resultsBeforeError? (s₁.types.resultsOf call.type) = some values ∧
      match policy with
      | .raise => ∀ {A W : Type} (E : Effects A W final.tree s₁.types),
          E.GivesError Names.IsReserved call.id values.length →
            E.Closes (fun m => m.store.visible "nil" = none ∧ m.store.visible "panic" = none) r.id
              call.id (E.raising (c.sources.slice (c.unit.span inner))
                (displayPath c.sources c.settings span.file)
                (c.sources.lineColumn span.file span.start).1 s.frameName)
      | .fallback (some node) => ∃ value fallback s₂, values = [value] ∧
          lowerInto (walkWithin depth) node value c s₁ = (.ok fallback, s₂) ∧
          ∀ {A W : Type} (E : Effects A W final.tree s₁.types),
            E.GivesError Names.IsReserved call.id 1 →
            Machine.BlindTo Names.IsReserved (E.eval fallback) →
              E.Closes (fun m => m.store.visible "nil" = none) r.id call.id
                (fun _ => E.eval fallback)
      | .fallback none => ∃ value fallback ret, values = [value] ∧
          final.tree.IsErrorClosure r.id call.id [value] [ret] ∧
          final.tree.kind ret = .ret [fallback] ∧
          (s₁.types.SpellsZero value (final.tree.kind fallback) ↔
            s₁.types.HasZero value ∧ ¬s₁.types.Remote value) ∧
          ∀ {A W : Type} (E : Effects A W final.tree s₁.types),
            E.GivesError Names.IsReserved call.id 1 →
            s₁.types.SpellsZero value (final.tree.kind fallback) →
              E.Closes (fun m => m.store.visible "nil" = none ∧
                  (final.tree.kind fallback = .literal "false" →
                    m.store.visible "false" = none)) r.id call.id
                (fun _ m => some (.values [E.zero value], m))
      | .propagate => True := by
  obtain ⟨call, s₁, values, hcall, hresults, hwrap⟩ := lowerErrorWrap_ok hrun
  refine ⟨call, s₁, values, hcall, hresults, ?_⟩
  cases policy with
  | raise =>
    obtain ⟨frame, panic, hclosure, hframe, hpanic⟩ := wrapRaise_ok hwrap hfinal
    rw [(extends_run hcall).frameName] at hframe
    intro A W E hgives
    exact Effects.closes_raise hclosure hframe hpanic hgives
  | fallback default =>
    obtain ⟨value, fallback, ret, s₂, rfl, hdefault, h₂, hclosure, hret⟩ :=
      wrapFallback_ok hwrap hfinal
    cases default with
    | some node =>
      refine ⟨value, fallback, s₂, rfl, hdefault, fun E hgives hfallback => ?_⟩
      exact Effects.closes_fallback hclosure hret hgives hfallback
    | none =>
      have hs := precedes_run hcall
      have hinvalid := TypeTable.hasInvalid_initial.grows (hgrows.trans hs.types)
      refine ⟨value, fallback, ret, rfl, hclosure, hret, ?_, fun E hgives hzero =>
        Effects.closes_zero hclosure hret hgives hzero⟩
      rw [kind_zeroValue hdefault h₂]
      exact TypeTable.spellsZero_zeroKind_iff hinvalid
  | propagate => trivial

/-- `g()!` panics with a frame of the error that `g` gives, which is called once. -/
theorem errorClosure_results_iff_raise :
    ∃ r types, ∃ E : Effects Unit Nat raisedCall.2.tree types,
      raisedCall.1 = .ok r ∧ E.call 4 r.id ⟨[], 0⟩ =
        some (.panics (E.newFrame (.text []) "" "" 0 "main.main"), ⟨[], 1⟩) := by
  obtain ⟨r, s', hrun⟩ : ∃ r s', raisedCall = (.ok r, s') := exists_ok (by decide +kernel)
  obtain ⟨call, s₁, values, hcall, hresults, hraise⟩ :=
    errorClosure_results_iff (grows_failingState []) hrun (.refl s')
  obtain rfl : raisedCall.2 = s' := congrArg Prod.snd hrun
  obtain ⟨hid, hcount⟩ : call.id = ⟨1⟩ ∧ values.length = 1 := by
    have hfailing : failingCall? [] = some (⟨1⟩, 1) := by decide +kernel
    rw [failingCall?, hcall] at hfailing
    dsimp only at hfailing
    rw [hresults] at hfailing
    exact Prod.mk.inj (Option.some.inj hfailing)
  have hnames : raisedCall.2.tree.nodes.all (hasNames raisedCall.2.tree ·.kind) = true := by
    decide +kernel
  have hg : raisedCall.2.tree.kind ⟨1⟩ = .call ⟨0⟩ [] false ∧
      raisedCall.2.tree.kind ⟨0⟩ = .identifier "g" := by
    decide +kernel
  have hgives := givesError_failingEffects hg.1 hg.2 Names.IsReserved s₁.types hnames
  have hcloses := hraise (failingEffects raisedCall.2.tree s₁.types hnames) (by rwa [hid, hcount])
  refine ⟨r, s₁.types, failingEffects raisedCall.2.tree s₁.types hnames, congrArg Prod.fst hrun, ?_⟩
  have heval : (failingEffects raisedCall.2.tree s₁.types hnames).eval ⟨1⟩ ⟨[], 0⟩ =
      some (.values [.int 0, .text []], ⟨[], 1⟩) :=
    failingEffect_call hg.1 hg.2 ⟨[], 0⟩
  have htexts : failingSample.sources.slice (failingSample.unit.span ⟨1⟩) = "" ∧
      displayPath failingSample.sources failingSample.settings Span.synthetic.file = "" := by
    decide +kernel
  rw [hcloses.call_eq ⟨rfl, rfl⟩ (Nat.le_refl 4), hid, htexts.1, htexts.2, Effects.checked]
  rw [heval]
  rfl

/-- A function with some results, where a variable `g func() (T63, error)` is known with a type that
`int` is 64 definitions away from. -/
def distantState (results : List TypeId) : State := .inside .distant results [("g", ⟨96⟩)]

/-- What the call in `g()?:` is, and the types that there are then. -/
def distantCall? (results : List TypeId) : Option (List TypeId × List Ty) :=
  match lowerWrappedCall (walkWithin 2) ⟨1⟩ failingSample (distantState results) with
  | (.ok call, s) => some (s.types.resultsOf call.type, s.types.entries.toList)
  | _ => none

theorem distantCall?_eq {results : List TypeId}
    (h : distantCall? results = some ([⟨95⟩, TypeTable.error], TypeTable.distant.entries.toList))
    {operand : Operand}
    (hcall : lowerWrappedCall (walkWithin 2) ⟨1⟩ failingSample (distantState results) =
      (.ok operand, s'))
    (hresults : resultsBeforeError? (s'.types.resultsOf operand.type) = some values) :
    s'.types = .distant ∧ values = [⟨95⟩] := by
  rw [distantCall?, hcall] at h
  obtain ⟨hoperand, htypes⟩ := Prod.mk.inj (Option.some.inj h)
  rw [hoperand] at hresults
  exact ⟨congrArg TypeTable.mk (Array.toList_inj.mp htypes), (Option.some.inj hresults).symm⟩

/-- `g()?:` gives on an error what is not the zero value of its type. -/
theorem errorClosure_distant :
    ∃ r s' call value ret fallback,
      lowerErrorWrap (walkWithin 2) ⟨1⟩ (.fallback none) .synthetic failingSample
        (distantState []) = (.ok r, s') ∧
      s'.tree.IsErrorClosure r.id call [value] [ret] ∧ s'.tree.kind ret = .ret [fallback] ∧
      (distantState []).types.HasZero value ∧
      ¬(distantState []).types.SpellsZero value (s'.tree.kind fallback) := by
  obtain ⟨r, s', hrun⟩ := exists_ok (m := lowerErrorWrap (walkWithin 2) ⟨1⟩ (.fallback none)
    .synthetic) (c := failingSample) (s := distantState []) (by decide +kernel)
  obtain ⟨call, s₁, values, hcall, hresults, hwrap⟩ := lowerErrorWrap_ok hrun
  obtain ⟨value, fallback, ret, s₂, rfl, hzero, h₂, hclosure, hret⟩ :=
    wrapFallback_ok hwrap (.refl s')
  obtain ⟨htypes, hvalues⟩ := distantCall?_eq (by decide +kernel) hcall hresults
  obtain rfl := (List.cons.inj hvalues).1
  have hkind := kind_zeroValue hzero h₂
  rw [htypes] at hkind
  obtain ⟨hhas, hspells⟩ := TypeTable.not_spellsZero_distant
  exact ⟨r, s', call.id, ⟨95⟩, ret, fallback, hrun, hclosure, hret, hhas, hkind ▸ hspells⟩

end Lowering

end GoLowering
