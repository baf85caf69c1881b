import GoLowering.Proofs.Effects
import GoLowering.Proofs.WrittenNumbers

/-!
# Blocks of error wraps

All error wraps make their call in a block that starts with the same three statements: a variable
for the error is declared, the results of the call are assigned, and what is done on an error stands
behind a check (`HostTree.IsErrorCheck`). To run them is to make the call once, to assign its results
(`Effects.runList_call_values`) and to run what is done on an error just in case there is one
(`Effects.run_check`).
-/

namespace GoLowering

/-! ## Reserved names -/

namespace Names

theorem toString_inj {m n : Nat} (h : toString m = toString n) : m = n := by
  have hread : Literal.integer? m.repr = Literal.integer? n.repr := congrArg Literal.integer? h
  rw [Literal.integer?_repr, Literal.integer?_repr] at hread
  exact Int.ofNat.inj (Constant.int.inj (Option.some.inj hread))

theorem temporary_inj {m n : Nat} (h : temporary m = temporary n) : m = n :=
  toString_inj ((String.append_right_inj temporaryStem).mp h)

/-- The names of results start in the same way. -/
theorem resultAt_eq (n : Nat) : resultAt n = result ++ if n = 0 then "" else toString (n + 1) := by
  unfold resultAt
  by_cases h : n = 0
  · rw [if_pos h, if_pos (beq_iff_eq.mpr h), String.append_empty]
  · rw [if_neg h, if_neg (fun he => h (beq_iff_eq.mp he))]

theorem resultAt_inj {m n : Nat} (h : resultAt m = resultAt n) : m = n := by
  rw [resultAt_eq, resultAt_eq, String.append_right_inj] at h
  by_cases hm : m = 0
  · by_cases hn : n = 0
    · rw [hm, hn]
    · rw [if_pos hm, if_neg hn] at h
      exact absurd h.symm Nat.repr_ne_empty
  · by_cases hn : n = 0
    · rw [if_neg hm, if_pos hn] at h
      exact absurd h Nat.repr_ne_empty
    · rw [if_neg hm, if_neg hn] at h
      exact Nat.succ.inj (toString_inj h)

theorem toList_resultAt (n : Nat) :
    ∃ rest, (resultAt n).toList = '_' :: 'g' :: 'o' :: 'p' :: '_' :: 'r' :: rest := by
  rw [resultAt_eq, String.toList_append]
  exact ⟨_, rfl⟩

theorem resultAt_ne {name : String} {n : Nat}
    (h : name.toList.take 6 ≠ ['_', 'g', 'o', 'p', '_', 'r']) : resultAt n ≠ name := by
  rintro rfl
  obtain ⟨rest, hlist⟩ := toList_resultAt n
  exact h (by rw [hlist]; rfl)

/-- The names of the results of a closure with some number of them. -/
def results (count : Nat) : List String := (List.range count).map resultAt

theorem nodup_results (count : Nat) : (results count).Nodup :=
  List.nodup_range.map (fun _ _ h => resultAt_inj h)

theorem blank_notMem_results (count : Nat) : blank ∉ results count := by
  intro h
  obtain ⟨n, -, hn⟩ := List.mem_map.mp h
  exact resultAt_ne (by decide) hn

theorem err_notMem_results (count : Nat) : err ∉ results count := by
  intro h
  obtain ⟨n, -, hn⟩ := List.mem_map.mp h
  exact resultAt_ne (by decide) hn

theorem length_results (count : Nat) : (results count).length = count := by
  rw [results, List.length_map, List.length_range]

end Names

/-! ## Trees -/

namespace HostTree

theorem mapM_name? {t : HostTree} {ids : List HostId} {names : List String}
    (h : List.Forall₂ (fun id name => t.kind id = .identifier name) ids names) :
    ids.mapM t.name? = some names := by
  induction h with
  | nil => rfl
  | cons hid _ ih =>
    rw [List.mapM_cons, name?, hid, ih]
    rfl

/-- Whether a statement gives the error a frame. -/
def IsFrame (t : HostTree) (id : HostId) (text path : String) (line : Nat) (function : String) :
    Prop :=
  ∃ target call callee error textNode pathNode lineNode functionNode,
    t.kind id = .assign [target] .plain [call] ∧ t.kind target = .identifier Names.err ∧
    t.kind call = .call callee [error, textNode, pathNode, lineNode, functionNode] false ∧
    t.kind callee = .qualified framesPath "NewFrame" ∧ t.kind error = .identifier Names.err ∧
    t.kind textNode = .literal (Quoted.quoteInterpreted text) ∧
    t.kind pathNode = .literal (Quoted.quoteInterpreted path) ∧
    t.kind lineNode = .literal (toString line) ∧
    t.kind functionNode = .literal (Quoted.quoteInterpreted function)

/-- Three statements that make a call, whose last result is an error, and run a handler if there is
an error. -/
structure IsErrorCheck (t : HostTree) (call : HostId) (targets : List String)
    (handler : List HostId) (declare assign check : HostId) : Prop where
  declare : t.kind declare = .varDecl ⟨[Names.err], some TypeTable.error, [], none⟩
  assign : ∃ lhs, t.kind assign = .assign lhs .plain [call] ∧
    lhs.mapM t.name? = some (targets ++ [Names.err])
  check : ∃ condition operand nil branch, t.kind check = .ifElse none condition branch none ∧
    t.kind condition = .binary .notEqual operand nil ∧ t.kind operand = .identifier Names.err ∧
    t.kind nil = .identifier "nil" ∧ t.kind branch = .block handler

end HostTree

/-! ## Runs -/

namespace Effects

open Completion

variable {A W : Type} {t : HostTree} {types : TypeTable} {E : Effects A W t types} {depth : Nat}
  {call declare assign check frame : HostId} {targets : List String} {handler rest : List HostId}
  {m m' : Machine A W} {datum error : Datum A} {names : String → Prop}

/-- An error is given a frame where it is handled. -/
theorem run_frame {text path function : String} {line : Nat}
    (h : t.IsFrame frame text path line function) :
    E.run (depth + 1) frame ((m.enter [(Names.err, error)]).enter []) =
      some (.next
        ((m.enter [(Names.err, E.newFrame error text path line function)]).enter [])) := by
  obtain ⟨target, newFrame, callee, operand, textNode, pathNode, lineNode, functionNode, hassign,
    htarget, hcall, hcallee, hoperand, htext, hpath, hline, hfunction⟩ := h
  have hnames : [target].mapM t.name? = some [Names.err] :=
    HostTree.mapM_name? (.cons htarget .nil)
  have herror : E.eval operand ((m.enter [(Names.err, error)]).enter []) =
      some (.values [error], (m.enter [(Names.err, error)]).enter []) :=
    E.eval_identifier hoperand rfl
  rw [run_assign hassign hnames, E.eval_newFrame hcall hcallee herror htext
    (Quoted.interpreted?_quoteInterpreted text) hpath (Quoted.interpreted?_quoteInterpreted path)
    hline hfunction (Quoted.interpreted?_quoteInterpreted function)]
  rfl

/-- What is done on an error is done if there is one. -/
theorem run_check (h : t.IsErrorCheck call targets handler declare assign check)
    (hnil : m.store.visible "nil" = none) :
    E.run (depth + 2) check (m.enter [(Names.err, error)]) =
      if E.isNil error then some (.next (m.enter [(Names.err, error)]))
      else inScope (runList t (E.run depth) none handler) (m.enter [(Names.err, error)]) := by
  obtain ⟨condition, operand, nil, branch, hcheck, hcondition, hoperand, hnilNode, hbranch⟩ :=
    h.check
  have hfree : (m.enter [(Names.err, error)]).store.visible "nil" = none :=
    (Machine.visible_enter_singleton (by decide)).trans hnil
  have hvalue := E.eval_notNil hcondition hnilNode hfree (E.eval_identifier hoperand rfl)
  rw [run_succ, hcheck]
  change withValues (E.eval condition _) _ = _
  rw [hvalue]
  cases E.isNil error with
  | true => rfl
  | false => exact run_block hbranch

section

variable (h : t.IsErrorCheck call targets handler declare assign check)

include h

theorem runList_declare :
    runList t (E.run (depth + 1)) none (declare :: rest) (m.enter []) =
      runList t (E.run (depth + 1)) none rest (m.enter [(Names.err, E.zero TypeTable.error)]) :=
  runList_next (run_varDecl h.declare)

variable (hblind : Machine.BlindTo names (E.eval call)) (herr : names Names.err)

include hblind herr

/-- The call is made where the variable for the error can be seen. -/
theorem run_assign_eq : E.run (depth + 1) assign (m.enter [(Names.err, datum)]) =
    withValues ((E.eval call m).map (Prod.map id (·.enter [(Names.err, datum)])))
      (fun data m =>
        if (targets ++ [Names.err]).length = data.length then
          (m.store.updateAll ((targets ++ [Names.err]).zip data)).map
            (fun store => .next { m with store })
        else none) := by
  obtain ⟨lhs, hassign, hnames⟩ := h.assign
  have hframe : ∀ name ∈ [(Names.err, datum)].map Prod.fst, names name :=
    List.forall_mem_singleton.mpr herr
  rw [run_assign hassign hnames, hblind.enter hframe]

theorem runList_call_none (hcall : E.eval call m = none) :
    runList t (E.run (depth + 1)) none (declare :: assign :: rest) (m.enter []) = none := by
  have hassign : E.run (depth + 1) assign (m.enter [(Names.err, E.zero TypeTable.error)]) =
      none := by
    rw [run_assign_eq h hblind herr, hcall]
    rfl
  rw [runList_declare h, runList_leaves (hassign ▸ .none), hassign]

theorem runList_call_panics (hcall : E.eval call m = some (.panics datum, m')) :
    runList t (E.run (depth + 1)) none (declare :: assign :: rest) (m.enter []) =
      some (.done (.panics datum) (m'.enter [(Names.err, E.zero TypeTable.error)])) := by
  have hassign : E.run (depth + 1) assign (m.enter [(Names.err, E.zero TypeTable.error)]) =
      some (.done (.panics datum) (m'.enter [(Names.err, E.zero TypeTable.error)])) := by
    rw [run_assign_eq h hblind herr, hcall]
    rfl
  rw [runList_declare h, runList_leaves (hassign ▸ .panics _ _), hassign]

/-- The results of the call are in their places when the error is checked. -/
theorem runList_call_values {values : List (Datum A)} {store : Store A}
    (hcall : E.eval call m = some (.values (values ++ [error]), m'))
    (hcount : values.length = targets.length)
    (htargets : ∀ target ∈ targets, target ≠ Names.blank ∧ target ≠ Names.err)
    (hstore : m'.store.updateAll (targets.zip values) = some store) :
    runList t (E.run (depth + 1)) none (declare :: assign :: rest) (m.enter []) =
      runList t (E.run (depth + 1)) none rest
        (Machine.enter { m' with store } [(Names.err, error)]) := by
  have hothers : ∀ value ∈ targets.zip values, value.1 ≠ Names.blank ∧
      value.1 ∉ [(Names.err, E.zero TypeTable.error)].map Prod.fst := by
    intro value hvalue
    obtain ⟨hblank, hne⟩ := htargets value.1 (List.of_mem_zip hvalue).1
    exact ⟨hblank, fun hmem => hne (List.mem_singleton.mp hmem)⟩
  have hassign : E.run (depth + 1) assign (m.enter [(Names.err, E.zero TypeTable.error)]) =
      some (.next (Machine.enter { m' with store } [(Names.err, error)])) := by
    have hlength : (targets ++ [Names.err]).length = (values ++ [error]).length := by
      rw [List.length_append, List.length_append, hcount]
      rfl
    rw [run_assign_eq h hblind herr, hcall]
    refine (if_pos hlength).trans ?_
    rw [List.zip_append hcount.symm, Store.updateAll_append_values]
    have hvalues := @Store.updateAll_cons A [(Names.err, E.zero TypeTable.error)] m'.store _ hothers
    refine (congrArg (fun store => (Option.bind store _).map _) hvalues).trans ?_
    rw [hstore]
    rfl
  rw [runList_declare h, runList_next hassign]

end

end Effects

namespace Lowering

variable {c : Context} {s s' final : State} {id call : HostId} {span : Span}

theorem mapM_scaffold {α : Type} (kind : α → HostKind) {as : List α} {ids : List HostId}
    (hrun : as.mapM (fun a => scaffold (kind a)) c s = (.ok ids, s')) (hfinal : s'.Precedes final) :
    List.Forall₂ (fun id a => final.tree.kind id = kind a) ids as := by
  induction as generalizing ids s with
  | nil =>
    obtain ⟨rfl, -⟩ := pure_ok.mp hrun
    exact .nil
  | cons a as ih =>
    rw [List.mapM_cons] at hrun
    obtain ⟨id, s₁, hid, hrun⟩ := bind_ok.mp hrun
    obtain ⟨rest, s₂, hrest, hrun⟩ := bind_ok.mp hrun
    obtain ⟨rfl, rfl⟩ := pure_ok.mp hrun
    exact .cons (kind_addNode hid ((precedes_run hrest).trans hfinal)) (ih hrest)

theorem assignResults_ok {targets : List String}
    (hrun : assignResults targets call span c s = (.ok id, s')) (hfinal : s'.Precedes final) :
    ∃ lhs, final.tree.kind id = .assign lhs .plain [call] ∧
      lhs.mapM final.tree.name? = some (targets ++ [Names.err]) := by
  obtain ⟨lhs, s₁, hlhs, hrun⟩ := bind_ok.mp hrun
  have hnames := mapM_scaffold .identifier hlhs ((precedes_run hrun).trans hfinal)
  exact ⟨lhs, kind_addNode hrun hfinal, HostTree.mapM_name? hnames⟩

theorem onError_ok {handler : List HostId} (hrun : onError handler span c s = (.ok id, s'))
    (hfinal : s'.Precedes final) :
    ∃ condition operand nil branch, final.tree.kind id = .ifElse none condition branch none ∧
      final.tree.kind condition = .binary .notEqual operand nil ∧
      final.tree.kind operand = .identifier Names.err ∧
      final.tree.kind nil = .identifier "nil" ∧ final.tree.kind branch = .block handler := by
  obtain ⟨operand, s₁, hoperand, hrun⟩ := bind_ok.mp hrun
  obtain ⟨nil, s₂, hnil, hrun⟩ := bind_ok.mp hrun
  obtain ⟨condition, s₃, hcondition, hrun⟩ := bind_ok.mp hrun
  obtain ⟨branch, s₄, hbranch, hrun⟩ := bind_ok.mp hrun
  have h₄ := (precedes_run hrun).trans hfinal
  have h₃ := (precedes_run hbranch).trans h₄
  have h₂ := (precedes_run hcondition).trans h₃
  have h₁ := (precedes_run hnil).trans h₂
  exact ⟨condition, operand, nil, branch, kind_addNode hrun hfinal, kind_addNode hcondition h₃,
    kind_addNode hoperand h₁, kind_addNode hnil h₂, kind_addNode hbranch h₄⟩

theorem addFrame_ok {text : String} (hrun : addFrame text span c s = (.ok id, s'))
    (hfinal : s'.Precedes final) :
    final.tree.IsFrame id text (displayPath c.sources c.settings span.file)
      (c.sources.lineColumn span.file span.start).1 s.frameName := by
  obtain ⟨_, _, ⟨⟩, hrun⟩ := bind_ok.mp hrun
  obtain ⟨callee, s₁, hcallee, hrun⟩ := bind_ok.mp hrun
  obtain ⟨error, s₂, herror, hrun⟩ := bind_ok.mp hrun
  obtain ⟨_, _, ⟨⟩, hrun⟩ := bind_ok.mp hrun
  obtain ⟨args, s₃, hargs, hrun⟩ := bind_ok.mp hrun
  obtain ⟨call, s₄, hcall, hrun⟩ := bind_ok.mp hrun
  obtain ⟨target, s₅, htarget, hplace⟩ := bind_ok.mp hrun
  have h₅ := (precedes_run hplace).trans hfinal
  have h₄ := (precedes_run htarget).trans h₅
  have h₃ := (precedes_run hcall).trans h₄
  have h₂ := (precedes_run hargs).trans h₃
  have h₁ := (precedes_run herror).trans h₂
  have hname : s₂.frameName = s.frameName := by
    obtain ⟨-, rfl⟩ := Prod.mk.inj hcallee
    obtain ⟨-, rfl⟩ := Prod.mk.inj herror
    rfl
  have hliterals := mapM_scaffold .literal hargs h₃
  rw [hname] at hliterals
  cases hliterals with
  | cons htext hliterals =>
    cases hliterals with
    | cons hpath hliterals =>
      cases hliterals with
      | cons hline hliterals =>
        cases hliterals with
        | cons hfunction hliterals =>
          cases hliterals
          exact ⟨target, call, callee, error, _, _, _, _, kind_addNode hplace hfinal,
            kind_addNode htarget h₅, kind_addNode hcall h₄, kind_addNode hcallee h₁,
            kind_addNode herror h₂, htext, hpath, hline, hfunction⟩

end Lowering

end GoLowering
