import GoLowering.Proofs.ErrorClosures
import GoLowering.Proofs.WrappedOperands

/-!
# Errors that are returned

`f()?` makes the call of `f` before the statement that it stands in, and the statement goes on with
a temporary that has the value of the call. On an error the function around is left instead, with
a frame of the error and the zero values of its other results (`Effects.runList_propagating`). The
names that this takes are the next numbers of the one counter of the unit, and they are noted
(`Lowering.wrapPropagate_ok`).
-/

namespace GoLowering

theorem Names.temporary_ne {name : String} {n : Nat}
    (h : name.toList.take 2 ≠ ['_', 'a']) : Names.temporary n ≠ name := by
  rintro rfl
  refine h ?_
  rw [Names.temporary, String.toList_append]
  rfl

namespace HostTree

/-- Whether a block makes a call, assigns its results but for the error at the end, and returns an
error with a frame behind some other values. -/
def IsPropagation (t : HostTree) (id call : HostId) (targets : List String) (label : String)
    (zeros : List HostId) (text path : String) (line : Nat) (function : String) : Prop :=
  ∃ declare assign check jump landing frame propagate error,
    t.kind id = .block [declare, assign, check, jump, landing] ∧
    t.IsErrorCheck call targets [frame, propagate] declare assign check ∧
    t.IsFrame frame text path line function ∧ t.kind propagate = .ret (zeros ++ [error]) ∧
    t.kind error = .identifier Names.err ∧ t.kind jump = .branch .goto (some label) ∧
    t.kind landing = .labeled label none

/-- Whether some statements make a call and return its error. Its value, if it has one, is kept in
a temporary. -/
inductive IsPropagating (t : HostTree) (call : HostId) (label : String) (zeros : List HostId)
    (text path : String) (line : Nat) (function : String) :
    List (String × TypeId) → List HostId → Prop
  | nothing {block : HostId}
      (h : t.IsPropagation block call [] label zeros text path line function) :
      IsPropagating t call label zeros text path line function [] [block]
  | value {name : String} {type : TypeId} {declare block : HostId}
      (hdeclare : t.kind declare = .varDecl ⟨[name], some type, [], none⟩)
      (h : t.IsPropagation block call [name] label zeros text path line function) :
      IsPropagating t call label zeros text path line function [(name, type)] [declare, block]

end HostTree

namespace Effects

open Completion

variable {A W : Type} {t : HostTree} {types : TypeTable} {E : Effects A W t types} {depth : Nat}
  {block call : HostId} {targets : List String} {label : String} {zeros : List HostId}
  {text path function : String} {line : Nat} {results : List TypeId} {m m' : Machine A W}
  {datum error : Datum A} {names : String → Prop}

/-- A call is made, whose last value is an error. Without an error its value is kept in a temporary,
if there is one, and with one some zero values and the error are returned. -/
def propagating (E : Effects A W t types) (call : HostId) (temporaries : List (String × TypeId))
    (results : List TypeId) (frame : Datum A → Datum A) (m : Machine A W) :
    Option (Completion (Machine A W) (Exit A)) :=
  match E.eval call m with
  | some (.values data, m') =>
    let m'' := m'.declareAll ((temporaries.map Prod.fst).zip data.dropLast)
    data.getLast?.bind (fun error =>
      if E.isNil error then some (.next m'')
      else some (.done (.returns (some (results.map E.zero ++ [frame error]))) m''))
  | some (.panics datum, m') =>
    some (.done (.panics datum) (m'.declareAll (temporaries.map (Prod.map id E.zero))))
  | none => none

/-! ## Blocks -/

/-- Zero values are evaluated in front of something else. -/
theorem evalAll_zeros {last : HostId}
    (hzeros : List.Forall₂ (fun id type => types.SpellsZero type (t.kind id)) zeros results)
    (hnil : m.store.visible "nil" = none)
    (hfalse : ∀ id ∈ zeros, t.kind id = .literal "false" → m.store.visible "false" = none)
    (hlast : E.eval last m = some (.values [datum], m)) :
    E.evalAll (zeros ++ [last]) m = some (.values (results.map E.zero ++ [datum]), m) := by
  induction hzeros with
  | nil => exact evalAll_singleton.trans hlast
  | cons hzero _ ih =>
    obtain ⟨hhead, hfalse⟩ := List.forall_mem_cons.mp hfalse
    rw [List.cons_append, evalAll, E.eval_zero hzero hnil hhead]
    dsimp only
    rw [ih hfalse]
    rfl

theorem run_returning {frame propagate last : HostId}
    (hframe : t.IsFrame frame text path line function)
    (hpropagate : t.kind propagate = .ret (zeros ++ [last]))
    (hlast : t.kind last = .identifier Names.err)
    (hzeros : List.Forall₂ (fun id type => types.SpellsZero type (t.kind id)) zeros results)
    (hnil : m.store.visible "nil" = none)
    (hfalse : ∀ id ∈ zeros, t.kind id = .literal "false" → m.store.visible "false" = none) :
    inScope (runList t (E.run (depth + 1)) none [frame, propagate]) (m.enter [(Names.err, error)]) =
      some (.done (.returns (some (results.map E.zero ++
          [E.newFrame error text path line function])))
        (m.enter [(Names.err, E.newFrame error text path line function)])) := by
  have hfree {name : String} (hname : name ≠ Names.err) (hm : m.store.visible name = none) :
      ((m.enter [(Names.err, E.newFrame error text path line function)]).enter
        []).store.visible name = none := by
    rw [Machine.visible_enter List.not_mem_nil, Machine.visible_enter_singleton hname, hm]
  have hvalue := E.evalAll_zeros hzeros (hfree (by decide) hnil)
    (fun id hid hkind => hfree (by decide) (hfalse id hid hkind)) (E.eval_identifier hlast rfl)
  obtain ⟨first, rest, hlist⟩ := List.exists_cons_of_ne_nil
    (List.append_ne_nil_of_right_ne_nil zeros (List.cons_ne_nil last []))
  have hrun : E.run (depth + 1) propagate
      ((m.enter [(Names.err, E.newFrame error text path line function)]).enter []) = _ :=
    run_ret (hpropagate.trans (congrArg HostKind.ret hlist))
  rw [← hlist, hvalue] at hrun
  rw [inScope, runList_next (run_frame hframe), runList_leaves (hrun ▸ leaves_returning _), hrun]
  rfl

section

variable (h : t.IsPropagation block call targets label zeros text path line function)
  (hblind : Machine.BlindTo names (E.eval call)) (herr : names Names.err)

include h hblind herr

theorem run_propagation_none (hcall : E.eval call m = none) :
    E.run (depth + 2) block m = none := by
  obtain ⟨_, _, _, _, _, _, _, _, hblock, hcheck, -⟩ := h
  rw [run_block hblock, inScope, runList_call_none hcheck hblind herr hcall]
  rfl

theorem run_propagation_panics (hcall : E.eval call m = some (.panics datum, m')) :
    E.run (depth + 2) block m = some (.done (.panics datum) m') := by
  obtain ⟨_, _, _, _, _, _, _, _, hblock, hcheck, -⟩ := h
  rw [run_block hblock, inScope, runList_call_panics hcheck hblind herr hcall]
  rfl

theorem run_propagation_values {values : List (Datum A)} {store : Store A}
    (hcall : E.eval call m = some (.values (values ++ [error]), m'))
    (hcount : values.length = targets.length)
    (htargets : ∀ target ∈ targets, target ≠ Names.blank ∧ target ≠ Names.err)
    (hstore : m'.store.updateAll (targets.zip values) = some store)
    (hzeros : List.Forall₂ (fun id type => types.SpellsZero type (t.kind id)) zeros results)
    (hnil : store.visible "nil" = none)
    (hfalse : ∀ id ∈ zeros, t.kind id = .literal "false" → store.visible "false" = none) :
    E.run (depth + 4) block m =
      if E.isNil error then some (.next { m' with store })
      else some (.done (.returns (some (results.map E.zero ++
        [E.newFrame error text path line function]))) { m' with store }) := by
  obtain ⟨declare, assign, check, jump, landing, frame, propagate, last, hblock, hcheck, hframe,
    hpropagate, hlast, hjump, hlanding⟩ := h
  have hrunCheck : E.run (depth + 3) check (Machine.enter { m' with store } [(Names.err, error)]) =
      _ :=
    run_check hcheck hnil
  rw [run_block hblock, inScope,
    runList_call_values hcheck hblind herr hcall hcount htargets hstore]
  cases herror : E.isNil error with
  | true =>
    rw [herror, if_pos rfl] at hrunCheck
    rw [runList_next hrunCheck,
      runList_jump (run_goto hjump) hlanding (run_labeled_none hlanding), if_pos rfl]
    rfl
  | false =>
    rw [herror, if_neg Bool.false_ne_true,
      run_returning hframe hpropagate hlast hzeros hnil hfalse] at hrunCheck
    rw [runList_leaves (hrunCheck ▸ .returns _ _), hrunCheck, if_neg Bool.false_ne_true]
    rfl

end

/-! ## What is put before a statement -/

theorem propagating_ne_jumps {temporaries : List (String × TypeId)} {frame : Datum A → Datum A}
    (target : String) (after : Machine A W) :
    E.propagating call temporaries results frame m ≠ some (.done (.jumps target) after) := by
  rw [propagating]
  rcases E.eval call m with _ | ⟨data | datum, m'⟩
  · exact nofun
  · dsimp only
    cases data.getLast? with
    | none => exact nofun
    | some error =>
      rw [Option.bind_some]
      split <;> exact nofun
  · exact nofun

section

variable (hzeros : List.Forall₂ (fun id type => types.SpellsZero type (t.kind id)) zeros results)
  (hnil : m.store.visible "nil" = none)
  (hfalse : ∀ id ∈ zeros, t.kind id = .literal "false" → m.store.visible "false" = none)

include hzeros hnil hfalse

theorem run_propagation_nothing
    (h : t.IsPropagation block call [] label zeros text path line function)
    (hblind : Machine.BlindTo names (E.eval call)) (herr : names Names.err)
    (hcount : ∀ {data m'}, E.eval call m = some (.values data, m') → data.length = 1) :
    E.run (depth + 4) block m =
      E.propagating call [] results (E.newFrame · text path line function) m := by
  rw [propagating]
  rcases hcall : E.eval call m with _ | ⟨data | datum, m'⟩
  · exact run_propagation_none h hblind herr hcall
  · obtain ⟨error, rfl⟩ := List.length_eq_one_iff.mp (hcount hcall)
    have hnames := E.names_eval hcall
    have hvalues : E.eval call m = some (.values ([] ++ [error]), m') := hcall
    exact run_propagation_values h hblind herr hvalues rfl (List.forall_mem_nil _) rfl hzeros
      (Machine.visible_eq_none_of_names hnames hnil)
      (fun id hid hkind => Machine.visible_eq_none_of_names hnames (hfalse id hid hkind))
  · exact run_propagation_panics h hblind herr hcall

theorem run_propagation_value {n : Nat} {type : TypeId}
    (h : t.IsPropagation block call [Names.temporary n] label zeros text path line function)
    (hblind : Machine.BlindTo names (E.eval call)) (herr : names Names.err)
    (hname : names (Names.temporary n))
    (hcount : ∀ {data m'}, E.eval call m = some (.values data, m') → data.length = 2) :
    E.run (depth + 4) block (m.declareAll [(Names.temporary n, E.zero type)]) =
      E.propagating call [(Names.temporary n, type)] results
        (E.newFrame · text path line function) m := by
  have hdeclared := hblind _ (.declare hname (E.zero type)) m
  rw [propagating]
  rcases hcall : E.eval call m with _ | ⟨data | datum, m'⟩
  · rw [hcall] at hdeclared
    exact run_propagation_none h hblind herr hdeclared
  · obtain ⟨value, error, rfl⟩ := List.length_eq_two.mp (hcount hcall)
    have hvalues : E.eval call (m.declareAll [(Names.temporary n, E.zero type)]) =
        some (.values ([value] ++ [error]), m'.declareAll [(Names.temporary n, E.zero type)]) := by
      rw [hdeclared, hcall]
      rfl
    have hadds := @Machine.Adds.declare A W (· = Names.temporary n) (Names.temporary n) rfl value
    have hfree {name : String} (hne : name ≠ Names.temporary n)
        (hm : m.store.visible name = none) :
        (m'.store.declare (Names.temporary n) value).visible name = none :=
      hadds.visible_eq_none hne
        (Machine.visible_eq_none_of_names (E.names_eval hcall) hm)
    have hstore : (m'.store.declare (Names.temporary n) (E.zero type)).updateAll
        ([Names.temporary n].zip [value]) =
          some (m'.store.declare (Names.temporary n) value) := by
      rw [Store.updateAll, List.zip_cons_cons, List.foldlM_cons,
        Store.update_declare _ (Names.temporary_ne (by decide))]
      rfl
    have htargets : ∀ target ∈ [Names.temporary n],
        target ≠ Names.blank ∧ target ≠ Names.err :=
      List.forall_mem_singleton.mpr
        ⟨Names.temporary_ne (by decide), Names.temporary_ne (by decide)⟩
    have hrun : E.run (depth + 4) block _ = _ :=
      run_propagation_values h hblind herr hvalues rfl htargets hstore hzeros
        (hfree (Names.temporary_ne (by decide)).symm hnil)
        (fun id hid hkind => hfree (Names.temporary_ne (by decide)).symm (hfalse id hid hkind))
    exact hrun
  · rw [hcall] at hdeclared
    exact run_propagation_panics h hblind herr hdeclared

/-- The statements make the call once, and go on with its value or return its error. -/
theorem runList_propagating {temporaries : List (String × TypeId)} {code : List HostId}
    (h : t.IsPropagating call label zeros text path line function temporaries code)
    (htemporaries : ∀ temporary ∈ temporaries, ∃ n, temporary.1 = Names.temporary n)
    (hcall : E.GivesError (fun name => name = Names.err ∨ name ∈ temporaries.map Prod.fst) call
      temporaries.length) :
    runList t (E.run (depth + 4)) none code m =
      E.propagating call temporaries results (E.newFrame · text path line function) m := by
  cases h with
  | nothing h =>
    have hrun : E.run (depth + 4) _ m = _ :=
      run_propagation_nothing hzeros hnil hfalse h hcall.blind (.inl rfl) hcall.count
    rw [runList_last (hrun ▸ propagating_ne_jumps), hrun]
  | @value name type _ _ hdeclare h =>
    obtain ⟨n, rfl⟩ := htemporaries _ List.mem_cons_self
    have hrun : E.run (depth + 4) _ (m.declareAll [(Names.temporary n, E.zero type)]) = _ :=
      run_propagation_value hzeros hnil hfalse h hcall.blind (.inl rfl)
        (.inr (List.mem_singleton.mpr rfl)) hcall.count
    rw [runList_next (run_varDecl hdeclare), runList_last (hrun ▸ propagating_ne_jumps), hrun]

end

end Effects

/-! ## Lowering -/

namespace Lowering

open Surface

variable {α β : Type} {c : Context} {s s' final : State} {call : HostId} {values : List TypeId}
  {text : String} {span : Span} {r : Operand}

/-- The names that are numbered between two states. -/
def drawn (s s' : State) : List String :=
  (List.range' (s.temporaries + 1) (s'.temporaries - s.temporaries)).map Names.temporary

/-- Between two states some names are drawn and some statements hoisted, and nothing else happens
that error wraps depend on. -/
structure Writes (s s' : State) (names : Nat) (code : List HostId) : Prop where
  types : s'.types = s.types
  frameName : s'.frameName = s.frameName
  hoisted : s'.hoisted = s.hoisted ++ code
  temporaries : s'.temporaries = s.temporaries + names
  propagations : s'.propagations = s.propagations

theorem Writes.trans {s₁ : State} {names more : Nat} {code rest : List HostId}
    (h₁ : Writes s s₁ names code) (h₂ : Writes s₁ s' more rest) :
    Writes s s' (names + more) (code ++ rest) where
  types := h₂.types.trans h₁.types
  frameName := h₂.frameName.trans h₁.frameName
  hoisted := by rw [h₂.hoisted, h₁.hoisted, List.append_assoc]
  temporaries := by rw [h₂.temporaries, h₁.temporaries, Nat.add_assoc]
  propagations := h₂.propagations.trans h₁.propagations

/-- A part that makes nodes and changes nothing that error wraps depend on. -/
class MakesNodes (m : Lower α) : Prop where
  run (c : Context) (s : State) : Writes s (m c s).2 0 []

theorem writes_refl (s : State) : Writes s s 0 [] :=
  ⟨rfl, rfl, (List.append_nil _).symm, rfl, rfl⟩

instance makesNodes_addNode (kind : HostKind) (origin : Option Span) :
    MakesNodes (addNode kind origin) :=
  ⟨fun _ _ => ⟨rfl, rfl, (List.append_nil _).symm, rfl, rfl⟩⟩

instance makesNodes_place (kind : HostKind) (span : Span) : MakesNodes (place kind span) :=
  makesNodes_addNode _ _

instance makesNodes_scaffold (kind : HostKind) : MakesNodes (scaffold kind) :=
  makesNodes_addNode _ _

instance makesNodes_pure (a : α) : MakesNodes (pure a : Lower α) := ⟨fun _ s => writes_refl s⟩

instance makesNodes_read : MakesNodes (read : Lower Context) := ⟨fun _ s => writes_refl s⟩

instance makesNodes_get : MakesNodes (get : Lower State) := ⟨fun _ s => writes_refl s⟩

instance makesNodes_bind {m : Lower α} {f : α → Lower β} [hm : MakesNodes m]
    [hf : ∀ a, MakesNodes (f a)] : MakesNodes (m >>= f) where
  run c s := by
    have h := hm.run c s
    rw [run_bind]
    rcases hrun : m c s with ⟨r, s₁⟩
    rw [hrun] at h
    cases r with
    | error failure => exact h
    | ok a => exact h.trans ((hf a).run c s₁)

instance makesNodes_mapM {f : α → Lower β} {as : List α} [hf : ∀ a, MakesNodes (f a)] :
    MakesNodes (as.mapM f) := by
  induction as with
  | nil => exact makesNodes_pure []
  | cons a as ih =>
    rw [List.mapM_cons]
    infer_instance

instance makesNodes_zeroValue (type : TypeId) : MakesNodes (zeroValue type) :=
  ⟨fun c s => run_zeroValue type c s ▸ (makesNodes_scaffold _).run c s⟩

instance makesNodes_declareError (span : Span) : MakesNodes (declareError span) :=
  makesNodes_place _ _

instance makesNodes_assignResults (targets : List String) (call : HostId) (span : Span) :
    MakesNodes (assignResults targets call span) := by
  unfold assignResults identNode
  infer_instance

instance makesNodes_addFrame (text : String) (span : Span) : MakesNodes (addFrame text span) := by
  unfold addFrame qualifiedNode identNode literalNode callNode
  infer_instance

instance makesNodes_onError (handler : List HostId) (span : Span) :
    MakesNodes (onError handler span) := by
  unfold onError identNode binaryNode blockNode
  infer_instance

theorem writes_run {m : Lower α} {a : α} [hm : MakesNodes m] (hrun : m c s = (.ok a, s')) :
    Writes s s' 0 [] := by
  have h := hm.run c s
  rwa [hrun] at h

theorem mapM_zeroValue {results : List TypeId} {zeros : List HostId}
    (hrun : results.mapM zeroValue c s = (.ok zeros, s')) (hfinal : s'.Precedes final) :
    List.Forall₂ (fun id type => final.tree.kind id = s.types.zeroKind type) zeros results := by
  induction results generalizing zeros s with
  | nil =>
    obtain ⟨rfl, -⟩ := pure_ok.mp hrun
    exact .nil
  | cons type results ih =>
    rw [List.mapM_cons] at hrun
    obtain ⟨zero, s₁, hzero, hrun⟩ := bind_ok.mp hrun
    obtain ⟨rest, s₂, hrest, hrun⟩ := bind_ok.mp hrun
    obtain ⟨rfl, rfl⟩ := pure_ok.mp hrun
    have hkinds := ih hrest
    rw [(writes_run hzero).types] at hkinds
    exact .cons (kind_zeroValue hzero ((precedes_run hrest).trans hfinal)) hkinds

theorem propagateBlock_ok {targets : List String} {label : String} {results : List TypeId}
    {block : HostId}
    (hrun : propagateBlock call targets label text results span c s = (.ok block, s'))
    (hfinal : s'.Precedes final) :
    Writes s s' 0 [] ∧ ∃ zeros,
      List.Forall₂ (fun id type => final.tree.kind id = s.types.zeroKind type) zeros
        results.dropLast ∧
      final.tree.IsPropagation block call targets label zeros text
        (displayPath c.sources c.settings span.file) (c.sources.lineColumn span.file span.start).1
        s.frameName := by
  have hmakes : MakesNodes (propagateBlock call targets label text results span) := by
    unfold propagateBlock identNode
    infer_instance
  refine ⟨writes_run hrun, ?_⟩
  obtain ⟨declare, s₁, hdeclare, hrun⟩ := bind_ok.mp hrun
  obtain ⟨assign, s₂, hassign, hrun⟩ := bind_ok.mp hrun
  obtain ⟨frame, s₃, hframe, hrun⟩ := bind_ok.mp hrun
  obtain ⟨zeros, s₄, hzeros, hrun⟩ := bind_ok.mp hrun
  obtain ⟨error, s₅, herror, hrun⟩ := bind_ok.mp hrun
  obtain ⟨propagate, s₆, hpropagate, hrun⟩ := bind_ok.mp hrun
  obtain ⟨check, s₇, hcheck, hrun⟩ := bind_ok.mp hrun
  obtain ⟨jump, s₈, hjump, hrun⟩ := bind_ok.mp hrun
  obtain ⟨landing, s₉, hlanding, hrun⟩ := bind_ok.mp hrun
  have h₉ := (precedes_run hrun).trans hfinal
  have h₈ := (precedes_run hlanding).trans h₉
  have h₇ := (precedes_run hjump).trans h₈
  have h₆ := (precedes_run hcheck).trans h₇
  have h₅ := (precedes_run hpropagate).trans h₆
  have h₄ := (precedes_run herror).trans h₅
  have h₃ := (precedes_run hzeros).trans h₄
  have h₂ := (precedes_run hframe).trans h₃
  have h₁ := (precedes_run hassign).trans h₂
  have hassigned := assignResults_ok hassign h₂
  have hframed := addFrame_ok hframe h₃
  have hkinds := mapM_zeroValue hzeros h₄
  have hs₂ := (writes_run hdeclare).trans (writes_run hassign)
  rw [hs₂.frameName] at hframed
  rw [(hs₂.trans (writes_run hframe)).types] at hkinds
  exact ⟨zeros, hkinds, declare, assign, check, jump, landing, frame, propagate, error,
    kind_addNode hrun hfinal, ⟨kind_addNode hdeclare h₁, hassigned, onError_ok hcheck h₇⟩, hframed,
    kind_addNode hpropagate h₆, kind_addNode herror h₅, kind_addNode hjump h₈,
    kind_addNode hlanding h₉⟩

/-- Where the statements stand that a call is made by: its value is used in the place of the call,
and a call without a value is a statement of its own. -/
inductive Stands (t : HostTree) (s s' : State) (r : Operand) :
    List (String × TypeId) → List HostId → Prop
  | statement (hhoisted : s'.hoisted = s.hoisted) : Stands t s s' r [] [r.id]
  | before {name : String} {type : TypeId} {code : List HostId}
      (hhoisted : s'.hoisted = s.hoisted ++ code) (hr : t.kind r.id = .identifier name)
      (htype : r.type = type) : Stands t s s' r [(name, type)] code

/-- A call with some values is made and its error returned by statements with new names, which are
noted. -/
def Propagates (c : Context) (s s' final : State) (call : HostId) (values : List TypeId)
    (text : String) (span : Span) (r : Operand) : Prop :=
  ∃ results temporaries label zeros code,
    s.function = some (results ++ [TypeTable.error]) ∧
    temporaries.map Prod.snd = values ∧ temporaries.map Prod.fst ++ [label] = drawn s s' ∧
    Stands final.tree s s' r temporaries code ∧
    List.Forall₂ (fun id type => final.tree.kind id = s.types.zeroKind type) zeros results ∧
    final.tree.IsPropagating call label zeros text (displayPath c.sources c.settings span.file)
      (c.sources.lineColumn span.file span.start).1 s.frameName temporaries code ∧
    s'.propagations = s.propagations ++ [⟨call, drawn s s'⟩]

section

variable {name : String} {id : HostId}

theorem freshName_ok (hrun : freshName c s = (.ok name, s')) :
    name = Names.temporary (s.temporaries + 1) ∧ Writes s s' 1 [] := by
  obtain ⟨hname, rfl⟩ := Prod.mk.inj hrun
  exact ⟨(Except.ok.inj hname).symm, rfl, rfl, (List.append_nil _).symm, rfl, rfl⟩

theorem hoist_ok {u : Unit} (hrun : hoist id c s = (.ok u, s')) :
    s.Precedes s' ∧ Writes s s' 0 [id] := by
  obtain ⟨-, rfl⟩ := Prod.mk.inj hrun
  exact ⟨⟨.refl _, .refl _⟩, rfl, rfl, rfl, rfl, rfl⟩

theorem notePropagation_ok {names : List String} {u : Unit}
    (hrun : notePropagation call names c s = (.ok u, s')) :
    s.Precedes s' ∧ s'.types = s.types ∧ s'.hoisted = s.hoisted ∧
      s'.temporaries = s.temporaries ∧
      s'.propagations = s.propagations ++ [⟨call, names⟩] := by
  obtain ⟨-, rfl⟩ := Prod.mk.inj hrun
  exact ⟨⟨.refl _, .refl _⟩, rfl, rfl, rfl, rfl⟩

end

section

variable {results : List TypeId}
  (hfunction : s.function = some (results.dropLast ++ [TypeTable.error]))

include hfunction

/-- The block of a call without a value. -/
theorem wrapStatement_ok
    (hrun : (do
      let label ← freshName
      let block ← propagateBlock call [] label text results span
      notePropagation call [label]
      resultOperand block [] span : Lower Operand) c s = (.ok r, s'))
    (hfinal : s'.Precedes final) : Propagates c s s' final call [] text span r := by
  obtain ⟨label, s₁, hlabel, hrun⟩ := bind_ok.mp hrun
  obtain ⟨block, s₂, hblock, hrun⟩ := bind_ok.mp hrun
  obtain ⟨_, s₃, hnote, hrun⟩ := bind_ok.mp hrun
  obtain ⟨hname, h₁⟩ := freshName_ok hlabel
  obtain ⟨hprecedes, -, hkept, hsame, hnoted⟩ := notePropagation_ok hnote
  obtain ⟨h₂, zeros, hzeros, hpropagation⟩ :=
    propagateBlock_ok hblock (hprecedes.trans ((precedes_run hrun).trans hfinal))
  obtain ⟨hid, hhoisted, hcounter, hlog⟩ : r.id = block ∧ s'.hoisted = s₃.hoisted ∧
      s'.temporaries = s₃.temporaries ∧ s'.propagations = s₃.propagations := by
    obtain ⟨type, s₄, htuple, hrun⟩ := bind_ok.mp hrun
    obtain ⟨-, rfl⟩ := Prod.mk.inj htuple
    obtain ⟨rfl, rfl⟩ := pure_ok.mp hrun
    exact ⟨rfl, rfl, rfl, rfl⟩
  rw [h₁.types] at hzeros
  rw [h₁.frameName] at hpropagation
  have hdrawn : [label] = drawn s s' := by
    rw [drawn, hcounter, hsame, (h₁.trans h₂).temporaries, Nat.add_sub_cancel_left, hname]
    rfl
  refine ⟨results.dropLast, [], label, zeros, [r.id], hfunction, rfl, hdrawn, .statement ?_, hzeros,
    .nothing (hid ▸ hpropagation), ?_⟩
  · rw [hhoisted, hkept, (h₁.trans h₂).hoisted]
    exact List.append_nil _
  · rw [hlog, hnoted, (h₁.trans h₂).propagations, hdrawn]

/-- The temporary and the block of a call with a value. -/
theorem wrapValue_ok {value : TypeId}
    (hrun : (do
      let temporary ← freshName
      hoistTemporary value span temporary
      let label ← freshName
      hoist (← propagateBlock call [temporary] label text results span)
      notePropagation call [temporary, label]
      return .value (← place (.identifier temporary) span) value span : Lower Operand) c s =
        (.ok r, s'))
    (hfinal : s'.Precedes final) : Propagates c s s' final call [value] text span r := by
  obtain ⟨temporary, s₁, htemporary, hrun⟩ := bind_ok.mp hrun
  obtain ⟨_, s₃, hdeclare, hrun⟩ := bind_ok.mp hrun
  obtain ⟨declare, s₂, hplace, hhoist⟩ := bind_ok.mp hdeclare
  obtain ⟨label, s₄, hlabel, hrun⟩ := bind_ok.mp hrun
  obtain ⟨block, s₅, hblock, hrun⟩ := bind_ok.mp hrun
  obtain ⟨_, s₆, hhoistBlock, hrun⟩ := bind_ok.mp hrun
  obtain ⟨_, s₇, hnote, hrun⟩ := bind_ok.mp hrun
  obtain ⟨node, s₈, hnode, hrun⟩ := bind_ok.mp hrun
  obtain ⟨rfl, rfl⟩ := pure_ok.mp hrun
  obtain ⟨hname, h₁⟩ := freshName_ok htemporary
  obtain ⟨hprecedes, h₃⟩ := hoist_ok hhoist
  obtain ⟨hlabelName, h₄⟩ := freshName_ok hlabel
  obtain ⟨hprecedesBlock, h₆⟩ := hoist_ok hhoistBlock
  obtain ⟨hprecedesNote, -, hkept, hsame, hnoted⟩ := notePropagation_ok hnote
  have h₈ := writes_run hnode
  have hfinal₅ :=
    hprecedesBlock.trans (hprecedesNote.trans ((precedes_run hnode).trans hfinal))
  obtain ⟨h₅, zeros, hzeros, hpropagation⟩ := propagateBlock_ok hblock hfinal₅
  have hs₃ := (h₁.trans (writes_run hplace)).trans h₃
  have hs₄ := hs₃.trans h₄
  have hs₆ := (hs₄.trans h₅).trans h₆
  rw [hs₄.types] at hzeros
  rw [hs₄.frameName] at hpropagation
  have hcount : s₈.temporaries - s.temporaries = 2 := by
    have h₇ := hsame.trans hs₆.temporaries
    have h₈ := h₈.temporaries
    omega
  have hdrawn : [temporary] ++ [label] = drawn s s₈ := by
    rw [drawn, hcount, hname, hlabelName, hs₃.temporaries]
    rfl
  have hfinal₂ := hprecedes.trans
    ((precedes_run hlabel).trans ((precedes_run hblock).trans hfinal₅))
  refine ⟨results.dropLast, [(temporary, value)], label, zeros, [declare, block], hfunction, rfl,
    hdrawn, .before ?_ (kind_addNode hnode hfinal) rfl, hzeros,
    .value (kind_addNode hplace hfinal₂) hpropagation, ?_⟩
  · rw [h₈.hoisted, hkept, hs₆.hoisted, List.append_nil]
    rfl
  · rw [h₈.propagations, hnoted, hs₆.propagations, ← hdrawn]
    rfl

end

theorem wrapPropagate_ok (hrun : wrapPropagate call values text span c s = (.ok r, s'))
    (hfinal : s'.Precedes final) : Propagates c s s' final call values text span r := by
  obtain ⟨found, s₀, hfound, hrun⟩ := bind_ok.mp hrun
  rw [run_errorResults?] at hfound
  obtain ⟨hok, rfl⟩ := Prod.mk.inj hfound
  have hresults {results : List TypeId} (hsome : found = some results) :
      s.function = some (results.dropLast ++ [TypeTable.error]) := by
    obtain ⟨hfunction, hlast⟩ := Option.filter_eq_some_iff.mp ((Except.ok.inj hok).trans hsome)
    rw [List.dropLast_append_getLast? TypeTable.error (beq_iff_eq.mp hlast)]
    exact hfunction
  split at hrun
  · exact absurd hrun Fails.fails
  · rename_i results
    exact wrapStatement_ok (hresults rfl) hrun hfinal
  · rename_i results value
    exact wrapValue_ok (hresults rfl) hrun hfinal
  · exact absurd hrun Fails.fails

theorem exists_of_mem_drawn {name : String} (h : name ∈ drawn s s') :
    ∃ n, name = Names.temporary n := by
  obtain ⟨n, -, rfl⟩ := List.mem_map.mp h
  exact ⟨n, rfl⟩

end Lowering

end GoLowering
