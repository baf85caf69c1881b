import Mathlib.Data.List.Nodup
import Mathlib.Logic.Relation
import GoLowering.Lowering.State

/-!
# Histories

What happens to the declarations of values of a unit while it is lowered. A declaration is started
when it is needed for the first time, it is then lowered in the package scope, and it has ended
before anything that was going on goes on (`Orderly`). So it goes through its progress once
(`Orderly.once`), and whatever a declaration needs has ended before it, unless it needs itself
(`Orderly.ended_before`).
-/

namespace GoLowering.Lowering

open Surface

/-! ## Reading a history -/

/-- How far declarations have come after some more events. -/
def replay (progress : Keyed NodeId Progress) : List Event → Keyed NodeId Progress
  | [] => progress
  | .moved root next :: rest => replay (progress.set root next) rest
  | _ :: rest => replay progress rest

/-- What a declaration of values has gone through. -/
def moves (root : NodeId) (events : List Event) : List Progress :=
  events.filterMap (fun
    | .moved other progress => if other = root then some progress else none
    | _ => none)

/-- The scope and the function around each time that a declaration of values is lowered. -/
def lowerings (root : NodeId) (events : List Event) : List (ScopeId × Option (List TypeId)) :=
  events.filterMap (fun
    | .lowered other scope function => if other = root then some (scope, function) else none
    | _ => none)

/-- The declarations of values that come to their end, one after the other. -/
def endings (events : List Event) : List NodeId :=
  events.filterMap (fun
    | .moved _ .started => none
    | .moved root _ => some root
    | _ => none)

/-- Each declaration of values with those that are needed from its start to its end, where some
have been started before. -/
def demands (started : List NodeId) : List Event → List (NodeId × NodeId)
  | [] => []
  | .moved root .started :: rest => demands (root :: started) rest
  | .moved root _ :: rest => demands (started.erase root) rest
  | .valueNeeded root _ _ _ :: rest => started.map (·, root) ++ demands started rest
  | _ :: rest => demands started rest

/-- The failure of something that needs itself. -/
def Event.cycle? : Event → Option Failure
  | .aliasNeeded name span true => some (.found (.initializationCycle name) span)
  | .valueNeeded _ name span (some .started) => some (.found (.initializationCycle name) span)
  | _ => none

variable {progress : Keyed NodeId Progress} {root : NodeId} {events more : List Event}

theorem replay_append (progress : Keyed NodeId Progress) (events more : List Event) :
    replay progress (events ++ more) = replay (replay progress events) more := by
  induction events generalizing progress with
  | nil => rfl
  | cons event rest ih => cases event <;> exact ih _

@[simp] theorem moves_append : moves root (events ++ more) = moves root events ++ moves root more :=
  List.filterMap_append

@[simp] theorem lowerings_append :
    lowerings root (events ++ more) = lowerings root events ++ lowerings root more :=
  List.filterMap_append

@[simp] theorem endings_append : endings (events ++ more) = endings events ++ endings more :=
  List.filterMap_append

@[simp] theorem moves_nil : moves root [] = [] := rfl

@[simp] theorem moves_moved (root other : NodeId) (next : Progress) (events : List Event) :
    moves root (.moved other next :: events) =
      (if other = root then [next] else []) ++ moves root events := by
  by_cases h : other = root <;> simp [moves, h]

@[simp] theorem moves_valueNeeded (root other : NodeId) (name : String) (span : Span)
    (found : Option Progress) (events : List Event) :
    moves root (.valueNeeded other name span found :: events) = moves root events := rfl

@[simp] theorem moves_lowered (root other : NodeId) (scope : ScopeId)
    (function : Option (List TypeId)) (events : List Event) :
    moves root (.lowered other scope function :: events) = moves root events := rfl

@[simp] theorem lowerings_nil : lowerings root [] = [] := rfl

@[simp] theorem lowerings_moved (root other : NodeId) (next : Progress) (events : List Event) :
    lowerings root (.moved other next :: events) = lowerings root events := rfl

@[simp] theorem lowerings_valueNeeded (root other : NodeId) (name : String) (span : Span)
    (found : Option Progress) (events : List Event) :
    lowerings root (.valueNeeded other name span found :: events) = lowerings root events := rfl

@[simp] theorem lowerings_lowered (root other : NodeId) (scope : ScopeId)
    (function : Option (List TypeId)) (events : List Event) :
    lowerings root (.lowered other scope function :: events) =
      (if other = root then [(scope, function)] else []) ++ lowerings root events := by
  by_cases h : other = root <;> simp [lowerings, h]

/-- The last move of a declaration tells how far it has come. -/
theorem lookup_replay (progress : Keyed NodeId Progress) (root : NodeId) (events : List Event) :
    (replay progress events).lookup root =
      ((moves root events).getLast?).or (progress.lookup root) := by
  induction events generalizing progress with
  | nil => rfl
  | cons event rest ih =>
    cases event with
    | moved other next =>
      rw [replay, ih, moves_moved]
      by_cases h : other = root
      · subst h
        rw [Keyed.lookup_set_self, if_pos rfl, List.singleton_append, List.getLast?_cons]
        cases (moves other rest).getLast? <;> rfl
      · rw [Keyed.lookup_set_of_ne (Ne.symm h), if_neg h, List.nil_append]
    | _ => exact ih progress

/-- A declaration of values that has come to its end. -/
def Ended (progress : Keyed NodeId Progress) (root : NodeId) : Prop :=
  ∃ result, progress.lookup root = some result ∧ result ≠ .started

theorem mem_endings_iff :
    root ∈ endings events ↔ ∃ result, result ≠ .started ∧ result ∈ moves root events := by
  simp only [endings, moves, List.mem_filterMap]
  constructor
  · rintro ⟨event, hevent, heq⟩
    cases event with
    | moved other result =>
      cases result with
      | started => cases heq
      | done | failed =>
        rw [← Option.some.inj heq]
        exact ⟨_, by simp, _, hevent, if_pos rfl⟩
    | _ => cases heq
  · rintro ⟨result, hresult, event, hevent, heq⟩
    cases event with
    | moved other next =>
      obtain ⟨rfl, rfl⟩ : other = root ∧ next = result := by simpa using heq
      refine ⟨_, hevent, ?_⟩
      cases next with
      | started => exact absurd rfl hresult
      | done | failed => rfl
    | _ => cases heq

/-- What has come to its end after some events had come to it before, or does so in them. -/
theorem Ended.of_replay (h : Ended (replay progress events) root) :
    Ended progress root ∨ root ∈ endings events := by
  obtain ⟨result, hlookup, hresult⟩ := h
  rw [lookup_replay, Option.or_eq_some_iff] at hlookup
  rcases hlookup with hlast | ⟨-, hlookup⟩
  · exact .inr (mem_endings_iff.mpr ⟨result, hresult, List.mem_of_getLast? hlast⟩)
  · exact .inl ⟨result, hlookup, hresult⟩

/-- What has only been started has not come to its end. -/
theorem Ended.of_starting {other : NodeId} (h : Ended (progress.set other .started) root) :
    Ended progress root := by
  obtain ⟨result, hlookup, hresult⟩ := h
  by_cases he : root = other
  · rw [he, Keyed.lookup_set_self] at hlookup
    exact absurd (Option.some.inj hlookup).symm hresult
  · rw [Keyed.lookup_set_of_ne he] at hlookup
    exact ⟨result, hlookup, hresult⟩

theorem demands_ended {result : Progress} (ended : result ≠ .started) (started : List NodeId) :
    demands (root :: started) (.moved root result :: events) = demands started events := by
  cases result with
  | started => exact absurd rfl ended
  | done | failed => simp [demands]

theorem demands_first (name : String) (span : Span) (started : List NodeId) :
    demands started (.valueNeeded root name span none :: .moved root .started ::
      .lowered root Scopes.package none :: events) =
      started.map (·, root) ++ demands (root :: started) events :=
  rfl

theorem endings_first {name : String} {span : Span} {result : Progress} (ended : result ≠ .started) :
    endings (.valueNeeded root name span none :: .moved root .started ::
      .lowered root Scopes.package none :: (events ++ [.moved root result])) =
      endings events ++ [root] := by
  cases result with
  | started => exact absurd rfl ended
  | done | failed => exact List.filterMap_append

/-! ## Orderly histories -/

/-- What happens in one part of a lowering that starts with some progress. A declaration of values
that is needed for the first time has ended when something else happens. -/
inductive Orderly : Keyed NodeId Progress → List Event → Prop
  | nil (progress : Keyed NodeId Progress) : Orderly progress []
  | ofAlias (progress : Keyed NodeId Progress) (name : String) (span : Span) (isOpen : Bool) :
      Orderly progress [.aliasNeeded name span isOpen]
  | exhausted (progress : Keyed NodeId Progress) : Orderly progress [.exhausted]
  | again {progress : Keyed NodeId Progress} {root : NodeId} {found : Progress} (name : String)
      (span : Span) (known : progress.lookup root = some found) :
      Orderly progress [.valueNeeded root name span (some found)]
  | first {progress : Keyed NodeId Progress} {root : NodeId} {events : List Event}
      {result : Progress} (name : String) (span : Span) (fresh : progress.lookup root = none)
      (inside : Orderly (progress.set root .started) events) (ended : result ≠ .started) :
      Orderly progress (.valueNeeded root name span none :: .moved root .started ::
        .lowered root Scopes.package none :: (events ++ [.moved root result]))
  | append {progress : Keyed NodeId Progress} {events more : List Event}
      (before : Orderly progress events) (after : Orderly (replay progress events) more) :
      Orderly progress (events ++ more)

namespace Orderly

/-- A declaration goes through its progress once: from its start, after which it is lowered, to
its end. -/
theorem once (h : Orderly progress events) (root : NodeId) :
    moves root events = [] ∧ lowerings root events = [] ∨
      progress.lookup root = none ∧
        (∃ result, result ≠ .started ∧ moves root events = [.started, result]) ∧
        lowerings root events = [(Scopes.package, none)] := by
  induction h with
  | nil | ofAlias | exhausted | again => exact .inl ⟨rfl, rfl⟩
  | @first progress other events result name span fresh inside ended ih =>
    by_cases he : other = root
    · subst he
      rcases ih with ⟨hmoves, hlowerings⟩ | ⟨hnone, -⟩
      · exact .inr ⟨fresh, ⟨result, ended, by simp [hmoves]⟩, by simp [hlowerings]⟩
      · rw [Keyed.lookup_set_self] at hnone
        cases hnone
    · rw [Keyed.lookup_set_of_ne (Ne.symm he)] at ih
      simpa [he] using ih
  | @append progress events more before after ihb iha =>
    rw [lookup_replay] at iha
    rcases ihb with ⟨hmoves, hlowerings⟩ | ⟨hnone, ⟨result, hresult, hmoves⟩, hlowerings⟩
    · rw [hmoves] at iha
      simpa [hmoves, hlowerings] using iha
    · have hmore : moves root more = [] ∧ lowerings root more = [] := by
        simpa [hmoves] using iha
      exact .inr ⟨hnone, ⟨result, hresult, by simp [hmoves, hmore.1]⟩, by simp [hlowerings, hmore.2]⟩

/-- What has been started when a part begins has only been started when it ends. -/
theorem lookup_started (h : Orderly progress events)
    (hstarted : progress.lookup root = some .started) :
    (replay progress events).lookup root = some .started := by
  rw [lookup_replay, hstarted]
  rcases h.once root with ⟨hmoves, -⟩ | ⟨hnone, -⟩
  · rw [hmoves]
    rfl
  · rw [hstarted] at hnone
    cases hnone

/-- What comes to its end in a part has not been started before it. -/
theorem fresh_of_mem_endings (h : Orderly progress events) (hroot : root ∈ endings events) :
    progress.lookup root = none := by
  rcases h.once root with ⟨hmoves, -⟩ | ⟨hnone, -⟩
  · obtain ⟨result, -, hmem⟩ := mem_endings_iff.mp hroot
    rw [hmoves] at hmem
    cases hmem
  · exact hnone

/-- No declaration comes to its end twice. -/
theorem nodup_endings (h : Orderly progress events) : (endings events).Nodup := by
  induction h with
  | nil | ofAlias | exhausted | again => exact List.nodup_nil
  | @first progress root events result name span fresh inside ended ih =>
    rw [endings_first ended]
    refine List.nodup_append.mpr ⟨ih, List.nodup_singleton root, fun other hother _ hroot => ?_⟩
    rintro rfl
    have hnone := inside.fresh_of_mem_endings hother
    rw [List.mem_singleton.mp hroot, Keyed.lookup_set_self] at hnone
    cases hnone
  | @append progress events more before after ihb iha =>
    rw [endings_append]
    refine List.nodup_append.mpr ⟨ihb, iha, fun root hroot other hother => ?_⟩
    rintro rfl
    have hnone := after.fresh_of_mem_endings hother
    obtain ⟨result, -, hmem⟩ := mem_endings_iff.mp hroot
    rw [lookup_replay, Option.or_eq_none_iff, List.getLast?_eq_none_iff] at hnone
    rw [hnone.1] at hmem
    cases hmem

/-- Everything that is started in a part has ended when the part ends. -/
theorem demands_append (h : Orderly progress events) (started : List NodeId) :
    demands started (events ++ more) = demands started events ++ demands started more := by
  induction h generalizing started more with
  | nil | ofAlias | exhausted => rfl
  | again => simp [demands]
  | @first progress root events result name span fresh inside ended ih =>
    simp only [List.cons_append, List.append_assoc, List.nil_append]
    rw [demands_first, demands_first, ih, ih, demands_ended ended, demands_ended ended, demands,
      List.append_nil, List.append_assoc]
  | append before after ihb iha => rw [List.append_assoc, ihb, ihb, iha, List.append_assoc]

/-- Whatever is needed from the start of a declaration to its end has ended before it, unless
something needs itself. -/
theorem ended_before (h : Orderly progress events) (acyclic : ∀ event ∈ events, event.cycle? = none)
    {started : List NodeId} (hstarted : ∀ r ∈ started, progress.lookup r = some .started)
    {needed : NodeId} (hneeded : (root, needed) ∈ demands started events) :
    root ∈ started ∧ (Ended progress needed ∨ needed ∈ endings events) ∨
      ∃ before after, endings events = before ++ root :: after ∧
        (Ended progress needed ∨ needed ∈ before) := by
  induction h generalizing started with
  | nil | ofAlias | exhausted => cases hneeded
  | @again progress other found name span known =>
    simp only [demands, List.append_nil, List.mem_map, Prod.mk.injEq] at hneeded
    obtain ⟨_, hmem, rfl, rfl⟩ := hneeded
    refine .inl ⟨hmem, .inl ⟨found, known, ?_⟩⟩
    rintro rfl
    simpa [Event.cycle?] using acyclic _ List.mem_cons_self
  | @first progress other events result name span fresh inside ended ih =>
    rw [demands_first, inside.demands_append, demands_ended ended, demands, List.append_nil]
      at hneeded
    rw [endings_first ended]
    simp only [List.mem_append, List.mem_map, Prod.mk.injEq] at hneeded
    rcases hneeded with ⟨_, hmem, rfl, rfl⟩ | hneeded
    · exact .inl ⟨hmem, .inr (by simp)⟩
    · -- What is started around the declaration is not the declaration itself.
      have hset : ∀ r ∈ other :: started, (progress.set other .started).lookup r = some .started := by
        intro r hr
        by_cases he : r = other
        · rw [he, Keyed.lookup_set_self]
        · rw [Keyed.lookup_set_of_ne he]
          exact hstarted r ((List.mem_cons.mp hr).resolve_left he)
      have hinner : ∀ event ∈ events, event.cycle? = none := fun event hevent =>
        acyclic event (by simp [hevent])
      rcases ih hinner hset hneeded with ⟨hmem, hend⟩ | ⟨before, after, hsplit, hend⟩
      · rcases List.mem_cons.mp hmem with rfl | hmem
        · exact .inr ⟨endings events, [], rfl, hend.imp_left Ended.of_starting⟩
        · exact .inl ⟨hmem, hend.imp Ended.of_starting (List.mem_append_left _)⟩
      · exact .inr ⟨before, after ++ [other], by simp [hsplit], hend.imp_left Ended.of_starting⟩
  | @append progress events more before after ihb iha =>
    rw [before.demands_append] at hneeded
    rw [endings_append]
    rcases List.mem_append.mp hneeded with hneeded | hneeded
    · have hacyclic : ∀ event ∈ events, event.cycle? = none := fun event hevent =>
        acyclic event (List.mem_append_left _ hevent)
      rcases ihb hacyclic hstarted hneeded with ⟨hmem, hend⟩ | ⟨x, y, hsplit, hend⟩
      · exact .inl ⟨hmem, hend.imp_right (List.mem_append_left _)⟩
      · exact .inr ⟨x, y ++ endings more, by simp [hsplit], hend⟩
    · have hacyclic : ∀ event ∈ more, event.cycle? = none := fun event hevent =>
        acyclic event (List.mem_append_right _ hevent)
      rcases iha hacyclic (fun r hr => before.lookup_started (hstarted r hr)) hneeded with
        ⟨hmem, hend⟩ | ⟨x, y, hsplit, hend⟩
      · refine .inl ⟨hmem, ?_⟩
        rcases hend with hend | hend
        · exact hend.of_replay.imp_right (List.mem_append_left _)
        · exact .inr (List.mem_append_right _ hend)
      · refine .inr ⟨endings events ++ x, y, by simp [hsplit], ?_⟩
        rcases hend with hend | hend
        · exact hend.of_replay.imp_right (List.mem_append_left _)
        · exact .inr (List.mem_append_right _ hend)

/-- Nothing needs itself, however indirectly, where no need of something that needs itself has
been met. -/
theorem acyclic (h : Orderly [] events) (none_cyclic : ∀ event ∈ events, event.cycle? = none)
    (root : NodeId) :
    ¬Relation.TransGen (fun a b => (a, b) ∈ demands [] events) root root := by
  have step {a b : NodeId} (hab : (a, b) ∈ demands [] events) :
      (endings events).idxOf b < (endings events).idxOf a := by
    rcases h.ended_before none_cyclic (by simp) hab with ⟨hmem, -⟩ | ⟨before, after, hsplit, hend⟩
    · cases hmem
    · have hb : b ∈ before := hend.resolve_left (fun ⟨_, hlookup, _⟩ => by cases hlookup)
      have ha : a ∉ before := by
        have hnodup := h.nodup_endings
        rw [hsplit] at hnodup
        exact fun hmem => (List.nodup_append.mp hnodup).2.2 a hmem a List.mem_cons_self rfl
      rw [hsplit, List.idxOf_append_of_mem hb, List.idxOf_append_of_notMem ha]
      exact Nat.lt_add_right _ (List.idxOf_lt_length_of_mem hb)
  have run {a b : NodeId} (hab : Relation.TransGen (fun a b => (a, b) ∈ demands [] events) a b) :
      (endings events).idxOf b < (endings events).idxOf a := by
    induction hab with
    | single hab => exact step hab
    | tail _ hbc ih => exact Nat.lt_trans (step hbc) ih
  exact fun hcycle => Nat.lt_irrefl _ (run hcycle)

end Orderly

end GoLowering.Lowering
