import GoLowering.Proofs.FrameDeclarations
import GoLowering.Proofs.LiteralElements

/-!
# Arguments of calls

What the host asks of the arguments of a call is stated apart from how they are lowered: which
parameter an argument goes to (`Takes`), how many arguments there may be (`Signature.Admits`), and
the two ways to give them, one value for each or all of them by one call (`Accepted`).
`lowerArguments_accepted_iff` says when arguments that are lowered are accepted by the host: always,
but for a lone argument of a variadic function that gives no value.
-/

namespace GoLowering

/-- The last parameter of a variadic signature is a slice. -/
def Signature.HasTail (types : TypeTable) (sig : Signature) : Prop :=
  sig.variadic = true → ∃ last element,
    sig.params.getLast? = some last ∧ types.get last = .slice element

/-- Whether a call may have some number of arguments, the last of them spread or not. -/
structure Signature.Admits (sig : Signature) (spread : Bool) (count : Nat) : Prop where
  count : count = sig.params.length ∨
    sig.variadic = true ∧ spread = false ∧ sig.params.length ≤ count + 1
  spread : spread = true → sig.variadic = true

/-- The type that the argument at some position is given for. -/
inductive Signature.Takes (types : TypeTable) (sig : Signature) (spread : Bool) (index : Nat) :
    TypeId → Prop
  | fixed {type : TypeId} (htype : sig.params[index]? = some type)
      (hbefore : sig.variadic = true → index + 1 < sig.params.length) :
      Takes types sig spread index type
  /-- The elements of the last parameter are given one by one. -/
  | element {last element : TypeId} (hvariadic : sig.variadic = true) (heach : spread = false)
      (htail : sig.params.length ≤ index + 1) (hlast : sig.params.getLast? = some last)
      (hslice : types.get last = .slice element) : Takes types sig spread index element
  /-- The last parameter is given as a whole. -/
  | whole {last : TypeId} (hvariadic : sig.variadic = true) (hspread : spread = true)
      (htail : index + 1 = sig.params.length) (hlast : sig.params.getLast? = some last) :
      Takes types sig spread index last

namespace Signature

variable {types u : TypeTable} {sig : Signature} {spread : Bool} {index : Nat} {a b : TypeId}

theorem HasTail.grows (h : sig.HasTail types) (hgrows : types.Grows u) : sig.HasTail u := by
  intro hvariadic
  obtain ⟨last, element, hlast, hslice⟩ := h hvariadic
  exact ⟨last, element, hlast,
    (hgrows.get_eq (by rw [hslice]; nofun) (by rw [hslice]; rfl)).trans hslice⟩

theorem HasTail.length_pos (h : sig.HasTail types) (hvariadic : sig.variadic = true) :
    0 < sig.params.length := by
  obtain ⟨last, -, hlast, -⟩ := h hvariadic
  exact List.length_pos_of_mem (List.mem_of_getLast? hlast)

/-- A variadic signature that has a tail has a parameter. -/
theorem HasTail.variadic_and (h : sig.HasTail types) :
    (sig.variadic && sig.params.length != 0) = sig.variadic := by
  cases hvariadic : sig.variadic with
  | false => rfl
  | true =>
    rw [Bool.true_and, bne_iff_ne]
    exact Nat.ne_of_gt (h.length_pos hvariadic)

/-- An argument is given for one type. -/
theorem Takes.unique (ha : sig.Takes types spread index a) (hb : sig.Takes types spread index b) :
    a = b := by
  cases ha with
  | fixed htype hbefore =>
    cases hb with
    | fixed htype' _ => exact Option.some.inj (htype.symm.trans htype')
    | element hvariadic _ htail _ _ => exact absurd (hbefore hvariadic) (Nat.not_lt.mpr htail)
    | whole hvariadic _ htail _ =>
      exact absurd (hbefore hvariadic) (Nat.not_lt.mpr (Nat.le_of_eq htail.symm))
  | element hvariadic heach htail hlast hslice =>
    cases hb with
    | fixed _ hbefore => exact absurd (hbefore hvariadic) (Nat.not_lt.mpr htail)
    | element _ _ _ hlast' hslice' =>
      obtain rfl := Option.some.inj (hlast.symm.trans hlast')
      exact Ty.slice.inj (hslice.symm.trans hslice')
    | whole _ hspread _ _ => exact absurd (heach.symm.trans hspread) Bool.false_ne_true
  | whole hvariadic hspread htail hlast =>
    cases hb with
    | fixed _ hbefore =>
      exact absurd (hbefore hvariadic) (Nat.not_lt.mpr (Nat.le_of_eq htail.symm))
    | element _ heach _ _ _ => exact absurd (heach.symm.trans hspread) Bool.false_ne_true
    | whole _ _ _ hlast' => exact Option.some.inj (hlast.symm.trans hlast')

end Signature

namespace Lowering

open Surface

variable {walk : Walk} {c : Context} {s s₁ s₂ s' : State} {sig : Signature} {types : TypeTable}
  {spread : Bool} {index : Nat} {args : List Argument} {argument : Argument} {ids : List HostId}
  {operand : Operand} {span : Span}

/-- The type by the position is that of the parameter, if there is one for the argument. -/
theorem takes_parameterType (htail : sig.HasTail types)
    (hindex : index < sig.params.length ∨ sig.variadic = true ∧ spread = false) :
    sig.Takes types spread index (parameterType types sig index spread) := by
  unfold parameterType
  by_cases hlater : sig.variadic = true ∧ sig.params.length ≤ index + 1
  · obtain ⟨hvariadic, hle⟩ := hlater
    obtain ⟨last, element, hlast, hslice⟩ := htail hvariadic
    rw [if_pos (by simp [hvariadic, hle]), hlast]
    dsimp only [Option.getD_some]
    rw [hslice]
    cases spread with
    | false => exact .element hvariadic rfl hle hlast hslice
    | true =>
      have hlt : index < sig.params.length := by
        rcases hindex with hlt | ⟨-, ⟨⟩⟩
        exact hlt
      exact .whole hvariadic rfl (by omega) hlast
  · have hlt : index < sig.params.length := by
      rcases hindex with hlt | ⟨hvariadic, -⟩
      · exact hlt
      · by_contra hge
        exact hlater ⟨hvariadic, by omega⟩
    rw [if_neg (by simpa using hlater), List.getElem?_eq_getElem hlt, Option.getD_some]
    refine .fixed (List.getElem?_eq_getElem hlt) (fun hvariadic => ?_)
    by_contra hge
    exact hlater ⟨hvariadic, by omega⟩

/-! ## One value for each parameter -/

/-- Arguments from a position on are single values, and each of them is taken as a value of the
type that it is given for. -/
inductive PassesEach (walk : Walk) (c : Context) (sig : Signature) (spread : Bool) :
    Nat → List Argument → State → List HostId → State → Prop
  | nil {index : Nat} {s : State} : PassesEach walk c sig spread index [] s [] s
  | cons {index : Nat} {argument : Argument} {args : List Argument} {s s₁ s₂ s' : State}
      {target : TypeId} {operand : Operand} {id : HostId} {ids : List HostId}
      (htarget : sig.Takes s.types spread index target)
      (hargument : lowerArgument walk argument (.expecting target) c s = (.ok operand, s₁))
      (hsingle : operand.IsSingle s₁.types) (hcoerce : coerce operand target c s₁ = (.ok id, s₂))
      (hrest : PassesEach walk c sig spread (index + 1) args s₂ ids s') :
      PassesEach walk c sig spread index (argument :: args) s (id :: ids) s'

theorem PassesEach.length_eq (h : PassesEach walk c sig spread index args s ids s') :
    ids.length = args.length := by
  induction h with
  | nil => rfl
  | cons _ _ _ _ _ ih => exact congrArg (· + 1) ih

theorem isSingle_of_coerce {target : TypeId} {id : HostId}
    (h : coerce operand target c s = (.ok id, s')) : operand.IsSingle s.types := by
  obtain ⟨_, s₁, hcheck, -⟩ := bind_ok.mp h
  exact (checkValue_ok_iff.mp hcheck).1

theorem passesEach_lowerArgumentsFrom [walk.Keeps extension] (htail : sig.HasTail s.types)
    (hindex : index + args.length ≤ sig.params.length ∨ sig.variadic = true ∧ spread = false)
    (hrun : lowerArgumentsFrom walk sig spread index args c s = (.ok ids, s')) :
    PassesEach walk c sig spread index args s ids s' := by
  induction args generalizing index s ids with
  | nil =>
    obtain ⟨rfl, rfl⟩ := pure_ok.mp hrun
    exact .nil
  | cons argument args ih =>
    rw [List.length_cons] at hindex
    obtain ⟨_, _, ⟨⟩, hinto⟩ := bind_ok.mp hrun
    obtain ⟨id, s₂, hid, hlist⟩ := bind_ok.mp hinto
    obtain ⟨rest, s₃, hrest, hpure⟩ := bind_ok.mp hlist
    obtain ⟨rfl, rfl⟩ := pure_ok.mp hpure
    have hs := Steady.run (m := argumentInto walk argument (parameterType s.types sig index spread))
      inferInstance c s
    rw [hid] at hs
    obtain ⟨operand, s₁, hargument, hcoerce⟩ := bind_ok.mp hid
    exact .cons (takes_parameterType htail (hindex.imp_left (by omega))) hargument
      (isSingle_of_coerce hcoerce) hcoerce
      (ih (htail.grows hs.types) (hindex.imp_left (by omega)) hrest)

/-! ## All values by one call -/

/-- The results of a call go to the parameters. -/
theorem assignable_of_spreadMismatch? {results : List TypeId}
    (hrun : spreadMismatch? sig index results c s = (.ok none, s')) :
    s' = s ∧ ∀ i result, results[i]? = some result →
      s.assignable c result (parameterType s.types sig (index + i) false) := by
  induction results generalizing index with
  | nil =>
    obtain ⟨-, rfl⟩ := pure_ok.mp hrun
    exact ⟨rfl, fun i result hresult => by cases hresult⟩
  | cons first rest ih =>
    obtain ⟨_, _, ⟨⟩, hrun⟩ := bind_ok.mp hrun
    rw [run_assignable_bind] at hrun
    split at hrun
    · rename_i hfirst
      obtain ⟨hs, hrest⟩ := ih hrun
      refine ⟨hs, fun i result hresult => ?_⟩
      cases i with
      | zero =>
        obtain rfl := Option.some.inj hresult
        exact hfirst
      | succ i =>
        rw [show index + (i + 1) = index + 1 + i by omega]
        exact hrest i result hresult
    · obtain ⟨hpair, -⟩ := pure_ok.mp hrun
      cases hpair

/-- Arguments that the host accepts for a signature. -/
inductive Accepted (walk : Walk) (c : Context) (sig : Signature) (args : List Argument)
    (spread : Bool) (s : State) (ids : List HostId) (s' : State) : Prop
  /-- A call with two or more results, which go to the parameters. -/
  | results {argument : Argument} {operand : Operand} {first : TypeId} {results : List TypeId}
      (hargs : args = [argument]) (heach : spread = false)
      (hfirst : sig.Takes s.types false 0 first)
      (hargument : lowerArgument walk argument (.expecting first) c s = (.ok operand, s'))
      (hids : ids = [operand.id]) (htuple : s'.types.get operand.type = .tuple results)
      (hseveral : 2 ≤ results.length) (hadmits : sig.Admits false results.length)
      (hassignable : ∀ i result, results[i]? = some result → ∃ type,
        sig.Takes s'.types false i type ∧ s'.assignable c result type) :
      Accepted walk c sig args spread s ids s'
  /-- One value for each argument. -/
  | each (hadmits : sig.Admits spread args.length)
      (hpasses : PassesEach walk c sig spread 0 args s ids s') :
      Accepted walk c sig args spread s ids s'

/-- Whether the only argument of a variadic function stands for fewer than two results of a call:
for none, as calls with one result have no tuple for their type. -/
def LacksValue (walk : Walk) (c : Context) (sig : Signature) (args : List Argument)
    (spread : Bool) (s s' : State) : Prop :=
  sig.variadic = true ∧ spread = false ∧ ∃ argument first operand results, args = [argument] ∧
    sig.Takes s.types false 0 first ∧
    lowerArgument walk argument (.expecting first) c s = (.ok operand, s') ∧
    s'.types.get operand.type = .tuple results ∧ results.length < 2

theorem LacksValue.not_accepted (h : LacksValue walk c sig args spread s s') :
    ¬Accepted walk c sig args spread s ids s' := by
  obtain ⟨-, rfl, argument, first, operand, results, rfl, hfirst, hargument, htuple, hfew⟩ := h
  intro haccepted
  cases haccepted with
  | results hargs _ hfirst' hargument' _ htuple' hseveral _ _ =>
    obtain ⟨rfl⟩ := List.cons.inj hargs
    obtain rfl := hfirst.unique hfirst'
    obtain ⟨hoperand, -⟩ := Prod.mk.inj (hargument.symm.trans hargument')
    obtain rfl := Except.ok.inj hoperand
    obtain rfl := Ty.tuple.inj (htuple.symm.trans htuple')
    omega
  | each _ hpasses =>
    cases hpasses with
    | cons htarget hargument' hsingle _ _ =>
      obtain rfl := hfirst.unique htarget
      obtain ⟨hoperand, rfl⟩ := Prod.mk.inj (hargument.symm.trans hargument')
      obtain rfl := Except.ok.inj hoperand
      exact hsingle.type results htuple

theorem accepted_lowerArgumentList [walk.Keeps extension] (htail : sig.HasTail s.types)
    (hrun : lowerArgumentList walk sig args spread span c s = (.ok ids, s')) :
    Accepted walk c sig args spread s ids s' := by
  unfold lowerArgumentList at hrun
  rw [htail.variadic_and] at hrun
  by_cases heach : sig.variadic = true ∧ spread = false
  · obtain ⟨hvariadic, rfl⟩ := heach
    simp only [hvariadic, Bool.not_false, Bool.and_self, if_true, Bool.or_self, Bool.and_true,
      decide_eq_true_eq] at hrun
    split at hrun
    · rename_i hle
      exact .each ⟨.inr ⟨hvariadic, rfl, hle⟩, fun _ => hvariadic⟩
        (passesEach_lowerArgumentsFrom htail (.inr ⟨hvariadic, rfl⟩) hrun)
    · exact absurd hrun Fails.fails
  · have hwhole : (sig.variadic && !spread) = false := by simpa using heach
    simp only [hwhole, Bool.false_eq_true, if_false, beq_iff_eq, Bool.and_eq_true,
      decide_eq_true_eq] at hrun
    split at hrun
    · rename_i hfits
      obtain ⟨hcount, hspread⟩ := hfits
      refine .each ⟨.inl hcount, ?_⟩ (passesEach_lowerArgumentsFrom htail (.inl (by omega)) hrun)
      rintro rfl
      simpa using hspread
    · exact absurd hrun Fails.fails

theorem ite_not_ok {fits : Prop} [Decidable fits] {count got : Nat} {m : Lower (List HostId)} :
    (if !decide fits then failArgumentCount count got span else m) c s = (.ok ids, s') ↔
      fits ∧ m c s = (.ok ids, s') := by
  by_cases hfits : fits
  · simp [hfits]
  · simp only [hfits, decide_false, Bool.not_false, if_true, false_and, iff_false]
    exact Fails.fails

/-- A call that gives all arguments, or else the only argument. -/
theorem accepted_or_lacksValue [walk.Keeps extension] (htail : sig.HasTail s.types)
    (hseveral : 1 < sig.params.length ∨ sig.variadic = true)
    (hrun : lowerSpreadArgument walk sig argument span c s = (.ok ids, s')) :
    Accepted walk c sig [argument] false s ids s' ∨
      LacksValue walk c sig [argument] false s s' := by
  have hfirst : sig.Takes s.types false 0 (parameterType s.types sig 0 false) :=
    takes_parameterType htail (hseveral.imp (Nat.lt_of_succ_lt ·) (⟨·, rfl⟩))
  obtain ⟨_, _, ⟨⟩, hrun⟩ := bind_ok.mp hrun
  obtain ⟨operand, s₁, hargument, hrun⟩ := bind_ok.mp hrun
  have hs := Steady.run (m := lowerArgument walk argument
    (.expecting (parameterType s.types sig 0 false))) inferInstance c s
  rw [hargument] at hs
  obtain ⟨_, _, ⟨⟩, hrun⟩ := bind_ok.mp hrun
  have hsingle (h : (if sig.variadic && sig.params.length ≤ 2 then do
        return [← coerce operand (parameterType s.types sig 0 false)]
      else failArgumentCount sig.params.length 1 span : Lower (List HostId)) c s₁ =
        (.ok ids, s')) : Accepted walk c sig [argument] false s ids s' := by
    split at h
    · rename_i hfew
      obtain ⟨hvariadic, hle⟩ : sig.variadic = true ∧ sig.params.length ≤ 2 := by simpa using hfew
      obtain ⟨id, s₂, hcoerce, h⟩ := bind_ok.mp h
      obtain ⟨rfl, rfl⟩ := pure_ok.mp h
      exact .each ⟨.inr ⟨hvariadic, rfl, hle⟩, fun _ => hvariadic⟩
        (.cons hfirst hargument (isSingle_of_coerce hcoerce) hcoerce .nil)
    · exact absurd h Fails.fails
  cases htuple : s₁.types.get operand.type with
  | tuple results =>
    rw [htuple] at hrun
    obtain ⟨hfits, hrun⟩ := ite_not_ok.mp hrun
    have hadmits : sig.Admits false results.length := by
      refine ⟨?_, nofun⟩
      by_cases hvariadic : sig.variadic = true
      · rw [if_pos hvariadic] at hfits
        exact .inr ⟨hvariadic, rfl, hfits⟩
      · rw [if_neg hvariadic] at hfits
        exact .inl (beq_iff_eq.mp hfits)
    obtain ⟨mismatch, s₂, hmismatch, hrun⟩ := bind_ok.mp hrun
    cases mismatch with
    | some mismatch => exact absurd hrun Fails.fails
    | none =>
      obtain ⟨rfl, rfl⟩ := pure_ok.mp hrun
      obtain ⟨rfl, hassignable⟩ := assignable_of_spreadMismatch? hmismatch
      by_cases hfew : results.length < 2
      · have hvariadic : sig.variadic = true := by
          rcases hadmits.count with hcount | ⟨hvariadic, -⟩
          · exact hseveral.resolve_left (by omega)
          · exact hvariadic
        exact .inr ⟨hvariadic, rfl, argument, _, operand, results, rfl, hfirst, hargument, htuple,
          hfew⟩
      · refine .inl (.results rfl rfl hfirst hargument rfl htuple (Nat.not_lt.mp hfew) hadmits
          (fun i result hresult => ⟨_, takes_parameterType (htail.grows hs.types) ?_,
            Nat.zero_add i ▸ hassignable i result hresult⟩))
        have hlt := (List.getElem?_eq_some_iff.mp hresult).1
        rcases hadmits.count with hcount | ⟨hvariadic, -⟩
        · exact .inl (by omega)
        · exact .inr ⟨hvariadic, rfl⟩
  | _ =>
    rw [htuple] at hrun
    exact .inl (hsingle hrun)

/-- A call without results is passed on as all arguments of a variadic function. -/
theorem lowerSpreadArgument_noResults (hvariadic : sig.variadic = true)
    (hcount : sig.params.length ≤ 1)
    (hargument : lowerArgument walk argument (.expecting (parameterType s.types sig 0 false)) c s =
      (.ok operand, s'))
    (htuple : s'.types.get operand.type = .tuple []) :
    lowerSpreadArgument walk sig argument span c s = (.ok [operand.id], s') := by
  unfold lowerSpreadArgument
  refine bind_ok.mpr ⟨s.types, s, rfl, bind_ok.mpr ⟨operand, s', hargument,
    bind_ok.mpr ⟨s'.types, s', rfl, ?_⟩⟩⟩
  rw [htuple]
  exact ite_not_ok.mpr ⟨by rwa [if_pos hvariadic], rfl⟩

/-- If the arguments of a call are lowered, then the host accepts them, unless the only argument of
a variadic function gives no value. -/
theorem lowerArguments_accepted_iff {depth : Nat} (htail : sig.HasTail s.types)
    (hrun : lowerArguments (walkWithin depth) sig args spread span c s = (.ok ids, s')) :
    Accepted (walkWithin depth) c sig args spread s ids s' ↔
      ¬LacksValue (walkWithin depth) c sig args spread s s' := by
  refine ⟨fun haccepted hlacks => hlacks.not_accepted haccepted, fun hvalue => ?_⟩
  rcases args with _ | ⟨argument, _ | ⟨second, rest⟩⟩
  · exact accepted_lowerArgumentList htail hrun
  · cases hsingle : !spread &&
        (1 < sig.params.length || (sig.variadic && sig.params.length != 0)) with
    | false =>
      unfold lowerArguments at hrun
      rw [hsingle] at hrun
      exact accepted_lowerArgumentList htail hrun
    | true =>
      unfold lowerArguments at hrun
      rw [hsingle] at hrun
      rw [htail.variadic_and] at hsingle
      obtain ⟨rfl, hseveral⟩ : spread = false ∧ (1 < sig.params.length ∨ sig.variadic = true) := by
        simpa using hsingle
      exact (accepted_or_lacksValue htail hseveral hrun).resolve_right hvalue
  · exact accepted_lowerArgumentList htail hrun

/-- The nodes of `h()` and `g()`. -/
def argumentSample : Context :=
  .sample [.expr (.identifier "h"), .expr (.call ⟨0⟩ [] false), .expr (.identifier "g"),
    .expr (.call ⟨2⟩ [] false)] []

/-- A function with variables `h func() (int, error)` and `g func()`, and with `[]any` as the type
after theirs. -/
def argumentState : State :=
  .inside ⟨TypeTable.initial.entries ++
    #[.func ⟨[], [TypeTable.basic .int, TypeTable.error], false⟩, .func ⟨[], [], false⟩,
      .slice TypeTable.any]⟩ [] [("h", ⟨32⟩), ("g", ⟨33⟩)]

/-- The results of `h()` go to the parameters of `func(int, error)`. -/
theorem lowerArguments_accepted_iff_results : ∃ ids s',
    lowerArguments (walkWithin 2) ⟨[TypeTable.basic .int, TypeTable.error], [], false⟩ [.node ⟨1⟩]
        false .synthetic argumentSample argumentState = (.ok ids, s') ∧
      Accepted (walkWithin 2) argumentSample ⟨[TypeTable.basic .int, TypeTable.error], [], false⟩
        [.node ⟨1⟩] false argumentState ids s' := by
  obtain ⟨ids, s', hrun⟩ := exists_ok (m := lowerArguments (walkWithin 2)
    ⟨[TypeTable.basic .int, TypeTable.error], [], false⟩ [.node ⟨1⟩] false .synthetic)
    (c := argumentSample) (s := argumentState) (by decide +kernel)
  have hiff := lowerArguments_accepted_iff (fun h => absurd h Bool.false_ne_true) hrun
  exact ⟨ids, s', hrun, hiff.mpr (fun hlacks => Bool.false_ne_true hlacks.1)⟩

/-- `f(g())` is lowered for a variadic `f` and a `g` without results, which the host rejects. -/
theorem lowerArguments_noResults : ∃ ids s',
    lowerArguments (walkWithin 2) ⟨[⟨34⟩], [], true⟩ [.node ⟨3⟩] false .synthetic argumentSample
        argumentState = (.ok ids, s') ∧
      ¬Accepted (walkWithin 2) argumentSample ⟨[⟨34⟩], [], true⟩ [.node ⟨3⟩] false argumentState
        ids s' := by
  obtain ⟨operand, s', hargument⟩ := exists_ok (m := lowerArgument (walkWithin 2) (.node ⟨3⟩)
    (.expecting TypeTable.any)) (c := argumentSample) (s := argumentState) (by decide +kernel)
  have htuple : s'.types.get operand.type = .tuple [] := by
    have hget : (match lowerArgument (walkWithin 2) (.node ⟨3⟩) (.expecting TypeTable.any)
        argumentSample argumentState with
      | (.ok operand, s') => s'.types.get operand.type
      | (.error _, s') => .invalid) = .tuple [] := by
      decide +kernel
    rwa [hargument] at hget
  refine ⟨_, s', lowerSpreadArgument_noResults rfl (Nat.le_refl 1) hargument htuple, ?_⟩
  exact LacksValue.not_accepted ⟨rfl, rfl, _, TypeTable.any, operand, [], rfl,
    .element rfl rfl (Nat.le_refl 1) rfl rfl, hargument, htuple, Nat.zero_lt_two⟩

end Lowering

end GoLowering
