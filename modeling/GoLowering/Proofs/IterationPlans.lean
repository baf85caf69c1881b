import GoLowering.Lowering.Iteration
import GoLowering.Proofs.Runs

/-!
# How a type is iterated

`Plans` says what the plan of an iteration is to be, method by method: the host's own `range` if it
has a rule for the type, the first of the three methods that pulls, the first one that pushes, or
nothing at all. The search of the lowering looks at the three methods once and remembers what it has
seen; `planRange_outcome_iff` says that it comes to the same.
-/

namespace GoLowering.Lowering

variable {types : TypeTable} {method? : TypeId → String → Option Method} {type : TypeId}
  {name : String} {plan : RangePlan} {answer : Option RangePlan}

/-- The cursor has a method `Next()` that gives `(V, bool)` or `(K, V, bool)`. -/
def CursorGives (types : TypeTable) (method? : TypeId → String → Option Method) (cursor : TypeId)
    (key : Option TypeId) (value : TypeId) : Prop :=
  ∃ next sig, method? cursor "Next" = some next ∧ types.signature? next.sig = some sig ∧
    sig.params = [] ∧ sig.results = key.toList ++ [value, TypeTable.bool]

/-- The method takes nothing and gives a cursor. -/
def PullsBy (types : TypeTable) (method? : TypeId → String → Option Method) (method : Method)
    (plan : RangePlan) : Prop :=
  ∃ sig cursor key value, types.signature? method.sig = some sig ∧ sig.params = [] ∧
    sig.results = [cursor] ∧ CursorGives types method? cursor key value ∧
    plan = .pull method.name key value

/-- The method takes a callback `func(V)` or `func(K, V)` and gives nothing. -/
def PushesBy (types : TypeTable) (method : Method) (plan : RangePlan) : Prop :=
  ∃ sig callback taken key value, types.signature? method.sig = some sig ∧
    sig.params = [callback] ∧ sig.results = [] ∧ types.signature? callback = some taken ∧
    taken.params = Option.toList key ++ [value] ∧ taken.results = [] ∧
    plan = .push method.name key value

/-- The plan comes from the first of the methods of these names that has one. Those before it may
be there or not, but none of them has a plan. -/
def FirstOf (method? : String → Option Method) (P : Method → RangePlan → Prop)
    (names : List String) (plan : RangePlan) : Prop :=
  ∃ before name after method, names = before ++ name :: after ∧ method? name = some method ∧
    P method plan ∧ ∀ earlier ∈ before, ∀ other, method? earlier = some other → ∀ p, ¬ P other p

/-- None of the methods of these names has a plan. -/
def NoneOf (method? : String → Option Method) (P : Method → RangePlan → Prop)
    (names : List String) : Prop :=
  ∀ name ∈ names, ∀ method, method? name = some method → ∀ plan, ¬ P method plan

/-- The plan that the values of a type are to be iterated by, if they can be iterated at all. -/
inductive Plans (types : TypeTable) (method? : TypeId → String → Option Method) (type : TypeId) :
    Option RangePlan → Prop where
  | native {key : TypeId} {value : Option TypeId} :
    types.rangeTypes? type = some (key, value) → Plans types method? type (some (.native key value))
  | pull {plan : RangePlan} : types.rangeTypes? type = none →
    FirstOf (method? type) (PullsBy types method?) ["Gop_Enum", "Gop_Enum__0", "Gop_Enum__1"] plan →
    Plans types method? type (some plan)
  | push {plan : RangePlan} : types.rangeTypes? type = none →
    NoneOf (method? type) (PullsBy types method?) ["Gop_Enum", "Gop_Enum__0", "Gop_Enum__1"] →
    FirstOf (method? type) (PushesBy types) ["Gop_Enum", "Gop_Enum__0", "Gop_Enum__1"] plan →
    Plans types method? type (some plan)
  | nothing : types.rangeTypes? type = none →
    NoneOf (method? type) (PullsBy types method?) ["Gop_Enum", "Gop_Enum__0", "Gop_Enum__1"] →
    NoneOf (method? type) (PushesBy types) ["Gop_Enum", "Gop_Enum__0", "Gop_Enum__1"] →
    Plans types method? type none

/-! ## The plan of one method -/

theorem pulledTypes?_eq_some_iff {cursor : TypeId} {key : Option TypeId} {value : TypeId} :
    pulledTypes? types method? cursor = some (key, value) ↔
      CursorGives types method? cursor key value := by
  unfold pulledTypes? CursorGives
  simp only [Option.bind_eq_bind, Option.bind_eq_some_iff]
  constructor
  · rintro ⟨next, hnext, ⟨params, results, variadic⟩, hsig, h⟩
    refine ⟨next, _, hnext, hsig, ?_⟩
    split at h
    · rename_i hshape
      cases hshape
      obtain ⟨hok, h⟩ := Option.ite_none_right_eq_some.mp h
      cases h
      exact ⟨rfl, by simpa using hok⟩
    · rename_i hshape
      cases hshape
      obtain ⟨hok, h⟩ := Option.ite_none_right_eq_some.mp h
      cases h
      exact ⟨rfl, by simpa using hok⟩
    · cases h
  · rintro ⟨next, ⟨params, results, variadic⟩, hnext, hsig, hparams, hresults⟩
    cases hparams
    cases hresults
    refine ⟨next, hnext, _, hsig, ?_⟩
    cases key <;> rfl

theorem iterationBy?_eq_some_iff {method : Method} :
    iterationBy? types method? method = some plan ↔
      PullsBy types method? method plan ∨ PushesBy types method plan := by
  unfold iterationBy?
  simp only [Option.bind_eq_bind, Option.bind_eq_some_iff]
  constructor
  · rintro ⟨⟨params, results, variadic⟩, hsig, h⟩
    split at h
    · rename_i hshape
      cases hshape
      obtain ⟨⟨key, value⟩, hcursor, h⟩ := Option.bind_eq_some_iff.mp h
      cases h
      exact .inl ⟨_, _, key, value, hsig, rfl, rfl, pulledTypes?_eq_some_iff.mp hcursor, rfl⟩
    · rename_i hshape
      cases hshape
      obtain ⟨⟨taken, gives, spread⟩, htaken, h⟩ := Option.bind_eq_some_iff.mp h
      split at h
      · rename_i hshape
        cases hshape
        cases h
        exact .inr ⟨_, _, _, none, _, hsig, rfl, rfl, htaken, rfl, rfl, rfl⟩
      · rename_i hshape
        cases hshape
        cases h
        exact .inr ⟨_, _, _, some _, _, hsig, rfl, rfl, htaken, rfl, rfl, rfl⟩
      · cases h
    · cases h
  · rintro (⟨⟨params, results, variadic⟩, cursor, key, value, hsig, hparams, hresults, hcursor,
      rfl⟩ | ⟨⟨params, results, variadic⟩, callback, ⟨taken, gives, spread⟩, key, value, hsig,
      hparams, hresults, htaken, htakes, hgives, rfl⟩)
    · cases hparams
      cases hresults
      refine ⟨_, hsig, ?_⟩
      dsimp only
      rw [pulledTypes?_eq_some_iff.mpr hcursor]
      rfl
    · cases hparams
      cases hresults
      cases htakes
      cases hgives
      refine ⟨_, hsig, ?_⟩
      dsimp only
      rw [htaken]
      cases key <;> rfl

theorem pulls_iff {method : Method} :
    (iterationBy? types method? method).filter (!·.isPush) = some plan ↔
      PullsBy types method? method plan := by
  rw [Option.filter_eq_some_iff, iterationBy?_eq_some_iff]
  constructor
  · rintro ⟨hpull | ⟨_, _, _, _, _, -, -, -, -, -, -, rfl⟩, hkind⟩
    · exact hpull
    · cases hkind
  · intro hpull
    obtain ⟨_, _, _, _, -, -, -, -, hplan⟩ := id hpull
    exact ⟨.inl hpull, by rw [hplan]; rfl⟩

/-! ## The search -/

section

variable {find? : Method → Option RangePlan} {P : Method → RangePlan → Prop}
  {named? : String → Option Method} {names : List String}

theorem eq_none_iff (h : ∀ method plan, find? method = some plan ↔ P method plan)
    (method : Method) : find? method = none ↔ ∀ plan, ¬ P method plan := by
  simp only [Option.eq_none_iff_forall_ne_some, ne_eq, h]

theorem firstOf_iff (h : ∀ method plan, find? method = some plan ↔ P method plan) :
    (names.findSome? fun name => (named? name).bind find?) = some plan ↔
      FirstOf named? P names plan := by
  simp only [List.findSome?_eq_some_iff, Option.bind_eq_some_iff, Option.bind_eq_none_iff, h,
    eq_none_iff h]
  constructor
  · rintro ⟨before, name, after, hnames, ⟨method, hmethod, hplan⟩, hearlier⟩
    exact ⟨before, name, after, method, hnames, hmethod, hplan, hearlier⟩
  · rintro ⟨before, name, after, method, hnames, hmethod, hplan, hearlier⟩
    exact ⟨before, name, after, hnames, ⟨method, hmethod, hplan⟩, hearlier⟩

theorem noneOf_iff (h : ∀ method plan, find? method = some plan ↔ P method plan) :
    (names.findSome? fun name => (named? name).bind find?) = none ↔ NoneOf named? P names := by
  simp only [List.findSome?_eq_none_iff, Option.bind_eq_none_iff, eq_none_iff h, NoneOf]

/-- Where nothing pulls, the first method with a plan is the first one that pushes. -/
theorem firstOf_or_iff {Q : Method → RangePlan → Prop} (hnone : NoneOf named? Q names) :
    FirstOf named? (fun method plan => Q method plan ∨ P method plan) names plan ↔
      FirstOf named? P names plan := by
  constructor
  · rintro ⟨before, name, after, method, rfl, hmethod, hplan, hearlier⟩
    exact ⟨before, name, after, method, rfl, hmethod,
      hplan.resolve_left (hnone name (by simp) method hmethod plan),
      fun earlier h other hother p hp => hearlier earlier h other hother p (.inr hp)⟩
  · rintro ⟨before, name, after, method, rfl, hmethod, hplan, hearlier⟩
    refine ⟨before, name, after, method, rfl, hmethod, .inr hplan, ?_⟩
    rintro earlier h other hother p (hq | hp)
    · exact hnone earlier (by simp [h]) other hother p hq
    · exact hearlier earlier h other hother p hp

end

theorem iterationMethods_eq :
    iterationMethods = ["Gop_Enum", "Gop_Enum__0", "Gop_Enum__1"] := by
  decide

/-- The search as two searches of the same methods, for one that pulls and for any. -/
theorem rangePlan?_eq (hnative : types.rangeTypes? type = none) :
    rangePlan? types method? type =
      (["Gop_Enum", "Gop_Enum__0", "Gop_Enum__1"].findSome? fun name =>
        (method? type name).bind fun method =>
          (iterationBy? types method? method).filter (!·.isPush)).or
      (["Gop_Enum", "Gop_Enum__0", "Gop_Enum__1"].findSome? fun name =>
        (method? type name).bind (iterationBy? types method?)) := by
  rw [← iterationMethods_eq]
  have hfilter : ∀ name, ((method? type name).bind (iterationBy? types method?)).filter
      (!·.isPush) = (method? type name).bind fun method =>
        (iterationBy? types method? method).filter (!·.isPush) := by
    intro name
    cases method? type name <;> rfl
  simp only [rangePlan?, hnative, ← List.head?_filter, List.filter_filterMap, List.head?_filterMap,
    List.filterMap_filterMap, hfilter]

theorem rangePlan?_eq_iff :
    rangePlan? types method? type = answer ↔ Plans types method? type answer := by
  have hpulls : ∀ method plan, _ ↔ PullsBy types method? method plan := fun _ _ => pulls_iff
  have hany : ∀ method plan, _ ↔ PullsBy types method? method plan ∨ PushesBy types method plan :=
    fun _ _ => iterationBy?_eq_some_iff
  constructor
  · rintro rfl
    cases hnative : types.rangeTypes? type with
    | some elements =>
      rw [rangePlan?, hnative]
      exact .native hnative
    | none =>
      rw [rangePlan?_eq hnative]
      cases hpull : ["Gop_Enum", "Gop_Enum__0", "Gop_Enum__1"].findSome? fun name =>
          (method? type name).bind fun method =>
            (iterationBy? types method? method).filter (!·.isPush) with
      | some plan => exact .pull hnative ((firstOf_iff hpulls).mp hpull)
      | none =>
        have hnone := (noneOf_iff hpulls).mp hpull
        rw [Option.none_or]
        cases hpush : ["Gop_Enum", "Gop_Enum__0", "Gop_Enum__1"].findSome? fun name =>
            (method? type name).bind (iterationBy? types method?) with
        | some plan =>
          exact .push hnative hnone ((firstOf_or_iff hnone).mp ((firstOf_iff hany).mp hpush))
        | none =>
          exact .nothing hnative hnone fun name hname method hmethod plan hplan =>
            (noneOf_iff hany).mp hpush name hname method hmethod plan (.inr hplan)
  · intro h
    cases h with
    | native hnative => rw [rangePlan?, hnative]
    | pull hnative hfirst =>
      rw [rangePlan?_eq hnative, (firstOf_iff hpulls).mpr hfirst, Option.some_or]
    | push hnative hnone hfirst =>
      rw [rangePlan?_eq hnative, (noneOf_iff hpulls).mpr hnone, Option.none_or]
      exact (firstOf_iff hany).mpr ((firstOf_or_iff hnone).mpr hfirst)
    | nothing hnative hpull hpush =>
      rw [rangePlan?_eq hnative, (noneOf_iff hpulls).mpr hpull, Option.none_or]
      refine (noneOf_iff hany).mpr fun name hname method hmethod plan => ?_
      exact not_or.mpr ⟨hpull name hname method hmethod plan, hpush name hname method hmethod plan⟩

/-- A lowering asks for the plan of a type in whatever state it is, and leaves the state as it is:
the methods are those of the unit and of the environment together. -/
theorem planRange_outcome_iff {span : Span} {c : Context} {s s' : State}
    {outcome : Except Failure RangePlan} :
    planRange type span c s = (outcome, s') ↔
      s' = s ∧ ∃ answer, Plans s.types (s.method? c.env) type answer ∧
        outcome = answer.elim
          (.error (.found (.notEnumerable (s.types.format type)) span)) .ok := by
  have hrun : planRange type span c s = ((rangePlan? s.types (s.method? c.env) type).elim
      (.error (.found (.notEnumerable (s.types.format type)) span)) .ok, s) := by
    unfold planRange
    rw [run_read, run_get]
    cases rangePlan? s.types (s.method? c.env) type <;> rfl
  rw [hrun, Prod.mk.injEq]
  constructor
  · rintro ⟨rfl, rfl⟩
    exact ⟨rfl, _, rangePlan?_eq_iff.mp rfl, rfl⟩
  · rintro ⟨rfl, answer, hplans, rfl⟩
    rw [rangePlan?_eq_iff.mpr hplans]
    exact ⟨rfl, rfl⟩

end GoLowering.Lowering
