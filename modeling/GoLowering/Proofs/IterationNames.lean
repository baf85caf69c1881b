import GoLowering.Proofs.ErrorBlocks

/-!
# The names of an iteration

The names that a source gives to the keys and the values of an iteration are bound twice: as
symbols of the scope of the body, and in the loop that is written. `RangePlan.Introduces` says what
the two are to agree on. They do just in case the names fit the plan (`RangePlan.Fits`).
-/

namespace GoLowering

/-! ## Scopes -/

namespace Scopes

variable {s s' : Scopes} {name : String} {symbol : Symbol}

/-- The current scope is there. -/
def IsOpen (s : Scopes) : Prop := s.current.index < s.scopes.size

theorem locals_push (s : Scopes) (kind : ScopeKind) : (s.push kind).locals = [] := by
  simp [locals, get?, push]

/-- What is bound in the current scope hides what is bound further out. -/
theorem lookup?_of_locals (h : s.locals.lookup name = some symbol) :
    s.lookup? name = some symbol := by
  unfold locals at h
  cases hscope : s.get? s.current with
  | none =>
    rw [hscope] at h
    cases h
  | some scope =>
    rw [hscope] at h
    rw [lookup?, chain, chainWithin, hscope, List.findSome?_cons]
    simp only [Option.map_some, Option.getD_some] at h
    rw [h]

/-- The current scope has been opened inside that of the other scopes. -/
def OpenedIn (s : Scopes) (outer : Scopes) (kind : ScopeKind) : Prop :=
  ∃ symbols, s.get? s.current = some ⟨some outer.current, kind, symbols⟩

theorem openedIn_push (s : Scopes) (kind : ScopeKind) : (s.push kind).OpenedIn s kind :=
  ⟨[], by simp [get?, push]⟩

theorem OpenedIn.isOpen {outer : Scopes} {kind : ScopeKind} (h : s.OpenedIn outer kind) :
    s.IsOpen := by
  obtain ⟨symbols, h⟩ := h
  exact (Array.getElem?_eq_some_iff.mp h).1

/-- The second scopes have entries of the current scope that the first ones have not, behind those
that the first ones have. Nothing is said about the blank name, which is never bound. -/
structure Binds (s : Scopes) (entries : List (String × Symbol)) (s' : Scopes) : Prop where
  openedIn : ∀ outer kind, s.OpenedIn outer kind → s'.OpenedIn outer kind
  lookup : ∀ name, name ≠ "_" → s'.locals.lookup name = (s.locals ++ entries).lookup name

theorem Binds.refl (s : Scopes) : s.Binds [] s :=
  ⟨fun _ _ h => h, fun name _ => by rw [List.append_nil]⟩

theorem Binds.trans {t : Scopes} {first rest : List (String × Symbol)} (h₁ : s.Binds first s')
    (h₂ : s'.Binds rest t) : s.Binds (first ++ rest) t := by
  refine ⟨fun outer kind h => h₂.openedIn outer kind (h₁.openedIn outer kind h),
    fun name hname => ?_⟩
  rw [h₂.lookup name hname, List.lookup_append, h₁.lookup name hname, ← List.lookup_append,
    List.append_assoc]

theorem binds_define (hs : s.IsOpen) (h : s.define name symbol = .ok s') :
    s.Binds [(name, symbol)] s' := by
  obtain ⟨scope, hscope⟩ : ∃ scope, s.scopes[s.current.index]? = some scope :=
    ⟨_, Array.getElem?_eq_getElem hs⟩
  unfold define at h
  split at h
  · rename_i hblank
    cases h
    refine ⟨fun _ _ h => h, fun other hother => ?_⟩
    rw [beq_iff_eq.mp hblank, List.lookup_append, List.lookup_cons, beq_eq_false_iff_ne.mpr hother]
    exact (Option.or_none).symm
  · split at h
    · cases h
    · cases h
      constructor
      · rintro outer kind ⟨symbols, hopened⟩
        rw [get?] at hopened
        refine ⟨symbols ++ [(name, symbol)], ?_⟩
        simp [get?, Array.getElem?_modify, hopened]
      · intro other _
        simp [locals, get?, Array.getElem?_modify, hscope]

/-- A name that is taken in the current scope keeps its meaning. -/
theorem binds_taken {taken : Symbol} (h : s.define name symbol = .error taken) :
    s.Binds [(name, symbol)] s := by
  unfold define at h
  split at h
  · cases h
  · split at h
    · rename_i htaken
      refine ⟨fun _ _ h => h, fun other _ => ?_⟩
      rw [List.lookup_append]
      cases hother : s.locals.lookup other with
      | some found => rfl
      | none =>
        have hne : other ≠ name := by
          rintro rfl
          cases htaken.symm.trans hother
        rw [Option.none_or, List.lookup_cons, beq_eq_false_iff_ne.mpr hne]
        rfl
    · cases h

end Scopes

/-! ## Loops -/

namespace HostTree

open Lowering

/-- The loop iterates as its plan says and has these names for what each step gives: the variables
of a `range`, the parameters of a callback, or the variables that the `Next` of a cursor is assigned
to, next to the one that says whether there was an element. -/
inductive Iterates (tree : HostTree) (source : HostId) (body : List HostId) :
    RangePlan → HostId → List String → Prop where
  | native {keyType : TypeId} {valueType : Option TypeId} {loop block : HostId}
    {key value : Option HostId} {names : List String} :
    tree.kind loop = .range key value true source block →
    (key.toList ++ value.toList).mapM tree.name? = some names → tree.kind block = .block body →
    Iterates tree source body (.native keyType valueType) loop names
  | push {method : String} {keyType : Option TypeId} {valueType : TypeId}
    {loop call callee callback block : HostId} {params : List HostParam} {names : List String} :
    tree.kind loop = .expression call → tree.kind call = .call callee [callback] false →
    tree.kind callee = .selector source method →
    tree.kind callback = .functionLiteral ⟨params, [], false⟩ block →
    params.map (·.name) = names.map some → params.map (·.type) = keyType.toList ++ [valueType] →
    tree.kind block = .block body →
    Iterates tree source body (.push method keyType valueType) loop names
  | pull {method : String} {keyType : Option TypeId} {valueType : TypeId}
    {loop init target start starter block fetch check next callee cursor : HostId}
    {lhs : List HostId} {names : List String} :
    tree.kind loop = .loop (some init) none none block →
    tree.kind init = .assign [target] .define [start] → tree.name? target = some Names.iterator →
    tree.kind start = .call starter [] false → tree.kind starter = .selector source method →
    tree.kind block = .block (fetch :: check :: body) →
    tree.kind fetch = .assign lhs .define [next] →
    lhs.mapM tree.name? = some (names ++ [Names.ok]) →
    tree.kind next = .call callee [] false → tree.kind callee = .selector cursor "Next" →
    tree.name? cursor = some Names.iterator →
    Iterates tree source body (.pull method keyType valueType) loop names

theorem mapM_append {t : HostTree} {ids more : List HostId} {names others : List String}
    (h : ids.mapM t.name? = some names) (hmore : more.mapM t.name? = some others) :
    (ids ++ more).mapM t.name? = some (names ++ others) := by
  rw [List.mapM_append, h, hmore]
  rfl

end HostTree

namespace Lowering

variable {c : Context} {s s' final : State}

/-! ## Names in the scope of the body -/

theorem bind_binds {name : String} {symbol : Symbol} {u : Unit} (hs : s.scopes.IsOpen)
    (hrun : bind name symbol c s = (.ok u, s')) :
    s.scopes.Binds [(name, symbol)] s'.scopes := by
  obtain ⟨-, rfl⟩ := Prod.mk.inj hrun
  dsimp only
  cases hdefine : s.scopes.define name symbol with
  | ok scopes => exact Scopes.binds_define hs hdefine
  | error taken => exact Scopes.binds_taken hdefine

/-- The entry for a variable of an iteration, if there is one. -/
def variableEntry (name : Option String) (type : Option TypeId) : List (String × Symbol) :=
  (name.bind fun name => type.map fun type => (name, Symbol.variable type)).toList

theorem bindVariable_binds {name : Option String} {type : Option TypeId} {u : Unit}
    (hs : s.scopes.IsOpen) (hrun : bindVariable name type c s = (.ok u, s')) :
    s.scopes.Binds (variableEntry name type) s'.scopes := by
  cases name with
  | none =>
    obtain ⟨-, rfl⟩ := pure_ok.mp hrun
    exact .refl _
  | some name =>
    cases type with
    | none =>
      obtain ⟨-, rfl⟩ := pure_ok.mp hrun
      exact .refl _
    | some type => exact bind_binds hs hrun

namespace RangePlan

variable (plan : RangePlan) (key value : Option String)

/-- The entries that an iteration has in the scope of its body. -/
def entries : List (String × Symbol) :=
  variableEntry (plan.boundNames key value).1 plan.keyType? ++
    variableEntry (plan.boundNames key value).2 plan.valueType?

end RangePlan

theorem bindRange_binds {plan : RangePlan} {key value : Option String} {u : Unit} {outer : Scopes}
    {kind : ScopeKind} (hs : s.scopes.OpenedIn outer kind)
    (hrun : bindRange plan key value c s = (.ok u, s')) :
    s.scopes.Binds (plan.entries key value) s'.scopes := by
  obtain ⟨_, s₁, hkey, hvalue⟩ := bind_ok.mp hrun
  have hfirst := bindVariable_binds hs.isOpen hkey
  exact hfirst.trans (bindVariable_binds (hfirst.openedIn outer kind hs).isOpen hvalue)

/-! ## Names of the loop -/

namespace RangePlan

/-- The names of the loop that is written. -/
def written (plan : RangePlan) (key value : Option String) : List String :=
  if plan.isIterator then
    plan.keyType?.toList.map (fun _ => (plan.boundNames key value).1.getD Names.blank) ++
      [(plan.boundNames key value).2.getD Names.blank]
  else
    (if key.isNone && value.isSome then [Names.blank] else key.toList) ++ value.toList

theorem written_native {keyType : TypeId} {valueType : Option TypeId} {key value : Option String} :
    (native keyType valueType).written key value =
      (if key.isNone && value.isSome then [Names.blank] else key.toList) ++ value.toList := rfl

end RangePlan

theorem name?_identNode {name : String} {id : HostId}
    (hrun : identNode name c s = (.ok id, s')) (hfinal : s'.Precedes final) :
    final.tree.name? id = some name := by
  rw [HostTree.name?, kind_addNode hrun hfinal]

theorem mapM_identNode {names : List String} {ids : List HostId}
    (hrun : names.mapM identNode c s = (.ok ids, s')) (hfinal : s'.Precedes final) :
    ids.mapM final.tree.name? = some names :=
  HostTree.mapM_name? (mapM_scaffold HostKind.identifier hrun hfinal)

theorem isSome_identNode {name : Option String} {id : Option HostId}
    (hrun : name.mapM identNode c s = (.ok id, s')) : id.isSome = name.isSome := by
  cases name with
  | none =>
    obtain ⟨rfl, -⟩ := pure_ok.mp hrun
    rfl
  | some name =>
    rw [Option.mapM_some] at hrun
    obtain ⟨id, -, rfl⟩ := map_ok.mp hrun
    rfl

theorem optionMapM_identNode {name : Option String} {id : Option HostId}
    (hrun : name.mapM identNode c s = (.ok id, s')) (hfinal : s'.Precedes final) :
    id.toList.mapM final.tree.name? = some name.toList := by
  cases name with
  | none =>
    obtain ⟨rfl, -⟩ := pure_ok.mp hrun
    rfl
  | some name =>
    rw [Option.mapM_some] at hrun
    obtain ⟨id, hid, rfl⟩ := map_ok.mp hrun
    rw [Option.toList_some, List.mapM_cons, name?_identNode hid hfinal]
    rfl

theorem emitNative_iterates {keyType : TypeId} {valueType : Option TypeId} {source loop : HostId}
    {key value : Option String} {body : List HostId} {span : Span}
    (hrun : emitNative source key value body span c s = (.ok loop, s'))
    (hfinal : s'.Precedes final) :
    final.tree.Iterates source body (.native keyType valueType) loop
      ((RangePlan.native keyType valueType).written key value) := by
  obtain ⟨keyNode, s₁, hkey, hrun⟩ := bind_ok.mp hrun
  obtain ⟨valueNode, s₂, hvalue, hrun⟩ := bind_ok.mp hrun
  obtain ⟨named, s₃, hs₃, hnamed, hrun⟩ : ∃ named s₃, s₂.Precedes s₃ ∧
      (s₂.Precedes final → s₃.Precedes final →
        (named.toList ++ valueNode.toList).mapM final.tree.name? =
          some ((RangePlan.native keyType valueType).written key value)) ∧
      (do
        let body ← blockNode body
        place (.range named valueNode true source body) span) c s₃ = (.ok loop, s') := by
    split at hrun
    · obtain ⟨named, s₃, hblank, hrun⟩ := bind_ok.mp hrun
      obtain ⟨node, hnode, rfl⟩ := map_ok.mp hblank
      refine ⟨_, s₃, precedes_run hblank, fun hs₂ hs₃ => ?_, hrun⟩
      have hkey' : key = none := by
        simpa using (isSome_identNode hkey).symm
      have hvalue' : value.isSome = true := (isSome_identNode hvalue).symm
      have hnode' : [node].mapM final.tree.name? = some [Names.blank] := by
        rw [List.mapM_cons, name?_identNode hnode hs₃]
        rfl
      rw [RangePlan.written_native, hvalue', hkey']
      exact HostTree.mapM_append hnode' (optionMapM_identNode hvalue hs₂)
    · rename_i hboth
      refine ⟨keyNode, s₂, .refl _, fun hs₂ _ => ?_, hrun⟩
      have hwritten : (RangePlan.native keyType valueType).written key value =
          key.toList ++ value.toList := by
        rw [RangePlan.written_native, if_neg]
        rw [Bool.and_eq_true, ← isSome_identNode hvalue]
        rintro ⟨hkey', hvalue'⟩
        obtain ⟨node, hnode⟩ := Option.isSome_iff_exists.mp hvalue'
        refine hboth node ?_ hnode
        have hnone := isSome_identNode hkey
        rw [Option.isNone_iff_eq_none.mp hkey'] at hnone
        simpa using hnone
      rw [hwritten]
      exact HostTree.mapM_append (optionMapM_identNode hkey ((precedes_run hvalue).trans hs₂))
        (optionMapM_identNode hvalue hs₂)
  obtain ⟨block, s₄, hblock, hloop⟩ := bind_ok.mp hrun
  have h₄ : s₄.Precedes final := (precedes_run hloop).trans hfinal
  have h₃ : s₃.Precedes final := (precedes_run hblock).trans h₄
  exact .native (kind_addNode hloop hfinal) (hnamed (hs₃.trans h₃) h₃) (kind_addNode hblock h₄)

theorem emitPush_iterates {method : String} {keyType : Option TypeId} {valueType : TypeId}
    {source loop : HostId} {params : List HostParam} {names : List String} {body : List HostId}
    {span : Span} (hrun : emitPush source method params body span c s = (.ok loop, s'))
    (hfinal : s'.Precedes final) (hnames : params.map (·.name) = names.map some)
    (htypes : params.map (·.type) = keyType.toList ++ [valueType]) :
    final.tree.Iterates source body (.push method keyType valueType) loop names := by
  obtain ⟨block, s₁, hblock, hrun⟩ := bind_ok.mp hrun
  obtain ⟨callback, s₂, hcallback, hrun⟩ := bind_ok.mp hrun
  obtain ⟨callee, s₃, hcallee, hrun⟩ := bind_ok.mp hrun
  obtain ⟨call, s₄, hcall, hloop⟩ := bind_ok.mp hrun
  have h₄ : s₄.Precedes final := (precedes_run hloop).trans hfinal
  have h₃ : s₃.Precedes final := (precedes_run hcall).trans h₄
  have h₂ : s₂.Precedes final := (precedes_run hcallee).trans h₃
  have h₁ : s₁.Precedes final := (precedes_run hcallback).trans h₂
  exact .push (kind_addNode hloop hfinal) (kind_addNode hcall h₄) (kind_addNode hcallee h₃)
    (kind_addNode hcallback h₂) hnames htypes (kind_addNode hblock h₁)

theorem emitPull_iterates {method : String} {keyType : Option TypeId} {valueType : TypeId}
    {source loop : HostId} {names : List String} {body : List HostId} {span : Span}
    (hrun : emitPull source method names body span c s = (.ok loop, s'))
    (hfinal : s'.Precedes final) :
    final.tree.Iterates source body (.pull method keyType valueType) loop names := by
  obtain ⟨target, s₁, htarget, hrun⟩ := bind_ok.mp hrun
  obtain ⟨starter, s₂, hstarter, hrun⟩ := bind_ok.mp hrun
  obtain ⟨start, s₃, hstart, hrun⟩ := bind_ok.mp hrun
  obtain ⟨init, s₄, hinit, hrun⟩ := bind_ok.mp hrun
  obtain ⟨lhs, s₅, hlhs, hrun⟩ := bind_ok.mp hrun
  obtain ⟨cursor, s₆, hcursor, hrun⟩ := bind_ok.mp hrun
  obtain ⟨callee, s₇, hcallee, hrun⟩ := bind_ok.mp hrun
  obtain ⟨next, s₈, hnext, hrun⟩ := bind_ok.mp hrun
  obtain ⟨fetch, s₉, hfetch, hrun⟩ := bind_ok.mp hrun
  obtain ⟨ok, s₁₀, hok, hrun⟩ := bind_ok.mp hrun
  obtain ⟨done, s₁₁, hdone, hrun⟩ := bind_ok.mp hrun
  obtain ⟨stop, s₁₂, hstop, hrun⟩ := bind_ok.mp hrun
  obtain ⟨stopBlock, s₁₃, hstopBlock, hrun⟩ := bind_ok.mp hrun
  obtain ⟨check, s₁₄, hcheck, hrun⟩ := bind_ok.mp hrun
  obtain ⟨block, s₁₅, hblock, hloop⟩ := bind_ok.mp hrun
  have h₁₅ : s₁₅.Precedes final := (precedes_run hloop).trans hfinal
  have h₁₄ : s₁₄.Precedes final := (precedes_run hblock).trans h₁₅
  have h₁₃ : s₁₃.Precedes final := (precedes_run hcheck).trans h₁₄
  have h₁₂ : s₁₂.Precedes final := (precedes_run hstopBlock).trans h₁₃
  have h₁₁ : s₁₁.Precedes final := (precedes_run hstop).trans h₁₂
  have h₁₀ : s₁₀.Precedes final := (precedes_run hdone).trans h₁₁
  have h₉ : s₉.Precedes final := (precedes_run hok).trans h₁₀
  have h₈ : s₈.Precedes final := (precedes_run hfetch).trans h₉
  have h₇ : s₇.Precedes final := (precedes_run hnext).trans h₈
  have h₆ : s₆.Precedes final := (precedes_run hcallee).trans h₇
  have h₅ : s₅.Precedes final := (precedes_run hcursor).trans h₆
  have h₄ : s₄.Precedes final := (precedes_run hlhs).trans h₅
  have h₃ : s₃.Precedes final := (precedes_run hinit).trans h₄
  have h₂ : s₂.Precedes final := (precedes_run hstart).trans h₃
  have h₁ : s₁.Precedes final := (precedes_run hstarter).trans h₂
  exact .pull (kind_addNode hloop hfinal) (kind_addNode hinit h₄) (name?_identNode htarget h₁)
    (kind_addNode hstart h₃) (kind_addNode hstarter h₂) (kind_addNode hblock h₁₅)
    (kind_addNode hfetch h₉) (mapM_identNode hlhs h₅) (kind_addNode hnext h₈)
    (kind_addNode hcallee h₇) (name?_identNode hcursor h₆)

/-- The loop of a plan, in the tree of any later state. -/
theorem emitRange_iterates {plan : RangePlan} {source loop : HostId} {key value : Option String}
    {body : List HostId} {span : Span}
    (hrun : emitRange plan source key value body span c s = (.ok loop, s'))
    (hfinal : s'.Precedes final) :
    final.tree.Iterates source body plan loop (plan.written key value) := by
  cases plan with
  | native keyType valueType => exact emitNative_iterates hrun hfinal
  | push method keyType valueType =>
    refine emitPush_iterates hrun hfinal ?_ ?_
    · cases keyType <;> rfl
    · cases keyType <;> rfl
  | pull method keyType valueType => exact emitPull_iterates hrun hfinal

/-! ## Names that fit the plan -/

namespace RangePlan

variable {plan : RangePlan} {key value : Option String}

/-- The names of a source with the types that the plan yields for them, if any. A single name takes
the value of an iterator without keys. -/
def roles (plan : RangePlan) (key value : Option String) : List (String × Option TypeId) :=
  if plan.isIterator ∧ plan.keyType? = none ∧ value = none then
    key.toList.map (fun name => (name, plan.valueType?))
  else
    key.toList.map (fun name => (name, plan.keyType?)) ++
      value.toList.map (fun name => (name, plan.valueType?))

/-- How many variables the source yields in each step. -/
def yields (plan : RangePlan) : Nat := plan.keyType?.toList.length + plan.valueType?.toList.length

/-- The names of a source stand for what the plan yields, in the scope of the body and in the names
that are written. -/
structure Introduces (plan : RangePlan) (key value : Option String) (scopes : Scopes)
    (names : List String) : Prop where
  bound : ∀ name type, (name, type) ∈ plan.roles key value → name ≠ "_" →
    ∃ yielded, type = some yielded ∧ scopes.lookup? name = some (.variable yielded)
  written : names.filter (· ≠ "_") = (key.toList ++ value.toList).filter (· ≠ "_")
  count : names.length ≤ plan.yields

/-- There is something for each name: no value of a channel or an integer, no key of an iterator
that has none, and no two types for one name. -/
structure Fits (plan : RangePlan) (key value : Option String) : Prop where
  valued : plan.valueType? = none → value = none
  keyed : ∀ name, plan.keyType? = none → value.isSome → key = some name → name = "_"
  distinct : ∀ name, key = some name → value = some name → name ≠ "_" →
    plan.keyType? = plan.valueType?

/-- The three kinds of plans: what the host ranges over, which has keys, and iterators, which have
values. -/
theorem native_or_keyless_or_keyed (plan : RangePlan) :
    (plan.isIterator = false ∧ ∃ keyType, plan.keyType? = some keyType) ∨
      (plan.isIterator = true ∧ plan.keyType? = none ∧
        ∃ valueType, plan.valueType? = some valueType) ∨
      plan.isIterator = true ∧ (∃ keyType, plan.keyType? = some keyType) ∧
        ∃ valueType, plan.valueType? = some valueType := by
  cases plan with
  | native keyType valueType => exact .inl ⟨rfl, keyType, rfl⟩
  | push method keyType valueType | pull method keyType valueType =>
    cases keyType with
    | none => exact .inr (.inl ⟨rfl, rfl, valueType, rfl⟩)
    | some keyType => exact .inr (.inr ⟨rfl, ⟨keyType, rfl⟩, valueType, rfl⟩)

/-! ### What is written -/

theorem written_of_native (h : plan.isIterator = false) : plan.written key value =
    (if key.isNone && value.isSome then [Names.blank] else key.toList) ++ value.toList := by
  rw [written, h]
  rfl

theorem written_of_keyless (h : plan.isIterator = true) (hkey : plan.keyType? = none) :
    plan.written key value = [(value.or key).getD Names.blank] := by
  rw [written, boundNames, h, hkey]
  cases value <;> rfl

theorem written_of_keyed {keyType : TypeId} (h : plan.isIterator = true)
    (hkey : plan.keyType? = some keyType) :
    plan.written key value = [key.getD Names.blank, value.getD Names.blank] := by
  rw [written, boundNames, h, hkey]
  rfl

theorem length_written_le_iff :
    (plan.written key value).length ≤ plan.yields ↔ (plan.valueType? = none → value = none) := by
  rcases plan.native_or_keyless_or_keyed with ⟨h, keyType, hkey⟩ | ⟨h, hkey, valueType, hvalue⟩ |
    ⟨h, ⟨keyType, hkey⟩, valueType, hvalue⟩
  · rw [written_of_native h, yields, hkey]
    cases plan.valueType? <;> cases key <;> cases value <;> simp
  · simp [written_of_keyless h hkey, yields, hvalue]
  · simp [written_of_keyed h hkey, yields, hkey, hvalue]

theorem filter_getD (name : Option String) :
    [name.getD Names.blank].filter (· ≠ "_") = name.toList.filter (· ≠ "_") := by
  cases name <;> rfl

theorem filter_written_iff :
    (plan.written key value).filter (· ≠ "_") = (key.toList ++ value.toList).filter (· ≠ "_") ↔
      ∀ name, plan.keyType? = none → value.isSome → key = some name → name = "_" := by
  rcases plan.native_or_keyless_or_keyed with ⟨h, keyType, hkey⟩ | ⟨h, hkey, -⟩ |
    ⟨h, ⟨keyType, hkey⟩, -⟩
  · simp only [written_of_native h, hkey, reduceCtorEq, false_imp_iff, implies_true, iff_true]
    cases key <;> cases value <;> rfl
  · simp only [written_of_keyless h hkey, hkey, true_imp_iff]
    cases value with
    | none => cases key <;> simp [Names.blank]
    | some value =>
      cases key with
      | none => simp
      | some key =>
        by_cases hblank : key = "_"
        · simp [hblank]
        · simp [List.filter_cons, hblank]
  · simp only [written_of_keyed h hkey, hkey, reduceCtorEq, false_imp_iff, implies_true, iff_true]
    rw [← List.singleton_append, List.filter_append, List.filter_append, filter_getD, filter_getD]

/-! ### What is bound -/

theorem lookup_variableEntry {name : Option String} {type : Option TypeId} {other : String} :
    (variableEntry name type).lookup other =
      if name = some other then type.map Symbol.variable else none := by
  cases name with
  | none => rfl
  | some name =>
    cases type with
    | none => simp [variableEntry]
    | some type =>
      by_cases h : other = name
      · simp [variableEntry, h]
      · simp [variableEntry, List.lookup_cons, beq_eq_false_iff_ne.mpr h, Ne.symm h]

theorem lookup_entries {name : String} : (plan.entries key value).lookup name =
    (if (plan.boundNames key value).1 = some name then plan.keyType?.map Symbol.variable
      else none).or
    (if (plan.boundNames key value).2 = some name then plan.valueType?.map Symbol.variable
      else none) := by
  rw [entries, List.lookup_append, lookup_variableEntry, lookup_variableEntry]

theorem roles_of_single (h : plan.isIterator = true) (hkey : plan.keyType? = none) :
    plan.roles key none = key.toList.map (fun name => (name, plan.valueType?)) := by
  rw [roles, if_pos ⟨h, hkey, rfl⟩]

theorem roles_of_keys {keyType : TypeId} (hkey : plan.keyType? = some keyType) :
    plan.roles key value = key.toList.map (fun name => (name, plan.keyType?)) ++
      value.toList.map (fun name => (name, plan.valueType?)) := by
  rw [roles, if_neg (by simp [hkey])]

theorem roles_of_both {name : String} :
    plan.roles key (some name) = key.toList.map (fun name => (name, plan.keyType?)) ++
      [(name, plan.valueType?)] := by
  rw [roles, if_neg (by simp)]
  rfl

theorem boundNames_of_keys {keyType : TypeId} (hkey : plan.keyType? = some keyType) :
    plan.boundNames key value = (key, value) := by
  rw [boundNames, hkey, if_neg (by simp)]

theorem boundNames_of_both {name : String} :
    plan.boundNames key (some name) = (key, some name) := by
  rw [boundNames, if_neg (by simp)]

theorem boundNames_of_single (h : plan.isIterator = true) (hkey : plan.keyType? = none) :
    plan.boundNames key none = (none, key) := by
  rw [boundNames, h, hkey]
  rfl

/-- A plan without keys gives its values to the only name there is, or to the second one. -/
theorem Fits.lookup_entries_keyless (hfits : plan.Fits key value) {name : String}
    {type : Option TypeId} (hkeys : plan.keyType? = none)
    (hrole : (name, type) ∈ plan.roles key value) (hname : name ≠ "_") :
    ∃ yielded, type = some yielded ∧
      (plan.entries key value).lookup name = some (.variable yielded) := by
  have hiterator : plan.isIterator = true := by
    cases plan with
    | native => cases hkeys
    | push | pull => rfl
  obtain ⟨valueType, hvalue⟩ : ∃ valueType, plan.valueType? = some valueType := by
    cases plan with
    | native => cases hkeys
    | push _ _ valueType | pull _ _ valueType => exact ⟨valueType, rfl⟩
  rw [RangePlan.lookup_entries, hkeys, hvalue]
  cases value with
  | none =>
    rw [roles_of_single hiterator hkeys, hvalue] at hrole
    rw [boundNames_of_single hiterator hkeys]
    obtain ⟨_, hin, heq⟩ := List.mem_map.mp hrole
    cases heq
    refine ⟨valueType, rfl, ?_⟩
    simp [Option.mem_toList.mp hin]
  | some single =>
    rw [roles_of_both, hkeys, hvalue] at hrole
    rw [boundNames_of_both]
    rcases List.mem_append.mp hrole with hmem | hmem
    · obtain ⟨_, hin, heq⟩ := List.mem_map.mp hmem
      cases heq
      exact absurd (hfits.keyed name hkeys rfl (Option.mem_toList.mp hin)) hname
    · cases List.mem_singleton.mp hmem
      refine ⟨valueType, rfl, ?_⟩
      simp

theorem Fits.lookup_entries (hfits : plan.Fits key value) {name : String} {type : Option TypeId}
    (hrole : (name, type) ∈ plan.roles key value) (hname : name ≠ "_") :
    ∃ yielded, type = some yielded ∧
      (plan.entries key value).lookup name = some (.variable yielded) := by
  rcases hkeys : plan.keyType? with _ | keyType
  · exact hfits.lookup_entries_keyless hkeys hrole hname
  rw [RangePlan.lookup_entries, hkeys, boundNames_of_keys hkeys]
  rw [roles_of_keys hkeys, hkeys] at hrole
  rcases List.mem_append.mp hrole with hmem | hmem
  · obtain ⟨_, hin, heq⟩ := List.mem_map.mp hmem
    cases heq
    refine ⟨keyType, rfl, ?_⟩
    simp [Option.mem_toList.mp hin]
  · obtain ⟨_, hin, heq⟩ := List.mem_map.mp hmem
    cases heq
    have hsecond := Option.mem_toList.mp hin
    obtain ⟨valueType, hvalue⟩ : ∃ valueType, plan.valueType? = some valueType := by
      refine Option.ne_none_iff_exists'.mp fun hnone => ?_
      cases (hfits.valued hnone).symm.trans hsecond
    refine ⟨valueType, hvalue, ?_⟩
    rw [hvalue, if_pos hsecond]
    by_cases hfirst : key = some name
    · have hsame := hfits.distinct name hfirst hsecond hname
      rw [hkeys, hvalue] at hsame
      rw [if_pos hfirst, hsame]
      rfl
    · rw [if_neg hfirst]
      rfl

/-- The names of a loop that is lowered stand for what the plan yields just in case they fit it. -/
theorem introduces_written_iff {scopes : Scopes}
    (hlocals : ∀ name, name ≠ "_" →
      scopes.locals.lookup name = (plan.entries key value).lookup name) :
    plan.Introduces key value scopes (plan.written key value) ↔ plan.Fits key value := by
  constructor
  · intro h
    refine ⟨length_written_le_iff.mp h.count, filter_written_iff.mp h.written, ?_⟩
    rintro name rfl rfl hname
    have hroles : plan.roles (some name) (some name) =
        [(name, plan.keyType?), (name, plan.valueType?)] := roles_of_both
    obtain ⟨first, hfirst, hkey⟩ := h.bound name plan.keyType? (by simp [hroles]) hname
    obtain ⟨second, hsecond, hvalue⟩ := h.bound name plan.valueType? (by simp [hroles]) hname
    cases hkey.symm.trans hvalue
    rw [hfirst, hsecond]
  · intro h
    refine ⟨fun name type hrole hname => ?_, filter_written_iff.mpr h.keyed,
      length_written_le_iff.mpr h.valued⟩
    obtain ⟨yielded, htype, hlookup⟩ := h.lookup_entries hrole hname
    exact ⟨yielded, htype, Scopes.lookup?_of_locals ((hlocals name hname).trans hlookup)⟩

end RangePlan

/-! ## The three constructs -/

open Surface

/-- A construct that gives names to what it iterates over. -/
inductive Iteration where
  /-- `for key, value := range source { body }` -/
  | range (key value : Option NodeId) (source body : NodeId) (span : Span)
  /-- `for key, value <- source, guard { body }` -/
  | phrase (clause : ForClause) (body : NodeId) (span : Span)
  /-- A clause of a comprehension, with the clauses inside of it. -/
  | comprehension (frame : ComprehensionFrame) (clause : ForClause) (rest : List ForClause)

namespace Iteration

def source : Iteration → NodeId
  | range _ _ source _ _ => source
  | phrase clause _ _ | comprehension _ clause _ => clause.source

/-- The name of the keys, if it has one. -/
def key (unit : SourceUnit) : Iteration → Option String
  | range key _ _ _ _ => key.bind unit.identifier?
  | phrase clause _ _ | comprehension _ clause _ => clause.key

/-- The name of the values, if it has one. -/
def value (unit : SourceUnit) : Iteration → Option String
  | range _ value _ _ _ => value.bind unit.identifier?
  | phrase clause _ _ | comprehension _ clause _ => clause.value

/-- The statements that the construct becomes, of which the last one is the loop. -/
def lower (walk : Walk) : Iteration → Lower (List HostId)
  | range key value source body span =>
    (fun loop => [loop]) <$> lowerRange walk key value true source body span
  | phrase clause body span => (fun loop => [loop]) <$> lowerForPhrase walk clause body span
  | comprehension frame clause rest => (·.1) <$> lowerClauses walk frame (clause :: rest)

/-- The statements of the loop. -/
def lowerInner (walk : Walk) : Iteration → Lower (List HostId)
  | range _ _ _ body _ => lowerBlockStatements walk body .block
  | phrase clause body _ => lowerPhraseBody walk clause body
  | comprehension frame clause rest =>
    (·.1) <$> lowerClauseBody walk clause (lowerClauses walk frame rest)

end Iteration

variable {walk : Walk}

theorem rangeName_ok {id : NodeId} {name : String} (hrun : rangeName id c s = (.ok name, s')) :
    c.unit.identifier? id = some name ∧ s' = s := by
  unfold rangeName at hrun
  rw [run_read] at hrun
  cases hname : c.unit.identifier? id with
  | none =>
    rw [hname] at hrun
    exact absurd hrun Fails.fails
  | some found =>
    rw [hname] at hrun
    obtain ⟨rfl, rfl⟩ := pure_ok.mp hrun
    exact ⟨rfl, rfl⟩

theorem rangeNames_ok {id : Option NodeId} {name : Option String}
    (hrun : id.mapM rangeName c s = (.ok name, s')) :
    name = id.bind c.unit.identifier? ∧ s' = s := by
  cases id with
  | none =>
    obtain ⟨rfl, rfl⟩ := pure_ok.mp hrun
    exact ⟨rfl, rfl⟩
  | some id =>
    rw [Option.mapM_some] at hrun
    obtain ⟨name, hname, rfl⟩ := map_ok.mp hrun
    obtain ⟨hid, rfl⟩ := rangeName_ok hname
    exact ⟨hid.symm, rfl⟩

/-- How an iteration is lowered: its source is, a scope is opened in which the names are bound, what
stands inside is lowered there, and the loop of the plan is put around it. -/
theorem Iteration.lower_ok {form : Iteration} {statements : List HostId}
    (hrun : form.lower walk c s = (.ok statements, s')) :
    ∃ source plan t t' u body u' loop,
      lowerSource walk form.source c s = (.ok (source, plan), t) ∧ t.Precedes t' ∧
      t'.scopes = t.scopes.push plan.scopeKind ∧
      bindRange plan (form.key c.unit) (form.value c.unit) c t' = (.ok (), u) ∧
      form.lowerInner walk c u = (.ok body, u') ∧ u'.Precedes s' ∧
      statements.getLast? = some loop ∧
      s'.tree.Iterates source body plan loop
        (plan.written (form.key c.unit) (form.value c.unit)) := by
  cases form with
  | range key value source body span =>
    obtain ⟨loop, hrange, rfl⟩ := map_ok.mp hrun
    obtain ⟨⟨sourceId, plan⟩, t, hsource, hrun⟩ := bind_ok.mp hrange
    obtain ⟨keyName, s₁, hkey, hrun⟩ := bind_ok.mp hrun
    obtain ⟨valueName, s₂, hvalue, hrun⟩ := bind_ok.mp hrun
    obtain ⟨body, s₃, hscope, hloop⟩ := bind_ok.mp hrun
    obtain ⟨u', hpart, rfl⟩ := inScope_ok.mp hscope
    obtain ⟨⟨⟩, u, hbind, hinner⟩ := bind_ok.mp hpart
    obtain ⟨rfl, rfl⟩ := rangeNames_ok hkey
    obtain ⟨rfl, rfl⟩ := rangeNames_ok hvalue
    have hafter := precedes_run hloop
    exact ⟨sourceId, plan, s₂, { s₂ with scopes := s₂.scopes.push plan.scopeKind }, u, body, u',
      loop, hsource, ⟨.refl _, .refl _⟩, rfl, hbind, hinner, ⟨hafter.tree, hafter.types⟩, rfl,
      emitRange_iterates hloop (.refl _)⟩
  | phrase clause body span =>
    obtain ⟨loop, hphrase, rfl⟩ := map_ok.mp hrun
    obtain ⟨⟨sourceId, plan⟩, t, hsource, hrun⟩ := bind_ok.mp hphrase
    obtain ⟨body, s₃, hscope, hloop⟩ := bind_ok.mp hrun
    obtain ⟨u', hpart, rfl⟩ := inScope_ok.mp hscope
    obtain ⟨⟨⟩, u, hbind, hinner⟩ := bind_ok.mp hpart
    have hafter := precedes_run hloop
    exact ⟨sourceId, plan, t, { t with scopes := t.scopes.push plan.scopeKind }, u, body, u', loop,
      hsource, ⟨.refl _, .refl _⟩, rfl, hbind, hinner, ⟨hafter.tree, hafter.types⟩, rfl,
      emitRange_iterates hloop (.refl _)⟩
  | comprehension frame clause rest =>
    obtain ⟨⟨statements, yielded⟩, hclauses, rfl⟩ := map_ok.mp hrun
    unfold lowerClauses at hclauses
    obtain ⟨operand, s₁, hsource, hrun⟩ := bind_ok.mp hclauses
    obtain ⟨⟨sourceId, type⟩, s₂, hdefault, hrun⟩ := bind_ok.mp hrun
    obtain ⟨plan, t, hplan, hrun⟩ := bind_ok.mp hrun
    split at hrun
    · exact absurd hrun Fails.fails
    obtain ⟨hoisted, t', htake, hrun⟩ := bind_ok.mp hrun
    obtain ⟨⟨body, yielded'⟩, s₅, hscope, hrun⟩ := bind_ok.mp hrun
    obtain ⟨loop, s₆, hloop, hrun⟩ := bind_ok.mp hrun
    obtain ⟨hpair, rfl⟩ := pure_ok.mp hrun
    obtain ⟨rfl, rfl⟩ := Prod.mk.inj hpair
    obtain ⟨u', hpart, rfl⟩ := inScope_ok.mp hscope
    obtain ⟨⟨⟩, u, hbind, hinner⟩ := bind_ok.mp hpart
    obtain ⟨-, rfl⟩ := Prod.mk.inj htake
    have hafter := precedes_run hloop
    have hwhole : lowerSource walk clause.source c s = (.ok (sourceId, plan), t) :=
      bind_ok.mpr ⟨operand, s₁, hsource, bind_ok.mpr ⟨(sourceId, type), s₂, hdefault,
        bind_ok.mpr ⟨plan, t, hplan, rfl⟩⟩⟩
    exact ⟨sourceId, plan, t, { t with hoisted := [], scopes := t.scopes.push plan.scopeKind }, u,
      body, u', loop, hwhole, ⟨.refl _, .refl _⟩, rfl, hbind,
      map_ok.mpr ⟨_, hinner, rfl⟩, ⟨hafter.tree, hafter.types⟩, List.getLast?_concat,
      emitRange_iterates hloop (.refl _)⟩

/-- The construct has been lowered with a plan: its last statement is a loop of that plan with these
names, around what stands inside, which has been lowered in these scopes. -/
def Iteration.LoweredBy (walk : Walk) (c : Context) (s s' : State) (form : Iteration)
    (statements : List HostId) (plan : RangePlan) (scopes : Scopes) (names : List String) : Prop :=
  ∃ source t u body u' loop, lowerSource walk form.source c s = (.ok (source, plan), t) ∧
    t.Precedes u ∧ scopes = u.scopes ∧ scopes.OpenedIn t.scopes plan.scopeKind ∧
    form.lowerInner walk c u = (.ok body, u') ∧ u'.Precedes s' ∧
    statements.getLast? = some loop ∧ s'.tree.Iterates source body plan loop names

/-- The names of an iteration that is lowered stand for what its plan yields, in the scope of the
body as well as in the loop, just in case they fit the plan. -/
theorem Iteration.introduces_iff_fits {form : Iteration} {statements : List HostId}
    (hrun : form.lower walk c s = (.ok statements, s')) :
    ∃ plan scopes names, form.LoweredBy walk c s s' statements plan scopes names ∧
      (plan.Introduces (form.key c.unit) (form.value c.unit) scopes names ↔
        plan.Fits (form.key c.unit) (form.value c.unit)) := by
  obtain ⟨source, plan, t, t', u, body, u', loop, hsource, htt', hscopes, hbind, hinner, hu', hloop,
    hiterates⟩ := Iteration.lower_ok hrun
  have hopened : t'.scopes.OpenedIn t.scopes plan.scopeKind :=
    hscopes ▸ t.scopes.openedIn_push plan.scopeKind
  have hbinds := bindRange_binds hopened hbind
  have hlocals : ∀ name, name ≠ "_" → u.scopes.locals.lookup name =
      (plan.entries (form.key c.unit) (form.value c.unit)).lookup name := by
    intro name hname
    rw [hbinds.lookup name hname, hscopes, Scopes.locals_push, List.nil_append]
  refine ⟨plan, u.scopes, _, ⟨source, t, u, body, u', loop, hsource, ?_, rfl,
    hbinds.openedIn _ _ hopened, hinner, hu', hloop, hiterates⟩,
    RangePlan.introduces_written_iff hlocals⟩
  exact htt'.trans (precedes_run hbind)

/-! ### A value from a channel -/

/-- The parts of `for x <- ch { }`. -/
def channelSample : Context := .bare [.expr (.identifier "ch"), .stmt (.block [])]

/-- `ch` is a channel of texts. -/
def channelState : State :=
  .inside (TypeTable.initial.chan TypeTable.string .both).2 []
    [("ch", (TypeTable.initial.chan TypeTable.string .both).1)]

def channelPhrase : Iteration := .phrase ⟨none, some "x", ⟨0⟩, none, none⟩ ⟨1⟩ .synthetic

/-- `for k <- ch { }` with the name where the key stands. -/
def channelKey : Iteration := .phrase ⟨some "k", none, ⟨0⟩, none, none⟩ ⟨1⟩ .synthetic

theorem introduces_iff_fits_channelKey : ∃ statements s',
    channelKey.lower (walkWithin 2) channelSample channelState = (.ok statements, s') ∧
      ∃ plan scopes names,
        channelKey.LoweredBy (walkWithin 2) channelSample channelState s' statements plan scopes
          names ∧
        (plan.Introduces (some "k") none scopes names ↔ plan.Fits (some "k") none) :=
  have hrun : channelKey.lower (walkWithin 2) channelSample channelState =
      (.ok [⟨3⟩], (channelKey.lower (walkWithin 2) channelSample channelState).2) :=
    Prod.ext (by decide +kernel) rfl
  ⟨_, _, hrun, Iteration.introduces_iff_fits hrun⟩

/-- A name for the values of a channel is written and not bound. -/
theorem not_introduces_channelPhrase : ∃ statements s',
    channelPhrase.lower (walkWithin 2) channelSample channelState = (.ok statements, s') ∧
      ¬ ∃ plan scopes names,
        channelPhrase.LoweredBy (walkWithin 2) channelSample channelState s' statements plan scopes
          names ∧ plan.Introduces none (some "x") scopes names := by
  have hrun : channelPhrase.lower (walkWithin 2) channelSample channelState =
      (.ok [⟨4⟩], (channelPhrase.lower (walkWithin 2) channelSample channelState).2) :=
    Prod.ext (by decide +kernel) rfl
  have hplan : (lowerSource (walkWithin 2) ⟨0⟩ channelSample channelState).1 =
      .ok (⟨0⟩, .native TypeTable.string none) := by decide +kernel
  refine ⟨_, _, hrun, ?_⟩
  rintro ⟨plan, scopes, names, ⟨source, t, u, body, u', loop, hsource, -⟩, hintroduces⟩
  have hsame := hplan.symm.trans (congrArg Prod.fst hsource)
  obtain ⟨rfl, rfl⟩ := Prod.mk.inj (Except.ok.inj hsame)
  obtain ⟨yielded, hnone, -⟩ := hintroduces.bound "x" none (List.mem_singleton.mpr rfl) (by decide)
  cases hnone

end Lowering

end GoLowering
