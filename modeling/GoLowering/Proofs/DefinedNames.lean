import GoLowering.Proofs.ScopeBindings
import GoLowering.Proofs.TypedPlaces

/-!
# Names that are defined

A definition `a, b := x, y` binds the names that are new in their scope and stores its values in all
of them. The values are lowered without a look at the names that are there already, so a value may
be stored in such a name that its type does not take. `lowerDefine_sound_iff` says of which
definitions that are lowered this is so, next to what is right of all of them: new names have the
types of their values (`TakesType`), and what is bound before keeps its symbol (`Scopes.Keeps`).
-/

namespace GoLowering

namespace BasicType

/-- The default types of constants. Unbounded numbers and `nil` have none. -/
def default? : BasicType → Option BasicType
  | untypedBool => some bool
  | untypedInt => some int
  | untypedRune => some int32
  | untypedFloat => some float64
  | untypedComplex => some complex128
  | untypedString => some string
  | _ => none

end BasicType

namespace Lowering

open Surface

variable {walk : Walk} {c : Context} {s s' t : State} {operand : Operand} {type : TypeId}
  {values : List NodeId} {ids : List HostId} {types : List TypeId} {names : List String}
  {count : Nat} {span : Span}

/-! ## Values of new names -/

/-- The type that a new variable takes from the type of its value. -/
inductive TakesType (c : Context) (types : TypeTable) (value : TypeId) : TypeId → Prop
  | own (hown : ∀ kind, types.get value = .basic kind →
      kind.default? = none ∧ kind.isUntypedBig = false) : TakesType c types value value
  | default {kind default : BasicType} (hkind : types.get value = .basic kind)
      (hdefault : kind.default? = some default) : TakesType c types value (TypeTable.basic default)
  | unbounded {kind : BasicType} {entry : RegisteredType} (hkind : types.get value = .basic kind)
      (hbig : kind.isUntypedBig = true) (hentry : c.registry.defaultFor? kind = some entry) :
      TakesType c types value entry.type

/-- Constants that are not unbounded are of their default types. -/
theorem takesType_defaultType {table : TypeTable} (hsmall : table.isBig type = false) :
    TakesType c table type (table.defaultType type) := by
  unfold TypeTable.isBig at hsmall
  unfold TypeTable.defaultType
  cases hget : table.get type with
  | basic kind =>
    have hown (hdefault : kind.default? = none) : TakesType c table type type := by
      refine .own (fun other hother => ?_)
      obtain rfl := Ty.basic.inj (hget.symm.trans hother)
      rw [hget] at hsmall
      exact ⟨hdefault, hsmall⟩
    cases kind with
    | untypedBool | untypedInt | untypedRune | untypedFloat | untypedComplex | untypedString =>
      exact .default hget rfl
    | _ => exact hown rfl
  | _ => exact .own (fun kind hkind => by cases hget.symm.trans hkind)

theorem exists_of_isBig {table : TypeTable} (hbig : table.isBig type = true) :
    ∃ kind, table.get type = .basic kind ∧ kind.isUntypedBig = true := by
  unfold TypeTable.isBig at hbig
  cases hget : table.get type with
  | basic kind =>
    rw [hget] at hbig
    exact ⟨kind, rfl, hbig⟩
  | _ =>
    rw [hget] at hbig
    cases hbig

theorem takesType_defaultValue {value : HostId × TypeId}
    (hrun : defaultValue operand c s = (.ok value, s')) :
    operand.IsSingle s.types ∧ operand.mode = .value ∧
      TakesType c s.types operand.type value.2 := by
  have hmode := Operand.mode_of_defaultValue hrun
  have hsingle : operand.IsSingle s.types := by
    obtain ⟨_, s₁, hcheck, -⟩ := bind_ok.mp hrun
    exact (checkValue_ok_iff.mp hcheck).1
  refine ⟨hsingle, hmode, ?_⟩
  cases hbig : s.types.isBig operand.type with
  | true =>
    unfold defaultValue at hrun
    rw [run_bind, hsingle.run_checkValue] at hrun
    dsimp only at hrun
    rw [hmode, if_neg (by decide), run_isUntypedBig_bind, hbig, if_pos rfl] at hrun
    obtain ⟨_, _, ⟨⟩, hrun⟩ := bind_ok.mp hrun
    cases hentry : (s.types.basic? operand.type).bind c.registry.defaultFor? with
    | none =>
      rw [hentry, Option.map_none] at hrun
      exact absurd hrun Fails.fails
    | some entry =>
      rw [hentry, Option.map_some] at hrun
      obtain ⟨id, s₂, hid, hrun⟩ := bind_ok.mp hrun
      obtain ⟨rfl, rfl⟩ := pure_ok.mp hrun
      obtain ⟨kind, hkind, hunbounded⟩ := exists_of_isBig hbig
      rw [TypeTable.basic?_of_get hkind, Option.bind_some] at hentry
      exact .unbounded hkind hunbounded hentry
  | false =>
    rw [Operand.run_defaultValue_small hsingle hmode hbig] at hrun
    split at hrun
    · exact absurd hrun Fails.fails
    · obtain ⟨⟨⟩, -⟩ := Prod.mk.inj hrun
      exact takesType_defaultType hbig

/-- Each value is stored in one name. -/
inductive StoresEach (walk : Walk) (c : Context) :
    List NodeId → State → List HostId → List TypeId → State → Prop
  | nil {s : State} : StoresEach walk c [] s [] [] s
  | cons {value : NodeId} {values : List NodeId} {s s₁ s₂ s' : State} {operand : Operand}
      {id : HostId} {ids : List HostId} {type : TypeId} {types : List TypeId}
      (hvalue : walk.expr value .none c s = (.ok operand, s₁))
      (hsingle : operand.IsSingle s₁.types) (hmode : operand.mode = .value)
      (hstored : defaultValue operand c s₁ = (.ok (id, type), s₂))
      (htakes : TakesType c s₁.types operand.type type)
      (hrest : StoresEach walk c values s₂ ids types s') :
      StoresEach walk c (value :: values) s (id :: ids) (type :: types) s'

/-- The types of several values that one expression gives. -/
inductive Operand.Spreads (table : TypeTable) (operand : Operand) : List TypeId → Prop
  | results {elements : List TypeId} (htuple : table.get operand.type = .tuple elements) :
      Spreads table operand elements
  /-- There is also an answer as to whether the value is there. -/
  | commaOk (hcommaOk : operand.commaOk = true)
      (hone : ∀ elements, table.get operand.type ≠ .tuple elements) :
      Spreads table operand [operand.type, TypeTable.bool]

/-- Values are stored in names, which take their types from the values. -/
inductive Stores (walk : Walk) (c : Context) (values : List NodeId) (count : Nat) (s : State)
    (ids : List HostId) (types : List TypeId) (s' : State) : Prop
  | each (hcount : values.length = count) (heach : StoresEach walk c values s ids types s') :
      Stores walk c values count s ids types s'
  | all {value : NodeId} {operand : Operand} (hvalues : values = [value]) (hseveral : count ≠ 1)
      (hvalue : walk.expr value { Expectation.none with results := count } c s =
        (.ok operand, s'))
      (hids : ids = [operand.id]) (hspreads : operand.Spreads s'.types types)
      (hcount : types.length = count) : Stores walk c values count s ids types s'

theorem StoresEach.length_eq (h : StoresEach walk c values s ids types s') :
    types.length = values.length := by
  induction h with
  | nil => rfl
  | cons _ _ _ _ _ _ ih => exact congrArg (· + 1) ih

theorem Stores.length_eq (h : Stores walk c values count s ids types s') :
    types.length = count := by
  cases h with
  | each hcount heach => exact heach.length_eq.trans hcount
  | all _ _ _ _ _ hcount => exact hcount

theorem storesEach_mapM {stored : List (HostId × TypeId)}
    (hrun : values.mapM (lowerSlotValue walk · none) c s = (.ok stored, s')) :
    StoresEach walk c values s (stored.map (·.1)) (stored.map (·.2)) s' := by
  induction values generalizing s stored with
  | nil =>
    obtain ⟨rfl, rfl⟩ := pure_ok.mp hrun
    exact .nil
  | cons value values ih =>
    rw [List.mapM_cons] at hrun
    obtain ⟨⟨id, type⟩, s₂, hfirst, hrun⟩ := bind_ok.mp hrun
    obtain ⟨rest, s₃, hrest, hrun⟩ := bind_ok.mp hrun
    obtain ⟨rfl, rfl⟩ := pure_ok.mp hrun
    obtain ⟨operand, s₁, hvalue, hstored⟩ := bind_ok.mp hfirst
    obtain ⟨hsingle, hmode, htakes⟩ := takesType_defaultValue hstored
    exact .cons hvalue hsingle hmode hstored htakes (ih hrest)

theorem spreads_spreadTypes (hsome : count ≠ 0) (hseveral : count ≠ 1)
    (hrun : spreadTypes operand count c s = (.ok types, s')) :
    operand.Spreads s.types types ∧ types.length = count ∧ s = s' := by
  obtain ⟨_, _, ⟨⟩, hrun⟩ := bind_ok.mp hrun
  have hspread {found : List TypeId} (hspreads : found.length = count →
        operand.Spreads s.types found)
      (hrun : (if found.length == count then return found
        else failCount count found.length operand.span : Lower _) c s = (.ok types, s')) :
      operand.Spreads s.types types ∧ types.length = count ∧ s = s' := by
    split at hrun
    · rename_i hlength
      obtain ⟨rfl, rfl⟩ := pure_ok.mp hrun
      exact ⟨hspreads (beq_iff_eq.mp hlength), beq_iff_eq.mp hlength, rfl⟩
    · exact absurd hrun Fails.fails
  have hother (hone : ∀ elements, s.types.get operand.type ≠ .tuple elements) :
      (if operand.commaOk && count == 2 then [operand.type, TypeTable.bool]
        else if operand.mode == .noValue then [] else [operand.type]).length = count →
      operand.Spreads s.types (if operand.commaOk && count == 2 then [operand.type, TypeTable.bool]
        else if operand.mode == .noValue then [] else [operand.type]) := by
    intro hlength
    split
    · rename_i hcommaOk
      exact .commaOk (Bool.and_eq_true_iff.mp hcommaOk).1 hone
    · rename_i hnot
      rw [if_neg hnot] at hlength
      split at hlength
      · exact absurd hlength.symm hsome
      · exact absurd hlength.symm hseveral
  cases hget : s.types.get operand.type with
  | tuple elements =>
    rw [hget] at hrun
    exact hspread (fun _ => .results hget) hrun
  | _ =>
    rw [hget] at hrun
    exact hspread (hother (fun elements => by rw [hget]; nofun)) hrun

theorem stores_lowerValues (hsome : count ≠ 0)
    (hrun : lowerValues walk values count none span c s = (.ok (ids, types), s')) :
    Stores walk c values count s ids types s' := by
  unfold lowerValues at hrun
  by_cases hcount : values.length = count
  · rw [if_pos (beq_iff_eq.mpr hcount)] at hrun
    obtain ⟨stored, s₁, hstored, hrun⟩ := bind_ok.mp hrun
    obtain ⟨hunzip, rfl⟩ := pure_ok.mp hrun
    rw [List.unzip_eq_map] at hunzip
    obtain ⟨rfl, rfl⟩ := Prod.mk.inj hunzip
    exact .each hcount (storesEach_mapM hstored)
  · rw [if_neg (by simpa using hcount)] at hrun
    rcases values with _ | ⟨value, _ | ⟨second, rest⟩⟩
    · exact absurd hrun Fails.fails
    · obtain ⟨operand, s₁, hvalue, hrun⟩ := bind_ok.mp hrun
      obtain ⟨found, s₂, hfound, hrun⟩ := bind_ok.mp hrun
      obtain ⟨hpair, rfl⟩ := pure_ok.mp hrun
      obtain ⟨rfl, rfl⟩ := Prod.mk.inj hpair
      have hseveral : count ≠ 1 := Ne.symm hcount
      obtain ⟨hspreads, hlength, rfl⟩ := spreads_spreadTypes hsome hseveral hfound
      exact .all rfl hseveral hvalue rfl hspreads hlength
    · exact absurd hrun Fails.fails

/-! ## Names that are bound -/

/-- The symbols for names that are defined together. -/
def variableEntries (names : List String) (types : List TypeId) : List (String × Symbol) :=
  (names.zip types).map (fun (name, type) => (name, .variable type))

/-- Names have been bound in the current scope, and nothing else has. -/
structure Bound (entries : List (String × Symbol)) (scopes scopes' : Scopes) : Prop where
  binds : scopes.Binds entries scopes'
  keeps : scopes.Keeps scopes'
  current : scopes'.current = scopes.current
  enclosing : ∀ id, id ≠ scopes.current → scopes'.get? id = scopes.get? id

theorem Bound.trans {u v w : Scopes} {first rest : List (String × Symbol)}
    (h₁ : Bound first u v) (h₂ : Bound rest v w) : Bound (first ++ rest) u w where
  binds := h₁.binds.trans h₂.binds
  keeps := h₁.keeps.trans h₂.keeps
  current := h₂.current.trans h₁.current
  enclosing id hid := (h₂.enclosing id (h₁.current ▸ hid)).trans (h₁.enclosing id hid)

theorem bound_bind {name : String} {symbol : Symbol} {u : Unit} (hopen : s.scopes.IsOpen)
    (hrun : bind name symbol c s = (.ok u, s')) : Bound [(name, symbol)] s.scopes s'.scopes where
  binds := bind_binds hopen hrun
  keeps := keeps_run hrun
  current := (Still.settles hrun).current
  enclosing id hid := by
    obtain ⟨-, rfl⟩ := Prod.mk.inj hrun
    dsimp only
    cases hdefine : s.scopes.define name symbol with
    | ok scopes => exact Scopes.get?_define hdefine hid
    | error taken => rfl

theorem bound_forM {u : Unit} (hopen : s.scopes.IsOpen)
    (hrun : ((names.zip types).forM (fun (name, type) => bind name (.variable type)) :
      Lower Unit) c s = (.ok u, s')) :
    Bound (variableEntries names types) s.scopes s'.scopes := by
  unfold variableEntries
  generalize names.zip types = pairs at hrun ⊢
  induction pairs generalizing s with
  | nil =>
    obtain ⟨-, rfl⟩ := pure_ok.mp hrun
    exact ⟨.refl _, .refl _, rfl, fun _ _ => rfl⟩
  | cons pair pairs ih =>
    obtain ⟨_, s₁, hfirst, hrest⟩ := bind_ok.mp hrun
    have hbound := bound_bind hopen hfirst
    exact hbound.trans (ih (hbound.keeps.isOpen hbound.current hopen) hrest)

/-- What a definition is asked to do with the names on its left side. The values have been lowered
at the second of the states. -/
structure DefinesSoundly (c : Context) (names : List String) (types : List TypeId)
    (s t s' : State) : Prop where
  /-- A value that is stored in a name which is there already is of a type that the name takes. -/
  redeclared : ∀ name type symbol, (name, type) ∈ names.zip types → name ≠ Names.blank →
    t.scopes.locals.lookup name = some symbol → t.assignable c type symbol.type
  /-- A new name has the type of its value. -/
  new : ∀ name type, (name, type) ∈ names.zip types → name ≠ Names.blank →
    t.scopes.locals.lookup name = none → s'.scopes.locals.lookup name = some (.variable type)
  /-- What is bound keeps its symbol, and nothing is bound in the scopes around. -/
  keeps : s.scopes.Keeps s'.scopes
  enclosing : ∀ id, id ≠ s.scopes.current → s'.scopes.get? id = t.scopes.get? id

/-- The types of the values fit the names that are there already, and there is one type for each
new name. -/
structure FitsNames (c : Context) (names : List String) (types : List TypeId) (t : State) :
    Prop where
  redeclared : ∀ name type symbol, (name, type) ∈ names.zip types → name ≠ Names.blank →
    t.scopes.locals.lookup name = some symbol → t.assignable c type symbol.type
  repeated : ∀ name type other, (name, type) ∈ names.zip types → (name, other) ∈ names.zip types →
    name ≠ Names.blank → t.scopes.locals.lookup name = none → type = other

theorem mem_variableEntries {name : String} {symbol : Symbol} :
    (name, symbol) ∈ variableEntries names types ↔
      ∃ type, (name, type) ∈ names.zip types ∧ symbol = .variable type := by
  simp only [variableEntries, List.mem_map, Prod.mk.injEq, Prod.exists]
  constructor
  · rintro ⟨_, type, hmem, rfl, rfl⟩
    exact ⟨type, hmem, rfl⟩
  · rintro ⟨type, hmem, rfl⟩
    exact ⟨name, type, hmem, rfl, rfl⟩

/-- A new name is bound to a variable with the type of one of the values that are stored in it. -/
theorem lookup_of_bound {name : String} {type : TypeId}
    (hbound : Bound (variableEntries names types) t.scopes s'.scopes)
    (hmem : (name, type) ∈ names.zip types) (hname : name ≠ Names.blank)
    (hnew : t.scopes.locals.lookup name = none) :
    ∃ other, (name, other) ∈ names.zip types ∧
      s'.scopes.locals.lookup name = some (.variable other) := by
  have hlookup := hbound.binds.lookup name hname
  rw [List.lookup_append, hnew, Option.none_or] at hlookup
  have hentry := mem_variableEntries.mpr ⟨type, hmem, rfl⟩
  cases hfound : (variableEntries names types).lookup name with
  | none => exact absurd (List.lookup_eq_none_iff.mp hfound _ hentry) (by simp)
  | some symbol =>
    obtain ⟨before, after, heq, -⟩ := List.lookup_eq_some_iff.mp hfound
    have hfirst : (name, symbol) ∈ variableEntries names types := by simp [heq]
    obtain ⟨other, hother, rfl⟩ := mem_variableEntries.mp hfirst
    exact ⟨other, hother, hlookup.trans hfound⟩

theorem definesSoundly_iff (hkeeps : s.scopes.Keeps t.scopes)
    (hcurrent : t.scopes.current = s.scopes.current)
    (hbound : Bound (variableEntries names types) t.scopes s'.scopes) :
    DefinesSoundly c names types s t s' ↔ FitsNames c names types t := by
  constructor
  · intro h
    refine ⟨h.redeclared, fun name type other htype hother hname hnew => ?_⟩
    have hfirst := h.new name type htype hname hnew
    exact Symbol.variable.inj (Option.some.inj (hfirst.symm.trans (h.new name other hother hname
      hnew)))
  · intro h
    refine ⟨h.redeclared, fun name type hmem hname hnew => ?_, hkeeps.trans hbound.keeps,
      fun id hid => hbound.enclosing id (hcurrent ▸ hid)⟩
    obtain ⟨other, hother, hlookup⟩ := lookup_of_bound hbound hmem hname hnew
    rw [hlookup, h.repeated name other type hother hmem hname hnew]

/-! ## Definitions -/

theorem definedNames_ok {lhs : List NodeId} (hrun : lhs.mapM definedName c s = (.ok names, s')) :
    List.Forall₂ (fun id name => c.unit.identifier? id = some name) lhs names ∧ s = s' := by
  induction lhs generalizing s names with
  | nil =>
    obtain ⟨rfl, rfl⟩ := pure_ok.mp hrun
    exact ⟨.nil, rfl⟩
  | cons id lhs ih =>
    rw [List.mapM_cons] at hrun
    obtain ⟨name, s₁, hname, hrun⟩ := bind_ok.mp hrun
    obtain ⟨rest, s₂, hrest, hrun⟩ := bind_ok.mp hrun
    obtain ⟨rfl, rfl⟩ := pure_ok.mp hrun
    unfold definedName at hname
    rw [run_read] at hname
    cases hfound : c.unit.identifier? id with
    | none =>
      rw [hfound] at hname
      exact absurd hname Fails.fails
    | some found =>
      rw [hfound] at hname
      obtain ⟨rfl, rfl⟩ := pure_ok.mp hname
      obtain ⟨hnames, rfl⟩ := ih hrest
      exact ⟨.cons hfound hnames, rfl⟩

theorem nameNodes_ok {pairs : List (NodeId × String)} {final : State}
    (hrun : (pairs.mapM (fun (id, name) => nameNode id name) : Lower _) c s = (.ok ids, s'))
    (hfinal : s'.Precedes final) :
    ids.mapM final.tree.name? = some (pairs.map (·.2)) ∧ s'.scopes = s.scopes := by
  induction pairs generalizing s ids with
  | nil =>
    obtain ⟨rfl, rfl⟩ := pure_ok.mp hrun
    exact ⟨rfl, rfl⟩
  | cons pair pairs ih =>
    rw [List.mapM_cons] at hrun
    obtain ⟨id, s₁, hid, hrun⟩ := bind_ok.mp hrun
    obtain ⟨rest, s₂, hrest, hrun⟩ := bind_ok.mp hrun
    obtain ⟨rfl, rfl⟩ := pure_ok.mp hrun
    obtain ⟨_, _, ⟨⟩, hplace⟩ := bind_ok.mp hid
    obtain ⟨hnames, hscopes⟩ := ih hrest
    refine ⟨?_, hscopes.trans ?_⟩
    · rw [List.mapM_cons, HostTree.name?,
        kind_addNode hplace ((precedes_run hrest).trans hfinal), hnames]
      rfl
    · obtain ⟨-, rfl⟩ := Prod.mk.inj hplace
      rfl

/-- The values of a definition that is lowered are stored as they are. New names, of which there is
at least one, are bound in the current scope with the types that they take from them. -/
theorem lowerDefine_ok {depth : Nat} {lhs rhs : List NodeId} {id : HostId} (hopen : s.scopes.IsOpen)
    (hrun : lowerDefine (walkWithin depth) lhs rhs span c s = (.ok id, s')) :
    ∃ names ids types t,
      List.Forall₂ (fun id name => c.unit.identifier? id = some name) lhs names ∧
      lowerValues (walkWithin depth) rhs names.length none span c s = (.ok (ids, types), t) ∧
      Stores (walkWithin depth) c rhs names.length s ids types t ∧
      (∃ name ∈ names, name ≠ Names.blank ∧ t.scopes.isLocal name = false) ∧
      (∃ targets, s'.tree.kind id = .assign targets .define ids ∧
        targets.mapM s'.tree.name? = some names) ∧
      s.scopes.Keeps t.scopes ∧ t.scopes.current = s.scopes.current ∧
      Bound (variableEntries names types) t.scopes s'.scopes := by
  unfold lowerDefine at hrun
  obtain ⟨names, s₁, hnames, hrun⟩ := bind_ok.mp hrun
  obtain ⟨hwritten, rfl⟩ := definedNames_ok hnames
  obtain ⟨⟨ids, types⟩, t, hvalues, hrun⟩ := bind_ok.mp hrun
  obtain ⟨_, _, ⟨⟩, hrun⟩ := bind_ok.mp hrun
  dsimp only at hrun
  cases hnew : names.any (fun name => name != Names.blank && !t.scopes.isLocal name) with
  | false =>
    rw [hnew, if_neg Bool.false_ne_true] at hrun
    exact absurd hrun Fails.fails
  | true =>
    rw [hnew, if_pos rfl] at hrun
    obtain ⟨_, s₂, hbind, hrun⟩ := bind_ok.mp hrun
    obtain ⟨targets, s₃, htargets, hplace⟩ := bind_ok.mp hrun
    have hkeeps : s.scopes.Keeps t.scopes := keeps_run hvalues
    have hcurrent : t.scopes.current = s.scopes.current := by
      have hs := Steady.run (m := lowerValues (walkWithin depth) rhs names.length none span)
        inferInstance c s
      rw [hvalues] at hs
      exact hs.current
    have hbound := bound_forM (hkeeps.isOpen hcurrent hopen) hbind
    obtain ⟨htargets, hscopes⟩ := nameNodes_ok htargets (precedes_run hplace)
    rw [List.map_snd_zip (Nat.le_of_eq hwritten.length_eq.symm)] at htargets
    have hplaced : s'.scopes = s₃.scopes := by
      obtain ⟨-, rfl⟩ := Prod.mk.inj hplace
      rfl
    rw [← hscopes, ← hplaced] at hbound
    obtain ⟨name, hname, hfresh⟩ := List.any_eq_true.mp hnew
    have hsome : names.length ≠ 0 := (List.length_pos_of_mem hname).ne'
    exact ⟨names, ids, types, t, hwritten, hvalues, stores_lowerValues hsome hvalues,
      ⟨name, hname, by simpa using hfresh⟩,
      ⟨targets, kind_addNode hplace (.refl _), htargets⟩, hkeeps, hcurrent, hbound⟩

/-- A definition that is lowered does with its names what it is asked to, just in case the types of
the values fit the names that are there and no name is repeated for values of other types. -/
theorem lowerDefine_sound_iff {depth : Nat} {lhs rhs : List NodeId} {id : HostId}
    (hopen : s.scopes.IsOpen)
    (hrun : lowerDefine (walkWithin depth) lhs rhs span c s = (.ok id, s')) :
    ∃ names ids types t,
      List.Forall₂ (fun id name => c.unit.identifier? id = some name) lhs names ∧
      lowerValues (walkWithin depth) rhs names.length none span c s = (.ok (ids, types), t) ∧
      Stores (walkWithin depth) c rhs names.length s ids types t ∧
      (∃ targets, s'.tree.kind id = .assign targets .define ids ∧
        targets.mapM s'.tree.name? = some names) ∧
      (∀ name type, (name, type) ∈ names.zip types → name ≠ Names.blank →
        t.scopes.locals.lookup name = none →
        ∃ first, (name, first) ∈ names.zip types ∧
          s'.scopes.locals.lookup name = some (.variable first)) ∧
      (DefinesSoundly c names types s t s' ↔ FitsNames c names types t) := by
  obtain ⟨names, ids, types, t, hnames, hvalues, hstores, -, hplaced, hkeeps, hcurrent, hbound⟩ :=
    lowerDefine_ok hopen hrun
  exact ⟨names, ids, types, t, hnames, hvalues, hstores, hplaced,
    fun name type hmem hname hnew => lookup_of_bound hbound hmem hname hnew,
    definesSoundly_iff hkeeps hcurrent hbound⟩

/-- The nodes of `x`, `y`, `1` and `"a"`. -/
def definitionSample : Context :=
  .sample [.expr (.identifier "x"), .expr (.identifier "y"), .expr (.literal .int "1"),
    .expr (.literal .string "\"a\"")] []

/-- A function with a variable `x int`. -/
def definitionState : State := .inside .initial [] [("x", TypeTable.int)]

theorem isOpen_definitionState : definitionState.scopes.IsOpen := by
  change 1 < 2
  decide

/-- The values of a definition of `x` and `y`, where `x` is there already and `y` is not. -/
theorem definitionSample_values {rhs : List NodeId} {types : List TypeId} {t : State}
    (found : List TypeId)
    (hvalues : lowerValues (walkWithin 2) rhs 2 none .synthetic definitionSample definitionState =
      (.ok (ids, types), t))
    (hfound : (match lowerValues (walkWithin 2) rhs 2 none .synthetic definitionSample
        definitionState with
      | (.ok (_, types), t) => types == found && (t.scopes.locals.lookup "y").isNone &&
        (t.scopes.locals.lookup "x").map (·.type) == some TypeTable.int
      | (.error _, _) => false) = true) :
    types = found ∧ t.scopes.locals.lookup "y" = none ∧
      (t.scopes.locals.lookup "x").map (·.type) = some TypeTable.int := by
  rw [hvalues] at hfound
  simpa [and_assoc] using hfound

theorem definitionSample_names {names : List String}
    (hnames : List.Forall₂ (fun id name => definitionSample.unit.identifier? id = some name)
      [⟨0⟩, ⟨1⟩] names) : names = ["x", "y"] := by
  obtain _ | ⟨hx, _ | ⟨hy, hnil⟩⟩ := hnames
  cases hnil
  rw [← Option.some.inj hx, ← Option.some.inj hy]

/-- `x, y := 1, "a"` in a scope with `x int`. -/
theorem lowerDefine_sound_iff_redeclared : ∃ id s', lowerDefine (walkWithin 2) [⟨0⟩, ⟨1⟩]
      [⟨2⟩, ⟨3⟩] .synthetic definitionSample definitionState = (.ok id, s') ∧
    ∃ t, DefinesSoundly definitionSample ["x", "y"] [TypeTable.int, TypeTable.string]
      definitionState t s' := by
  obtain ⟨id, s', hrun⟩ := exists_ok (m := lowerDefine (walkWithin 2) [⟨0⟩, ⟨1⟩] [⟨2⟩, ⟨3⟩]
    .synthetic) (c := definitionSample) (s := definitionState) (by decide +kernel)
  obtain ⟨names, ids, types, t, hnames, hvalues, -, -, -, hiff⟩ :=
    lowerDefine_sound_iff isOpen_definitionState hrun
  obtain rfl := definitionSample_names hnames
  obtain ⟨rfl, hnew, hold⟩ := definitionSample_values [TypeTable.int, TypeTable.string]
    hvalues (by decide +kernel)
  refine ⟨id, s', hrun, t, hiff.mpr ⟨?_, ?_⟩⟩
  · intro name type symbol hmem _ hsymbol
    obtain ⟨rfl, rfl⟩ | ⟨rfl, rfl⟩ : name = "x" ∧ type = TypeTable.int ∨
        name = "y" ∧ type = TypeTable.string := by simpa using hmem
    · rw [hsymbol, Option.map_some] at hold
      rw [Option.some.inj hold]
      exact TypeTable.assignable_refl ..
    · cases hnew.symm.trans hsymbol
  · intro name type other htype hother _ _
    obtain ⟨rfl, rfl⟩ | ⟨rfl, rfl⟩ : name = "x" ∧ type = TypeTable.int ∨
        name = "y" ∧ type = TypeTable.string := by simpa using htype
    · exact (by simpa using hother : other = TypeTable.int).symm
    · exact (by simpa using hother : other = TypeTable.string).symm

/-- `x, y := "a", 1` is lowered in a scope with `x int`, whose type does not take the string. -/
theorem lowerDefine_unsound : ∃ id s' ids t, lowerDefine (walkWithin 2) [⟨0⟩, ⟨1⟩] [⟨3⟩, ⟨2⟩]
      .synthetic definitionSample definitionState = (.ok id, s') ∧
    Stores (walkWithin 2) definitionSample [⟨3⟩, ⟨2⟩] 2 definitionState ids
      [TypeTable.string, TypeTable.int] t ∧
    ¬DefinesSoundly definitionSample ["x", "y"] [TypeTable.string, TypeTable.int] definitionState t
      s' := by
  obtain ⟨id, s', hrun⟩ := exists_ok (m := lowerDefine (walkWithin 2) [⟨0⟩, ⟨1⟩] [⟨3⟩, ⟨2⟩]
    .synthetic) (c := definitionSample) (s := definitionState) (by decide +kernel)
  obtain ⟨names, ids, types, t, hnames, hvalues, hstores, -⟩ :=
    lowerDefine_ok isOpen_definitionState hrun
  obtain rfl := definitionSample_names hnames
  obtain ⟨rfl, -, hold⟩ := definitionSample_values [TypeTable.string, TypeTable.int]
    hvalues (by decide +kernel)
  refine ⟨id, s', ids, t, hrun, hstores, fun hsound => ?_⟩
  obtain ⟨symbol, hsymbol, htype⟩ := Option.map_eq_some_iff.mp hold
  have hassignable := hsound.redeclared "x" TypeTable.string symbol (by simp) (by decide) hsymbol
  rw [htype] at hassignable
  have hnot : (match lowerValues (walkWithin 2) [⟨3⟩, ⟨2⟩] 2 none .synthetic definitionSample
        definitionState with
      | (_, t) => t.types.assignable
        (fun id name => (t.method? definitionSample.env id name).isSome) TypeTable.string
        TypeTable.int) = false := by
    decide +kernel
  change lowerValues _ _ 2 _ _ _ _ = _ at hvalues
  rw [hvalues] at hnot
  exact Bool.false_ne_true (hnot.symm.trans hassignable)

end Lowering

end GoLowering
