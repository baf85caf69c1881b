import GoLowering.Proofs.FormedParts
import GoLowering.Proofs.SpelledTypes

/-!
# Parts that stay within the table

A type is a position in the table, and every position that a lowering comes to is one of the table
at that time: the types that the context and the state name are (`State.Grounded`), a structural
type is only asked for with parts that are, and what is answered is. So the table stays in order,
with the parts of a type before it, whatever is lowered.

A part is *grounded* if it leaves such a state behind where it begins in one, whether or not it
fails, and something is known of the types of its result (`Grounds`). What is known of the result of
each part is chosen once (`Brings`).
-/

namespace GoLowering

/-! ## Types that are named -/

/-- The types that a name of the environment stands for or has. -/
def Resolution.types : Resolution → List TypeId
  | value _ _ id | const _ id | type id => [id]
  | nil | package _ | builtin _ => []

def Environment.types (env : Environment) : List TypeId :=
  env.predeclared.flatMap (·.2.types) ++
    env.packages.flatMap (fun package => package.2.flatMap (·.2.types)) ++
    env.methods.map (·.2.sig)

def Registry.types (registry : Registry) : List TypeId := registry.entries.map (·.type)

def Scopes.types (s : Scopes) : List TypeId :=
  s.scopes.toList.flatMap (fun scope => scope.symbols.map (·.2.type))

namespace Scopes

variable {s t : Scopes} {id : TypeId} {name : String} {symbol : Symbol} {scope : Scope}

theorem mem_types : id ∈ s.types ↔
    ∃ scope ∈ s.scopes.toList, ∃ binding ∈ scope.symbols, binding.2.type = id := by
  simp only [types, List.mem_flatMap, List.mem_map]

theorem types_push (s : Scopes) (kind : ScopeKind) : (s.push kind).types = s.types := by
  simp [types, push]

theorem mem_types_define (h : s.define name symbol = .ok t) (hid : id ∈ t.types) :
    id ∈ s.types ∨ id = symbol.type := by
  unfold define at h
  split at h
  · cases h
    exact .inl hid
  · split at h
    · cases h
    · cases h
      obtain ⟨scope, hscope, binding, hbinding, rfl⟩ := mem_types.mp hid
      obtain ⟨i, hi, rfl⟩ := List.mem_iff_getElem.mp hscope
      simp only [Array.toList_modify, List.getElem_modify] at hbinding
      split at hbinding
      · rcases List.mem_append.mp hbinding with hold | hnew
        · exact .inl (mem_types.mpr ⟨_, List.getElem_mem _, binding, hold, rfl⟩)
        · exact .inr (by rw [List.mem_singleton.mp hnew])
      · exact .inl (mem_types.mpr ⟨_, List.getElem_mem _, binding, hbinding, rfl⟩)

theorem mem_of_mem_chainWithin {steps : Nat} {from? : ScopeId}
    (h : scope ∈ s.chainWithin steps from?) : scope ∈ s.scopes.toList := by
  induction steps generalizing from? with
  | zero => cases h
  | succ steps ih =>
    unfold chainWithin at h
    split at h
    · cases h
    · rename_i first hget
      rcases List.mem_cons.mp h with rfl | h
      · exact Array.mem_toList_iff.mpr (Array.mem_of_getElem? hget)
      · split at h
        · exact ih h
        · cases h

theorem mem_types_of_lookup? (h : s.lookup? name = some symbol) : symbol.type ∈ s.types := by
  obtain ⟨scope, hscope, hlookup⟩ := List.exists_of_findSome?_eq_some h
  exact mem_types.mpr ⟨scope, mem_of_mem_chainWithin hscope, _, Keyed.mem_of_lookup hlookup, rfl⟩

end Scopes

namespace Lowering

open Surface

def Global.types : Global → List TypeId
  | type _ id | func _ id => id.toList
  | value _ => []

/-- The types that are given with a unit. -/
def Context.types (c : Context) : List TypeId := c.env.types ++ c.registry.types

/-- The types that a state names outside of the nodes. -/
def State.namedTypes (s : State) : List TypeId :=
  s.scopes.types ++ s.globals.flatMap (·.2.types) ++ s.methods.map (·.2.sig) ++
    (s.function.getD [])

/-- The table of a state is in order and has all types that are named in it. -/
structure State.Grounded (c : Context) (s : State) : Prop where
  initial : TypeTable.initial.size ≤ s.types.size
  canonical : s.types.Canonical
  functions : s.types.MethodsAreFunctions
  context : ∀ id ∈ c.types, id.index < s.types.size
  named : ∀ id ∈ s.namedTypes, id.index < s.types.size

namespace State.Grounded

variable {c : Context} {s s' : State}

/-- Only types of the table are named anew. -/
theorem renamed (h : s.Grounded c) (htypes : s'.types = s.types)
    (hnamed : ∀ id ∈ s'.namedTypes, id ∈ s.namedTypes ∨ id.index < s.types.size) :
    s'.Grounded c where
  initial := htypes ▸ h.initial
  canonical := htypes ▸ h.canonical
  functions := htypes ▸ h.functions
  context := htypes ▸ h.context
  named id hid := htypes ▸ (hnamed id hid).elim (h.named id) (fun hin => hin)

/-- The table has grown, and is in order. -/
theorem retyped (h : s.Grounded c) {types : TypeTable} (hgrows : s.types.Grows types)
    (hcanonical : types.Canonical) (hfunctions : types.MethodsAreFunctions) :
    { s with types := types }.Grounded c where
  initial := Nat.le_trans h.initial hgrows.size_le
  canonical := hcanonical
  functions := hfunctions
  context id hid := Nat.lt_of_lt_of_le (h.context id hid) hgrows.size_le
  named id hid := Nat.lt_of_lt_of_le (h.named id hid) hgrows.size_le

theorem mem_namedTypes {id : TypeId} : id ∈ s.namedTypes ↔ id ∈ s.scopes.types ∨
    id ∈ s.globals.flatMap (·.2.types) ∨ id ∈ s.methods.map (·.2.sig) ∨
      id ∈ s.function.getD [] := by
  simp only [State.namedTypes, List.mem_append, or_assoc]

theorem setScopes (h : s.Grounded c) {scopes : Scopes}
    (hscopes : ∀ id ∈ scopes.types, id ∈ s.scopes.types ∨ id.index < s.types.size) :
    { s with scopes := scopes }.Grounded c := by
  refine h.renamed rfl (fun id hid => ?_)
  rcases mem_namedTypes.mp hid with hid | hid
  · exact (hscopes id hid).imp_left (fun hid => mem_namedTypes.mpr (.inl hid))
  · exact .inl (mem_namedTypes.mpr (.inr hid))

theorem setGlobals (h : s.Grounded c) {globals : Keyed String Global}
    (hglobals : ∀ entry ∈ globals, entry ∈ s.globals ∨
      ∀ id ∈ entry.2.types, id.index < s.types.size) :
    { s with globals := globals }.Grounded c := by
  refine h.renamed rfl (fun id hid => ?_)
  rcases mem_namedTypes.mp hid with hid | hid | hid
  · exact .inl (mem_namedTypes.mpr (.inl hid))
  · obtain ⟨entry, hentry, hid⟩ := List.mem_flatMap.mp hid
    rcases hglobals entry hentry with hold | hnew
    · exact .inl (mem_namedTypes.mpr (.inr (.inl (List.mem_flatMap.mpr ⟨entry, hold, hid⟩))))
    · exact .inr (hnew id hid)
  · exact .inl (mem_namedTypes.mpr (.inr (.inr hid)))

theorem addMethod (h : s.Grounded c) {receiver : TypeId} {method : Method}
    (hmethod : method.sig.index < s.types.size) :
    { s with methods := s.methods ++ [(receiver, method)] }.Grounded c := by
  refine h.renamed rfl (fun id hid => ?_)
  rcases mem_namedTypes.mp hid with hid | hid | hid | hid
  · exact .inl (mem_namedTypes.mpr (.inl hid))
  · exact .inl (mem_namedTypes.mpr (.inr (.inl hid)))
  · rw [List.map_append] at hid
    rcases List.mem_append.mp hid with hold | hnew
    · exact .inl (mem_namedTypes.mpr (.inr (.inr (.inl hold))))
    · exact .inr (List.mem_singleton.mp hnew ▸ hmethod)
  · exact .inl (mem_namedTypes.mpr (.inr (.inr (.inr hid))))

/-- The function around may change, and what has nothing to do with types. -/
theorem setFunction (h : s.Grounded c) (htypes : s'.types = s.types)
    (hscopes : s'.scopes.types = s.scopes.types) (hglobals : s'.globals = s.globals)
    (hmethods : s'.methods = s.methods)
    (hfunction : ∀ id ∈ s'.function.getD [], id.index < s.types.size) : s'.Grounded c := by
  refine h.renamed htypes (fun id hid => ?_)
  rcases mem_namedTypes.mp hid with hid | hid | hid | hid
  · exact .inl (mem_namedTypes.mpr (.inl (hscopes ▸ hid)))
  · exact .inl (mem_namedTypes.mpr (.inr (.inl (hglobals ▸ hid))))
  · exact .inl (mem_namedTypes.mpr (.inr (.inr (.inl (hmethods ▸ hid)))))
  · exact .inr (hfunction id hid)

theorem function_lt (h : s.Grounded c) (hsize : s.types.size ≤ s'.types.size) {id : TypeId}
    (hid : id ∈ s.function.getD []) : id.index < s'.types.size :=
  Nat.lt_of_lt_of_le (h.named id (mem_namedTypes.mpr (.inr (.inr (.inr hid))))) hsize

end State.Grounded

/-! ## What is known of types -/

namespace Fact

/-- A type is in the table; the first ones are in every table. -/
def inTable (id : TypeId) : Fact where
  Holds s := id.index < TypeTable.initial.size ∨ id.index < s.types.size
  stays hs h := h.imp_right (fun h => Nat.lt_of_lt_of_le h hs.types.size_le)

/-- A type is one of functions. -/
def function (id : TypeId) : Fact where
  Holds s := ∃ sig, s.types.get id = .func sig
  stays hs h := by
    obtain ⟨sig, hsig⟩ := h
    exact ⟨sig, by rw [hs.types.get_eq (by rw [hsig]; nofun) (by rw [hsig]; rfl), hsig]⟩

/-- A table has been in order and has been there. -/
def table (types : TypeTable) : Fact where
  Holds s := types.Canonical ∧ types.size ≤ s.types.size
  stays hs h := ⟨h.1, Nat.le_trans h.2 hs.types.size_le⟩

/-- The types that are given with a unit are in the table. -/
def context (c : Context) : Fact where
  Holds s := ∀ id ∈ c.types, id.index < s.types.size
  stays hs h id hid := Nat.lt_of_lt_of_le (h id hid) hs.types.size_le

/-- A state has been there whose table was in order and had the types that it named. -/
def state (s : State) : Fact where
  Holds t := (table s.types).Holds t ∧ ∀ id ∈ s.namedTypes, id.index < s.types.size
  stays hs h := ⟨(table s.types).stays hs h.1, h.2⟩

abbrev inTables (ids : List TypeId) : Fact := each inTable ids

abbrev signature (sig : Signature) : Fact := (inTables sig.params).and (inTables sig.results)

end Fact

section

variable {c : Context} {Γ : Fact} {id piece : TypeId} {s s' : State} {types : TypeTable}

theorem State.Grounded.index_lt (hs : s.Grounded c) (h : (Fact.inTable id).Holds s) :
    id.index < s.types.size :=
  h.elim (fun h => Nat.lt_of_lt_of_le h hs.initial) (fun h => h)

instance (priority := 50) yields_of_cons {α : Type} {P : α → Fact} {χ : Fact} {a : α} {as : List α}
    [h : Yields ((Γ.and (P a)).and (.each P as)) χ] : Yields (Γ.and (.each P (a :: as))) χ :=
  ⟨fun hs => h.of ⟨⟨hs.1, hs.2 a List.mem_cons_self⟩,
    fun b hb => hs.2 b (List.mem_cons_of_mem a hb)⟩⟩

/-! ## Types of every table -/

instance inTable_basic {kind : BasicType} : Yields Γ (.inTable (TypeTable.basic kind)) := by
  refine ⟨fun _ => .inl ?_⟩
  rw [TypeTable.size_initial]
  cases kind <;> decide

instance inTable_invalid : Yields Γ (.inTable TypeTable.invalid) := ⟨fun _ => .inl (by decide)⟩

instance inTable_any : Yields Γ (.inTable TypeTable.any) := ⟨fun _ => .inl (by decide)⟩

instance inTable_bool : Yields Γ (.inTable TypeTable.bool) := inTable_basic

instance inTable_int : Yields Γ (.inTable TypeTable.int) := inTable_basic

instance inTable_int32 : Yields Γ (.inTable TypeTable.int32) := inTable_basic

instance inTable_string : Yields Γ (.inTable TypeTable.string) := inTable_basic

instance inTable_untypedNil : Yields Γ (.inTable TypeTable.untypedNil) := inTable_basic

/-! ## Types that are read from a table -/

instance inTable_of_function [h : Yields Γ (.function id)] : Yields Γ (.inTable id) := by
  refine ⟨fun hs => .inr ?_⟩
  obtain ⟨sig, hsig⟩ := h.of hs
  exact TypeTable.index_lt_size (by rw [hsig]; nofun)

instance table_of_state [h : Yields Γ (.state s)] : Yields Γ (.table s.types) :=
  ⟨fun hs => (h.of hs).1⟩

/-- What an entry of the table mentions is in the table. -/
theorem inTable_of_entry {entry : Ty} [h : Yields Γ (.table types)]
    (hentry : types.get id = entry) (hpart : piece ∈ TypeTable.mentioned entry) :
    Yields Γ (.inTable piece) := by
  subst hentry
  refine ⟨fun hs => .inr ?_⟩
  obtain ⟨hcanonical, hsize⟩ := h.of hs
  have hid : id.index < types.size :=
    TypeTable.index_lt_size (fun he => by rw [he] at hpart; cases hpart)
  exact Nat.lt_of_lt_of_le (Nat.lt_trans (hcanonical.parts id hid piece hpart) hid) hsize

/-- The parameters and the results of a type of functions are in the table. -/
theorem signature_of_table [Yields Γ (.table types)] {sig : Signature}
    (hsig : types.signature? id = some sig) : Yields Γ (.signature sig) := by
  have hshape : types.get (types.underlying id) = .func sig := by
    unfold TypeTable.signature? TypeTable.shape at hsig
    split at hsig
    · rename_i hget
      rw [hget, Option.some.inj hsig]
    · cases hsig
  refine ⟨fun hs => ⟨fun part hpart => ?_, fun part hpart => ?_⟩⟩
  · exact (inTable_of_entry (Γ := Γ) hshape (List.mem_append_left sig.results hpart)).of hs
  · exact (inTable_of_entry (Γ := Γ) hshape (List.mem_append_right sig.params hpart)).of hs

/-- At the end of a chain of definitions there is a type of the table. -/
instance inTable_underlying [h : Yields Γ (.table types)] [hid : Yields Γ (.inTable id)] :
    Yields Γ (.inTable (types.underlying id)) := by
  suffices hresolve : ∀ steps id, Yields Γ (.inTable id) →
      Yields Γ (.inTable (types.resolve steps id)) from hresolve 64 id hid
  intro steps
  induction steps with
  | zero => exact fun _ _ => inTable_invalid
  | succ steps ih =>
    intro id hid
    unfold TypeTable.resolve
    split
    · rename_i package name next hget
      exact ih next ⟨fun hs => .inr (Nat.lt_of_lt_of_le
        ((h.of hs).1.definitions id package name next hget) (h.of hs).2)⟩
    · exact inTable_invalid
    · exact hid

instance inTable_defaultType [hid : Yields Γ (.inTable id)] :
    Yields Γ (.inTable (types.defaultType id)) := by
  unfold TypeTable.defaultType
  split <;> first | exact inTable_basic | exact hid

instance inTables_resultsOf [Yields Γ (.table types)] [hid : Yields Γ (.inTable id)] :
    Yields Γ (.inTables (types.resultsOf id)) := by
  unfold TypeTable.resultsOf
  split
  · rename_i elements hget
    refine ⟨fun hs part hpart => ?_⟩
    have hmentioned : part ∈ TypeTable.mentioned (types.get id) := by rwa [hget]
    exact (inTable_of_entry (Γ := Γ) rfl hmentioned).of hs
  · infer_instance

end

/-! ## Grounded parts -/

/-- A run that has begun in a state leaves a grounded state, and something is known of its
result. -/
structure Grounding (c : Context) (s : State) {α : Type} (P : α → Fact)
    (r : Except Failure α × State) : Prop where
  precedes : s.Precedes r.2
  grounded : r.2.Grounded c
  result : ∀ a, r.1 = .ok a → (P a).Holds r.2

/-- A part stays within the table. -/
class Grounds (c : Context) (Γ : Fact) {α : Type} (m : Lower α) (P : α → Fact) : Prop where
  run {s : State} : s.Grounded c → Γ.Holds s → Grounding c s P (m c s)

/-- What is known of the result of a part that stays within the table, to those who use it. -/
class Brings (c : Context) (Γ : Fact) {α : Type} (m : Lower α) (P : outParam (α → Fact)) :
    Prop where
  grounds : Grounds c Γ m P

/-- The table has not changed between two states, and no types are named anew. -/
structure TypesKept (s s' : State) : Prop where
  tree : s.tree.Grows s'.tree
  types : s'.types = s.types
  named : ∀ id ∈ s'.namedTypes, id ∈ s.namedTypes

/-- A part that has nothing to do with the table. -/
class Typeless {α : Type} (m : Lower α) : Prop where
  run (c : Context) (s : State) : TypesKept s (m c s).2

section

variable {c : Context} {Γ φ : Fact} {α β γ : Type} {m : Lower α} {f : α → Lower β} {P Q : α → Fact}
  {R : β → Fact} {s s' : State}

theorem TypesKept.refl (s : State) : TypesKept s s := ⟨.refl _, rfl, fun _ => id⟩

theorem TypesKept.trans {s₁ s₂ s₃ : State} (h₁ : TypesKept s₁ s₂) (h₂ : TypesKept s₂ s₃) :
    TypesKept s₁ s₃ :=
  ⟨h₁.tree.trans h₂.tree, h₂.types.trans h₁.types, fun id hid => h₁.named id (h₂.named id hid)⟩

theorem TypesKept.precedes (h : TypesKept s s') : s.Precedes s' :=
  ⟨h.tree, h.types ▸ .refl _⟩

theorem TypesKept.grounded (h : TypesKept s s') (hs : s.Grounded c) : s'.Grounded c :=
  hs.renamed h.types (fun id hid => .inl (h.named id hid))

instance typeless_reads [h : Reads m] : Typeless m :=
  ⟨fun c s => (h.state_eq c s).symm ▸ .refl s⟩

instance typeless_bind [hm : Typeless m] [hf : ∀ a, Typeless (f a)] : Typeless (m >>= f) where
  run c s := by
    have h := hm.run c s
    rw [run_bind]
    rcases hrun : m c s with ⟨r, s₁⟩
    rw [hrun] at h
    cases r with
    | error failure => exact h
    | ok a => exact h.trans ((hf a).run c s₁)

theorem Typeless.before [Typeless m] (hf : ∀ a, Typeless (f a)) : Typeless (m >>= f) :=
  typeless_bind

instance typeless_map {g : α → β} [Typeless m] : Typeless (g <$> m) := by
  rw [map_eq_pure_bind]
  infer_instance

instance typeless_ite {p : Prop} [Decidable p] {n : Lower α} [hm : Typeless m] [hn : Typeless n] :
    Typeless (if p then m else n) := by
  split
  · exact hm
  · exact hn

instance typeless_mapM {g : γ → Lower α} {xs : List γ} [h : ∀ x, Typeless (g x)] :
    Typeless (xs.mapM g) := by
  induction xs with
  | nil => exact typeless_reads (m := pure [])
  | cons x xs ih =>
    rw [List.mapM_cons]
    infer_instance

instance typeless_optionMapM {g : γ → Lower α} {x : Option γ} [h : ∀ x, Typeless (g x)] :
    Typeless (x.mapM g) := by
  cases x with
  | none => exact typeless_reads (m := pure none)
  | some x => exact typeless_map

instance typeless_forM {g : γ → Lower PUnit} {xs : List γ} [h : ∀ x, Typeless (g x)] :
    Typeless (xs.forM g) := by
  induction xs with
  | nil => exact typeless_reads (m := pure _)
  | cons x xs ih => exact typeless_bind

instance typeless_allM {g : γ → Lower Bool} {xs : List γ} [h : ∀ x, Typeless (g x)] :
    Typeless (xs.allM g) := by
  induction xs with
  | nil => exact typeless_reads (m := pure true)
  | cons x xs ih =>
    refine Typeless.before (fun b => ?_)
    cases b with
    | true => exact ih
    | false => exact typeless_reads (m := pure false)

/-- A step that leaves the table and the types that are named alone. -/
theorem typeless_modify {g : State → State} (htree : ∀ s, (g s).tree = s.tree)
    (htypes : ∀ s, (g s).types = s.types) (hnamed : ∀ s, (g s).namedTypes = s.namedTypes) :
    Typeless (modify g : Lower Unit) :=
  ⟨fun _ s => ⟨(htree s).symm ▸ .refl _, htypes s, fun _ hid => hnamed s ▸ hid⟩⟩

/-! ## Sequences -/

theorem Grounds.pure {a : α} (h : Yields Γ (P a)) : Grounds c Γ (Pure.pure a) P := by
  refine ⟨fun hs hΓ => ⟨.refl _, hs, fun b hb => ?_⟩⟩
  obtain rfl := Except.ok.inj hb
  exact h.of hΓ

theorem Grounds.bind (hm : Grounds c Γ m P) (hf : ∀ a, Grounds c (Γ.and (P a)) (f a) R) :
    Grounds c Γ (m >>= f) R := by
  refine ⟨fun {s} hs hΓ => ?_⟩
  have h := hm.run hs hΓ
  rw [run_bind]
  rcases hrun : m c s with ⟨r, s₁⟩
  rw [hrun] at h
  cases r with
  | error failure => exact ⟨h.precedes, h.grounded, nofun⟩
  | ok a =>
    have h' := (hf a).run h.grounded ⟨Γ.stays h.precedes hΓ, h.result a rfl⟩
    exact ⟨h.precedes.trans h'.precedes, h'.grounded, h'.result⟩

theorem Grounds.weaken (hm : Grounds c Γ m P) (h : ∀ a, Yields (Γ.and (P a)) (Q a)) :
    Grounds c Γ m Q := by
  refine ⟨fun hs hΓ => ?_⟩
  have hrun := hm.run hs hΓ
  exact ⟨hrun.precedes, hrun.grounded, fun a ha =>
    (h a).of ⟨Γ.stays hrun.precedes hΓ, hrun.result a ha⟩⟩

/-- What is known lets something else be known first. -/
theorem Grounds.given (h : Yields Γ φ) (hm : Grounds c (Γ.and φ) m P) : Grounds c Γ m P :=
  ⟨fun hs hΓ => hm.run hs ⟨hΓ, h.of hΓ⟩⟩

theorem Grounds.typeless [hm : Typeless m] (h : ∀ a, Yields Γ (P a)) : Grounds c Γ m P :=
  ⟨fun {s} hs hΓ => ⟨(hm.run c s).precedes, (hm.run c s).grounded hs, fun a _ =>
    (P a).stays (hm.run c s).precedes ((h a).of hΓ)⟩⟩

theorem Grounds.skip [Typeless m] (hf : ∀ a, Grounds c Γ (f a) R) : Grounds c Γ (m >>= f) R :=
  (Grounds.typeless (P := fun _ => .nothing) (fun _ => yields_nothing)).bind (fun a =>
    ⟨fun hs hΓ => (hf a).run hs hΓ.1⟩)

/-- Of a part that fails nothing needs to be known. -/
theorem Grounds.failing [hm : Typeless m] [hfails : Fails m] : Grounds c Γ m P :=
  ⟨fun {s} hs _ => ⟨(hm.run c s).precedes, (hm.run c s).grounded hs, fun a ha =>
    absurd (show m c s = (.ok a, (m c s).2) from Prod.ext ha rfl) hfails.fails⟩⟩

instance grounds_pure {a : α} [h : Yields Γ (P a)] : Grounds c Γ (pure a) P := .pure h

instance (priority := low) grounds_brought [hm : Brings c Γ m Q]
    [h : ∀ a, Yields (Γ.and (Q a)) (P a)] : Grounds c Γ m P :=
  hm.grounds.weaken h

instance (priority := low) grounds_failing [Typeless m] [Fails m] : Grounds c Γ m P := .failing

instance grounds_failing_bind [Typeless m] [Fails m] : Grounds c Γ (m >>= f) R :=
  (Grounds.failing (P := fun _ => .known False)).bind (fun _ => ⟨fun _ hΓ => hΓ.2.elim⟩)

instance (priority := low) grounds_typeless [Typeless m] [h : ∀ a, Yields Γ (P a)] :
    Grounds c Γ m P :=
  .typeless h

instance grounds_bind [hm : Brings c Γ m P] [hf : ∀ a, Grounds c (Γ.and (P a)) (f a) R] :
    Grounds c Γ (m >>= f) R :=
  hm.grounds.bind hf

instance (priority := low) grounds_skip [Typeless m] [hf : ∀ a, Grounds c Γ (f a) R] :
    Grounds c Γ (m >>= f) R :=
  .skip hf

instance grounds_return {a : α} [h : Grounds c Γ (f a) R] : Grounds c Γ (pure a >>= f) R := by
  rwa [pure_bind]

instance grounds_ite {p : Prop} [Decidable p] {n : Lower α} [hm : Grounds c Γ m P]
    [hn : Grounds c Γ n P] : Grounds c Γ (if p then m else n) P := by
  split
  · exact hm
  · exact hn

instance grounds_map {g : α → β} [h : Grounds c Γ (m >>= fun a => pure (g a)) R] :
    Grounds c Γ (g <$> m) R := by
  rwa [map_eq_pure_bind]

instance grounds_map_bind {g : α → β} {k : β → Lower γ} {R : γ → Fact}
    [h : Grounds c Γ (m >>= fun a => k (g a)) R] : Grounds c Γ ((g <$> m) >>= k) R := by
  rwa [map_eq_pure_bind, bind_assoc, funext fun a => pure_bind (g a) k]

/-! ## What is read -/

/-- The types of the context are in the table. -/
theorem Grounds.read {g : Context → Lower α} (h : Grounds c (Γ.and (.context c)) (g c) P) :
    Grounds c Γ (read >>= g) P :=
  ⟨fun hs hΓ => h.run hs ⟨hΓ, hs.context⟩⟩

instance grounds_read {g : Context → Lower α} [h : Grounds c (Γ.and (.context c)) (g c) P] :
    Grounds c Γ (read >>= g) P :=
  h.read

instance brings_getTypes : Brings c Γ getTypes .table :=
  ⟨⟨fun {s} hs _ => ⟨.refl s, hs, fun types htypes => by
    obtain rfl := Except.ok.inj htypes
    exact ⟨hs.canonical, Nat.le_refl _⟩⟩⟩⟩

instance brings_get : Brings c Γ get .state :=
  ⟨⟨fun {s} hs _ => ⟨.refl s, hs, fun t ht => by
    obtain rfl := Except.ok.inj ht
    exact ⟨⟨hs.canonical, Nat.le_refl _⟩, hs.named⟩⟩⟩⟩

section

variable {types : TypeTable} {id piece : TypeId} {entry : Ty}

/-- A part of an entry of the table is in the table. -/
theorem Grounds.part [Yields Γ (.table types)] (hentry : types.get id = entry)
    (hpart : piece ∈ TypeTable.mentioned entry) (hm : Grounds c (Γ.and (.inTable piece)) m P) :
    Grounds c Γ m P :=
  .given (inTable_of_entry hentry hpart) hm

/-- The parts of an entry of the table are in the table. -/
theorem Grounds.parts [Yields Γ (.table types)] (ids : List TypeId) (hentry : types.get id = entry)
    (hids : ids ⊆ TypeTable.mentioned entry) (hm : Grounds c (Γ.and (.inTables ids)) m P) :
    Grounds c Γ m P :=
  .given ⟨fun hs _ hid => (inTable_of_entry (Γ := Γ) hentry (hids hid)).of hs⟩ hm

theorem Grounds.signature [Yields Γ (.table types)] {sig : Signature}
    (hsig : types.signature? id = some sig) (hm : Grounds c (Γ.and (.signature sig)) m P) :
    Grounds c Γ m P :=
  .given (signature_of_table hsig) hm

end

/-! ## Lists -/

/-- A part is run for each of some things, of each of which something is known. What has been known
before the first one stays known. -/
theorem Grounds.mapM {g : γ → Lower α} {xs : List γ} (K : γ → Fact) [hxs : Yields Γ (.each K xs)]
    (h : ∀ x ∈ xs, ∀ Δ : Fact, Grounds c ((Γ.and Δ).and (K x)) (g x) P) :
    Grounds c Γ (xs.mapM g) (.each P) := by
  suffices hall : ∀ Δ : Fact, Grounds c (Γ.and Δ) (xs.mapM g) (.each P) from
    ⟨fun hs hΓ => (hall .nothing).run hs ⟨hΓ, trivial⟩⟩
  revert hxs h
  induction xs with
  | nil =>
    intro _ _ Δ
    exact .pure yields_nil
  | cons x xs ih =>
    intro hxs h Δ
    have hx : Yields (Γ.and Δ) (K x) := ⟨fun hs => hxs.of hs.1 x List.mem_cons_self⟩
    have hrest : Yields Γ (.each K xs) :=
      ⟨fun hs y hy => hxs.of hs y (List.mem_cons_of_mem x hy)⟩
    rw [List.mapM_cons]
    refine Grounds.bind (.given hx (h x List.mem_cons_self Δ)) (fun a => ?_)
    have hmap := ih (fun y hy => h y (List.mem_cons_of_mem x hy)) (Δ.and (P a))
    refine Grounds.bind (P := .each P)
      ⟨fun hs hΓ => hmap.run hs ⟨hΓ.1.1, hΓ.1.2, hΓ.2⟩⟩ (fun as => ?_)
    infer_instance

theorem Grounds.forM {g : γ → Lower PUnit} {xs : List γ} (K : γ → Fact)
    [hxs : Yields Γ (.each K xs)]
    (h : ∀ x ∈ xs, ∀ Δ : Fact, Grounds c ((Γ.and Δ).and (K x)) (g x) (fun _ => .nothing)) :
    Grounds c Γ (xs.forM g) (fun _ => .nothing) := by
  suffices hall : ∀ Δ : Fact, Grounds c (Γ.and Δ) (xs.forM g) (fun _ => .nothing) from
    ⟨fun hs hΓ => (hall .nothing).run hs ⟨hΓ, trivial⟩⟩
  revert hxs h
  induction xs with
  | nil =>
    intro _ _ Δ
    exact .pure yields_nothing
  | cons x xs ih =>
    intro hxs h Δ
    have hx : Yields (Γ.and Δ) (K x) := ⟨fun hs => hxs.of hs.1 x List.mem_cons_self⟩
    have hrest : Yields Γ (.each K xs) :=
      ⟨fun hs y hy => hxs.of hs y (List.mem_cons_of_mem x hy)⟩
    refine Grounds.bind (.given hx (h x List.mem_cons_self Δ)) (fun _ => ?_)
    have hrun := ih (fun y hy => h y (List.mem_cons_of_mem x hy)) Δ
    exact ⟨fun hs hΓ => hrun.run hs hΓ.1⟩

instance brings_mapM {g : γ → Lower α} {xs : List γ} [h : ∀ x Δ, Brings c (Γ.and Δ) (g x) P] :
    Brings c Γ (xs.mapM g) (.each P) :=
  have : Yields Γ (.each (fun _ => .nothing) xs) := ⟨fun _ _ _ => trivial⟩
  ⟨.mapM (fun _ => .nothing) (fun x _ Δ => ⟨fun hs hΓ => (h x Δ).grounds.run hs hΓ.1⟩)⟩

instance brings_optionMapM {g : γ → Lower α} {x : Option γ} [h : ∀ x, Brings c Γ (g x) P] :
    Brings c Γ (x.mapM g) (fun r => .each P r.toList) := by
  constructor
  cases x with
  | none => exact .pure yields_none
  | some x => exact grounds_map

/-! ## Steps -/

instance typeless_addNode (kind : HostKind) (origin : Option Span) :
    Typeless (addNode kind origin) :=
  ⟨fun _ s => ⟨s.tree.grows_add kind origin, rfl, fun _ => id⟩⟩

instance typeless_freshName : Typeless freshName := ⟨fun _ _ => ⟨.refl _, rfl, fun _ => id⟩⟩

instance typeless_hoist (id : HostId) : Typeless (hoist id) :=
  typeless_modify (fun _ => rfl) (fun _ => rfl) (fun _ => rfl)

instance typeless_takeHoisted : Typeless takeHoisted := ⟨fun _ _ => ⟨.refl _, rfl, fun _ => id⟩⟩

instance typeless_warn (problem : Problem) (span : Span) : Typeless (warn problem span) :=
  typeless_modify (fun _ => rfl) (fun _ => rfl) (fun _ => rfl)

instance typeless_note (event : Event) : Typeless (note event) :=
  typeless_modify (fun _ => rfl) (fun _ => rfl) (fun _ => rfl)

instance typeless_noteLiteral (id : HostId) (statements : List HostId) :
    Typeless (noteLiteral id statements) :=
  typeless_modify (fun _ => rfl) (fun _ => rfl) (fun _ => rfl)

instance typeless_notePropagation (call : HostId) (names : List String) :
    Typeless (notePropagation call names) :=
  typeless_modify (fun _ => rfl) (fun _ => rfl) (fun _ => rfl)

instance typeless_onOutline (g : Outline NodeId HostId → Outline NodeId HostId) :
    Typeless (onOutline g) :=
  typeless_modify (fun _ => rfl) (fun _ => rfl) (fun _ => rfl)

instance typeless_setProgress (root : NodeId) (progress : Progress) :
    Typeless (setProgress root progress) :=
  typeless_modify (fun _ => rfl) (fun _ => rfl) (fun _ => rfl)

instance typeless_recordFailure (failure : Failure) : Typeless (recordFailure failure) :=
  .before (fun _ => typeless_modify (fun _ => rfl) (fun _ => rfl) (fun _ => rfl))

section

variable {id : TypeId}

/-- A structural type is asked for with parts that are in the table. -/
theorem grounds_intern {op : TypeTable → TypeId × TypeTable} {entry : Ty} {P : TypeId → Fact}
    (hop : ∀ t, op t = t.intern entry) (hentry : entry.isStructural = true)
    [hparts : Yields Γ (.inTables (TypeTable.mentioned entry))]
    [hmethods : Yields Γ (.each (fun m => .function m.sig) (TypeTable.methodsOf entry))]
    (hP : ∀ {s : State} {id : TypeId}, s.types.get id = entry → (P id).Holds s) :
    Grounds c Γ (onTypes op) P := by
  refine ⟨fun {s} hs hΓ => ?_⟩
  have hgrows : s.types.Grows (s.types.intern entry).2 := (s.types.begins_intern entry).grows
  have hrun : onTypes op c s =
      (.ok (s.types.intern entry).1, { s with types := (s.types.intern entry).2 }) := by
    rw [← hop]
    rfl
  rw [hrun]
  refine ⟨⟨.refl _, hgrows⟩, hs.retyped hgrows ?_ ?_, fun id hid => ?_⟩
  · exact hs.canonical.intern hentry (fun part hpart => hs.index_lt (hparts.of hΓ part hpart))
  · refine hs.functions.intern (fun method hmethod => ?_)
    obtain ⟨sig, hsig⟩ := hmethods.of hΓ method hmethod
    rw [hsig]
    rfl
  · obtain rfl := Except.ok.inj hid
    exact hP (s.types.get_intern entry).2

theorem brings_structural (parts : List TypeId) {op : TypeTable → TypeId × TypeTable} {entry : Ty}
    (hop : ∀ t, op t = t.intern entry) (hentry : entry.isStructural = true)
    (hmethods : TypeTable.methodsOf entry = [])
    (hparts : TypeTable.mentioned entry = parts) [h : Yields Γ (.inTables parts)] :
    Brings c Γ (onTypes op) .inTable := by
  have : Yields Γ (.inTables (TypeTable.mentioned entry)) := hparts ▸ h
  have : Yields Γ (.each (fun m => .function m.sig) (TypeTable.methodsOf entry)) := by
    rw [hmethods]
    infer_instance
  refine ⟨grounds_intern hop hentry (fun {s id} hget => .inr (TypeTable.index_lt_size ?_))⟩
  rw [hget]
  rintro rfl
  cases hentry

variable {key value : TypeId} {ids results : List TypeId}

instance brings_pointer [Yields Γ (.inTable id)] : Brings c Γ (onTypes (·.pointer id)) .inTable :=
  brings_structural [id] (fun _ => rfl) rfl rfl rfl

instance brings_slice [Yields Γ (.inTable id)] : Brings c Γ (onTypes (·.slice id)) .inTable :=
  brings_structural [id] (fun _ => rfl) rfl rfl rfl

instance brings_array {length : Nat} [Yields Γ (.inTable id)] :
    Brings c Γ (onTypes (·.array id length)) .inTable :=
  brings_structural [id] (fun _ => rfl) rfl rfl rfl

instance brings_chan {dir : ChanDir} [Yields Γ (.inTable id)] :
    Brings c Γ (onTypes (·.chan id dir)) .inTable :=
  brings_structural [id] (fun _ => rfl) rfl rfl rfl

instance brings_map [Yields Γ (.inTable key)] [Yields Γ (.inTable value)] :
    Brings c Γ (onTypes (·.map key value)) .inTable :=
  brings_structural [key, value] (fun _ => rfl) rfl rfl rfl

instance brings_tuple [Yields Γ (.inTables ids)] : Brings c Γ (onTypes (·.tuple ids)) .inTable :=
  brings_structural ids (fun _ => rfl) rfl rfl rfl

instance brings_struct {fields : List Field} [Yields Γ (.each (fun f => .inTable f.type) fields)] :
    Brings c Γ (onTypes (·.struct fields)) .inTable :=
  brings_structural (fields.map (·.type)) (fun _ => rfl) rfl rfl rfl

/-- The type of functions with some parameters and results. -/
instance brings_func {variadic : Bool} [Yields Γ (.inTables ids)] [Yields Γ (.inTables results)] :
    Brings c Γ (onTypes (·.func ids results variadic)) .function := by
  have : Yields Γ (.inTables (TypeTable.mentioned (.func ⟨ids, results, variadic⟩))) :=
    yields_append
  have : Yields Γ (.each (fun m => .function m.sig)
      (TypeTable.methodsOf (.func ⟨ids, results, variadic⟩))) :=
    yields_nil
  exact ⟨grounds_intern (fun _ => rfl) rfl (fun hget => ⟨_, hget⟩)⟩

instance brings_interface {methods : List InterfaceMethod}
    [h : Yields Γ (.each (fun m => .function m.sig) methods)] :
    Brings c Γ (onTypes (·.interface methods)) .inTable := by
  have hsorted : Yields Γ (.each (fun m => .function m.sig)
      (methods.mergeSort (fun a b => a.name ≤ b.name))) :=
    ⟨fun hs m hm => h.of hs m (List.mem_mergeSort.mp hm)⟩
  have : Yields Γ (.inTables (TypeTable.mentioned
      (.interface (methods.mergeSort (fun a b => a.name ≤ b.name))))) := by
    refine ⟨fun {s} hs id hid => ?_⟩
    obtain ⟨m, hm, rfl⟩ := List.mem_map.mp hid
    exact (inTable_of_function (Γ := .function m.sig)).of (hsorted.of hs m hm)
  have : Yields Γ (.each (fun m => .function m.sig) (TypeTable.methodsOf
      (.interface (methods.mergeSort (fun a b => a.name ≤ b.name))))) :=
    hsorted
  exact ⟨grounds_intern (fun _ => rfl) rfl
    (fun hget => .inr (TypeTable.index_lt_size (by rw [hget]; nofun)))⟩

instance brings_declareNamed {package : Option String} {name : String} :
    Brings c Γ (onTypes (·.declareNamed package name)) .inTable := by
  refine ⟨⟨fun {s} hs _ => ?_⟩⟩
  have hgrows := (s.types.begins_declareNamed package name).grows
  refine ⟨⟨.refl _, hgrows⟩, hs.retyped hgrows (hs.canonical.declareNamed package name)
    (hs.functions.declareNamed package name), fun id hid => ?_⟩
  obtain rfl := Except.ok.inj hid
  exact .inr (s.types.index_declareNamed_lt package name)

/-- A named type is given a definition that is in the table. -/
instance brings_define {named definition : TypeId} [h : Yields Γ (.inTable definition)] :
    Brings c Γ (modify (fun s => { s with types := s.types.define named definition }) : Lower Unit)
      (fun _ => .nothing) := by
  refine ⟨⟨fun {s} hs hΓ => ?_⟩⟩
  have hgrows := s.types.grows_define named definition
  exact ⟨⟨.refl _, hgrows⟩, hs.retyped hgrows (hs.canonical.define (hs.index_lt (h.of hΓ)))
    (hs.functions.define named definition), fun _ _ => trivial⟩

end

/-! ## Names -/

section

variable {name : String} {symbol : Symbol} {global : Global}

/-- A name is bound to a symbol of a type that is in the table. -/
instance brings_bindName [h : Yields Γ (.inTable symbol.type)] :
    Brings c Γ (Lowering.bind name symbol) (fun _ => .nothing) := by
  refine ⟨⟨fun {s} hs hΓ => ⟨⟨.refl _, .refl _⟩, hs.setScopes (fun id hid => ?_),
    fun _ _ => trivial⟩⟩⟩
  dsimp only at hid
  split at hid
  · rename_i scopes hdefine
    refine (Scopes.mem_types_define hdefine hid).imp_right (fun heq => ?_)
    rw [heq]
    exact hs.index_lt (h.of hΓ)
  · exact .inl hid

/-- A name of the unit is given a type that is in the table, if any. -/
theorem grounds_setGlobals [h : Yields Γ (.inTables global.types)] :
    Grounds c Γ (modify (fun s => { s with globals := s.globals.set name global }) : Lower Unit)
      (fun _ => .nothing) := by
  refine ⟨fun {s} hs hΓ => ⟨⟨.refl _, .refl _⟩, hs.setGlobals (fun entry hentry => ?_),
    fun _ _ => trivial⟩⟩
  refine (Keyed.mem_set hentry).imp_right (fun heq id hid => ?_)
  rw [heq] at hid
  exact hs.index_lt (h.of hΓ id hid)

instance brings_setGlobal [Yields Γ (.inTables global.types)] :
    Brings c Γ (setGlobal name global) (fun _ => .nothing) :=
  ⟨grounds_setGlobals⟩

/-- The meaning of a name is of a type that is in the table. -/
theorem inTable_of_scopes [h : Yields Γ (.state s)] (hlookup : s.scopes.lookup? name = some symbol) :
    Yields Γ (.inTable symbol.type) :=
  ⟨fun hΓ => .inr (Nat.lt_of_lt_of_le
    ((h.of hΓ).2 _ (State.Grounded.mem_namedTypes.mpr (.inl (Scopes.mem_types_of_lookup? hlookup))))
    (h.of hΓ).1.2)⟩

theorem inTables_of_globals [h : Yields Γ (.state s)] (hlookup : s.globals.lookup name = some global) :
    Yields Γ (.inTables global.types) := by
  refine ⟨fun hΓ _ hid => .inr (Nat.lt_of_lt_of_le ((h.of hΓ).2 _ ?_) (h.of hΓ).1.2)⟩
  exact State.Grounded.mem_namedTypes.mpr
    (.inr (.inl (List.mem_flatMap.mpr ⟨_, Keyed.mem_of_lookup hlookup, hid⟩)))

instance inTables_function [h : Yields Γ (.state s)] :
    Yields Γ (.inTables (s.function.getD [])) :=
  ⟨fun hΓ _ hid => .inr (Nat.lt_of_lt_of_le
    ((h.of hΓ).2 _ (State.Grounded.mem_namedTypes.mpr (.inr (.inr (.inr hid))))) (h.of hΓ).1.2)⟩

end

/-! ## Parts under changes of the state -/

/-- What is run under changes of the function around, and of what has nothing to do with types, is
grounded. -/
theorem Grounds.within {enter : State → State} {leave : State → State → State}
    (henter : ∀ s, (enter s).tree = s.tree ∧ (enter s).types = s.types ∧
      (enter s).scopes.types = s.scopes.types ∧ (enter s).globals = s.globals ∧
      (enter s).methods = s.methods)
    (hfunction : ∀ s, Γ.Holds s → s.Grounded c → ∀ id ∈ (enter s).function.getD [],
      id.index < s.types.size)
    (hleave : ∀ s s', (leave s s').tree = s'.tree ∧ (leave s s').types = s'.types ∧
      (leave s s').scopes.types = s'.scopes.types ∧ (leave s s').globals = s'.globals ∧
      (leave s s').methods = s'.methods ∧
      ((leave s s').function = s.function ∨ (leave s s').function = s'.function))
    (h : Grounds c Γ m P) : Grounds c Γ (within enter leave m) P := by
  refine ⟨fun {s} hs hΓ => ?_⟩
  obtain ⟨htree, htypes, hscopes, hglobals, hmethods⟩ := henter s
  have hbegin : s.Precedes (enter s) := ⟨htree ▸ .refl _, htypes ▸ .refl _⟩
  obtain ⟨hprecedes, hgrounded, hresult⟩ := h.run
    (hs.setFunction htypes hscopes hglobals hmethods (hfunction s hΓ hs)) (Γ.stays hbegin hΓ)
  rw [run_within]
  generalize (m c (enter s)).2 = s' at hprecedes hgrounded hresult ⊢
  obtain ⟨htree', htypes', hscopes', hglobals', hmethods', hfunction'⟩ := hleave s s'
  have hend : s'.Precedes (leave s s') := ⟨htree' ▸ .refl _, htypes' ▸ .refl _⟩
  refine ⟨(hbegin.trans hprecedes).trans hend,
    hgrounded.setFunction htypes' hscopes' hglobals' hmethods' (fun id hid => ?_),
    fun a ha => (P a).stays hend (hresult a ha)⟩
  rcases hfunction' with he | he
  · rw [he] at hid
    exact hs.function_lt (hbegin.trans hprecedes).types.size_le hid
  · rw [he] at hid
    exact hgrounded.function_lt (Nat.le_refl _) hid

/-- What is run under changes of what has nothing to do with types is grounded. -/
theorem Grounds.aside {enter : State → State} {leave : State → State → State}
    (henter : ∀ s, (enter s).tree = s.tree ∧ (enter s).types = s.types ∧
      (enter s).scopes.types = s.scopes.types ∧ (enter s).globals = s.globals ∧
      (enter s).methods = s.methods ∧ (enter s).function = s.function)
    (hleave : ∀ s s', (leave s s').tree = s'.tree ∧ (leave s s').types = s'.types ∧
      (leave s s').scopes.types = s'.scopes.types ∧ (leave s s').globals = s'.globals ∧
      (leave s s').methods = s'.methods ∧ (leave s s').function = s'.function)
    (h : Grounds c Γ m P) : Grounds c Γ (Lowering.within enter leave m) P := by
  refine h.within (fun s => ?_) (fun s _ hs id hid => ?_) (fun s s' => ?_)
  · obtain ⟨htree, htypes, hscopes, hglobals, hmethods, -⟩ := henter s
    exact ⟨htree, htypes, hscopes, hglobals, hmethods⟩
  · rw [(henter s).2.2.2.2.2] at hid
    exact hs.function_lt (Nat.le_refl _) hid
  · obtain ⟨htree, htypes, hscopes, hglobals, hmethods, hfunction⟩ := hleave s s'
    exact ⟨htree, htypes, hscopes, hglobals, hmethods, .inr hfunction⟩

theorem Grounds.inScope {kind : ScopeKind} (h : Grounds c Γ m P) : Grounds c Γ (inScope kind m) P :=
  h.aside (fun s => ⟨rfl, rfl, s.scopes.types_push kind, rfl, rfl, rfl⟩)
    (fun _ _ => ⟨rfl, rfl, rfl, rfl, rfl, rfl⟩)

theorem Grounds.inFrame {name : String} (h : Grounds c Γ m P) : Grounds c Γ (inFrame name m) P :=
  h.aside (fun _ => ⟨rfl, rfl, rfl, rfl, rfl, rfl⟩) (fun _ _ => ⟨rfl, rfl, rfl, rfl, rfl, rfl⟩)

theorem Grounds.inFunction {kind : ScopeKind} {results : List TypeId}
    [hresults : Yields Γ (.inTables results)] (h : Grounds c Γ m P) :
    Grounds c Γ (inFunction kind results m) P :=
  h.within (fun s => ⟨rfl, rfl, s.scopes.types_push kind, rfl, rfl⟩)
    (fun _ hΓ hs id hid => hs.index_lt (hresults.of hΓ id hid))
    (fun _ _ => ⟨rfl, rfl, rfl, rfl, rfl, .inl rfl⟩)

theorem Grounds.atPackageLevel (h : Grounds c Γ m P) : Grounds c Γ (atPackageLevel m) P := by
  unfold Lowering.atPackageLevel
  refine .read ?_
  refine Grounds.within (fun _ => ⟨rfl, rfl, rfl, rfl, rfl⟩) (fun _ _ _ => nofun)
    (fun _ _ => ⟨rfl, rfl, rfl, rfl, rfl, .inl rfl⟩) ?_
  exact ⟨fun hs hΓ => h.run hs hΓ.1⟩

instance brings_inScope {kind : ScopeKind} [h : Brings c Γ m P] : Brings c Γ (inScope kind m) P :=
  ⟨h.grounds.inScope⟩

instance brings_hoisting [h : Brings c Γ m P] :
    Brings c Γ (hoisting m) (fun r => P r.2) := by
  refine ⟨Grounds.aside (fun _ => ⟨rfl, rfl, rfl, rfl, rfl, rfl⟩)
    (fun _ _ => ⟨rfl, rfl, rfl, rfl, rfl, rfl⟩) (h.grounds.bind (fun a => ?_))⟩
  infer_instance

/-- A part may fail, but what it leaves behind is grounded. -/
theorem Grounds.attempt (h : Grounds c Γ m P) :
    Grounds c Γ (attempt m) (fun r => .each P r.toOption.toList) := by
  refine ⟨fun {s} hs hΓ => ?_⟩
  obtain ⟨hprecedes, hgrounded, hresult⟩ := h.run hs hΓ
  rw [run_attempt]
  refine ⟨hprecedes, hgrounded, fun r hr a ha => ?_⟩
  obtain rfl := Except.ok.inj hr
  refine hresult a ?_
  cases he : (m c s).1 with
  | ok b =>
    rw [he] at ha
    exact congrArg Except.ok (List.mem_singleton.mp ha).symm
  | error failure =>
    rw [he] at ha
    cases ha

theorem Grounds.reporting {m : Lower Unit} (h : Grounds c Γ m (fun _ => .nothing)) :
    Grounds c Γ (reporting m) (fun _ => .nothing) := by
  unfold Lowering.reporting
  refine h.attempt.bind (fun r => ?_)
  cases r <;> infer_instance

/-- A walk whose parts are grounded, provided that what is expected is in the table. -/
class Walk.Grounds (c : Context) (walk : Walk) : Prop where
  expr (Γ : Fact) (id : NodeId) (expect : Expectation) [Yields Γ (.inTables expect.type.toList)] :
    Brings c Γ (walk.expr id expect) (fun o => .inTable o.type)
  statement (Γ : Fact) (id : NodeId) : Brings c Γ (walk.statement id) (fun _ => .nothing)
  type (Γ : Fact) (id : NodeId) : Brings c Γ (walk.type id) .inTable
  target (Γ : Fact) (id : NodeId) : Brings c Γ (walk.target id) .inTable
  value (Γ : Fact) (root : NodeId) (name : String) (span : Span) :
    Brings c Γ (walk.value root name span) (fun _ => .nothing)

attribute [instance] Walk.Grounds.expr Walk.Grounds.statement Walk.Grounds.type Walk.Grounds.target
  Walk.Grounds.value

end

end Lowering

end GoLowering
