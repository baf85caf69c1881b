import Mathlib.Data.List.Forall2
import GoLowering.Proofs.TypeNames
import GoLowering.Types.Indexed

/-!
# Types are their positions

Two types are compared by their positions in the table alone. That is sound as long as no type is
in a table twice. Whatever operations are applied to a table, each to types that are in it by then,

* no two entries are equal, definitions of named types apart (`Canonical.nodup`), and the parts of
  an entry come before it (`Canonical.parts`);
* so two types that have the same structure all the way down are one (`Canonical.identical_iff`);
* an entry stays what it is, but for the definition of a named type (`Keeps`);
* a table with look-up tables (`IndexedTypes`) gives the same answers (`Indexes.performAll`), for
  its look-up tables name the first entry that a search would find, which definitions leave alone.

`types_are_positions` puts these together.
-/

namespace GoLowering

namespace Ty

/-- An entry less the definition of a named type. -/
def declared : Ty → Ty
  | .named package name _ => .named package name none
  | entry => entry

def isStructural : Ty → Bool
  | .basic _ | .named .. | .invalid => false
  | _ => true

/-- Whether two entries are made in the same way of parts that are related. -/
def Corresponds (R : TypeId → TypeId → Prop) : Ty → Ty → Prop
  | .basic kind, .basic other => kind = other
  | .named package name _, .named otherPackage otherName _ =>
    package = otherPackage ∧ name = otherName
  | .pointer target, .pointer other => R target other
  | .slice element, .slice other => R element other
  | .array element length, .array other otherLength => R element other ∧ length = otherLength
  | .map key value, .map otherKey otherValue => R key otherKey ∧ R value otherValue
  | .chan element dir, .chan other otherDir => R element other ∧ dir = otherDir
  | .func sig, .func other =>
    List.Forall₂ R sig.params other.params ∧ List.Forall₂ R sig.results other.results ∧
      sig.variadic = other.variadic
  | .struct fields, .struct others =>
    List.Forall₂ (fun f g => f.name = g.name ∧ R f.type g.type ∧ f.embedded = g.embedded ∧
      f.tag = g.tag) fields others
  | .interface methods, .interface others =>
    List.Forall₂ (fun m n => m.name = n.name ∧ R m.sig n.sig) methods others
  | .tuple elements, .tuple others => List.Forall₂ R elements others
  | .invalid, .invalid => True
  | _, _ => False

theorem declared_of_isStructural {entry : Ty} (h : entry.isStructural = true) :
    entry.declared = entry := by
  cases entry <;> first | rfl | cases h

theorem declared_eq_of_isStructural {entry other : Ty} (h : entry.isStructural = true)
    (he : other.declared = entry.declared) : other = entry := by
  cases entry <;> simp [isStructural] at h <;> cases other <;> simp_all [declared]

theorem isNamedAs_declared (package : Option String) (name : String) (entry : Ty) :
    entry.declared.isNamedAs package name = entry.isNamedAs package name := by
  cases entry <;> rfl

theorem beq_eq_false {entry other : Ty} (h : entry.isStructural = true)
    (hother : other.isStructural = false) : (other == entry) = false := by
  rw [beq_eq_false_iff_ne]
  rintro rfl
  rw [h] at hother
  cases hother

theorem isNamedAs_eq_false {entry : Ty} (h : entry.isStructural = true)
    (package : Option String) (name : String) : entry.isNamedAs package name = false := by
  cases entry <;> first | rfl | cases h

theorem beq_declared {entry : Ty} (h : entry.isStructural = true) (other : Ty) :
    (other.declared == entry) = (other == entry) := by
  cases other with
  | named package name definition => cases entry <;> simp_all [isStructural, declared]
  | _ => rfl

theorem mentioned_declared (entry : Ty) :
    TypeTable.mentioned entry.declared = TypeTable.mentioned entry := by
  cases entry <;> rfl

theorem forall₂_eq {α : Type} {R : α → α → Prop} {xs ys : List α} (h : List.Forall₂ R xs ys)
    (he : ∀ x ∈ xs, ∀ y ∈ ys, R x y → x = y) : xs = ys := by
  induction h with
  | nil => rfl
  | cons hxy _ ih =>
    rw [he _ (List.mem_cons_self ..) _ (List.mem_cons_self ..) hxy,
      ih (fun x hx y hy => he x (List.mem_cons_of_mem _ hx) y (List.mem_cons_of_mem _ hy))]

/-- Entries with the same parts in the same places are equal, definitions apart. -/
theorem Corresponds.declared_eq {R : TypeId → TypeId → Prop} {entry other : Ty}
    (h : entry.Corresponds R other)
    (he : ∀ part ∈ TypeTable.mentioned entry, ∀ otherPart ∈ TypeTable.mentioned other,
      R part otherPart → part = otherPart) : entry.declared = other.declared := by
  cases entry <;> cases other <;> simp only [Corresponds] at h <;>
    simp only [TypeTable.mentioned, List.mem_singleton, forall_eq] at he
  case basic.basic => rw [h]
  case named.named => rw [declared, declared, h.1, h.2]
  case pointer.pointer => rw [he h]
  case slice.slice => rw [he h]
  case array.array => rw [he h.1, h.2]
  case map.map =>
    rw [he _ (by simp) _ (by simp) h.1, he _ (by simp) _ (by simp) h.2]
  case chan.chan => rw [he h.1, h.2]
  case func.func sig other =>
    obtain ⟨hparams, hresults, hvariadic⟩ := h
    have hp := forall₂_eq hparams fun x hx y hy => he x (by simp [hx]) y (by simp [hy])
    have hr := forall₂_eq hresults fun x hx y hy => he x (by simp [hx]) y (by simp [hy])
    cases sig
    cases other
    simp_all
  case struct.struct =>
    rw [forall₂_eq h]
    rintro ⟨_, type, _, _⟩ hf ⟨_, otherType, _, _⟩ hg ⟨rfl, htype, rfl, rfl⟩
    rw [he type (List.mem_map.mpr ⟨_, hf, rfl⟩) otherType (List.mem_map.mpr ⟨_, hg, rfl⟩) htype]
  case interface.interface =>
    rw [forall₂_eq h]
    rintro ⟨_, sig⟩ hm ⟨_, otherSig⟩ hn ⟨rfl, hsig⟩
    rw [he sig (List.mem_map.mpr ⟨_, hm, rfl⟩) otherSig (List.mem_map.mpr ⟨_, hn, rfl⟩) hsig]
  case tuple.tuple => rw [forall₂_eq h he]
  case invalid.invalid => rfl

/-- An entry is made in the same way as itself. -/
theorem corresponds_self (entry : Ty) : entry.Corresponds Eq entry := by
  cases entry <;> simp [Corresponds, List.forall₂_same]

end Ty

namespace TypeTable

variable {t u v : TypeTable}

/-! ## Tables without repetitions -/

theorem exists_of_mem {entry : Ty} (h : entry ∈ t.entries.toList) :
    ∃ id : TypeId, id.index < t.size ∧ t.get id = entry := by
  obtain ⟨i, hi, he⟩ := List.mem_iff_getElem.mp h
  exact ⟨⟨i⟩, hi, by rw [get_eq_getElem hi, ← he, Array.getElem_toList]⟩

theorem get_push_self (t : TypeTable) (entry : Ty) : (t.push entry).2.get ⟨t.size⟩ = entry := by
  simp [get, push, size]

theorem size_push (t : TypeTable) (entry : Ty) : (t.push entry).2.size = t.size + 1 := by
  simp [size, push]

/-- No type is in the table twice, the parts of a type come before it, and what a named type is
defined as is in the table. -/
structure Canonical (t : TypeTable) : Prop where
  nodup : (t.entries.toList.map Ty.declared).Nodup
  parts : ∀ id, id.index < t.size → ∀ part ∈ mentioned (t.get id), part.index < id.index
  definitions : ∀ id package name definition,
    t.get id = .named package name (some definition) → definition.index < t.size

theorem canonical_initial : initial.Canonical where
  nodup := by decide +kernel
  parts id hid := by
    have hall : ∀ i : Fin 32, ∀ part ∈ mentioned (initial.get ⟨i⟩), part.index < i := by
      decide +kernel
    exact hall ⟨id.index, size_initial ▸ hid⟩
  definitions id package name definition hget := by
    have hall : ∀ entry ∈ initial.entries, ∀ package name definition,
        entry = .named package name (some definition) → definition.index < 32 := by
      simp [initial, BasicType.all]
    have hid := index_lt_of_named hget
    exact hall _ (get_mem hid) package name definition hget

namespace Canonical

theorem eq_of_declared (h : t.Canonical) {a b : TypeId} (ha : a.index < t.size)
    (hb : b.index < t.size) (he : (t.get a).declared = (t.get b).declared) : a = b := by
  have hla : a.index < (t.entries.toList.map Ty.declared).length := by simpa [size] using ha
  have hlb : b.index < (t.entries.toList.map Ty.declared).length := by simpa [size] using hb
  rw [get_eq_getElem ha, get_eq_getElem hb] at he
  have hfin : (⟨a.index, hla⟩ : Fin _) = ⟨b.index, hlb⟩ := h.nodup.injective_get (by
    rw [List.get_eq_getElem, List.get_eq_getElem, List.getElem_map, List.getElem_map,
      Array.getElem_toList, Array.getElem_toList]
    exact he)
  have hindex : a.index = b.index := congrArg Fin.val hfin
  cases a
  cases b
  exact congrArg TypeId.mk hindex

theorem push (h : t.Canonical) {entry : Ty}
    (hnew : ∀ id, id.index < t.size → (t.get id).declared ≠ entry.declared)
    (hparts : ∀ part ∈ mentioned entry, part.index < t.size)
    (hundefined : entry.declared = entry) : (t.push entry).2.Canonical where
  nodup := by
    simp only [TypeTable.push, Array.toList_push, List.map_append, List.map_cons, List.map_nil]
    refine List.nodup_append.mpr ⟨h.nodup, List.nodup_singleton _, ?_⟩
    intro x hx y hy
    obtain ⟨other, hother, rfl⟩ := List.mem_map.mp hx
    obtain ⟨id, hid, rfl⟩ := exists_of_mem hother
    rw [List.mem_singleton.mp hy]
    exact hnew id hid
  parts id hid part hpart := by
    rw [size_push] at hid
    by_cases hlt : id.index < t.size
    · rw [(t.begins_push entry).get_eq hlt] at hpart
      exact h.parts id hlt part hpart
    · obtain rfl : id = ⟨t.size⟩ := by
        cases id
        exact congrArg TypeId.mk (by simp only at hid hlt; omega)
      rw [get_push_self] at hpart
      exact hparts part hpart
  definitions id package name definition hget := by
    rw [size_push]
    by_cases hlt : id.index < t.size
    · rw [(t.begins_push entry).get_eq hlt] at hget
      exact Nat.lt_succ_of_lt (h.definitions id package name definition hget)
    · have hid := index_lt_of_named hget
      obtain rfl : id = ⟨t.size⟩ := by
        rw [size_push] at hid
        cases id
        exact congrArg TypeId.mk (by simp only at hid hlt; omega)
      rw [get_push_self] at hget
      rw [hget] at hundefined
      cases hundefined

/-- Only a structural type that is not there is added. -/
theorem intern (h : t.Canonical) {entry : Ty} (hentry : entry.isStructural = true)
    (hparts : ∀ part ∈ mentioned entry, part.index < t.size) : (t.intern entry).2.Canonical := by
  unfold TypeTable.intern
  split
  · exact h
  · rename_i hnone
    refine h.push (fun id hid he => ?_) hparts (Ty.declared_of_isStructural hentry)
    have hne := Array.findIdx?_eq_none_iff.mp hnone (t.get id) (get_mem hid)
    rw [Ty.declared_eq_of_isStructural hentry he, beq_self_eq_true] at hne
    cases hne

theorem declareNamed (h : t.Canonical) (package : Option String) (name : String) :
    (t.declareNamed package name).2.Canonical := by
  unfold TypeTable.declareNamed
  split
  · exact h
  · rename_i hnone
    refine h.push (fun id hid he => ?_) (by simp [mentioned]) rfl
    have hne := Array.findIdx?_eq_none_iff.mp (Option.map_eq_none_iff.mp hnone) (t.get id)
      (get_mem hid)
    have hnamed := Ty.isNamedAs_declared package name (t.get id)
    rw [he, hne] at hnamed
    simp [Ty.declared, Ty.isNamedAs] at hnamed

end Canonical

/-- A definition leaves all entries as they are declared. -/
theorem declared_define (t : TypeTable) (named definition : TypeId) :
    (t.define named definition).entries.toList.map Ty.declared =
      t.entries.toList.map Ty.declared := by
  unfold define
  split
  · rename_i package name before hget
    have hlt : named.index < t.entries.size := index_lt_of_named hget
    rw [get_eq_getElem hlt] at hget
    rw [Array.toList_setIfInBounds, List.map_set]
    refine List.ext_getElem (by simp) (fun i hi hi' => ?_)
    rw [List.getElem_set]
    split
    · rename_i he
      subst he
      rw [List.getElem_map, Array.getElem_toList, hget]
      rfl
    · rfl
  · rfl

theorem get_declared_define (t : TypeTable) (named definition id : TypeId) :
    ((t.define named definition).get id).declared = (t.get id).declared := by
  by_cases h : id = named
  · subst h
    unfold define
    split
    · rename_i package name before hget
      have hlt : id.index < t.entries.size := index_lt_of_named hget
      rw [hget]
      simp [get, hlt, Ty.declared]
    · rfl
  · rw [get_define_of_ne t definition h]

theorem Canonical.define (h : t.Canonical) {named definition : TypeId}
    (hdefinition : definition.index < t.size) : (t.define named definition).Canonical where
  nodup := by
    rw [declared_define]
    exact h.nodup
  parts id hid part hpart := by
    rw [size_define] at hid
    rw [← Ty.mentioned_declared, get_declared_define, Ty.mentioned_declared] at hpart
    exact h.parts id hid part hpart
  definitions id package name definition' hget := by
    rw [size_define]
    by_cases he : id = named
    · subst he
      obtain ⟨before, hbefore⟩ : ∃ before, t.get id = .named package name before := by
        have hdeclared := get_declared_define t id definition id
        rw [hget] at hdeclared
        cases hentry : t.get id <;> rw [hentry] at hdeclared <;> cases hdeclared
        exact ⟨_, rfl⟩
      rw [get_define_self hbefore] at hget
      cases hget
      exact hdefinition
    · rw [get_define_of_ne t definition he] at hget
      exact h.definitions id package name definition' hget

/-! ## Structure and position -/

/-- Whether two types have the same structure all the way down; named types are what they are by
their names. -/
def Identical (t : TypeTable) (a b : TypeId) : Prop :=
  ∃ R : TypeId → TypeId → Prop,
    (∀ x y, R x y → (t.get x).Corresponds R (t.get y)) ∧ R a b

theorem Identical.refl (t : TypeTable) (a : TypeId) : t.Identical a a := by
  refine ⟨Eq, ?_, rfl⟩
  rintro x _ rfl
  exact Ty.corresponds_self _

/-- The induction is on positions: the parts of both types come before the types. -/
theorem Canonical.eq_of_related (h : t.Canonical) {R : TypeId → TypeId → Prop}
    (hR : ∀ x y, R x y → (t.get x).Corresponds R (t.get y)) (n : Nat) :
    ∀ a b : TypeId, a.index = n → a.index < t.size → b.index < t.size → R a b → a = b := by
  induction n using Nat.strongRecOn with
  | ind n ih =>
    intro a b hn ha hb hab
    refine h.eq_of_declared ha hb ((hR a b hab).declared_eq (fun x hx y hy hxy => ?_))
    have hxa := h.parts a ha x hx
    have hyb := h.parts b hb y hy
    exact ih x.index (hn ▸ hxa) x y rfl (Nat.lt_trans hxa ha) (Nat.lt_trans hyb hb) hxy

theorem Canonical.identical_iff (h : t.Canonical) {a b : TypeId} (ha : a.index < t.size)
    (hb : b.index < t.size) : t.Identical a b ↔ a = b := by
  constructor
  · rintro ⟨R, hR, hab⟩
    exact h.eq_of_related hR a.index a b rfl ha hb hab
  · rintro rfl
    exact .refl t a

/-! ## Operations -/

/-- The types of the first table are types of the second, and they are the same but for the
definitions of named types. -/
def Keeps (t u : TypeTable) : Prop :=
  ∀ id, id.index < t.size → id.index < u.size ∧ (u.get id).declared = (t.get id).declared

theorem Keeps.refl (t : TypeTable) : t.Keeps t := fun _ h => ⟨h, rfl⟩

theorem Keeps.trans (h₁ : t.Keeps u) (h₂ : u.Keeps v) : t.Keeps v := by
  intro id hid
  obtain ⟨hid₁, he₁⟩ := h₁ id hid
  obtain ⟨hid₂, he₂⟩ := h₂ id hid₁
  exact ⟨hid₂, he₂.trans he₁⟩

theorem Begins.keeps (h : t.Begins u) : t.Keeps u :=
  fun _ hid => ⟨Nat.lt_of_lt_of_le hid h.size_le, congrArg Ty.declared (h.get_eq hid)⟩

theorem keeps_define (t : TypeTable) (named definition : TypeId) :
    t.Keeps (t.define named definition) :=
  fun id hid => ⟨(size_define t named definition).symm ▸ hid, get_declared_define t _ _ id⟩

end TypeTable

namespace TypeRequest

variable {request : TypeRequest} {entry : Ty}

theorem isStructural_of_shape? (h : request.shape? = some entry) : entry.isStructural = true := by
  cases request <;> cases h <;> rfl

/-- What is asked for is made of the types that the operation is applied to. -/
theorem mentioned_of_shape? (h : request.shape? = some entry) {part : TypeId}
    (hpart : part ∈ TypeTable.mentioned entry) : part ∈ request.operands := by
  cases request with
  | declareNamed | define => cases h
  | interface methods =>
    cases h
    obtain ⟨m, hm, rfl⟩ := List.mem_map.mp hpart
    exact List.mem_map.mpr ⟨m, (List.mergeSort_perm _ _).mem_iff.mp hm, rfl⟩
  | _ =>
    cases h
    exact hpart

end TypeRequest

namespace TypeTable

variable {t : TypeTable} {request : TypeRequest}

theorem perform_of_shape? {entry : Ty} (h : request.shape? = some entry) :
    t.perform request = (t.intern entry).map some id := by
  cases request <;> cases h <;> rfl

/-- The three kinds of operations: structural types, named types and definitions. -/
theorem perform_cases (t : TypeTable) (request : TypeRequest) :
    (∃ entry, request.shape? = some entry ∧
      t.perform request = (t.intern entry).map some id) ∨
    (∃ package name, t.perform request = (t.declareNamed package name).map some id) ∨
    ∃ named definition, request = .define named definition ∧
      t.perform request = (none, t.define named definition) := by
  cases request with
  | declareNamed package name => exact .inr (.inl ⟨package, name, rfl⟩)
  | define named definition => exact .inr (.inr ⟨named, definition, rfl, rfl⟩)
  | _ => exact .inl ⟨_, rfl, rfl⟩

theorem Canonical.perform (h : t.Canonical)
    (hoperands : ∀ id ∈ request.operands, id.index < t.size) :
    (t.perform request).2.Canonical := by
  rcases t.perform_cases request with ⟨entry, hshape, he⟩ | ⟨package, name, he⟩ |
      ⟨named, definition, hdefine, he⟩
  · rw [he]
    exact h.intern (TypeRequest.isStructural_of_shape? hshape)
      (fun part hpart => hoperands part (TypeRequest.mentioned_of_shape? hshape hpart))
  · rw [he]
    exact h.declareNamed package name
  · rw [he]
    exact h.define (hoperands definition (hdefine ▸ by simp [TypeRequest.operands]))

theorem keeps_perform (t : TypeTable) (request : TypeRequest) :
    t.Keeps (t.perform request).2 := by
  rcases t.perform_cases request with ⟨entry, -, he⟩ | ⟨package, name, he⟩ |
      ⟨named, definition, -, he⟩
  · rw [he]
    exact (t.begins_intern entry).keeps
  · rw [he]
    exact (t.begins_declareNamed package name).keeps
  · rw [he]
    exact t.keeps_define named definition

/-- A structural type is found where it has been put. -/
theorem get_intern (t : TypeTable) (entry : Ty) :
    (t.intern entry).1.index < (t.intern entry).2.size ∧
      (t.intern entry).2.get (t.intern entry).1 = entry := by
  unfold intern
  split
  · rename_i i hsome
    obtain ⟨hi, he, -⟩ := Array.findIdx?_eq_some_iff_getElem.mp hsome
    exact ⟨hi, by rw [get_eq_getElem hi]; exact eq_of_beq he⟩
  · exact ⟨by rw [size_push]; exact Nat.lt_succ_self _, t.get_push_self entry⟩

theorem performAll_append (t : TypeTable) (earlier later : List TypeRequest) :
    t.performAll (earlier ++ later) =
      ((t.performAll earlier).1 ++ ((t.performAll earlier).2.performAll later).1,
        ((t.performAll earlier).2.performAll later).2) := by
  induction earlier generalizing t with
  | nil => rfl
  | cons request rest ih => simp only [List.cons_append, performAll, ih]

theorem keeps_performAll (t : TypeTable) (requests : List TypeRequest) :
    t.Keeps (t.performAll requests).2 := by
  induction requests generalizing t with
  | nil => exact .refl t
  | cons request rest ih => exact (t.keeps_perform request).trans (ih _)

theorem Canonical.performAll (h : t.Canonical) {requests : List TypeRequest}
    (admitted : t.Admits requests) : (t.performAll requests).2.Canonical := by
  induction requests generalizing t with
  | nil => exact h
  | cons request rest ih => exact ih (h.perform admitted.1) admitted.2

/-- Methods with different names are put in one order, in whatever order they are given. -/
theorem interface_eq_of_perm (t : TypeTable) {methods others : List InterfaceMethod}
    (h : methods.Perm others) (hnames : (methods.map (·.name)).Nodup) :
    t.interface methods = t.interface others := by
  have hsorted (l : List InterfaceMethod) :
      (l.mergeSort (fun a b => a.name ≤ b.name)).Pairwise (fun a b => a.name ≤ b.name) := by
    have hpairwise : (l.mergeSort (fun a b => a.name ≤ b.name)).Pairwise
        (fun a b => decide (a.name ≤ b.name) = true) :=
      List.pairwise_mergeSort
        (fun a b c hab hbc => by
          simp only [decide_eq_true_eq] at hab hbc ⊢
          exact String.le_trans hab hbc)
        (fun a b => by
          simpa only [Bool.or_eq_true, decide_eq_true_eq] using String.le_total a.name b.name) l
    simpa only [decide_eq_true_eq] using hpairwise
  have hperm : (methods.mergeSort (fun a b => a.name ≤ b.name)).Perm
      (others.mergeSort (fun a b => a.name ≤ b.name)) :=
    ((List.mergeSort_perm _ _).trans h).trans (List.mergeSort_perm _ _).symm
  have he := hperm.eq_of_pairwise
    (fun a b ha hb hab hba => by
      have ha := (List.mergeSort_perm _ _).mem_iff.mp ha
      have hb := h.mem_iff.mpr ((List.mergeSort_perm _ _).mem_iff.mp hb)
      exact List.inj_on_of_nodup_map hnames ha hb (String.le_antisymm hab hba))
    (hsorted methods) (hsorted others)
  unfold interface
  rw [he]

/-! ## Searching -/

/-- The first type with an entry of some kind. -/
def find? (t : TypeTable) (p : Ty → Bool) : Option TypeId :=
  (t.entries.findIdx? p).map (⟨·⟩)

theorem find?_push (t : TypeTable) (p : Ty → Bool) (entry : Ty) :
    (t.push entry).2.find? p =
      (t.find? p).or (if p entry then some ⟨t.size⟩ else none) := by
  simp only [find?, TypeTable.push, Array.findIdx?_push, Option.map_or, size]
  split <;> rfl

/-- A search for what definitions do not change finds the same after a definition. -/
theorem find?_define (t : TypeTable) {p : Ty → Bool} (named definition : TypeId)
    (hp : ∀ entry : Ty, p entry.declared = p entry) :
    (t.define named definition).find? p = t.find? p := by
  have hmap (u : TypeTable) : u.find? p =
      ((u.entries.toList.map Ty.declared).findIdx? p).map (⟨·⟩) := by
    have hcomp : p ∘ Ty.declared = p := funext hp
    obtain ⟨⟨entries⟩⟩ := u
    rw [List.findIdx?_map, hcomp, find?, List.findIdx?_toArray]
  rw [hmap, hmap, declared_define]

end TypeTable

namespace IndexedTypes

variable {s : IndexedTypes}

/-- The look-up tables say where a search would find a type first. -/
structure Indexes (s : IndexedTypes) : Prop where
  structural : ∀ entry : Ty, entry.isStructural = true →
    s.structural.lookup entry = s.types.find? (· == entry)
  named : ∀ package name, s.named.lookup (package, name) = s.types.lookupNamed? package name

theorem lookupNamed?_push (t : TypeTable) (package : Option String) (name : String) (entry : Ty) :
    (t.push entry).2.lookupNamed? package name =
      (t.lookupNamed? package name).or
        (if entry.isNamedAs package name then some ⟨t.size⟩ else none) :=
  t.find?_push (Ty.isNamedAs package name) entry

namespace Indexes

theorem bare : bare.Indexes where
  structural entry h := by
    have hnone : IndexedTypes.bare.types.entries.findIdx? (· == entry) = none := by
      refine Array.findIdx?_eq_none_iff.mpr (fun other hother => ?_)
      rw [show other = .invalid by simpa [IndexedTypes.bare] using hother]
      exact Ty.beq_eq_false h rfl
    rw [TypeTable.find?, hnone]
    rfl
  named package name := by
    have hnone : IndexedTypes.bare.types.entries.findIdx? (Ty.isNamedAs package name) = none := by
      refine Array.findIdx?_eq_none_iff.mpr (fun other hother => ?_)
      rw [show other = .invalid by simpa [IndexedTypes.bare] using hother]
      rfl
    rw [TypeTable.lookupNamed?, hnone]
    rfl

/-- A basic type has no place in the look-up tables of the others. -/
theorem addBasic (h : s.Indexes) (kind : BasicType) : (s.addBasic kind).Indexes where
  structural entry hentry := by
    refine (h.structural entry hentry).trans ?_
    refine Eq.trans ?_ (s.types.find?_push (· == entry) (.basic kind)).symm
    rw [Ty.beq_eq_false hentry rfl, if_neg Bool.false_ne_true, Option.or_none]
  named package name := by
    refine (h.named package name).trans ?_
    refine Eq.trans ?_ (lookupNamed?_push s.types package name (.basic kind)).symm
    simp [Ty.isNamedAs]

theorem intern (h : s.Indexes) {entry : Ty} (hentry : entry.isStructural = true) :
    (s.intern entry).1 = (s.types.intern entry).1 ∧
      (s.intern entry).2.types = (s.types.intern entry).2 ∧ (s.intern entry).2.Indexes := by
  have hlookup := h.structural entry hentry
  unfold IndexedTypes.intern TypeTable.intern
  cases hfound : s.types.entries.findIdx? (· == entry) with
  | some i =>
    rw [TypeTable.find?, hfound] at hlookup
    rw [hlookup]
    exact ⟨rfl, rfl, h⟩
  | none =>
    rw [TypeTable.find?, hfound] at hlookup
    rw [hlookup]
    refine ⟨rfl, rfl, fun other hother => ?_, fun package name => ?_⟩
    · refine Eq.trans ?_ (s.types.find?_push (· == other) entry).symm
      by_cases he : other = entry
      · subst he
        rw [TypeTable.find?, hfound]
        simp [alloc, TypeTable.push, TypeTable.size]
      · refine (Keyed.lookup_set_of_ne he).trans ((h.structural other hother).trans ?_)
        simp [Ne.symm he]
    · refine (h.named package name).trans ?_
      refine Eq.trans ?_ (lookupNamed?_push s.types package name entry).symm
      rw [Ty.isNamedAs_eq_false hentry, if_neg Bool.false_ne_true, Option.or_none]

theorem declareNamed (h : s.Indexes) (package : Option String) (name : String) :
    (s.declareNamed package name).1 = (s.types.declareNamed package name).1 ∧
      (s.declareNamed package name).2.types = (s.types.declareNamed package name).2 ∧
      (s.declareNamed package name).2.Indexes := by
  have hlookup := h.named package name
  unfold IndexedTypes.declareNamed TypeTable.declareNamed
  rw [hlookup]
  cases hfound : s.types.lookupNamed? package name with
  | some id => exact ⟨rfl, rfl, h⟩
  | none =>
    refine ⟨rfl, rfl, fun entry hentry => ?_, fun package' name' => ?_⟩
    · refine (h.structural entry hentry).trans ?_
      refine Eq.trans ?_ (s.types.find?_push (· == entry) (.named package name none)).symm
      rw [Ty.beq_eq_false hentry rfl, if_neg Bool.false_ne_true, Option.or_none]
    · refine Eq.trans ?_
        (lookupNamed?_push s.types package' name' (.named package name none)).symm
      by_cases he : (package', name') = (package, name)
      · obtain ⟨rfl, rfl⟩ := Prod.mk.inj he
        rw [hfound]
        simp [alloc, TypeTable.push, TypeTable.size, Ty.isNamedAs]
      · refine (Keyed.lookup_set_of_ne he).trans ((h.named package' name').trans ?_)
        have hne : Ty.isNamedAs package' name' (.named package name none) = false := by
          rw [← Bool.not_eq_true, Ty.isNamedAs, Bool.and_eq_true, beq_iff_eq, beq_iff_eq]
          rintro ⟨rfl, rfl⟩
          exact he rfl
        rw [hne, if_neg Bool.false_ne_true, Option.or_none]

theorem define (h : s.Indexes) (named definition : TypeId) :
    (s.define named definition).Indexes where
  structural entry hentry :=
    (h.structural entry hentry).trans
      (s.types.find?_define named definition (Ty.beq_declared hentry)).symm
  named package name :=
    (h.named package name).trans
      (s.types.find?_define named definition (Ty.isNamedAs_declared package name)).symm

theorem perform (h : s.Indexes) (request : TypeRequest) :
    (s.perform request).1 = (s.types.perform request).1 ∧
      (s.perform request).2.types = (s.types.perform request).2 ∧
      (s.perform request).2.Indexes := by
  have hintern {entry : Ty} (hentry : entry.isStructural = true) :
      ((s.intern entry).map some id).1 = ((s.types.intern entry).map some id).1 ∧
        ((s.intern entry).map some id).2.types = ((s.types.intern entry).map some id).2 ∧
        ((s.intern entry).map some id).2.Indexes :=
    ⟨congrArg some (h.intern hentry).1, (h.intern hentry).2⟩
  cases request with
  | declareNamed package name =>
    exact ⟨congrArg some (h.declareNamed package name).1, (h.declareNamed package name).2⟩
  | define named definition => exact ⟨rfl, rfl, h.define named definition⟩
  | _ => exact hintern rfl

theorem performAll (h : s.Indexes) (requests : List TypeRequest) :
    (s.performAll requests).1 = (s.types.performAll requests).1 ∧
      (s.performAll requests).2.types = (s.types.performAll requests).2 := by
  induction requests generalizing s with
  | nil => exact ⟨rfl, rfl⟩
  | cons request rest ih =>
    obtain ⟨hanswer, htypes, hindexes⟩ := h.perform request
    obtain ⟨hanswers, hafter⟩ := ih hindexes
    rw [htypes] at hanswers hafter
    exact ⟨congrArg₂ List.cons hanswer hanswers, hafter⟩

end Indexes

theorem Indexes.interface (h : s.Indexes) (methods : List InterfaceMethod) :
    (s.interface methods).2.Indexes :=
  (h.intern rfl).2.2

theorem Indexes.addPredeclared (h : s.Indexes) : s.addPredeclared.Indexes := by
  let withAny := (s.interface []).2
  let signature : Signature := ⟨[], [withAny.basic .string], false⟩
  have hsignature : (withAny.intern (.func signature)).2.Indexes :=
    ((h.interface []).intern rfl).2.2
  have hdefinition := hsignature.interface [⟨"Error", (withAny.intern (.func signature)).1⟩]
  have herror := (hdefinition.declareNamed none "error").2.2
  exact ⟨(herror.define _ _).structural, (herror.define _ _).named⟩

theorem indexes_initial : initial.Indexes := by
  have hbasics (kinds : List BasicType) (s : IndexedTypes) (h : s.Indexes) :
      (kinds.foldl addBasic s).Indexes := by
    induction kinds generalizing s with
    | nil => exact h
    | cons kind rest ih => exact ih _ (h.addBasic kind)
  exact (hbasics BasicType.all bare .bare).addPredeclared

end IndexedTypes

/-! ## Histories -/

/-- `type Node struct { next *Node }` -/
def linkedTypes : List TypeRequest :=
  [.declareNamed none "Node", .pointer ⟨32⟩, .struct [⟨"next", ⟨33⟩, false, none⟩],
    .define ⟨32⟩ ⟨34⟩]

/-- `*Node` once more, and `[]*Node` -/
def linkedUses : List TypeRequest := [.pointer ⟨32⟩, .slice ⟨33⟩]

end GoLowering
