import Mathlib.Data.Fintype.Pigeonhole
import GoLowering.Proofs.HostAssignability

/-!
# The end of a chain of definitions

From a type, definitions lead on from name to name. They come to a type that is not named
(`TypeTable.Leads`), to a name without a definition (`TypeTable.Undefined`), or back to a name that
they have led to before (`TypeTable.Cyclic`); one of the three is so in every table, since there are
only so many names (`TypeTable.ends`), and what comes to an end does neither of the others.

`underlying` answers the invalid type in the last two cases, and its answer is its own underlying
type always. In the first case it answers the type at the end of the chain just in case the chain
has fewer than 64 names (`TypeTable.underlying_end_iff`): a longer one is taken for a cycle
(`TypeTable.underlying_chain`).
-/

namespace GoLowering.TypeTable

variable {t : TypeTable} {id middle last base : TypeId} {n m : Nat} {package : Option String}
  {name : String}

/-- A number of definitions lead from one type to another, which may be named itself. -/
inductive Follows (t : TypeTable) : TypeId → Nat → TypeId → Prop
  | here (id : TypeId) : Follows t id 0 id
  | step {id next last : TypeId} {n : Nat} {package : Option String} {name : String}
      (h : t.get id = .named package name (some next)) (rest : Follows t next n last) :
      Follows t id (n + 1) last

/-- Definitions lead to a name that has none. -/
def Undefined (t : TypeTable) (id : TypeId) : Prop :=
  ∃ n last package name, t.Follows id n last ∧ t.get last = .named package name none

/-- Definitions lead to a name that they come back to. -/
def Cyclic (t : TypeTable) (id : TypeId) : Prop :=
  ∃ n m entry, t.Follows id n entry ∧ t.Follows entry (m + 1) entry

namespace Follows

theorem unique {other : TypeId} (h : t.Follows id n last) (h' : t.Follows id n other) :
    last = other := by
  induction h with
  | here id => cases h'; rfl
  | step hget _ ih =>
    cases h' with
    | step hget' rest' =>
      obtain ⟨-, -, hnext⟩ := Ty.named.inj (hget.symm.trans hget')
      cases hnext
      exact ih rest'

/-- One more definition can be followed from a name that has one. -/
theorem snoc {next : TypeId} (h : t.Follows id n last)
    (hlast : t.get last = .named package name (some next)) : t.Follows id (n + 1) next := by
  induction h with
  | here id => exact .step hlast (.here next)
  | step hget _ ih => exact .step hget (ih hlast)

/-- A way of several definitions goes through the type that the first of them lead to. -/
theorem split (h : t.Follows id (n + m) last) (hmiddle : t.Follows id n middle) :
    t.Follows middle m last := by
  induction hmiddle with
  | here id => rwa [Nat.zero_add] at h
  | @step id next middle n package name hget _ ih =>
    rw [Nat.add_right_comm] at h
    cases h with
    | step hget' rest =>
      obtain ⟨-, -, hnext⟩ := Ty.named.inj (hget.symm.trans hget')
      cases hnext
      exact ih rest

/-- A chain that ends does so behind all types that it leads to. -/
theorem leads_rest (h : t.Follows id n middle) (hleads : t.Leads id m base) :
    ∃ rest, m = n + rest ∧ t.Leads middle rest base := by
  induction h generalizing m with
  | here id => exact ⟨m, (Nat.zero_add m).symm, hleads⟩
  | step hget _ ih =>
    cases hleads with
    | here hid => rw [isNamed, hget] at hid; cases hid
    | step hget' rest' =>
      obtain ⟨-, -, hnext⟩ := Ty.named.inj (hget.symm.trans hget')
      cases hnext
      obtain ⟨rest, hm, hrest⟩ := ih rest'
      exact ⟨rest, by omega, hrest⟩

theorem leads (h : t.Follows id n base) (hbase : t.isNamed base = false) : t.Leads id n base := by
  induction h with
  | here id => exact .here hbase
  | step hget _ ih => exact .step hget (ih hbase)

end Follows

/-! ## The three ends -/

theorem Leads.isNamed_base (h : t.Leads id n base) : t.isNamed base = false := by
  induction h with
  | here hid => exact hid
  | step _ _ ih => exact ih

theorem Undefined.not_leads (h : t.Undefined id) : ¬t.Leads id n base := by
  obtain ⟨k, last, package, name, hfollows, hlast⟩ := h
  intro hleads
  obtain ⟨rest, -, hrest⟩ := hfollows.leads_rest hleads
  cases hrest with
  | here hid => rw [isNamed, hlast] at hid; cases hid
  | step hget _ => rw [hlast] at hget; cases hget

/-- What leads back to itself would be at two distances from the end. -/
theorem Cyclic.not_leads (h : t.Cyclic id) : ¬t.Leads id n base := by
  obtain ⟨k, m, entry, hentry, hcycle⟩ := h
  intro hleads
  obtain ⟨rest, -, hrest⟩ := hentry.leads_rest hleads
  obtain ⟨less, hless, hagain⟩ := hcycle.leads_rest hrest
  have hsame := (hrest.unique hagain).1
  omega

theorem index_lt_of_isNamed (h : t.isNamed id = true) : id.index < t.size := by
  by_contra hout
  have hget : t.get id = .invalid := by
    have hle : ¬id.index < t.entries.size := hout
    simp [get, Array.getD, hle]
  rw [isNamed, hget] at h
  cases h

/-- A chain that neither ends nor comes to an undefined name goes on. -/
theorem exists_follows (hleads : ¬∃ n base, t.Leads id n base) (hdefined : ¬t.Undefined id)
    (n : Nat) : ∃ last, t.Follows id n last ∧ t.isNamed last = true := by
  have hnamed {n : Nat} {last : TypeId} (h : t.Follows id n last) : t.isNamed last = true := by
    by_contra hlast
    exact hleads ⟨n, last, h.leads (Bool.eq_false_iff.mpr hlast)⟩
  induction n with
  | zero => exact ⟨id, .here id, hnamed (.here id)⟩
  | succ n ih =>
    obtain ⟨last, hfollows, hlast⟩ := ih
    cases hget : t.get last with
    | named package name definition =>
      cases definition with
      | none => exact absurd ⟨n, last, package, name, hfollows, hget⟩ hdefined
      | some next =>
        have hnext := hfollows.snoc hget
        exact ⟨next, hnext, hnamed hnext⟩
    | _ => rw [isNamed, hget] at hlast; cases hlast

/-- Definitions come to an end, to an undefined name, or to a name that they have led to before:
there are no more names than types in the table. -/
theorem ends (t : TypeTable) (id : TypeId) :
    (∃ n base, t.Leads id n base) ∨ t.Undefined id ∨ t.Cyclic id := by
  by_cases hleads : ∃ n base, t.Leads id n base
  · exact .inl hleads
  by_cases hdefined : t.Undefined id
  · exact .inr (.inl hdefined)
  refine .inr (.inr ?_)
  choose last hfollows hnamed using t.exists_follows hleads hdefined
  let place (n : Fin (t.size + 1)) : Fin t.size :=
    ⟨(last n).index, index_lt_of_isNamed (hnamed n)⟩
  obtain ⟨a, b, hne, hsame⟩ :=
    Fintype.exists_ne_map_eq_of_card_lt place (by simp)
  have back {a b : Nat} (hlt : a < b) (hlast : last a = last b) : t.Cyclic id := by
    obtain ⟨m, rfl⟩ := Nat.exists_eq_add_of_lt hlt
    have hrest : t.Follows (last a) (m + 1) (last (a + m + 1)) := (hfollows _).split (hfollows a)
    rw [← hlast] at hrest
    exact ⟨a, m, last a, hfollows a, hrest⟩
  have hlast : last a = last b := congrArg TypeId.mk (Fin.mk.inj hsame)
  rcases Nat.lt_or_gt_of_ne (fun he => hne (Fin.ext he)) with hlt | hlt
  · exact back hlt hlast
  · exact back hlt hlast.symm

/-! ## The answer -/

theorem underlying_eq_invalid (h : ∀ n base, ¬t.Leads id n base) : t.underlying id = invalid := by
  rcases t.leads_resolve 64 id with hinvalid | ⟨n, -, hleads⟩
  · exact hinvalid
  · exact absurd hleads (h n _)

/-- The answer is not named, or it is the invalid type, which is not named either. -/
theorem underlying_underlying (hinvalid : t.get invalid = .invalid) (id : TypeId) :
    t.underlying (t.underlying id) = t.underlying id := by
  apply underlying_of_isNamed_eq_false
  rcases t.leads_resolve 64 id with he | ⟨n, -, hleads⟩
  · rw [underlying, he, isNamed, hinvalid]
    rfl
  · exact hleads.isNamed_base

/-- A chain of fewer than 64 names is followed to its end. -/
theorem Leads.underlying_eq_iff_lt (h : t.Leads id n base) :
    t.underlying id = base ↔ n < 64 ∨ base = invalid := by
  rw [underlying, h.resolve_eq]
  by_cases hn : n < 64
  · simp [hn]
  · simp [hn, eq_comm]

theorem get_invalid_performAll (requests : List TypeRequest) :
    (initial.performAll requests).2.get invalid = .invalid := by
  have hkept := (keeps_performAll initial requests invalid (by decide)).2
  have he : ((initial.performAll requests).2.get invalid).declared = .invalid := hkept
  cases hget : (initial.performAll requests).2.get invalid <;> rw [hget] at he <;> cases he

/-- Whatever types have been made and defined, and whatever their definitions lead to: the
underlying type of a chain that ends is the type at its end just in case the chain has fewer than 64
names (or ends in the invalid type), that of a chain that comes to a cycle or to an undefined name
is the invalid type, there are no other chains, and an underlying type is its own. -/
theorem underlying_end_iff (requests : List TypeRequest) (id : TypeId) :
    let t := (initial.performAll requests).2
    (∀ n base, t.Leads id n base → (t.underlying id = base ↔ n < 64 ∨ base = invalid)) ∧
      (t.Cyclic id ∨ t.Undefined id → t.underlying id = invalid) ∧
      ((∃ n base, t.Leads id n base) ∨ t.Cyclic id ∨ t.Undefined id) ∧
      t.underlying (t.underlying id) = t.underlying id := by
  intro t
  refine ⟨fun n base h => h.underlying_eq_iff_lt, ?_, ?_,
    underlying_underlying (get_invalid_performAll requests) id⟩
  · rintro (hcyclic | hundefined)
    · exact underlying_eq_invalid fun _ _ => hcyclic.not_leads
    · exact underlying_eq_invalid fun _ _ => hundefined.not_leads
  · rcases t.ends id with hleads | hundefined | hcyclic
    · exact .inl hleads
    · exact .inr (.inr hundefined)
    · exact .inr (.inl hcyclic)

/-! ## Chains of any length -/

/-- `T`, `TT`, `TTT` and so on -/
def chainName (i : Nat) : String := String.ofList (List.replicate (i + 1) 'T')

/-- The type that is a number of definitions away from `int`. -/
def chainType : Nat → TypeId
  | 0 => int
  | i + 1 => ⟨32 + i⟩

/-- `type T int`, `type TT T`, `type TTT TT` and so on -/
def chain (n : Nat) : List TypeRequest :=
  (List.range n).flatMap fun i =>
    [.declareNamed none (chainName i), .define (chainType (i + 1)) (chainType i)]

def chainEntries (n : Nat) : List Ty :=
  (List.range n).map fun i => .named none (chainName i) (some (chainType i))

theorem chainName_inj {i j : Nat} (h : chainName i = chainName j) : i = j := by
  have hlength := congrArg List.length (String.ofList_inj.mp h)
  simpa using hlength

theorem isNamedAs_chainName {n : Nat} {entry : Ty}
    (h : entry ∈ initial.entries.toList ++ chainEntries n) :
    entry.isNamedAs none (chainName n) = false := by
  rcases List.mem_append.mp h with h | h
  · have herror : ("error" == chainName n) = false := by
      apply beq_eq_false_iff_ne.mpr
      intro he
      have hlist := String.ofList_inj.mp ((String.ofList_toList (s := "error")).trans he)
      rw [List.replicate_succ] at hlist
      exact absurd (List.cons.inj hlist).1 (by decide)
    have hall : ∀ entry ∈ initial.entries.toList,
        entry.isNamed = true → entry = .named none "error" (some ⟨30⟩) := by
      decide +kernel
    cases entry with
    | named package name definition =>
      obtain ⟨rfl, rfl, -⟩ := Ty.named.inj (hall _ h rfl)
      simp [Ty.isNamedAs, herror]
    | _ => rfl
  · obtain ⟨i, hi, rfl⟩ := List.mem_map.mp h
    have hlt := List.mem_range.mp hi
    have hne : chainName i ≠ chainName n := fun he => by
      have := chainName_inj he
      omega
    simp [Ty.isNamedAs, hne]

theorem Admits.append {earlier later : List TypeRequest} (h : t.Admits earlier)
    (hlater : (t.performAll earlier).2.Admits later) : t.Admits (earlier ++ later) := by
  induction earlier generalizing t with
  | nil => exact hlater
  | cons request rest ih => exact ⟨h.1, ih h.2 hlater⟩

/-- A name that is new is put at the end of the table and can be given a definition there. -/
theorem entries_define_declareNamed (definition : TypeId)
    (hnew : ∀ entry ∈ t.entries, entry.isNamedAs package name = false) :
    (t.declareNamed package name).2.size = t.size + 1 ∧
      ((t.declareNamed package name).2.define ⟨t.size⟩ definition).entries =
        t.entries.push (.named package name (some definition)) := by
  have hnone : t.lookupNamed? package name = none := by
    rw [lookupNamed?, Option.map_eq_none_iff, Array.findIdx?_eq_none_iff]
    exact hnew
  have hpush : (t.declareNamed package name).2 = (t.push (.named package name none)).2 := by
    rw [declareNamed, hnone]
  refine ⟨by rw [hpush, size_push], ?_⟩
  rw [hpush, define, get_push_self]
  apply Array.toList_inj.mp
  simp [push, size]

/-- Every name of a chain is new when it comes up, and is defined as the one before. -/
theorem performAll_chain (n : Nat) :
    initial.Admits (chain n) ∧ (initial.performAll (chain n)).2.entries =
      (initial.entries.toList ++ chainEntries n).toArray := by
  induction n with
  | zero => exact ⟨trivial, rfl⟩
  | succ n ih =>
    obtain ⟨hadmitted, hentries⟩ := ih
    have hchain : chain (n + 1) = chain n ++
        [.declareNamed none (chainName n), .define (chainType (n + 1)) (chainType n)] := by
      simp [chain, List.range_succ]
    generalize ht : (initial.performAll (chain n)).2 = t at hentries
    have hsize : t.size = 32 + n := by
      rw [size, hentries, List.size_toArray, List.length_append]
      simp [chainEntries, ← size_initial, size]
    have hnew : ∀ entry ∈ t.entries, entry.isNamedAs none (chainName n) = false := by
      intro entry hentry
      rw [hentries, List.mem_toArray] at hentry
      exact isNamedAs_chainName hentry
    have hplace : chainType (n + 1) = ⟨t.size⟩ := by rw [hsize, chainType]
    obtain ⟨hsize', hdefined⟩ := entries_define_declareNamed (chainType n) hnew
    rw [hchain]
    refine ⟨hadmitted.append ?_, ?_⟩
    · rw [ht]
      refine ⟨fun id hid => absurd hid List.not_mem_nil, fun id hid => ?_, trivial⟩
      change id.index < (t.declareNamed none (chainName n)).2.size
      rw [hsize', hsize]
      rcases List.mem_pair.mp hid with rfl | rfl
      · exact Nat.lt_succ_self (32 + n)
      · cases n with
        | zero => decide
        | succ n => exact Nat.lt_succ_of_lt (Nat.lt_succ_self (32 + n))
    · rw [performAll_append, ht]
      change ((t.declareNamed none (chainName n)).2.define _ _).entries = _
      rw [hplace, hdefined, hentries]
      simp [chainEntries, List.range_succ]

theorem leads_chain {n i : Nat} (hi : i ≤ n) :
    (initial.performAll (chain n)).2.Leads (chainType i) i int := by
  have hentries := (performAll_chain n).2
  induction i with
  | zero =>
    refine .here ?_
    rw [isNamed, get, hentries]
    rfl
  | succ i ih =>
    have hlength : initial.entries.toList.length = 32 := rfl
    have hentry : (initial.entries.toList ++ chainEntries n)[32 + i]? =
        some (.named none (chainName i) (some (chainType i))) := by
      rw [List.getElem?_append_right (by omega), hlength, Nat.add_sub_cancel_left, chainEntries,
        List.getElem?_map, List.getElem?_range (by omega)]
      rfl
    have hget : (initial.performAll (chain n)).2.get (chainType (i + 1)) =
        .named none (chainName i) (some (chainType i)) := by
      rw [get, hentries, Array.getD_eq_getD_getElem?, chainType, List.getElem?_toArray, hentry]
      rfl
    exact .step hget (ih (Nat.le_of_succ_le hi))

/-- The longest name of a chain of 64 is defined as `int` in the end, but has no underlying type. -/
theorem underlying_chain :
    initial.Admits (chain 64) ∧
      let t := (initial.performAll (chain 64)).2
      t.Leads (chainType 64) 64 int ∧ t.underlying (chainType 64) = invalid ∧
        t.underlying (chainType 64) ≠ int := by
  have hleads := leads_chain (Nat.le_refl 64)
  have hinvalid : (initial.performAll (chain 64)).2.underlying (chainType 64) = invalid := by
    rw [underlying, hleads.resolve_eq, if_neg (by decide)]
  refine ⟨(performAll_chain 64).1, hleads, hinvalid, ?_⟩
  rw [hinvalid]
  decide

end GoLowering.TypeTable
