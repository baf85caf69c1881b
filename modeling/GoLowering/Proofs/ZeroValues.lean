import GoLowering.Proofs.Comprehensions
import GoLowering.Proofs.HostComparisons

/-!
# Zero values

How the zero value of a type is written is decided by the type that its definitions lead to
(`TypeTable.SpellsZero`). `zeroValue` follows no more than 63 definitions and writes `nil` for what
is further away, which is right for those types only that have `nil`
(`TypeTable.spellsZero_zeroKind_iff`).
-/

namespace GoLowering

/-- What is written for the zero value of a type with this entry for its shape. -/
def Ty.zeroKind (type : TypeId) : Ty → HostKind
  | basic kind =>
    if kind.isNumeric then .literal "0"
    else if kind == .bool || kind == .untypedBool then .literal "false"
    else if kind == .string || kind == .untypedString then .literal "\"\""
    else .literal "nil"
  | struct _ | array _ _ => .composite (some type) []
  | _ => .literal "nil"

namespace TypeTable

variable {t : TypeTable} {type base : TypeId} {n : Nat}

/-- Whether an expression of some kind is the zero value of a type, to which it can be assigned. -/
inductive SpellsZero (t : TypeTable) (type : TypeId) : HostKind → Prop
  | number {n : Nat} {base : TypeId} {kind : BasicType} (h : t.Leads type n base)
      (hbase : t.get base = .basic kind) (htyped : kind.isUntyped = false)
      (hnumeric : kind.isNumeric = true) : SpellsZero t type (.literal "0")
  | truth {n : Nat} {base : TypeId} (h : t.Leads type n base)
      (hbase : t.get base = .basic .bool) : SpellsZero t type (.literal "false")
  | text {n : Nat} {base : TypeId} (h : t.Leads type n base)
      (hbase : t.get base = .basic .string) : SpellsZero t type (.literal "\"\"")
  | struct {n : Nat} {base : TypeId} {fields : List Field} (h : t.Leads type n base)
      (hbase : t.get base = .struct fields) : SpellsZero t type (.composite (some type) [])
  | array {n : Nat} {base element : TypeId} {length : Nat} (h : t.Leads type n base)
      (hbase : t.get base = .array element length) :
      SpellsZero t type (.composite (some type) [])
  | nil (h : t.HostNilable type) : SpellsZero t type (.literal "nil")

/-- All types of a program have a zero value. -/
def HasZero (t : TypeTable) (type : TypeId) : Prop := ∃ kind, t.SpellsZero type kind

/-- Whether a type without `nil` is 64 definitions or more away from its underlying type. -/
def Remote (t : TypeTable) (type : TypeId) : Prop :=
  ¬t.HostNilable type ∧ ∃ n base, 64 ≤ n ∧ t.Leads type n base

/-- What `zeroValue` writes. -/
def zeroKind (t : TypeTable) (type : TypeId) : HostKind := (t.shape type).zeroKind type

theorem SpellsZero.hostNilable {kind : HostKind} (h : t.SpellsZero type kind)
    (hkind : kind = .literal "nil") : t.HostNilable type := by
  cases h with
  | nil h => exact h
  | struct | array => cases hkind
  | _ => exact absurd (HostKind.literal.inj hkind) (by decide)

theorem Leads.zeroKind_eq (h : t.Leads type n base) (hn : n < 64) :
    t.zeroKind type = (t.get base).zeroKind type := by
  rw [zeroKind, shape, underlying, h.resolve_eq, if_pos hn]

theorem Leads.zeroKind_eq_nil (h : t.Leads type n base) (hinvalid : t.HasInvalid) (hn : 64 ≤ n) :
    t.zeroKind type = .literal "nil" := by
  rw [zeroKind, shape, underlying, h.resolve_eq, if_neg (Nat.not_lt.mpr hn), hinvalid.get]
  rfl

/-- A type has `nil` by the entry that its definitions lead to. -/
theorem Leads.nil_of_hostNilable (h : t.Leads type n base) (hnil : t.HostNilable type) :
    (t.get base).zeroKind type = .literal "nil" := by
  obtain ⟨m, other, hother, hbase⟩ := hnil
  obtain ⟨-, rfl⟩ := h.unique hother
  cases hget : t.get base with
  | basic kind =>
    rw [hget] at hbase
    obtain rfl : kind = .unsafePointer := hbase
    rfl
  | struct | array => rw [hget] at hbase; exact hbase.elim
  | _ => rfl

/-- The entry is taken for the shape unless the type is remote. -/
theorem Leads.zeroKind_of_not_remote (h : t.Leads type n base) (hremote : ¬t.Remote type)
    {shape : Ty} (hbase : t.get base = shape) (hnil : shape.zeroKind type ≠ .literal "nil") :
    t.zeroKind type = shape.zeroKind type := by
  subst hbase
  refine h.zeroKind_eq (Nat.lt_of_not_le fun hn => hremote ⟨fun hbase => ?_, n, base, hn, h⟩)
  exact hnil (h.nil_of_hostNilable hbase)

theorem HostNilable.zeroKind_eq (h : t.HostNilable type) (hinvalid : t.HasInvalid) :
    t.zeroKind type = .literal "nil" := by
  obtain ⟨n, base, hleads, -⟩ := id h
  by_cases hn : n < 64
  · rw [hleads.zeroKind_eq hn, hleads.nil_of_hostNilable h]
  · exact hleads.zeroKind_eq_nil hinvalid (Nat.not_lt.mp hn)

/-- What is written for a type is its zero value unless the type is remote. -/
theorem spellsZero_zeroKind_iff (hinvalid : t.HasInvalid) :
    t.SpellsZero type (t.zeroKind type) ↔ t.HasZero type ∧ ¬t.Remote type := by
  constructor
  · refine fun h => ⟨⟨_, h⟩, ?_⟩
    rintro ⟨hnil, n, base, hn, hleads⟩
    exact hnil (h.hostNilable (hleads.zeroKind_eq_nil hinvalid hn))
  · rintro ⟨⟨kind, h⟩, hremote⟩
    cases h with
    | @number _ _ kind h hbase htyped hnumeric =>
      have hkind : (Ty.basic kind).zeroKind type = .literal "0" := if_pos hnumeric
      rw [h.zeroKind_of_not_remote hremote hbase (by rw [hkind]; decide), hkind]
      exact .number h hbase htyped hnumeric
    | truth h hbase =>
      have hkind : (Ty.basic .bool).zeroKind type = .literal "false" := rfl
      rw [h.zeroKind_of_not_remote hremote hbase (by rw [hkind]; decide)]
      exact .truth h hbase
    | text h hbase =>
      have hkind : (Ty.basic .string).zeroKind type = .literal "\"\"" := rfl
      rw [h.zeroKind_of_not_remote hremote hbase (by rw [hkind]; decide)]
      exact .text h hbase
    | struct h hbase =>
      rw [h.zeroKind_of_not_remote hremote hbase nofun]
      exact .struct h hbase
    | array h hbase =>
      rw [h.zeroKind_of_not_remote hremote hbase nofun]
      exact .array h hbase
    | nil h =>
      rw [h.zeroKind_eq hinvalid]
      exact .nil h

/-! ## A remote type -/

/-- Types each of which is defined as the one before, the first one as `int`, and a function whose
results are of the last one and an error. -/
def distant : TypeTable :=
  ⟨initial.entries ++ ((List.range 64).map (fun i => .named none ("T" ++ toString i)
    (some (if i = 0 then int else ⟨31 + i⟩)))).toArray ++
    #[.func ⟨[], [⟨95⟩, error], false⟩, .tuple [⟨95⟩, error]]⟩

theorem leads_distant {i : Nat} (hi : i < 64) : distant.Leads ⟨32 + i⟩ (i + 1) int := by
  have hget : ∀ i < 64, distant.get ⟨32 + i⟩ =
      .named none ("T" ++ toString i) (some (if i = 0 then int else ⟨31 + i⟩)) := by
    decide +kernel
  induction i with
  | zero => exact .step (hget 0 hi) (.here (by decide +kernel))
  | succ i ih =>
    have hrest := ih (Nat.lt_of_succ_lt hi)
    exact .step (hget (i + 1) hi) (Nat.add_right_comm 31 i 1 ▸ hrest)

/-- The last of the types has a zero value, but `nil` is written for it. -/
theorem not_spellsZero_distant : distant.HasZero ⟨95⟩ ∧
    ¬distant.SpellsZero ⟨95⟩ (distant.zeroKind ⟨95⟩) := by
  have hleads := leads_distant (i := 63) (by decide)
  have hint : distant.get int = .basic .int := by decide +kernel
  refine ⟨⟨_, .number hleads hint rfl rfl⟩, fun h => ?_⟩
  have hinvalid : distant.HasInvalid := hasInvalid_initial.grows (Begins.grows ⟨_, rfl⟩)
  obtain ⟨n, base, hbase, hnil⟩ := h.hostNilable (hleads.zeroKind_eq_nil hinvalid (by decide))
  obtain ⟨-, rfl⟩ := hleads.unique hbase
  rw [hint] at hnil
  cases hnil

end TypeTable

namespace Lowering

variable {c : Context} {s s' final : State}

theorem run_zeroValue (type : TypeId) (c : Context) (s : State) :
    zeroValue type c s = scaffold (s.types.zeroKind type) c s := by
  unfold zeroValue TypeTable.zeroKind
  rw [run_bind, run_getTypes]
  dsimp only
  cases s.types.shape type with
  | basic kind =>
    unfold Ty.zeroKind
    dsimp only
    split
    · rfl
    · split
      · rfl
      · split <;> rfl
  | _ => rfl

theorem kind_zeroValue {type : TypeId} {id : HostId} (hrun : zeroValue type c s = (.ok id, s'))
    (hfinal : s'.Precedes final) : final.tree.kind id = s.types.zeroKind type := by
  rw [run_zeroValue] at hrun
  exact kind_addNode hrun hfinal

end Lowering

end GoLowering
