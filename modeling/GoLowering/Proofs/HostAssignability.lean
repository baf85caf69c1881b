import GoLowering.Proofs.TypeIdentity
import GoLowering.Types.Basic

/-!
# Assignability and the rule of the host

The host lets a value of one type be assigned to another if the types are identical, or if they
have identical underlying types, or the same element type on a channel of both directions, and one
of the two is not named; predeclared types such as `int` are named (`HostAssignable`).

`assignable` differs from that in two ways (`assignable_iff_host`):

* it does not take a predeclared type for named, so that `int` may be assigned to `type T int` and
  back (`TakenForBasic`);
* it follows no more than 63 definitions, so that a named type further away from its underlying
  type has none and agrees with no type but itself (`Distant`).

Each of the two rules is first brought into the form "the types are one, or one of them is not
named and their definitions lead to types that agree" (`typedAssignable_iff`,
`hostAssignable_iff`). They are then compared type by type.
-/

namespace GoLowering.TypeTable

variable {t : TypeTable} {hasMethod : TypeId → String → Bool}

/-! ## Underlying types -/

/-- From a type, a number of definitions lead to a type that has none. -/
inductive Leads (t : TypeTable) : TypeId → Nat → TypeId → Prop
  | here {id : TypeId} (h : t.isNamed id = false) : Leads t id 0 id
  | step {id next base : TypeId} {n : Nat} {package : Option String} {name : String}
      (h : t.get id = .named package name (some next)) (rest : Leads t next n base) :
      Leads t id (n + 1) base

namespace Leads

variable {id base other : TypeId} {n m : Nat}

theorem of_isNamed_eq_false (h : t.Leads id n base) (hid : t.isNamed id = false) :
    n = 0 ∧ base = id := by
  cases h with
  | here _ => exact ⟨rfl, rfl⟩
  | step hget _ => rw [isNamed, hget] at hid; cases hid

/-- A type has one underlying type, at one distance. -/
theorem unique (h : t.Leads id n base) (h' : t.Leads id m other) : n = m ∧ base = other := by
  induction h generalizing m with
  | here hid =>
    obtain ⟨rfl, rfl⟩ := h'.of_isNamed_eq_false hid
    exact ⟨rfl, rfl⟩
  | step hget _ ih =>
    cases h' with
    | here hid => rw [isNamed, hget] at hid; cases hid
    | step hget' rest' =>
      obtain ⟨-, -, hnext⟩ := Ty.named.inj (hget.symm.trans hget')
      cases hnext
      obtain ⟨rfl, rfl⟩ := ih rest'
      exact ⟨rfl, rfl⟩

theorem index_lt (h : t.Leads id n base) (ht : t.Canonical) (hid : id.index < t.size) :
    base.index < t.size := by
  induction h with
  | here _ => exact hid
  | step hget _ ih => exact ih (ht.definitions _ _ _ _ hget)

/-- A chain of definitions is followed to its end if it has fewer names than there are steps. -/
theorem resolve_eq (h : t.Leads id n base) (steps : Nat) :
    t.resolve steps id = if n < steps then base else invalid := by
  induction h generalizing steps with
  | here hid =>
    rename_i id
    cases steps with
    | zero => rfl
    | succ steps =>
      rw [resolve, if_pos (Nat.succ_pos steps)]
      cases hget : t.get id <;> first | rfl | (rw [isNamed, hget] at hid; cases hid)
  | step hget _ ih =>
    cases steps with
    | zero => rfl
    | succ steps => simp only [resolve, hget, ih steps, Nat.add_lt_add_iff_right]

end Leads

/-- Definitions that are followed lead to a type that has none, or else to no type. -/
theorem leads_resolve (t : TypeTable) (steps : Nat) (id : TypeId) :
    t.resolve steps id = invalid ∨ ∃ n < steps, t.Leads id n (t.resolve steps id) := by
  induction steps generalizing id with
  | zero => exact .inl rfl
  | succ steps ih =>
    cases hget : t.get id with
    | named package name definition =>
      cases definition with
      | none => exact .inl (by simp only [resolve, hget])
      | some next =>
        have he : t.resolve (steps + 1) id = t.resolve steps next := by simp only [resolve, hget]
        rw [he]
        exact (ih next).imp_right fun ⟨n, hn, h⟩ => ⟨n + 1, Nat.succ_lt_succ hn, .step hget h⟩
    | _ =>
      refine .inr ⟨0, Nat.succ_pos steps, ?_⟩
      have he : t.resolve (steps + 1) id = id := by simp only [resolve, hget]
      rw [he]
      exact .here (by rw [isNamed, hget]; rfl)

/-- An underlying type is one that fewer than 64 definitions lead to. -/
theorem underlying_eq_iff {id base : TypeId} (hbase : base ≠ invalid) :
    t.underlying id = base ↔ ∃ n < 64, t.Leads id n base := by
  constructor
  · rintro rfl
    exact (t.leads_resolve 64 id).resolve_left hbase
  · rintro ⟨n, hn, h⟩
    rw [underlying, h.resolve_eq, if_pos hn]

theorem underlying_of_isNamed_eq_false {id : TypeId} (h : t.isNamed id = false) :
    t.underlying id = id := by
  rw [underlying, (Leads.here h).resolve_eq, if_pos (by decide)]

/-! ## The rule of the host -/

/-- Whether two types are identical, or the first is a channel of both directions and the second
a channel of identical elements. -/
def Agrees (t : TypeTable) (a b : TypeId) : Prop :=
  t.Identical a b ∨ ∃ element other dir, t.get a = .chan element .both ∧
    t.get b = .chan other dir ∧ t.Identical element other

/-- Whether a type has a name for the host: all predeclared types do. -/
def HasName (t : TypeTable) (id : TypeId) : Prop :=
  t.isNamed id = true ∨ ∃ kind, t.get id = .basic kind

def HostAssignable (t : TypeTable) (source target : TypeId) : Prop :=
  t.Identical source target ∨ ¬(t.HasName source ∧ t.HasName target) ∧
    ∃ n m a b, t.Leads source n a ∧ t.Leads target m b ∧ t.Agrees a b

/-- Whether the first type is a predeclared one that the second is defined as. -/
def TakenForBasic (t : TypeTable) (a b : TypeId) : Prop :=
  ∃ kind n, t.get a = .basic kind ∧ 0 < n ∧ n < 64 ∧ t.Leads b n a

/-- Whether one of two types has an underlying type that is 64 definitions away or more. -/
def Distant (t : TypeTable) (a b : TypeId) : Prop :=
  ∃ n base, 64 ≤ n ∧ (t.Leads a n base ∨ t.Leads b n base)

/-- In a table without repetitions, types agree just in case they or their elements are one. -/
theorem Canonical.agrees_iff (h : t.Canonical) {a b : TypeId} (ha : a.index < t.size)
    (hb : b.index < t.size) : t.Agrees a b ↔
      a = b ∨ ∃ element dir, t.get a = .chan element .both ∧ t.get b = .chan element dir := by
  have hpart {id element : TypeId} {dir : ChanDir} (hid : id.index < t.size)
      (hget : t.get id = .chan element dir) : element.index < t.size :=
    Nat.lt_trans (h.parts id hid element (by simp [mentioned, hget])) hid
  rw [Agrees, h.identical_iff ha hb]
  refine or_congr_right ⟨?_, ?_⟩
  · rintro ⟨element, other, dir, hgeta, hgetb, hsame⟩
    rw [h.identical_iff (hpart ha hgeta) (hpart hb hgetb)] at hsame
    exact ⟨element, dir, hgeta, hsame ▸ hgetb⟩
  · rintro ⟨element, dir, hgeta, hgetb⟩
    exact ⟨element, element, dir, hgeta, hgetb, .refl t element⟩

/-- Whether definitions lead from two types to types that are one, or to a channel of both
directions and one of the same elements, in numbers that satisfy `p`. -/
def Meets (t : TypeTable) (p : Nat → Prop) (source target : TypeId) : Prop :=
  ∃ n m a b, p n ∧ p m ∧ t.Leads source n a ∧ t.Leads target m b ∧
    (a = b ∨ ∃ element dir, t.get a = .chan element .both ∧ t.get b = .chan element dir)

theorem Canonical.hostAssignable_iff (h : t.Canonical) {source target : TypeId}
    (hs : source.index < t.size) (ht : target.index < t.size) : t.HostAssignable source target ↔
      source = target ∨
        ¬(t.HasName source ∧ t.HasName target) ∧ t.Meets (fun _ => True) source target := by
  rw [HostAssignable, h.identical_iff hs ht]
  refine or_congr_right (and_congr_right fun _ => ⟨?_, ?_⟩)
  · rintro ⟨n, m, a, b, ha, hb, hagrees⟩
    exact ⟨n, m, a, b, trivial, trivial, ha, hb,
      (h.agrees_iff (ha.index_lt h hs) (hb.index_lt h ht)).mp hagrees⟩
  · rintro ⟨n, m, a, b, -, -, ha, hb, hagrees⟩
    exact ⟨n, m, a, b, ha, hb,
      (h.agrees_iff (ha.index_lt h hs) (hb.index_lt h ht)).mpr hagrees⟩

/-! ## The rule that is followed -/

theorem underlying_ne_invalid {id : TypeId} (hinvalid : t.get invalid = .invalid)
    (h : t.shape id ≠ .invalid) : t.underlying id ≠ invalid := by
  intro he
  rw [shape, he] at h
  exact h hinvalid

/-- Without interfaces, types are assignable by their underlying types if one is not named. -/
theorem typedAssignable_eq_true {source target : TypeId} (h : t.isInterface target = false) :
    t.typedAssignable hasMethod source target = true ↔
      ¬(t.isNamed source = true ∧ t.isNamed target = true) ∧
        (t.underlying source = t.underlying target ∨ ∃ element dir,
          t.shape source = .chan element .both ∧ t.shape target = .chan element dir) := by
  have hnames : (!t.isNamed source || !t.isNamed target) = true ↔
      ¬(t.isNamed source = true ∧ t.isNamed target = true) := by
    rw [← Bool.not_and, Bool.not_eq_true', Bool.and_eq_false_iff, not_and_or, Bool.not_eq_true,
      Bool.not_eq_true]
  unfold typedAssignable
  split
  · rename_i methods hshape
    rw [isInterface, hshape] at h
    cases h
  · split
    · rename_i a b dir hsource htarget
      simp only [Bool.or_eq_true, Bool.and_eq_true, beq_iff_eq, hnames, hsource, htarget]
      constructor
      · rintro (⟨hone, he⟩ | ⟨rfl, hone⟩)
        · exact ⟨hone, .inl he⟩
        · exact ⟨hone, .inr ⟨a, dir, rfl, rfl⟩⟩
      · rintro ⟨hone, he | ⟨element, dir', hs, ht⟩⟩
        · exact .inl ⟨hone, he⟩
        · cases hs
          cases ht
          exact .inr ⟨rfl, hone⟩
    · rename_i hchan
      simp only [Bool.or_false, Bool.and_eq_true, beq_iff_eq, hnames]
      refine and_congr_right fun _ => ⟨.inl, fun he => he.resolve_right ?_⟩
      rintro ⟨element, dir, hs, ht⟩
      exact hchan element element dir hs ht

/-- Types of which one is not named are assignable if their definitions meet soon enough. -/
theorem typedAssignable_iff {source target : TypeId} (hinvalid : t.get invalid = .invalid)
    (hs : t.isInvalid source = false) (ht : t.isInvalid target = false)
    (hinterface : t.isInterface target = false) :
    t.typedAssignable hasMethod source target = true ↔
      ¬(t.isNamed source = true ∧ t.isNamed target = true) ∧
        t.Meets (· < 64) source target := by
  rw [typedAssignable_eq_true hinterface]
  refine and_congr_right fun hone => ⟨fun he => ?_, ?_⟩
  · have hvalid : t.underlying source ≠ invalid ∧ t.underlying target ≠ invalid := by
      rcases he with he | ⟨element, dir, hsource, htarget⟩
      · have hself {id : TypeId} (hid : t.isInvalid id = false) (hname : ¬t.isNamed id = true) :
            t.underlying id ≠ invalid := by
          rw [underlying_of_isNamed_eq_false (Bool.eq_false_iff.mpr hname)]
          rintro rfl
          rw [isInvalid, hinvalid] at hid
          cases hid
        rcases Decidable.not_and_iff_or_not.mp hone with hname | hname
        · exact ⟨hself hs hname, he ▸ hself hs hname⟩
        · exact ⟨he ▸ hself ht hname, hself ht hname⟩
      · exact ⟨underlying_ne_invalid hinvalid (by rw [hsource]; exact Ty.noConfusion),
          underlying_ne_invalid hinvalid (by rw [htarget]; exact Ty.noConfusion)⟩
    obtain ⟨n, hn, ha⟩ := (underlying_eq_iff hvalid.1).mp rfl
    obtain ⟨m, hm, hb⟩ := (underlying_eq_iff hvalid.2).mp rfl
    exact ⟨n, m, _, _, hn, hm, ha, hb, he⟩
  · rintro ⟨n, m, a, b, hn, hm, ha, hb, he⟩
    simp only [shape, underlying, ha.resolve_eq, hb.resolve_eq, if_pos hn, if_pos hm]
    exact he

theorem assignable_eq_true {source target : TypeId} (hs : t.isInvalid source = false)
    (ht : t.isInvalid target = false) (huntyped : t.isUntyped source = false) :
    t.assignable hasMethod source target = true ↔
      source = target ∨ t.typedAssignable hasMethod source target = true := by
  unfold assignable
  by_cases he : source = target
  · simp [he]
  · simp only [beq_eq_false_iff_ne.mpr he, hs, ht, he, Bool.or_false, Bool.false_eq_true,
      if_false, false_or]
    split
    · rename_i kind hget
      simp only [isUntyped, hget] at huntyped
      simp [huntyped]
    · rfl

/-! ## The two rules compared -/

theorem Meets.mono {p q : Nat → Prop} {source target : TypeId} (hpq : ∀ n, p n → q n)
    (h : t.Meets p source target) : t.Meets q source target := by
  obtain ⟨n, m, a, b, hn, hm, h⟩ := h
  exact ⟨n, m, a, b, hpq n hn, hpq m hm, h⟩

/-- Definitions that meet at all do so soon enough unless a type is distant. -/
theorem Meets.near_iff {source target : TypeId} (h : t.Meets (fun _ => True) source target) :
    t.Meets (· < 64) source target ↔ ¬t.Distant source target := by
  obtain ⟨n, m, a, b, -, -, ha, hb, he⟩ := h
  constructor
  · rintro ⟨n', m', a', b', hn, hm, ha', hb', -⟩ ⟨k, base, hk, hfar | hfar⟩
    · exact absurd hn (Nat.not_lt.mpr ((ha'.unique hfar).1 ▸ hk))
    · exact absurd hm (Nat.not_lt.mpr ((hb'.unique hfar).1 ▸ hk))
  · intro hnear
    refine ⟨n, m, a, b, ?_, ?_, ha, hb, he⟩
    · exact Nat.lt_of_not_le fun hle => hnear ⟨n, a, hle, .inl ha⟩
    · exact Nat.lt_of_not_le fun hle => hnear ⟨m, b, hle, .inr hb⟩

/-- A predeclared type meets another type only as its underlying type. -/
theorem Meets.leads_left {p : Nat → Prop} {a b : TypeId} {kind : BasicType} (h : t.Meets p a b)
    (hget : t.get a = .basic kind) : ∃ m, p m ∧ t.Leads b m a := by
  obtain ⟨n, m, base, other, -, hm, ha, hb, he⟩ := h
  obtain ⟨-, rfl⟩ := ha.of_isNamed_eq_false (by rw [isNamed, hget]; rfl)
  rcases he with rfl | ⟨element, dir, hchan, -⟩
  · exact ⟨m, hm, hb⟩
  · rw [hget] at hchan
    cases hchan

theorem Meets.leads_right {p : Nat → Prop} {a b : TypeId} {kind : BasicType} (h : t.Meets p a b)
    (hget : t.get b = .basic kind) : ∃ n, p n ∧ t.Leads a n b := by
  obtain ⟨n, m, other, base, hn, -, ha, hb, he⟩ := h
  obtain ⟨-, rfl⟩ := hb.of_isNamed_eq_false (by rw [isNamed, hget]; rfl)
  rcases he with rfl | ⟨element, dir, -, hchan⟩
  · exact ⟨n, hn, ha⟩
  · rw [hget] at hchan
    cases hchan

namespace TakenForBasic

variable {a b : TypeId}

theorem of_leads {kind : BasicType} {n : Nat} (hget : t.get a = .basic kind) (hne : a ≠ b)
    (hn : n < 64) (h : t.Leads b n a) : t.TakenForBasic a b := by
  refine ⟨kind, n, hget, Nat.pos_of_ne_zero ?_, hn, h⟩
  rintro rfl
  cases h
  exact hne rfl

theorem isNamed (h : t.TakenForBasic a b) : t.isNamed a = false ∧ t.isNamed b = true := by
  obtain ⟨kind, n, hget, hn, -, hleads⟩ := h
  refine ⟨by rw [TypeTable.isNamed, hget]; rfl, ?_⟩
  cases hleads with
  | here _ => exact absurd hn (Nat.lt_irrefl 0)
  | step hb _ => rw [TypeTable.isNamed, hb]; rfl

theorem ne (h : t.TakenForBasic a b) : a ≠ b := by
  rintro rfl
  exact Bool.false_ne_true (h.isNamed.1.symm.trans h.isNamed.2)

theorem hasName (h : t.TakenForBasic a b) : t.HasName a ∧ t.HasName b :=
  ⟨.inr ⟨_, h.choose_spec.choose_spec.1⟩, .inl h.isNamed.2⟩

theorem meets (h : t.TakenForBasic a b) : t.Meets (· < 64) a b ∧ t.Meets (· < 64) b a := by
  have ha := Leads.here h.isNamed.1
  obtain ⟨kind, n, -, -, hn, hb⟩ := h
  exact ⟨⟨0, n, a, a, by decide, hn, ha, hb, .inl rfl⟩,
    ⟨n, 0, a, a, hn, by decide, hb, ha, .inl rfl⟩⟩

end TakenForBasic

/-- Types that both have a name for the host, but not both a definition, meet just in case one of
them is predeclared and the other is defined as it. -/
theorem meets_iff_takenForBasic {a b : TypeId} (hne : a ≠ b) (hname : t.HasName a ∧ t.HasName b) :
    (¬(t.isNamed a = true ∧ t.isNamed b = true) ∧ t.Meets (· < 64) a b) ↔
      t.TakenForBasic a b ∨ t.TakenForBasic b a := by
  constructor
  · rintro ⟨hone, hmeets⟩
    rcases hname with ⟨ha | ⟨kind, ha⟩, hb⟩
    · rcases hb with hb | ⟨kind, hb⟩
      · exact absurd ⟨ha, hb⟩ hone
      · obtain ⟨n, hn, h⟩ := hmeets.leads_right hb
        exact .inr (.of_leads hb hne.symm hn h)
    · obtain ⟨m, hm, h⟩ := hmeets.leads_left ha
      exact .inl (.of_leads ha hne hm h)
  · rintro (h | h)
    · exact ⟨fun hone => Bool.false_ne_true (h.isNamed.1.symm.trans hone.1), h.meets.1⟩
    · exact ⟨fun hone => Bool.false_ne_true (h.isNamed.1.symm.trans hone.2), h.meets.2⟩

/-- Types that do not both have a name for the host do not both have a definition. -/
theorem not_isNamed_of_not_hasName {a b : TypeId} (h : ¬(t.HasName a ∧ t.HasName b)) :
    ¬(t.isNamed a = true ∧ t.isNamed b = true) :=
  fun hone => h ⟨.inl hone.1, .inl hone.2⟩

/-- What is assignable by either rule and not by the other. -/
theorem Canonical.assignable_iff (hasMethod : TypeId → String → Bool) (h : t.Canonical)
    (hinvalid : t.get invalid = .invalid) {source target : TypeId} (hs : source.index < t.size)
    (ht : target.index < t.size)
    (hsource : t.isInvalid source = false) (htarget : t.isInvalid target = false)
    (huntyped : t.isUntyped source = false) (hinterface : t.isInterface target = false) :
    t.assignable hasMethod source target = true ↔
      t.TakenForBasic source target ∨ t.TakenForBasic target source ∨
        t.HostAssignable source target ∧ (source = target ∨ ¬t.Distant source target) := by
  rw [assignable_eq_true hsource htarget huntyped,
    typedAssignable_iff hinvalid hsource htarget hinterface, h.hostAssignable_iff hs ht]
  by_cases he : source = target
  · simp [he]
  · by_cases hname : t.HasName source ∧ t.HasName target
    · rw [meets_iff_takenForBasic he hname]
      simp [he, hname]
    · have hbasic : ¬t.TakenForBasic source target ∧ ¬t.TakenForBasic target source :=
        ⟨fun hb => hname hb.hasName, fun hb => hname hb.hasName.symm⟩
      simp only [he, hname, hbasic, false_or, not_isNamed_of_not_hasName hname, not_false_eq_true,
        true_and]
      exact ⟨fun hm => ⟨hm.mono fun _ _ => trivial, (Meets.near_iff (hm.mono fun _ _ =>
        trivial)).mp hm⟩, fun ⟨hm, hnear⟩ => hm.near_iff.mpr hnear⟩

theorem TakenForBasic.not_hostAssignable {a b : TypeId} (h : t.Canonical)
    (ha : a.index < t.size) (hb : b.index < t.size) (htaken : t.TakenForBasic a b) :
    ¬t.HostAssignable a b ∧ ¬t.HostAssignable b a := by
  rw [h.hostAssignable_iff ha hb, h.hostAssignable_iff hb ha]
  exact ⟨fun hhost => hhost.elim htaken.ne fun hr => hr.1 htaken.hasName,
    fun hhost => hhost.elim (htaken.ne ∘ Eq.symm) fun hr => hr.1 htaken.hasName.symm⟩

/-! ## Histories -/

/-- Whatever types have been made: a value is assignable if the host allows it and no type is
distant, and where a predeclared type is the underlying one of the other. So the rule is that of
the host just in case the types are not two such types, nor distant ones that the host takes. -/
theorem assignable_iff_host (hasMethod : TypeId → String → Bool) {requests : List TypeRequest}
    (source target : TypeId) (admitted : initial.Admits requests)
    (hs : source.index < (initial.performAll requests).2.size)
    (ht : target.index < (initial.performAll requests).2.size)
    (hsource : (initial.performAll requests).2.isInvalid source = false)
    (htarget : (initial.performAll requests).2.isInvalid target = false)
    (huntyped : (initial.performAll requests).2.isUntyped source = false)
    (hinterface : (initial.performAll requests).2.isInterface target = false) :
    let t := (initial.performAll requests).2
    (t.assignable hasMethod source target = true ↔
        t.TakenForBasic source target ∨ t.TakenForBasic target source ∨
          t.HostAssignable source target ∧ (source = target ∨ ¬t.Distant source target)) ∧
      ((t.assignable hasMethod source target = true ↔ t.HostAssignable source target) ↔
        ¬t.TakenForBasic source target ∧ ¬t.TakenForBasic target source ∧
          (t.HostAssignable source target → source = target ∨ ¬t.Distant source target)) := by
  intro t
  have hcanonical : t.Canonical := canonical_initial.performAll admitted
  have hinvalid : t.get invalid = .invalid := by
    have hkept := (keeps_performAll initial requests invalid (by decide)).2
    have he : (t.get invalid).declared = .invalid := hkept
    cases hget : t.get invalid <;> rw [hget] at he <;> cases he
  have hiff := hcanonical.assignable_iff hasMethod hinvalid hs ht hsource htarget huntyped
    hinterface
  refine ⟨hiff, ?_⟩
  have htaken := TakenForBasic.not_hostAssignable hcanonical hs ht
  have htaken' := TakenForBasic.not_hostAssignable hcanonical ht hs
  rw [hiff]
  constructor
  · intro hsame
    exact ⟨fun h => (htaken h).1 (hsame.mp (.inl h)),
      fun h => (htaken' h).2 (hsame.mp (.inr (.inl h))), fun h =>
        ((hsame.mpr h).resolve_left fun hb => (htaken hb).1 h).resolve_left
          (fun hb => (htaken' hb).2 h) |>.2⟩
  · rintro ⟨hno, hno', hnear⟩
    exact ⟨fun h => ((h.resolve_left hno).resolve_left hno').1, fun h => .inr (.inr ⟨h, hnear h⟩)⟩

/-- `type Celsius float64`, then `type Vector []float64` -/
def quantities : List TypeRequest :=
  [.declareNamed none "Celsius", .define ⟨32⟩ float64, .slice float64,
    .declareNamed none "Vector", .define ⟨34⟩ ⟨33⟩]

theorem admits_quantities : initial.Admits quantities := by
  refine ⟨?_, ?_, ?_, ?_, ?_, trivial⟩ <;> decide +kernel

theorem leads_celsius : (initial.performAll quantities).2.Leads ⟨32⟩ 1 float64 :=
  have hget : (initial.performAll quantities).2.get ⟨32⟩ =
      .named none "Celsius" (some float64) := by
    decide +kernel
  .step hget (.here (by decide +kernel))

/-- The slices may be assigned to vectors, and the host allows that. -/
theorem assignable_iff_host_vector :
    initial.Admits quantities ∧
      let t := (initial.performAll quantities).2
      t.assignable (fun _ _ => false) ⟨33⟩ ⟨34⟩ = true ∧ t.HostAssignable ⟨33⟩ ⟨34⟩ := by
  have hassignable : (initial.performAll quantities).2.assignable (fun _ _ => false) ⟨33⟩ ⟨34⟩ =
      true := by
    decide +kernel
  refine ⟨admits_quantities, hassignable, ?_⟩
  have hiff := (assignable_iff_host (fun _ _ => false) ⟨33⟩ ⟨34⟩ admits_quantities
    (by decide +kernel) (by decide +kernel) (by decide +kernel) (by decide +kernel)
    (by decide +kernel) (by decide +kernel)).1
  have hslice : (initial.performAll quantities).2.get ⟨33⟩ = .slice float64 := by
    decide +kernel
  have hvector : (initial.performAll quantities).2.get ⟨34⟩ =
      .named none "Vector" (some ⟨33⟩) := by
    decide +kernel
  rcases hiff.mp hassignable with ⟨kind, _, hget, -⟩ | ⟨kind, _, hget, -⟩ | ⟨hhost, -⟩
  · cases hslice.symm.trans hget
  · cases hvector.symm.trans hget
  · exact hhost

/-- A `float64` may be assigned to a temperature and back, which the host does not allow. -/
theorem assignable_float64_celsius :
    initial.Admits quantities ∧
      let t := (initial.performAll quantities).2
      (t.assignable (fun _ _ => false) float64 ⟨32⟩ = true ∧ ¬t.HostAssignable float64 ⟨32⟩) ∧
        t.assignable (fun _ _ => false) ⟨32⟩ float64 = true ∧
          ¬t.HostAssignable ⟨32⟩ float64 := by
  have htaken : (initial.performAll quantities).2.TakenForBasic float64 ⟨32⟩ :=
    ⟨.float64, 1, by decide +kernel, by decide, by decide, leads_celsius⟩
  have hnot := htaken.not_hostAssignable (canonical_initial.performAll admits_quantities)
    (by decide +kernel) (by decide +kernel)
  exact ⟨admits_quantities, ⟨by decide +kernel, hnot.1⟩, by decide +kernel, hnot.2⟩

end GoLowering.TypeTable
