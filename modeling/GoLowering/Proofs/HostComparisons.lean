import GoLowering.Proofs.HostAssignability
import GoLowering.Proofs.InvalidOperands
import GoLowering.Proofs.Situations
import GoLowering.Proofs.Outcomes

/-!
# Comparisons and the rule of the host

The host compares two values if one of them may be assigned to the type of the other. For `==` and
`!=` both types have to be comparable, which those are not that have slices, maps or functions in
them; for the other operators both are ordered. The value `nil` is compared by `==` and `!=` only,
with a value of a type that has it (`HostCompares`).

Of the comparisons that are lowered the host allows just those that are not `Unchecked`
(`lowered_comparison_allowed_iff`):

* whether types are comparable is not looked at, nor whether an operator needs an order where one
  side is `nil`;
* a predeclared type agrees with one that is defined as it;
* the methods that an interface asks for are looked up by their names alone.
-/

namespace GoLowering

/-- Whether a comparison is neither `==` nor `!=`. -/
def BinaryOp.NeedsOrder (op : BinaryOp) : Prop := op ≠ .equal ∧ op ≠ .notEqual

namespace TypeTable

variable {t : TypeTable} {methodOf : TypeId → String → Option Method} {op : BinaryOp}
  {a b : TypeId}

/-! ## The rule of the host -/

/-- Whether there are slices, maps or functions in the values of a type, however deep in arrays and
structures. Pointers, channels and interfaces are comparable whatever they lead to, and nothing is
known of a named type without a definition. -/
inductive Incomparable (t : TypeTable) : TypeId → Prop
  | slice {id base element : TypeId} {n : Nat} (h : t.Leads id n base)
      (hget : t.get base = .slice element) : Incomparable t id
  | map {id base key value : TypeId} {n : Nat} (h : t.Leads id n base)
      (hget : t.get base = .map key value) : Incomparable t id
  | func {id base : TypeId} {n : Nat} {sig : Signature} (h : t.Leads id n base)
      (hget : t.get base = .func sig) : Incomparable t id
  | array {id base element : TypeId} {n length : Nat} (h : t.Leads id n base)
      (hget : t.get base = .array element length) (hpart : Incomparable t element) :
      Incomparable t id
  | struct {id base : TypeId} {n : Nat} {fields : List Field} {field : Field}
      (h : t.Leads id n base) (hget : t.get base = .struct fields) (hfield : field ∈ fields)
      (hpart : Incomparable t field.type) : Incomparable t id

/-- Whether a type is a numeric one with an order, or that of strings, or defined as such a type. -/
def HostOrdered (t : TypeTable) (id : TypeId) : Prop :=
  ∃ n base kind, t.Leads id n base ∧ t.get base = .basic kind ∧
    (kind = .string ∨ kind.isNumeric = true ∧ kind.isComplex = false)

/-- Whether `nil` is a value of a type. -/
def HostNilable (t : TypeTable) (id : TypeId) : Prop :=
  ∃ n base, t.Leads id n base ∧
    match t.get base with
    | .pointer _ | .slice _ | .map _ _ | .chan _ _ | .func _ | .interface _ => True
    | .basic kind => kind = .unsafePointer
    | _ => False

/-- Whether a type is an interface that asks for methods. -/
def Asks (t : TypeTable) (id : TypeId) (methods : List InterfaceMethod) : Prop :=
  ∃ n base, t.Leads id n base ∧ t.get base = .interface methods

/-- Whether a type has a method by the rule of the host: with the signature that is asked for, on a
pointer if the receiver is one, and not on a pointer to an interface. -/
def HostHasMethod (t : TypeTable) (methodOf : TypeId → String → Option Method) (id : TypeId)
    (asked : InterfaceMethod) : Prop :=
  ∃ method, methodOf id asked.name = some method ∧ method.sig = asked.sig ∧
    (method.pointerReceiver = true → ∃ target, t.get id = .pointer target) ∧
    ∀ target, t.get id = .pointer target → ∀ methods, ¬t.Asks target methods

/-- Whether a type has the methods that another one asks for. -/
def HostImplements (t : TypeTable) (methodOf : TypeId → String → Option Method)
    (source target : TypeId) : Prop :=
  ∃ methods, t.Asks target methods ∧ ∀ asked ∈ methods, t.HostHasMethod methodOf source asked

/-- Whether the host lets a value be assigned to a type, which may be an interface. -/
def HostFits (t : TypeTable) (methodOf : TypeId → String → Option Method)
    (source target : TypeId) : Prop :=
  t.HostAssignable source target ∨ t.HostImplements methodOf source target

/-- Whether the host compares values of two types; no type stands for `nil`. -/
def HostCompares (t : TypeTable) (methodOf : TypeId → String → Option Method) (op : BinaryOp) :
    Option TypeId → Option TypeId → Prop
  | some a, some b => (t.HostFits methodOf a b ∨ t.HostFits methodOf b a) ∧
      (op.NeedsOrder → t.HostOrdered a ∧ t.HostOrdered b) ∧
      (¬op.NeedsOrder → ¬t.Incomparable a ∧ ¬t.Incomparable b)
  | some a, none | none, some a => ¬op.NeedsOrder ∧ t.HostNilable a
  | none, none => False

/-! ## What is not checked -/

/-- Whether a type has methods of the names that another one asks for, whatever these are. -/
def HasNamed (t : TypeTable) (methodOf : TypeId → String → Option Method)
    (source target : TypeId) : Prop :=
  ∃ methods, t.Asks target methods ∧
    ∀ asked ∈ methods, (methodOf source asked.name).isSome = true

/-- The comparisons that are let through although the host does not allow them. -/
def Unchecked (t : TypeTable) (methodOf : TypeId → String → Option Method) (op : BinaryOp) :
    Option TypeId → Option TypeId → Prop
  | some a, some b => (¬op.NeedsOrder ∧ (t.Incomparable a ∨ t.Incomparable b)) ∨
      (t.TakenForBasic a b ∨ t.TakenForBasic b a) ∨
      (t.HasNamed methodOf a b ∨ t.HasNamed methodOf b a) ∧
        ¬(t.HostFits methodOf a b ∨ t.HostFits methodOf b a)
  | some _, none | none, some _ => op.NeedsOrder
  | none, none => False

/-! ## Shapes -/

/-- A shape is that of a type which definitions lead to. -/
theorem HasInvalid.leads_of_shape (h : t.HasInvalid) {id : TypeId}
    (hshape : t.shape id ≠ .invalid) :
    ∃ n < 64, t.Leads id n (t.underlying id) :=
  (underlying_eq_iff (underlying_ne_invalid h.get hshape)).mp rfl

theorem shape_of_basic? {id : TypeId} {kind : BasicType} (h : t.basic? id = some kind) :
    t.shape id = .basic kind := by
  unfold basic? at h
  split at h
  · rename_i hshape
    cases h
    exact hshape
  · cases h

/-- An ordered type is one that definitions lead from to a basic type with an order. -/
theorem HasInvalid.hostOrdered (h : t.HasInvalid) {id : TypeId} {kind : BasicType}
    (hkind : t.basic? id = some kind) (huntyped : kind.isUntyped = false)
    (hordered : Lowering.isOrdered kind = true) : t.HostOrdered id := by
  have hshape := shape_of_basic? hkind
  obtain ⟨n, -, hleads⟩ := h.leads_of_shape (by rw [hshape]; exact Ty.noConfusion)
  refine ⟨n, _, kind, hleads, hshape, ?_⟩
  simp only [Lowering.isOrdered, Lowering.isStringKind, Bool.or_eq_true, Bool.and_eq_true,
    Bool.not_eq_true', beq_iff_eq] at hordered
  rcases hordered with hnumeric | rfl | rfl
  · exact .inr hnumeric
  · exact .inl rfl
  · cases huntyped

theorem HasInvalid.hostNilable (h : t.HasInvalid) {id : TypeId}
    (htyped : ∀ kind, t.basic? id = some kind → kind.isUntyped = false)
    (hnilable : t.isNilable id = true) : t.HostNilable id := by
  have hshape : t.shape id ≠ .invalid := by
    intro he
    rw [isNilable, he] at hnilable
    cases hnilable
  obtain ⟨n, -, hleads⟩ := h.leads_of_shape hshape
  refine ⟨n, _, hleads, ?_⟩
  rw [isNilable] at hnilable
  change (match t.shape id with
    | .pointer _ | .slice _ | .map _ _ | .chan _ _ | .func _ | .interface _ => True
    | .basic kind => kind = .unsafePointer
    | _ => False)
  cases hcase : t.shape id with
  | basic kind =>
    rw [hcase] at hnilable
    simp only [Bool.or_eq_true, beq_iff_eq] at hnilable
    rcases hnilable with rfl | rfl
    · rfl
    · cases htyped .untypedNil (by rw [TypeTable.basic?, hcase])
  | pointer | slice | map | chan | func | interface => trivial
  | _ =>
    rw [hcase] at hnilable
    cases hnilable

/-! ## Types that are brought together -/

/-- What is assignable fits by the rule of the host, or is a predeclared type and one that is
defined as it, or has methods of the names that are asked for. -/
theorem Canonical.fits_of_assignable (h : t.Canonical) (hinvalid : t.HasInvalid)
    (ha : t.isInvalid a = false) (hb : t.isInvalid b = false) (huntyped : t.isUntyped a = false)
    (hassignable : t.assignable (fun id name => (methodOf id name).isSome) a b = true) :
    t.HostFits methodOf a b ∨ (t.TakenForBasic a b ∨ t.TakenForBasic b a) ∨
      t.HasNamed methodOf a b := by
  have hasize := index_lt_of_get (isInvalid_eq_false.mp ha)
  have hbsize := index_lt_of_get (isInvalid_eq_false.mp hb)
  cases hinterface : t.isInterface b with
  | false =>
    rcases (h.assignable_iff _ hinvalid.get hasize hbsize ha hb huntyped hinterface).mp
      hassignable with htaken | htaken | ⟨hhost, -⟩
    · exact .inr (.inl (.inl htaken))
    · exact .inr (.inl (.inr htaken))
    · exact .inl (.inl hhost)
  | true =>
    rcases (assignable_eq_true ha hb huntyped).mp hassignable with rfl | htyped
    · exact .inl (.inl (.inl (.refl t a)))
    · unfold isInterface at hinterface
      split at hinterface
      · rename_i methods hshape
        obtain ⟨n, -, hleads⟩ := hinvalid.leads_of_shape (by rw [hshape]; exact Ty.noConfusion)
        refine .inr (.inr ⟨methods, ⟨n, _, hleads, hshape⟩, ?_⟩)
        unfold typedAssignable at htyped
        dsimp only at htyped
        rw [hshape] at htyped
        exact List.all_eq_true.mp htyped
      · cases hinterface

/-- A predeclared type and a type that is defined as it do not fit. -/
theorem TakenForBasic.not_hostFits (h : t.Canonical) (ha : t.isInvalid a = false)
    (hb : t.isInvalid b = false) (htaken : t.TakenForBasic a b) :
    ¬(t.HostFits methodOf a b ∨ t.HostFits methodOf b a) := by
  have hhost := htaken.not_hostAssignable h (index_lt_of_get (isInvalid_eq_false.mp ha))
    (index_lt_of_get (isInvalid_eq_false.mp hb))
  obtain ⟨kind, n, hget, -, -, hleads⟩ := htaken
  have hbase : t.Leads a 0 a := .here (by rw [TypeTable.isNamed, hget]; rfl)
  rintro ((hfits | ⟨methods, ⟨_, base, hleads', hinterface⟩, -⟩) |
    (hfits | ⟨methods, ⟨_, base, hleads', hinterface⟩, -⟩))
  · exact hhost.1 hfits
  · obtain ⟨-, rfl⟩ := hleads.unique hleads'
    cases hget.symm.trans hinterface
  · exact hhost.2 hfits
  · obtain ⟨-, rfl⟩ := hbase.unique hleads'
    cases hget.symm.trans hinterface

/-- A type whose values go to an ordered type is ordered itself. -/
theorem HasInvalid.hostOrdered_of_assignable (h : t.HasInvalid) (ha : t.isInvalid a = false)
    (hb : t.isInvalid b = false) (huntyped : t.isUntyped a = false)
    {hasMethod : TypeId → String → Bool} (hassignable : t.assignable hasMethod a b = true)
    {kind : BasicType}
    (hkind : t.basic? b = some kind) (hb' : t.HostOrdered b) : t.HostOrdered a := by
  have hshape := shape_of_basic? hkind
  have hinterface : t.isInterface b = false := by rw [isInterface, hshape]
  rcases (assignable_eq_true ha hb huntyped).mp hassignable with rfl | htyped
  · exact hb'
  · obtain ⟨-, n, m, base, other, -, -, hleads, hother, hmeets⟩ :=
      (typedAssignable_iff h.get ha hb hinterface).mp htyped
    obtain ⟨k, under, kind', hunder, hget, hordered⟩ := hb'
    obtain ⟨-, rfl⟩ := hother.unique hunder
    rcases hmeets with rfl | ⟨element, dir, -, hchan⟩
    · exact ⟨n, base, kind', hleads, hget, hordered⟩
    · cases hget.symm.trans hchan

/-- Of the comparisons of values whose types have been brought together, the host allows those that
are not unchecked. -/
theorem Canonical.hostCompares_iff (h : t.Canonical) (ha : t.isInvalid a = false)
    (hb : t.isInvalid b = false)
    (hfits : (t.HostFits methodOf a b ∨ t.HostFits methodOf b a) ∨
      (t.TakenForBasic a b ∨ t.TakenForBasic b a) ∨
        t.HasNamed methodOf a b ∨ t.HasNamed methodOf b a)
    (hordered : op.NeedsOrder → t.HostOrdered a ∧ t.HostOrdered b) :
    t.HostCompares methodOf op (some a) (some b) ↔
      ¬t.Unchecked methodOf op (some a) (some b) := by
  dsimp only [HostCompares, Unchecked]
  constructor
  · rintro ⟨hfits, -, hcomparable⟩ (⟨horder, hpart⟩ | (htaken | htaken) | ⟨-, hnot⟩)
    · exact hpart.elim (hcomparable horder).1 (hcomparable horder).2
    · exact htaken.not_hostFits h ha hb hfits
    · exact htaken.not_hostFits h hb ha hfits.symm
    · exact hnot hfits
  · intro hchecked
    refine ⟨?_, hordered, fun horder => ?_⟩
    · by_contra hnot
      rcases hfits with hfits | htaken | hnamed
      · exact hnot hfits
      · exact hchecked (.inr (.inl htaken))
      · exact hchecked (.inr (.inr ⟨hnamed, hnot⟩))
    · exact ⟨fun hpart => hchecked (.inl ⟨horder, .inl hpart⟩),
        fun hpart => hchecked (.inl ⟨horder, .inr hpart⟩)⟩

end TypeTable

/-! ## Comparisons -/

namespace Lowering

variable {c : Context} {s s' : State} {op : BinaryOp} {left right r operand : Operand}
  {target : TypeId} {span : Span}

/-- One value of a type that is no untyped one, or `nil`. -/
structure Operand.IsComparand (types : TypeTable) (operand : Operand) : Prop where
  value : operand.isValue = true
  single : ∀ elements, types.get operand.type ≠ .tuple elements
  valid : types.isInvalid operand.type = false
  typed : operand.mode ≠ .nil → ∀ kind, types.basic? operand.type = some kind →
    kind.isUntyped = false

/-- The type of an operand, none for `nil`. -/
def Operand.comparedType? (operand : Operand) : Option TypeId :=
  if operand.mode = .nil then none else some operand.type

theorem Operand.IsComparand.isUntyped {types : TypeTable} (h : operand.IsComparand types)
    (hmode : operand.mode ≠ .nil) : types.isUntyped operand.type = false := by
  unfold TypeTable.isUntyped
  split
  · rename_i kind hget
    refine h.typed hmode kind ?_
    simp only [TypeTable.basic?, TypeTable.shape, TypeTable.underlying, TypeTable.resolve, hget]
  · rfl

/-- Whether a type is assignable to another one in a state, with the methods that are known. -/
def State.assignable (c : Context) (s : State) (source target : TypeId) : Prop :=
  s.types.assignable (fun id name => (s.method? c.env id name).isSome) source target = true

/-- As a value of a type, `nil` is left as it is, and the type has it. -/
theorem coerce_nil_ok {id : HostId} (hmode : operand.mode = .nil)
    (hvalid : s.types.isInvalid operand.type = false) (htarget : s.types.isInvalid target = false)
    (h : coerce operand target c s = (.ok id, s')) : s.types.isNilable target = true := by
  unfold coerce at h
  obtain ⟨_, s₁, hcheck, hrest⟩ := bind_ok.mp h
  obtain rfl := Reads.ok hcheck
  obtain ⟨_, _, ⟨⟩, hrun⟩ := bind_ok.mp hrest
  rw [hvalid, htarget, Bool.or_false, if_neg Bool.false_ne_true, hmode,
    if_pos (beq_self_eq_true _)] at hrun
  cases hnilable : s₁.types.isNilable target with
  | true => rfl
  | false =>
    rw [hnilable, if_neg Bool.false_ne_true] at hrun
    exact absurd hrun Fails.fails

/-- Two typed operands are brought together if their types are one, or if one of the types takes
the values of the other. -/
theorem unify_typed_ok {common : HostId × HostId × TypeId}
    (hleft : s.types.isUntyped left.type = false) (hright : s.types.isUntyped right.type = false)
    (h : unify left right span c s = (.ok common, s')) :
    s' = s ∧ ((left.type = right.type ∨ s.assignable c right.type left.type) ∧
        common.2.2 = left.type ∨
      s.assignable c left.type right.type ∧ common.2.2 = right.type) := by
  unfold unify at h
  obtain ⟨_, _, ⟨⟩, h₁⟩ := bind_ok.mp h
  rw [hleft, hright] at h₁
  obtain ⟨rightToLeft, _, ⟨⟩, h₂⟩ := bind_ok.mp h₁
  obtain ⟨leftToRight, _, ⟨⟩, h₃⟩ := bind_ok.mp h₂
  split at h₃
  · rename_i hone
    obtain ⟨rfl, rfl⟩ := pure_ok.mp h₃
    refine ⟨rfl, .inl ⟨?_, rfl⟩⟩
    simp only [Bool.or_eq_true, Bool.and_eq_true, beq_iff_eq] at hone
    rcases hone with (hsame | ⟨hright, -⟩) | ⟨-, hright⟩
    · exact .inl hsame
    · exact .inr hright
    · exact .inr hright
  · split at h₃
    · rename_i hinterface
      obtain ⟨rfl, rfl⟩ := pure_ok.mp h₃
      exact ⟨rfl, .inr ⟨(Bool.and_eq_true_iff.mp hinterface).2, rfl⟩⟩
    · exact absurd h₃ Fails.fails

/-- A comparison that is lowered is one of `nil` with a type that has it, or one of two values
whose types are brought together, with an order if the operator needs one. -/
theorem lowerComparison_ok (h : lowerComparison op left right span c s = (.ok r, s')) :
    (left.mode = .nil ∧ right.mode ≠ .nil ∧
        ∃ id s₁, coerce left right.type c s = (.ok id, s₁)) ∨
      (left.mode ≠ .nil ∧ right.mode = .nil ∧
        ∃ id s₁, coerce right left.type c s = (.ok id, s₁)) ∨
      left.mode ≠ .nil ∧ right.mode ≠ .nil ∧
        ∃ common s₁, unify left right span c s = (.ok common, s₁) ∧
          (op.NeedsOrder → ∃ kind, s₁.types.basic? common.2.2 = some kind ∧
            isOrdered kind = true) := by
  unfold lowerComparison at h
  dsimp only at h
  generalize left.mode = leftMode, right.mode = rightMode at h ⊢
  split at h
  · exact absurd h Fails.fails
  · rename_i hright
    obtain ⟨id, s₁, hcoerce, -⟩ := bind_ok.mp h
    exact .inl ⟨rfl, hright, id, s₁, hcoerce⟩
  · rename_i hleft
    obtain ⟨id, s₁, hcoerce, -⟩ := bind_ok.mp h
    exact .inr (.inl ⟨hleft, rfl, id, s₁, hcoerce⟩)
  · rename_i hleft hright _
    obtain ⟨common, s₁, hunify, hrest⟩ := bind_ok.mp h
    refine .inr (.inr ⟨hleft, hright, common, s₁, hunify, fun horder => ?_⟩)
    obtain ⟨basic, _, ⟨⟩, hplace⟩ := bind_ok.mp hrest
    cases hany : (s₁.types.basic? common.2.2).any isOrdered with
    | true => exact (Option.any_eq_true _ _).mp hany
    | false =>
      rw [if_pos (by simp [horder.1, horder.2, hany])] at hplace
      exact absurd hplace Fails.fails

/-- The types of two operands that are brought together. -/
theorem unify_typed_fits {common : HostId × HostId × TypeId} (hcanonical : s.types.Canonical)
    (hinvalid : s.types.HasInvalid) (hl : left.IsComparand s.types)
    (hr : right.IsComparand s.types) (hleft : left.mode ≠ .nil) (hright : right.mode ≠ .nil)
    (h : unify left right span c s = (.ok common, s')) :
    (s.types.HostFits (s.method? c.env) left.type right.type ∨
        s.types.HostFits (s.method? c.env) right.type left.type) ∨
      (s.types.TakenForBasic left.type right.type ∨ s.types.TakenForBasic right.type left.type) ∨
        s.types.HasNamed (s.method? c.env) left.type right.type ∨
          s.types.HasNamed (s.method? c.env) right.type left.type := by
  obtain ⟨-, ⟨hsame | hassignable, -⟩ | ⟨hassignable, -⟩⟩ :=
    unify_typed_ok (hl.isUntyped hleft) (hr.isUntyped hright) h
  · exact .inl (.inl (.inl (hsame ▸ .inl (.refl s.types left.type))))
  · rcases hcanonical.fits_of_assignable hinvalid hr.valid hl.valid (hr.isUntyped hright)
      hassignable with hfits | htaken | hnamed
    · exact .inl (.inr hfits)
    · exact .inr (.inl htaken.symm)
    · exact .inr (.inr (.inr hnamed))
  · rcases hcanonical.fits_of_assignable hinvalid hl.valid hr.valid (hl.isUntyped hleft)
      hassignable with hfits | htaken | hnamed
    · exact .inl (.inl hfits)
    · exact .inr (.inl htaken)
    · exact .inr (.inr (.inl hnamed))

/-- If the common type of two operands has an order, both of their types have one. -/
theorem unify_typed_ordered {common : HostId × HostId × TypeId} {kind : BasicType}
    (hinvalid : s.types.HasInvalid) (hl : left.IsComparand s.types)
    (hr : right.IsComparand s.types) (hleft : left.mode ≠ .nil) (hright : right.mode ≠ .nil)
    (h : unify left right span c s = (.ok common, s'))
    (hkind : s.types.basic? common.2.2 = some kind) (hordered : isOrdered kind = true) :
    s.types.HostOrdered left.type ∧ s.types.HostOrdered right.type := by
  obtain ⟨-, ⟨hassignable, hcommon⟩ | ⟨hassignable, hcommon⟩⟩ :=
    unify_typed_ok (hl.isUntyped hleft) (hr.isUntyped hright) h
  · rw [hcommon] at hkind
    have hhost := hinvalid.hostOrdered hkind (hl.typed hleft kind hkind) hordered
    rcases hassignable with hsame | hassignable
    · exact ⟨hhost, hsame ▸ hhost⟩
    · exact ⟨hhost, hinvalid.hostOrdered_of_assignable hr.valid hl.valid (hr.isUntyped hright)
        hassignable hkind hhost⟩
  · rw [hcommon] at hkind
    have hhost := hinvalid.hostOrdered hkind (hr.typed hright kind hkind) hordered
    exact ⟨hinvalid.hostOrdered_of_assignable hl.valid hr.valid (hl.isUntyped hleft)
      hassignable hkind hhost, hhost⟩

/-- A comparison of typed values, or of one with `nil`, that is lowered: the host allows it just in
case it is not one of those that are not checked. -/
theorem lowered_comparison_allowed_iff (hcanonical : s.types.Canonical)
    (hinvalid : s.types.HasInvalid) (hleft : left.IsComparand s.types)
    (hright : right.IsComparand s.types)
    (h : lowerComparison op left right span c s = (.ok r, s')) :
    s.types.HostCompares (s.method? c.env) op left.comparedType? right.comparedType? ↔
      ¬s.types.Unchecked (s.method? c.env) op left.comparedType? right.comparedType? := by
  rcases lowerComparison_ok h with ⟨hl, hr, id, s₁, hcoerce⟩ | ⟨hl, hr, id, s₁, hcoerce⟩ |
    ⟨hl, hr, common, s₁, hunify, hkind⟩
  · have hnilable := hinvalid.hostNilable (hright.typed hr)
      (coerce_nil_ok hl hleft.valid hright.valid hcoerce)
    rw [Operand.comparedType?, if_pos hl, Operand.comparedType?, if_neg hr]
    exact and_iff_left hnilable
  · have hnilable := hinvalid.hostNilable (hleft.typed hl)
      (coerce_nil_ok hr hright.valid hleft.valid hcoerce)
    rw [Operand.comparedType?, if_neg hl, Operand.comparedType?, if_pos hr]
    exact and_iff_left hnilable
  · obtain ⟨rfl, -⟩ := unify_typed_ok (hleft.isUntyped hl) (hright.isUntyped hr) hunify
    rw [Operand.comparedType?, if_neg hl, Operand.comparedType?, if_neg hr]
    refine hcanonical.hostCompares_iff hleft.valid hright.valid
      (unify_typed_fits hcanonical hinvalid hleft hright hl hr hunify) fun horder => ?_
    obtain ⟨kind, hbasic, hordered⟩ := hkind horder
    exact unify_typed_ordered hinvalid hleft hright hl hr hunify hbasic hordered

/-! ## Vectors -/

/-- A unit of no nodes. -/
def vectorContext : Context := .bare []

/-- Inside of a function, with the types of some quantities. -/
def vectorState : State :=
  .inside (TypeTable.initial.performAll TypeTable.quantities).2 [] []

/-- A value of the type `Vector`, which is defined as `[]float64`. -/
def vectorOperand : Operand := .value ⟨0⟩ ⟨34⟩ .synthetic

def nilOperand : Operand := { Operand.value ⟨1⟩ TypeTable.untypedNil .synthetic with mode := .nil }

theorem get_vector : vectorState.types.get ⟨34⟩ = .named none "Vector" (some ⟨33⟩) := by
  decide +kernel

theorem vectorOperand_isComparand : vectorOperand.IsComparand vectorState.types where
  value := rfl
  single elements htuple := by cases get_vector.symm.trans htuple
  valid := by decide +kernel
  typed _ kind hkind := by
    have hnone : vectorState.types.basic? vectorOperand.type = none := by decide +kernel
    cases hnone.symm.trans hkind

theorem nilOperand_isComparand : nilOperand.IsComparand vectorState.types where
  value := rfl
  single elements htuple := by
    have hget : vectorState.types.get nilOperand.type = .basic .untypedNil := by decide +kernel
    cases hget.symm.trans htuple
  valid := by decide +kernel
  typed hmode := absurd rfl hmode

theorem vectorState_types : vectorState.types.Canonical ∧ vectorState.types.HasInvalid :=
  ⟨TypeTable.canonical_initial.performAll TypeTable.admits_quantities,
    ⟨by decide +kernel, by decide +kernel⟩⟩

/-- `v == nil` is lowered, and the host allows it. -/
theorem lowered_comparison_allowed_iff_nil :
    vectorState.types.Canonical ∧ vectorState.types.HasInvalid ∧
      vectorOperand.IsComparand vectorState.types ∧ nilOperand.IsComparand vectorState.types ∧
      (∃ r s', lowerComparison .equal vectorOperand nilOperand .synthetic vectorContext
        vectorState = (.ok r, s')) ∧
      vectorState.types.HostCompares (vectorState.method? vectorContext.env) .equal
        (some ⟨34⟩) none := by
  obtain ⟨r, s', hlower⟩ : ∃ r s', lowerComparison .equal vectorOperand nilOperand .synthetic
      vectorContext vectorState = (.ok r, s') := exists_ok (by decide +kernel)
  have hallowed := lowered_comparison_allowed_iff vectorState_types.1 vectorState_types.2
    vectorOperand_isComparand nilOperand_isComparand hlower
  exact ⟨vectorState_types.1, vectorState_types.2, vectorOperand_isComparand,
    nilOperand_isComparand, ⟨r, s', hlower⟩, hallowed.mpr fun horder => horder.1 rfl⟩

/-- `v < nil` and `v == v` are lowered, which the host allows neither of. -/
theorem lowered_comparison_not_allowed :
    vectorOperand.IsComparand vectorState.types ∧ nilOperand.IsComparand vectorState.types ∧
      ((∃ r s', lowerComparison .less vectorOperand nilOperand .synthetic vectorContext
          vectorState = (.ok r, s')) ∧
        ¬vectorState.types.HostCompares (vectorState.method? vectorContext.env) .less
          (some ⟨34⟩) none) ∧
      (∃ r s', lowerComparison .equal vectorOperand vectorOperand .synthetic vectorContext
          vectorState = (.ok r, s')) ∧
        ¬vectorState.types.HostCompares (vectorState.method? vectorContext.env) .equal
          (some ⟨34⟩) (some ⟨34⟩) := by
  have hslice : vectorState.types.get ⟨33⟩ = .slice (TypeTable.basic .float64) := by
    decide +kernel
  have hleads : vectorState.types.Leads ⟨34⟩ 1 ⟨33⟩ :=
    .step get_vector (.here (by decide +kernel))
  have horder : ¬BinaryOp.equal.NeedsOrder := fun horder => horder.1 rfl
  exact ⟨vectorOperand_isComparand, nilOperand_isComparand,
    ⟨exists_ok (by decide +kernel), fun hallowed => hallowed.1 ⟨by decide, by decide⟩⟩,
    exists_ok (by decide +kernel),
    fun hallowed => (hallowed.2.2 horder).1 (.slice hleads hslice)⟩

end Lowering

end GoLowering
