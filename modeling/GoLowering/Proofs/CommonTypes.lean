import GoLowering.Lowering.Composites
import GoLowering.Proofs.BigInitializers
import GoLowering.Proofs.InvalidOperands
import GoLowering.Proofs.Situations

/-!
# The type that operands have in common

Which type the operands of a list have in common depends on what there is among them only
(`commonType_ok_of`). The order of the operands does not matter, nor does it how often one is there
(`commonType_ok_iff_of_sameOperands`).
-/

namespace GoLowering

namespace Lowering

variable {c : Context} {s s' : State} {xs ys operands : List Operand} {operand : Operand}
  {type : TypeId} {span : Span}

/-! ## Single values -/

/-- An operand that is one value. -/
structure Operand.IsSingle (types : TypeTable) (operand : Operand) : Prop where
  mode : operand.mode = .value ∨ operand.mode = .nil
  type : ∀ elements, types.get operand.type ≠ .tuple elements

theorem checkValue_ok_iff : checkValue operand c s = (.ok (), s') ↔
    operand.IsSingle s.types ∧ s = s' := by
  have hvalue (hmode : operand.mode = .value ∨ operand.mode = .nil) :
      checkValue operand c s = (.ok (), s') ↔
        (∀ elements, s.types.get operand.type ≠ .tuple elements) ∧ s = s' := by
    unfold checkValue
    rcases hmode with hmode | hmode
    all_goals
      rw [hmode]
      dsimp only
      rw [run_bind, run_getTypes]
      dsimp only
      cases s.types.get operand.type with
      | tuple elements => exact iff_of_false (fun h => Fails.fails h) (fun h => h.1 elements rfl)
      | _ => simp [pure_ok]
  constructor
  · intro h
    have hmode : operand.mode = .value ∨ operand.mode = .nil := by
      cases hmode : operand.mode with
      | value => exact .inl rfl
      | nil => exact .inr rfl
      | noValue | type | package | builtin =>
        unfold checkValue at h
        rw [hmode] at h
        exact absurd h Fails.fails
    exact ⟨⟨hmode, ((hvalue hmode).mp h).1⟩, ((hvalue hmode).mp h).2⟩
  · rintro ⟨⟨hmode, htype⟩, hs⟩
    exact (hvalue hmode).mpr ⟨htype, hs⟩

theorem Operand.IsSingle.run_checkValue (h : operand.IsSingle s.types) :
    checkValue operand c s = (.ok (), s) :=
  checkValue_ok_iff.mpr ⟨h, rfl⟩

theorem forM_checkValue_ok_iff : operands.forM checkValue c s = (.ok (), s') ↔
    (∀ operand ∈ operands, operand.IsSingle s.types) ∧ s = s' := by
  induction operands with
  | nil =>
    change (pure () : Lower Unit) c s = (.ok (), s') ↔ _
    simp [pure_ok]
  | cons first rest ih =>
    change (checkValue first >>= fun _ => rest.forM checkValue) c s = (.ok (), s') ↔ _
    rw [bind_ok]
    constructor
    · rintro ⟨_, s₁, hfirst, hrest⟩
      obtain ⟨hsingle, rfl⟩ := checkValue_ok_iff.mp hfirst
      obtain ⟨hsingles, rfl⟩ := ih.mp hrest
      exact ⟨List.forall_mem_cons.mpr ⟨hsingle, hsingles⟩, rfl⟩
    · rintro ⟨hsingles, rfl⟩
      obtain ⟨hsingle, hsingles⟩ := List.forall_mem_cons.mp hsingles
      exact ⟨(), s, hsingle.run_checkValue, ih.mpr ⟨hsingles, rfl⟩⟩

/-! ## Untyped operands beside typed ones -/

/-- Whether an untyped operand can stand beside elements of a type. -/
def fits (c : Context) (s : State) (type : TypeId) (operand : Operand) : Bool :=
  if (c.registry.get? type).isSome then operand.constant.isSome
  else
    s.types.assignable (fun id name => (s.method? c.env id name).isSome) operand.type type &&
      !overflows BasicType.isNumeric operand.constant (s.types.basic? type)

theorem run_fitsBeside (type : TypeId) (operand : Operand) (c : Context) (s : State) :
    fitsBeside type operand c s = (.ok (fits c s type operand), s) := by
  unfold fitsBeside fits
  rw [run_read]
  split
  · rfl
  · rfl

theorem run_allM_fitsBeside (type : TypeId) (operands : List Operand) (c : Context) (s : State) :
    operands.allM (fitsBeside type) c s = (.ok (operands.all (fits c s type)), s) := by
  induction operands with
  | nil => rfl
  | cons first rest ih =>
    rw [List.allM, run_bind, run_fitsBeside, List.all_cons]
    cases fits c s type first with
    | false => rfl
    | true => exact ih

/-! ## Common types -/

/-- A `nil`, as an operand or as a constant. -/
def IsNothing (types : TypeTable) (operand : Operand) : Prop :=
  operand.mode = .nil ∨ untypedKind? types operand = some .untypedNil

/-- The typed operands have one type, and all untyped ones fit beside it. -/
def Agree (c : Context) (s : State) (operands : List Operand) (type : TypeId) : Prop :=
  ∀ operand ∈ operands,
    match untypedKind? s.types operand with
    | none => operand.type = type
    | some _ => fits c s type operand = true

/-- The untyped and the typed ones among operands. -/
def untypedOf (types : TypeTable) (operands : List Operand) : List Operand :=
  operands.filter (fun operand => (untypedKind? types operand).isSome)

def typedOf (types : TypeTable) (operands : List Operand) : List Operand :=
  operands.filter (fun operand => (untypedKind? types operand).isNone)

theorem mem_typedOf {types : TypeTable} :
    operand ∈ typedOf types operands ↔ operand ∈ operands ∧ untypedKind? types operand = none := by
  simp [typedOf]

theorem partition_untyped (types : TypeTable) (operands : List Operand) :
    operands.partition (fun operand => (untypedKind? types operand).isSome) =
      (untypedOf types operands, typedOf types operands) := by
  rw [List.partition_eq_filter_filter, untypedOf, typedOf]
  congr 2
  funext operand
  cases h : untypedKind? types operand <;> simp [h]

theorem filterMap_untypedOf (types : TypeTable) (operands : List Operand) :
    (untypedOf types operands).filterMap (untypedKind? types) =
      operands.filterMap (untypedKind? types) := by
  rw [untypedOf, List.filterMap_filter]
  congr 1
  funext operand
  cases untypedKind? types operand <;> rfl

theorem isNothing_iff {types : TypeTable} :
    (operands.any (·.mode == .nil) ||
      (operands.filterMap (untypedKind? types)).contains .untypedNil) = true ↔
        ∃ operand ∈ operands, IsNothing types operand := by
  simp only [Bool.or_eq_true, List.any_eq_true, beq_iff_eq, List.contains_iff_mem,
    List.mem_filterMap, IsNothing, and_or_left, exists_or]

/-- Whether all agree can be seen at the first typed one. -/
theorem agree_iff {first : Operand} {rest : List Operand}
    (htyped : typedOf s.types operands = first :: rest) :
    Agree c s operands first.type ↔ rest.any (·.type != first.type) = false ∧
      (untypedOf s.types operands).all (fits c s first.type) = true := by
  have hrest : rest.any (·.type != first.type) = false ↔
      ∀ operand ∈ operands, untypedKind? s.types operand = none → operand.type = first.type := by
    constructor
    · intro h operand hmem hnone
      have hin : operand ∈ first :: rest := htyped ▸ mem_typedOf.mpr ⟨hmem, hnone⟩
      rcases List.mem_cons.mp hin with rfl | hin
      · rfl
      · simpa using List.any_eq_false.mp h operand hin
    · intro h
      refine List.any_eq_false.mpr (fun operand hin => ?_)
      obtain ⟨hmem, hnone⟩ := mem_typedOf.mp
        (htyped ▸ List.mem_cons_of_mem first hin : operand ∈ typedOf s.types operands)
      simpa using h operand hmem hnone
  have hall : (untypedOf s.types operands).all (fits c s first.type) = true ↔
      ∀ operand ∈ operands, ∀ kind, untypedKind? s.types operand = some kind →
        fits c s first.type operand = true := by
    simp only [untypedOf, List.all_eq_true, List.mem_filter, Option.isSome_iff_exists]
    exact ⟨fun h operand hmem kind hkind => h operand ⟨hmem, kind, hkind⟩,
      fun h operand hin => h operand hin.1 hin.2.choose hin.2.choose_spec⟩
  rw [hrest, hall]
  constructor
  · intro h
    refine ⟨fun operand hmem hnone => ?_, fun operand hmem kind hkind => ?_⟩
    · have := h operand hmem
      rwa [hnone] at this
    · have := h operand hmem
      rwa [hkind] at this
  · rintro ⟨htyped, huntyped⟩ operand hmem
    cases hkind : untypedKind? s.types operand with
    | none => exact htyped operand hmem hkind
    | some kind => exact huntyped operand hmem kind hkind

open Classical in
/-- Of single values the common type is found in four ways. -/
theorem run_commonType (hsingle : ∀ operand ∈ operands, operand.IsSingle s.types) :
    commonType operands span c s =
      if ∃ operand ∈ operands, IsNothing s.types operand then (.ok TypeTable.any, s)
      else
        match typedOf s.types operands with
        | [] => commonUntypedType (operands.filterMap (untypedKind? s.types)) span c s
        | first :: _ =>
          (.ok (if Agree c s operands first.type then first.type else TypeTable.any), s) := by
  have hcheck : operands.forM checkValue c s = (.ok (), s) :=
    forM_checkValue_ok_iff.mpr ⟨hsingle, rfl⟩
  unfold commonType
  rw [run_bind, hcheck]
  dsimp only
  rw [run_bind, run_getTypes]
  dsimp only
  rw [partition_untyped]
  simp only [filterMap_untypedOf, isNothing_iff]
  split
  · rfl
  · cases htyped : typedOf s.types operands with
    | nil => rfl
    | cons first rest =>
      have hagree := agree_iff (c := c) htyped
      dsimp only
      cases hrest : rest.any (·.type != first.type) with
      | true =>
        have hdisagree : ¬Agree c s operands first.type := by
          rw [hagree, hrest]
          rintro ⟨⟨⟩, -⟩
        rw [if_neg hdisagree]
        rfl
      | false =>
        rw [hrest] at hagree
        simp only [Bool.false_eq_true, if_false, run_bind, run_allM_fitsBeside, hagree, true_and]
        rfl

/-! ## The same operands -/

/-- What is known of two operands is the same; they may stand in different places. -/
structure Operand.Alike (a b : Operand) : Prop where
  mode : a.mode = b.mode
  type : a.type = b.type
  constant : a.constant = b.constant

theorem Operand.Alike.symm {a b : Operand} (h : a.Alike b) : b.Alike a :=
  ⟨h.mode.symm, h.type.symm, h.constant.symm⟩

/-- Two lists have the same operands, in any order and any number of times. -/
structure SameOperands (xs ys : List Operand) : Prop where
  left : ∀ a ∈ xs, ∃ b ∈ ys, a.Alike b
  right : ∀ b ∈ ys, ∃ a ∈ xs, b.Alike a

/-- Types and methods are the same. -/
structure SameTypes (s₁ s₂ : State) : Prop where
  types : s₁.types = s₂.types
  methods : s₁.methods = s₂.methods

theorem SameTypes.refl (s : State) : SameTypes s s := ⟨rfl, rfl⟩

namespace SameOperands

variable {P Q : Operand → Prop}

theorem symm (h : SameOperands xs ys) : SameOperands ys xs := ⟨h.right, h.left⟩

theorem forall_of (h : SameOperands xs ys) (hpq : ∀ a b, a.Alike b → P a → Q b)
    (hall : ∀ a ∈ xs, P a) : ∀ b ∈ ys, Q b := by
  intro b hb
  obtain ⟨a, ha, halike⟩ := h.right b hb
  exact hpq a b halike.symm (hall a ha)

theorem exists_of (h : SameOperands xs ys) (hpq : ∀ a b, a.Alike b → P a → Q b)
    (hsome : ∃ a ∈ xs, P a) : ∃ b ∈ ys, Q b := by
  obtain ⟨a, ha, hp⟩ := hsome
  obtain ⟨b, hb, halike⟩ := h.left a ha
  exact ⟨b, hb, hpq a b halike hp⟩

end SameOperands

section

variable {s₁ s₂ : State} {a b : Operand}

theorem Operand.Alike.untypedKind?_eq (h : a.Alike b) (types : TypeTable) :
    untypedKind? types a = untypedKind? types b := by
  rw [untypedKind?, untypedKind?, h.type]

theorem Operand.Alike.isSingle (h : a.Alike b) {types : TypeTable} (ha : a.IsSingle types) :
    b.IsSingle types :=
  ⟨h.mode ▸ ha.mode, h.type ▸ ha.type⟩

theorem Operand.Alike.isNothing (h : a.Alike b) {types : TypeTable} (ha : IsNothing types a) :
    IsNothing types b := by
  rw [IsNothing, ← h.mode, ← h.untypedKind?_eq]
  exact ha

theorem SameTypes.fits_eq (hs : SameTypes s₁ s₂) (h : a.Alike b) (c : Context) (type : TypeId) :
    fits c s₁ type a = fits c s₂ type b := by
  have hmethod : s₁.method? c.env = s₂.method? c.env := by
    funext id name
    rw [State.method?, State.method?, hs.types, hs.methods]
  rw [fits, fits, h.type, h.constant, hs.types, hmethod]

/-- The common type of constants depends on which kinds there are. -/
theorem commonUntypedType_congr {kinds kinds' : List BasicType}
    (h : ∀ kind, kind ∈ kinds ↔ kind ∈ kinds') (span : Span) :
    commonUntypedType kinds span = commonUntypedType kinds' span := by
  have hcontains (kind : BasicType) : kinds.contains kind = kinds'.contains kind := by
    rw [Bool.eq_iff_iff, List.contains_iff_mem, List.contains_iff_mem]
    exact h kind
  have hwidest : widest? kinds = widest? kinds' := by
    rw [widest?, widest?, show kinds.contains = kinds'.contains from funext hcontains]
  have hany : kinds.any BasicType.isUntypedBig = kinds'.any BasicType.isUntypedBig := by
    rw [Bool.eq_iff_iff, List.any_eq_true, List.any_eq_true]
    exact exists_congr (fun kind => and_congr_left (fun _ => h kind))
  simp only [commonUntypedType, commonBigType, hwidest, hcontains, hany]

/-- It does not depend on where the literal stands, or on more of the state than the types. -/
theorem commonUntypedType_ok_of {kinds : List BasicType} {span' : Span}
    (hs : SameTypes s₁ s₂) (h : commonUntypedType kinds span c s₁ = (.ok type, s')) :
    commonUntypedType kinds span' c s₂ = (.ok type, s₂) := by
  unfold commonUntypedType at h ⊢
  split at h
  · rename_i hclasses
    rw [if_pos hclasses]
    exact pure_ok.mpr ⟨(pure_ok.mp h).1, rfl⟩
  · rename_i hclass
    rw [if_neg hclass]
    split at h
    · rename_i hbig
      rw [if_pos hbig]
      unfold commonBigType at h ⊢
      split at h
      · exact absurd h Fails.fails
      · rename_i hreal
        rw [if_neg hreal]
        dsimp only at h ⊢
        rw [run_read] at h ⊢
        exact pure_ok.mpr ⟨(pure_ok.mp h).1, rfl⟩
    · rename_i hsmall
      rw [if_neg hsmall]
      cases hwidest : widest? kinds with
      | none =>
        rw [hwidest] at h
        exact pure_ok.mpr ⟨(pure_ok.mp h).1, rfl⟩
      | some kind =>
        rw [hwidest] at h
        have hdefault : s₁.types.defaultType (TypeTable.basic kind) = type :=
          Except.ok.inj (Prod.mk.inj h).1
        rw [hs.types] at hdefault
        exact Prod.ext (congrArg Except.ok hdefault) rfl

theorem SameOperands.typedOf (h : SameOperands xs ys) (types : TypeTable) :
    SameOperands (typedOf types xs) (typedOf types ys) := by
  have hsub {xs ys : List Operand} (h : SameOperands xs ys) :
      ∀ a ∈ Lowering.typedOf types xs, ∃ b ∈ Lowering.typedOf types ys, a.Alike b := by
    intro a ha
    obtain ⟨hmem, hnone⟩ := mem_typedOf.mp ha
    obtain ⟨b, hb, halike⟩ := h.left a hmem
    exact ⟨b, mem_typedOf.mpr ⟨hb, halike.untypedKind?_eq types ▸ hnone⟩, halike⟩
  exact ⟨hsub h, hsub h.symm⟩

theorem Agree.of_sameOperands (h : SameOperands xs ys) (hs : SameTypes s₁ s₂)
    (hagree : Agree c s₁ xs type) : Agree c s₂ ys type := by
  refine h.forall_of (fun a b halike ha => ?_) hagree
  rw [← hs.types, ← halike.untypedKind?_eq]
  rw [halike.type, hs.fits_eq halike] at ha
  exact ha

theorem Agree.type_eq (h : Agree c s operands type) (hmem : operand ∈ typedOf s.types operands) :
    operand.type = type := by
  obtain ⟨hmem, hnone⟩ := mem_typedOf.mp hmem
  have := h operand hmem
  rwa [hnone] at this

/-- What operands have in common, the same operands have in common elsewhere. -/
theorem commonType_ok_of {span' : Span} (h : SameOperands xs ys) (hs : SameTypes s₁ s₂)
    (hrun : commonType xs span c s₁ = (.ok type, s')) :
    commonType ys span' c s₂ = (.ok type, s₂) := by
  have hsingle : ∀ a ∈ xs, a.IsSingle s₁.types := by
    obtain ⟨_, s₁', hcheck, -⟩ := bind_ok.mp hrun
    exact (forM_checkValue_ok_iff.mp hcheck).1
  have hsingle' : ∀ b ∈ ys, b.IsSingle s₂.types :=
    hs.types ▸ h.forall_of (fun _ _ halike ha => halike.isSingle ha) hsingle
  have hnothing : (∃ a ∈ xs, IsNothing s₁.types a) ↔ ∃ b ∈ ys, IsNothing s₂.types b := by
    rw [← hs.types]
    exact ⟨h.exists_of (fun _ _ halike ha => halike.isNothing ha),
      h.symm.exists_of (fun _ _ halike ha => halike.isNothing ha)⟩
  have htyped : SameOperands (typedOf s₁.types xs) (typedOf s₂.types ys) :=
    hs.types ▸ h.typedOf s₁.types
  rw [run_commonType hsingle] at hrun
  rw [run_commonType hsingle']
  by_cases hsome : ∃ a ∈ xs, IsNothing s₁.types a
  · rw [if_pos hsome] at hrun
    rw [if_pos (hnothing.mp hsome), (Prod.mk.inj hrun).1]
  · rw [if_neg hsome] at hrun
    rw [if_neg (mt hnothing.mpr hsome)]
    cases hxs : typedOf s₁.types xs with
    | nil =>
      rw [hxs] at hrun htyped
      cases hys : typedOf s₂.types ys with
      | nil =>
        have hkinds (kind : BasicType) : kind ∈ xs.filterMap (untypedKind? s₁.types) ↔
            kind ∈ ys.filterMap (untypedKind? s₂.types) := by
          simp only [List.mem_filterMap, ← hs.types]
          exact ⟨h.exists_of (fun _ _ halike ha => halike.untypedKind?_eq _ ▸ ha),
            h.symm.exists_of (fun _ _ halike ha => halike.untypedKind?_eq _ ▸ ha)⟩
        dsimp only at hrun
        rw [commonUntypedType_congr hkinds] at hrun
        exact commonUntypedType_ok_of hs hrun
      | cons first' rest' =>
        rw [hys] at htyped
        obtain ⟨_, hmem, -⟩ := htyped.right first' List.mem_cons_self
        exact absurd hmem List.not_mem_nil
    | cons first rest =>
      rw [hxs] at hrun
      have hfirst : first ∈ typedOf s₁.types xs := hxs ▸ List.mem_cons_self
      cases hys : typedOf s₂.types ys with
      | nil =>
        rw [hys] at htyped
        obtain ⟨_, hmem, -⟩ := htyped.left first hfirst
        exact absurd hmem List.not_mem_nil
      | cons first' rest' =>
        have hfirst' : first' ∈ typedOf s₂.types ys := hys ▸ List.mem_cons_self
        have htype := (Except.ok.inj (Prod.mk.inj hrun).1)
        by_cases hagree : Agree c s₁ xs first.type
        · have hagree' : Agree c s₂ ys first.type := hagree.of_sameOperands h hs
          rw [if_pos hagree] at htype
          dsimp only
          rw [hagree'.type_eq hfirst', if_pos hagree', htype]
        · have hdisagree : ¬Agree c s₂ ys first'.type := by
            intro hagree'
            have hback := hagree'.of_sameOperands h.symm ⟨hs.types.symm, hs.methods.symm⟩
            exact hagree (hback.type_eq hfirst ▸ hback)
          rw [if_neg hagree] at htype
          dsimp only
          rw [if_neg hdisagree, htype]

end

/-! ## Literals -/

/-- A literal `[...]` whose elements are lowered to some operands. -/
def IsSliceOf (c : Context) (s₁ : State) (operands : List Operand) (literal : Operand) : Prop :=
  ∃ walk elements span s lowered s',
    elements.mapM (lowerSliceElement walk) c s = (.ok lowered, s₁) ∧
      lowered.map (·.2) = operands ∧ inferSlice walk elements span c s = (.ok literal, s')

/-- A literal `{...}` whose elements are lowered to some keys and values. -/
def IsMapOf (c : Context) (s₁ : State) (keys values : List Operand) (literal : Operand) : Prop :=
  ∃ (walk : Walk) (elements : List (Surface.NodeId × Surface.NodeId)) (span : Span) (s : State)
    (lowered : List (Operand × Operand)) (s' : State),
    (elements.mapM (fun (key, value) => lowerMapElement walk key value) :
      Lower (List (Operand × Operand))) c s = (.ok lowered, s₁) ∧
    lowered.map (·.1) = keys ∧ lowered.map (·.2) = values ∧
    inferMap walk elements span c s = (.ok literal, s')

theorem SameOperands.refl (operands : List Operand) : SameOperands operands operands :=
  ⟨fun a ha => ⟨a, ha, rfl, rfl, rfl⟩, fun a ha => ⟨a, ha, rfl, rfl, rfl⟩⟩

/-- To look for a common type changes nothing. -/
theorem commonType_state (h : commonType operands span c s = (.ok type, s')) : s' = s :=
  (Prod.mk.inj (h.symm.trans (commonType_ok_of (.refl operands) (.refl s) h))).2

theorem compositeOperand_type {elements : List HostElement} {literal : Operand}
    (h : compositeOperand type elements span c s = (.ok literal, s')) : literal.type = type := by
  obtain ⟨id, s₁, -, h⟩ := bind_ok.mp h
  rw [← (pure_ok.mp h).1]
  rfl

/-- A slice is one of the type that its elements have in common. -/
theorem IsSliceOf.type_eq {literal : Operand} (h : IsSliceOf c s operands literal) :
    ∃ span type, commonType operands span c s = (.ok type, s) ∧
      literal.type = (s.types.slice type).1 := by
  obtain ⟨walk, elements, span, s₀, lowered, s', hlowered, rfl, h⟩ := h
  unfold inferSlice at h
  rw [run_bind, hlowered] at h
  obtain ⟨type, s₁, hcommon, h₁⟩ := bind_ok.mp h
  obtain rfl := commonType_state hcommon
  rw [run_onTypes] at h₁
  obtain ⟨_, s₂, -, h₂⟩ := bind_ok.mp h₁
  exact ⟨span, type, hcommon, compositeOperand_type h₂⟩

/-- A map is one of the types that its keys and its values have in common. -/
theorem IsMapOf.type_eq {keys values : List Operand} {literal : Operand}
    (h : IsMapOf c s keys values literal) :
    ∃ span key value, commonType keys span c s = (.ok key, s) ∧
      commonType values span c s = (.ok value, s) ∧ literal.type = (s.types.map key value).1 := by
  obtain ⟨walk, elements, span, s₀, lowered, s', hlowered, rfl, rfl, h⟩ := h
  unfold inferMap at h
  rw [run_bind, hlowered] at h
  obtain ⟨key, s₁, hkey, h₁⟩ := bind_ok.mp h
  obtain rfl := commonType_state hkey
  obtain ⟨value, s₂, hvalue, h₂⟩ := bind_ok.mp h₁
  obtain rfl := commonType_state hvalue
  rw [run_onTypes] at h₂
  obtain ⟨_, s₃, -, h₃⟩ := bind_ok.mp h₂
  exact ⟨span, key, value, hkey, hvalue, compositeOperand_type h₃⟩

/-- The same operands, in another order or more often, have a type in common just in case they
have one, and it is the same type. So the type of a slice or a map is the same whatever the order
of its elements. -/
theorem commonType_ok_iff_of_sameOperands {s₁ s₂ : State} (h : SameOperands xs ys)
    (hs : SameTypes s₁ s₂) (span span' : Span) :
    (∀ type, (∃ s', commonType xs span c s₁ = (.ok type, s')) ↔
      ∃ s', commonType ys span' c s₂ = (.ok type, s')) ∧
    (∀ slice slice', IsSliceOf c s₁ xs slice → IsSliceOf c s₂ ys slice' →
      slice.type = slice'.type) ∧
    ∀ keys keys' map map', SameOperands keys keys' → IsMapOf c s₁ keys xs map →
      IsMapOf c s₂ keys' ys map' → map.type = map'.type := by
  have hunique {xs ys : List Operand} {span span' : Span} {type type' : TypeId}
      (h : SameOperands xs ys) (hrun : commonType xs span c s₁ = (.ok type, s₁))
      (hrun' : commonType ys span' c s₂ = (.ok type', s₂)) : type = type' :=
    Except.ok.inj (Prod.mk.inj ((commonType_ok_of h hs hrun).symm.trans hrun')).1
  refine ⟨fun type => ⟨?_, ?_⟩, ?_, ?_⟩
  · rintro ⟨s', hrun⟩
    exact ⟨s₂, commonType_ok_of h hs hrun⟩
  · rintro ⟨s', hrun⟩
    exact ⟨s₁, commonType_ok_of h.symm ⟨hs.types.symm, hs.methods.symm⟩ hrun⟩
  · intro slice slice' hslice hslice'
    obtain ⟨_, type, hrun, htype⟩ := hslice.type_eq
    obtain ⟨_, type', hrun', htype'⟩ := hslice'.type_eq
    rw [htype, htype', hunique h hrun hrun', hs.types]
  · intro keys keys' map map' hkeys hmap hmap'
    obtain ⟨_, key, value, hkey, hvalue, htype⟩ := hmap.type_eq
    obtain ⟨_, key', value', hkey', hvalue', htype'⟩ := hmap'.type_eq
    rw [htype, htype', hunique hkeys hkey hkey', hunique h hvalue hvalue', hs.types]

/-- `1` and a variable of type `int`. -/
def one : Operand :=
  .ofConstant ⟨0⟩ (TypeTable.basic .untypedInt) (some (.int 1)) .synthetic

def counter : Operand := .value ⟨1⟩ TypeTable.int .synthetic

theorem commonType_ok_iff_of_sameOperands_counter :
    SameOperands [one, counter] [counter, one, counter] ∧
      ∃ s', commonType [counter, one, counter] .synthetic (Context.bare [])
        (.initial (.bare [] []) .initial) = (.ok TypeTable.int, s') := by
  have hsame : SameOperands [one, counter] [counter, one, counter] := by
    refine ⟨fun a ha => ⟨a, ?_, rfl, rfl, rfl⟩, fun b hb => ⟨b, ?_, rfl, rfl, rfl⟩⟩
    · simp only [List.mem_cons, List.not_mem_nil, or_false] at ha ⊢
      exact ha.elim (fun h => .inr (.inl h)) .inl
    · simp only [List.mem_cons, List.not_mem_nil, or_false] at hb ⊢
      exact hb.elim .inr id
  refine ⟨hsame, ((commonType_ok_iff_of_sameOperands hsame (.refl _) .synthetic .synthetic).1
    TypeTable.int).mp ?_⟩
  exact ⟨.initial (.bare [] []) .initial, Prod.ext (by decide +kernel) rfl⟩

end Lowering

end GoLowering
