import GoLowering.Proofs.ConstantPlaces
import GoLowering.Proofs.KnownValues

/-!
# What declarations of constants are given

The host evaluates the values of a declaration of constants before the program runs, and gives
them types of truth values, numbers and strings only. A declaration is put out with whatever its
values are coerced to: `constants_isStatic_iff` says which values the host does evaluate. Those that
it does not are calls of initializers and conversions of them, and no type is looked at.
-/

namespace GoLowering.Lowering

open Surface

variable {c : Context} {final s s₁ s' : State} {operand : Operand} {target : TypeId}

/-- Whether a constant is made a value of the type of a declaration by an initializer. -/
def IsInitialized (c : Context) (types : TypeTable) (type : Option TypeId) (operand : Operand) :
    Prop :=
  types.isUntyped operand.type = true ∧ ∃ target ∈ type, (c.registry.get? target).isSome = true

theorem isInitialized_some {types : TypeTable} :
    IsInitialized c types (some target) operand ↔
      types.isUntyped operand.type = true ∧ (c.registry.get? target).isSome = true := by
  simp [IsInitialized]

/-- A constant that is coerced to a scalar type is left as it is, or an initializer is called. -/
theorem coerce_scalar {id : HostId} (hscalar : s.types.IsScalar target)
    (hconstant : operand.constant.isSome = true)
    (h : coerce operand target c s = (.ok id, s')) :
    IsInitialized c s.types (some target) operand ∧ s'.tree.CallsPackage id ∨
      ¬IsInitialized c s.types (some target) operand ∧ id = operand.id := by
  obtain ⟨kind, hkind, hscalar⟩ := hscalar
  have hinterface := TypeTable.isInterface_of_basic? hkind
  have hvalid : s.types.isInvalid target = false := by
    rw [TypeTable.isInvalid_eq_false]
    intro hinvalid
    simp only [TypeTable.basic?, TypeTable.shape, TypeTable.underlying, TypeTable.resolve, hinvalid]
      at hkind
    cases hkind
  have hnil : s.types.isNilable target = false := by
    rw [TypeTable.isNilable, TypeTable.shape_of_basic? hkind]
    rcases hscalar with hnumeric | rfl | rfl
    · revert hnumeric
      cases kind <;> decide
    · rfl
    · rfl
  rw [isInitialized_some]
  unfold coerce at h
  obtain ⟨_, s₁, hcheck, h₁⟩ := bind_ok.mp h
  obtain rfl := Reads.ok hcheck
  obtain ⟨_, _, ⟨⟩, h₂⟩ := bind_ok.mp h₁
  rw [hvalid, Bool.or_false] at h₂
  split at h₂
  · rename_i hinvalid
    obtain ⟨rfl, rfl⟩ := pure_ok.mp h₂
    refine .inr ⟨fun hinitialized => ?_, rfl⟩
    have huntyped := hinitialized.1
    have hget : s₁.types.get operand.type = .invalid := by
      simpa [TypeTable.isInvalid] using hinvalid
    simp [TypeTable.isUntyped, hget] at huntyped
  split at h₂
  · rw [hnil, if_neg Bool.false_ne_true] at h₂
    exact absurd h₂ Fails.fails
  rw [run_read] at h₂
  split at h₂
  · rename_i hinitialized
    rw [hconstant, Bool.and_true, Bool.and_eq_true_iff] at hinitialized
    exact .inl ⟨hinitialized, materialize_callsPackage h₂⟩
  · rename_i hplain
    rw [hconstant, Bool.and_true, Bool.and_eq_true_iff] at hplain
    refine .inr ⟨hplain, ?_⟩
    rw [run_isUntypedBig_bind] at h₂
    split at h₂
    · rw [hinterface, if_neg Bool.false_ne_true] at h₂
      exact absurd h₂ Fails.fails
    split at h₂
    · exact absurd h₂ Fails.fails
    obtain ⟨_, _, ⟨⟩, h₃⟩ := bind_ok.mp h₂
    split at h₃
    · exact (pure_ok.mp h₃).1.symm
    · exact absurd h₃ Fails.fails

/-- The value that is emitted for a constant of a declaration. -/
theorem lowerConstant_isStatic_iff (hwritten : final.WritesTyped) {depth : Nat}
    {type : Option TypeId} {value : NodeId} {v : HostId} {symbol : Symbol}
    (h : lowerConstant (walkWithin depth) type value c s = (.ok (some v, symbol), s'))
    (hfinal : Extends s' final) :
    ∃ operand s₁, (walkWithin depth).expr value (.maybe type) c s = (.ok operand, s₁) ∧
      Extends s₁ s' ∧ operand.constant.isSome = true ∧
      ((final.tree.IsStatic s₁.types v ∧ ∀ target ∈ type, s₁.types.IsScalar target) ↔
        (∀ target ∈ type, s₁.types.IsScalar target) ∧
          ¬IsInitialized c s₁.types type operand ∧ ¬final.tree.ConvertsCall operand.id) := by
  unfold lowerConstant at h
  obtain ⟨operand, s₁, hrun, h⟩ := bind_ok.mp h
  refine ⟨operand, s₁, hrun, ?_⟩
  cases hconstant : operand.constant with
  | none =>
    rw [hconstant] at h
    exact absurd h Fails.fails
  | some constant =>
    cases type with
    | none =>
      rw [hconstant] at h
      obtain ⟨_, s₂, hread, hrest⟩ := bind_ok.mp h
      obtain rfl := Reads.ok hread
      obtain ⟨hv, rfl⟩ := pure_ok.mp hrest
      have hknown := known_walkWithin hwritten depth value (.maybe none) hrun hfinal
      have hsame : v = operand.id := by
        have hv := congrArg Prod.fst hv
        dsimp only at hv
        split at hv
        · cases hv
        · exact (Option.some.inj hv).symm
      refine ⟨.refl s₂, rfl, ?_⟩
      rw [hsame, hknown.isStatic_iff (by rw [hconstant]; rfl)]
      simp [IsInitialized]
    | some target =>
      rw [hconstant] at h
      obtain ⟨id, s₂, hcoerce, h⟩ := bind_ok.mp h
      obtain ⟨hv, rfl⟩ := pure_ok.mp h
      obtain rfl := Option.some.inj (congrArg Prod.fst hv)
      have hs := Steady.run (m := coerce operand target) inferInstance c s₁
      rw [hcoerce] at hs
      have hknown := known_walkWithin hwritten depth value _ hrun (hs.trans hfinal)
      refine ⟨hs, rfl, ?_⟩
      simp only [Option.mem_some_iff, forall_eq']
      by_cases hscalar : s₁.types.IsScalar target
      · rw [and_iff_left hscalar, and_iff_right hscalar]
        rcases coerce_scalar hscalar (by rw [hconstant]; rfl) hcoerce with
          ⟨hinitialized, hcalls⟩ | ⟨hplain, rfl⟩
        · exact iff_of_false ((hcalls.grows hfinal.tree).not_isStatic .refl)
            (fun h => h.1 hinitialized)
        · rw [hknown.isStatic_iff (by rw [hconstant]; rfl), and_iff_right hplain]
      · exact iff_of_false (fun h => hscalar h.2) (fun h => hscalar h.1)

theorem extends_place {kind : HostKind} {span : Span} {id : HostId}
    (h : place kind span c s = (.ok id, s')) : Extends s s' := by
  have hs := Steady.run (m := place kind span) inferInstance c s
  rwa [h] at hs

/-- What the parts of a list give comes from runs of them. -/
theorem exists_run_of_mapM {α γ : Type} {f : γ → Lower α} [hf : ∀ x, Steady extension (f x)]
    {xs : List γ} {as : List α} (h : xs.mapM f c s = (.ok as, s')) :
    ∀ a ∈ as, ∃ x ∈ xs, ∃ s₀ s₁, Extends s s₀ ∧ f x c s₀ = (.ok a, s₁) ∧ Extends s₁ s' := by
  induction xs generalizing s as with
  | nil =>
    obtain ⟨rfl, -⟩ := pure_ok.mp h
    exact fun _ h => absurd h List.not_mem_nil
  | cons x xs ih =>
    rw [List.mapM_cons] at h
    obtain ⟨a, s₁, ha, h₁⟩ := bind_ok.mp h
    obtain ⟨as, s₂, has, h₂⟩ := bind_ok.mp h₁
    obtain ⟨rfl, rfl⟩ := pure_ok.mp h₂
    have hfirst := Steady.run (m := f x) inferInstance c s
    have hrest := Steady.run (m := xs.mapM f) inferInstance c s₁
    rw [ha] at hfirst
    rw [has] at hrest
    refine List.forall_mem_cons.mpr
      ⟨⟨x, List.mem_cons_self, s, s₁, .refl s, ha, hrest⟩, fun b hb => ?_⟩
    obtain ⟨y, hy, s₀, s₂, hs₀, hb⟩ := ih has b hb
    exact ⟨y, List.mem_cons_of_mem x hy, s₀, s₂, hfirst.trans hs₀, hb⟩

/-- A declaration of constants is put out with the type that it is given. Each value comes from an
expression with a known value; the host evaluates it, and the type is a scalar one, just in case
the type is a scalar one, no initializer is called for the value, and the value is no conversion of
what an initializer builds. -/
theorem constants_isStatic_iff (hwritten : final.WritesTyped) {depth : Nat} {spec : ValueSpec}
    {type : Option TypeId} {span : Span} {node : HostId} {symbols : List (String × Symbol)}
    (h : lowerConstants (walkWithin depth) spec type span c s = (.ok ⟨some node, symbols⟩, s'))
    (hfinal : Extends s' final) :
    ∃ names values, final.tree.kind node = .constDecl ⟨names, type, values, spec.doc⟩ ∧
      ∀ v ∈ values, ∃ value ∈ spec.values, ∃ s₀ operand s₁, Extends s s₀ ∧
        (walkWithin depth).expr value (.maybe type) c s₀ = (.ok operand, s₁) ∧ Extends s₁ s' ∧
        operand.constant.isSome = true ∧
        ((final.tree.IsStatic s₁.types v ∧ ∀ target ∈ type, s₁.types.IsScalar target) ↔
          (∀ target ∈ type, s₁.types.IsScalar target) ∧
            ¬IsInitialized c s₁.types type operand ∧ ¬final.tree.ConvertsCall operand.id) := by
  unfold lowerConstants at h
  split at h
  · exact absurd h Fails.fails
  obtain ⟨constants, s₁, hconstants, h₁⟩ := bind_ok.mp h
  dsimp only at h₁
  split at h₁
  · cases (pure_ok.mp h₁).1
  rw [List.unzip_eq_map] at h₁
  obtain ⟨id, s₂, hplace, h₂⟩ := bind_ok.mp h₁
  obtain ⟨hnode, rfl⟩ := pure_ok.mp h₂
  obtain rfl : id = node := Option.some.inj (congrArg ValueDecl.node hnode)
  refine ⟨_, _, (addNode_ok hplace).kind_of_grows hfinal.tree, fun v hv => ?_⟩
  obtain ⟨symbol, hmem⟩ : ∃ symbol, (some v, symbol) ∈ constants := by
    simp only [List.mem_map, List.mem_filterMap] at hv
    obtain ⟨_, ⟨⟨name, found, symbol⟩, hzip, hfound⟩, rfl⟩ := hv
    obtain ⟨v, rfl, rfl⟩ := Option.map_eq_some_iff.mp hfound
    exact ⟨symbol, (List.of_mem_zip hzip).2⟩
  obtain ⟨value, hvalue, s₀, s₃, hs₀, hrun, hs₃⟩ := exists_run_of_mapM hconstants _ hmem
  have hlater := hs₃.trans (extends_place hplace)
  obtain ⟨operand, s₄, hrun, hs₄, hv⟩ :=
    lowerConstant_isStatic_iff hwritten hrun (hlater.trans hfinal)
  exact ⟨value, hvalue, s₀, operand, s₄, hs₀, hrun, hs₄.trans hlater, hv⟩

/-- The nodes of `1` and `int(1)`, where the types of numbers are registered. -/
def constantSample : Context :=
  { Context.sample [.expr (.identifier "int"), .expr (.literal .int "1"),
      .expr (.call ⟨0⟩ [⟨1⟩] false)] [] with
    registry := .standard bigTypes }

/-- The declaration of a constant of a type, with the value of a node. -/
def declaredConstant (type : TypeId) (value : NodeId) : Except Failure ValueDecl × State :=
  lowerConstants (walkWithin 3) ⟨["x"], none, [value], none⟩ (some type) .synthetic constantSample
    (.initial constantSample.unit bigTypes)

theorem declaredConstant_ok (type : TypeId) (value : NodeId) (node : HostId)
    (h : (declaredConstant type value).1.toOption.bind (·.node) = some node) :
    ∃ symbols, declaredConstant type value =
      (.ok ⟨some node, symbols⟩, (declaredConstant type value).2) := by
  rcases hrun : declaredConstant type value with ⟨failure | ⟨found, symbols⟩, s'⟩
  · rw [hrun] at h
    cases h
  · rw [hrun] at h
    obtain rfl : found = some node := h
    exact ⟨symbols, rfl⟩

/-- `const x int = int(1)` is put out with a conversion that the host evaluates. -/
theorem constants_isStatic_iff_int :
    ∃ node symbols s' v types,
      declaredConstant TypeTable.int ⟨2⟩ = (.ok ⟨some node, symbols⟩, s') ∧ s'.WritesTyped ∧
        s'.tree.kind node = .constDecl ⟨["x"], some TypeTable.int, [v], none⟩ ∧
        types.Grows s'.types ∧ s'.tree.IsStatic types v ∧ types.IsScalar TypeTable.int := by
  obtain ⟨symbols, hrun⟩ := declaredConstant_ok TypeTable.int ⟨2⟩ ⟨3⟩ (by decide +kernel)
  have hkind : (declaredConstant TypeTable.int ⟨2⟩).2.tree.kind ⟨3⟩ =
      .constDecl ⟨["x"], some TypeTable.int, [⟨2⟩], none⟩ := by decide +kernel
  have hwritten : (declaredConstant TypeTable.int ⟨2⟩).2.WritesTyped :=
    State.writesTyped_of_all (by decide +kernel)
  obtain ⟨names, values, hdecl, hvalues⟩ := constants_isStatic_iff hwritten hrun (.refl _)
  obtain rfl : [⟨2⟩] = values := by
    cases hkind.symm.trans hdecl
    rfl
  obtain ⟨value, -, s₀, operand, s₁, hs₀, hvalue, hs₁, -, hstatic⟩ :=
    hvalues ⟨2⟩ List.mem_cons_self
  have hs := Steady.run (m := (walkWithin 3).expr value (.maybe (some TypeTable.int)))
    inferInstance constantSample s₀
  rw [hvalue] at hs
  have hgrows := grows_bigTypes.trans (hs₀.types.trans hs.types)
  have hbasics := (TypeTable.hasFixed_of_grows hgrows).basics
  have hscalar : s₁.types.IsScalar TypeTable.int :=
    ⟨.int, hbasics.basic?_basic .int, .inl rfl⟩
  have hfree : ¬IsInitialized constantSample s₁.types (some TypeTable.int) operand := by
    rw [isInitialized_some]
    rintro ⟨-, hregistered⟩
    revert hregistered
    decide +kernel
  have hplain : ¬(declaredConstant TypeTable.int ⟨2⟩).2.tree.ConvertsCall operand.id :=
    HostTree.not_convertsCall_of_all (by decide +kernel)
  exact ⟨⟨3⟩, symbols, _, ⟨2⟩, s₁.types, hrun, hwritten, hkind, hs₁.types,
    (hstatic.mpr ⟨by simpa using hscalar, hfree, hplain⟩).1, hscalar⟩

/-- `const x ng.Bigint = 1` is put out with a call of an initializer, and with its type. -/
theorem constants_isStatic_initialized :
    ∃ node symbols s' v, declaredConstant bigint ⟨1⟩ = (.ok ⟨some node, symbols⟩, s') ∧
      s'.tree.kind node = .constDecl ⟨["x"], some bigint, [v], none⟩ ∧
      ¬s'.tree.IsStatic s'.types v ∧ ¬s'.types.IsScalar bigint := by
  obtain ⟨symbols, hrun⟩ := declaredConstant_ok bigint ⟨1⟩ ⟨3⟩ (by decide +kernel)
  have hkind : (declaredConstant bigint ⟨1⟩).2.tree.kind ⟨3⟩ =
      .constDecl ⟨["x"], some bigint, [⟨2⟩], none⟩ := by decide +kernel
  have hcalls : (declaredConstant bigint ⟨1⟩).2.tree.CallsPackage ⟨2⟩ :=
    ⟨numericsPath, "Bigint_Init__0", ⟨0⟩, ⟨1⟩, by decide +kernel, by decide +kernel⟩
  have hbasic : (declaredConstant bigint ⟨1⟩).2.types.basic? bigint = none := by decide +kernel
  refine ⟨⟨3⟩, symbols, _, ⟨2⟩, hrun, hkind, hcalls.not_isStatic .refl, ?_⟩
  rintro ⟨kind, hkind, -⟩
  rw [hbasic] at hkind
  cases hkind

end GoLowering.Lowering
