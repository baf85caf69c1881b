import GoLowering.Proofs.CommonTypes
import GoLowering.Proofs.OperandFamilies

/-!
# Values in typed places

What a type that is not registered takes as it is (`Operand.IsTaken`), and what is an amount of a
shift (`Operand.IsAmount`): such values are left as they are by `coerce` and `defaultValue`. Both
depend on what sort of operand a value is, and not on the node that it has become.
-/

namespace GoLowering

namespace TypeTable

variable {t : TypeTable} {id : TypeId} {kind : BasicType}

theorem defaultType_of_typed (h : t.isUntyped id = false) : t.defaultType id = id := by
  unfold isUntyped at h
  unfold defaultType
  cases hget : t.get id with
  | basic kind =>
    rw [hget] at h
    cases kind <;> first | rfl | cases h
  | _ => rfl

theorem isNilable_of_basic? (h : t.basic? id = some kind) :
    t.isNilable id = (kind == .unsafePointer || kind == .untypedNil) := by
  rw [isNilable, shape_of_basic? h]

end TypeTable

namespace Lowering

variable {c : Context} {s s' : State} {v x y : Operand} {type : TypeId}

/-! ## What a place takes -/

/-- A value that a type takes as it is. -/
structure Operand.IsTaken (c : Context) (s : State) (type : TypeId) (v : Operand) : Prop where
  mode : v.mode = .value
  small : s.types.isBig v.type = false
  fits : s.types.isUntyped v.type = true →
    overflows BasicType.isNumeric v.constant (s.types.basic? type) = false
  assignable : s.assignable c v.type type

/-- A value that is an integer by default. -/
structure Operand.IsAmount (s : State) (v : Operand) : Prop where
  mode : v.mode = .value
  small : s.types.isBig v.type = false
  fits : s.types.isUntyped v.type = true → overflows BasicType.isInteger v.constant
    (s.types.basic? (s.types.defaultType v.type)) = false
  integer : (s.types.basic? (s.types.defaultType v.type)).any BasicType.isInteger = true

section

variable {u : State}

theorem SameTypes.assignable_iff (hs : SameTypes s u) {source target : TypeId} :
    s.assignable c source target ↔ u.assignable c source target := by
  have hmethod : s.method? c.env = u.method? c.env := by
    funext id name
    rw [State.method?, State.method?, hs.types, hs.methods]
  rw [State.assignable, State.assignable, hs.types, hmethod]

theorem SameTypes.symm (hs : SameTypes s u) : SameTypes u s := ⟨hs.types.symm, hs.methods.symm⟩

theorem Operand.Alike.trans {z : Operand} (h : x.Alike y) (h' : y.Alike z) : x.Alike z :=
  ⟨h.mode.trans h'.mode, h.type.trans h'.type, h.constant.trans h'.constant⟩

theorem Operand.IsTaken.of_alike (h : v.IsTaken c s type) (hs : SameTypes s u) (hy : v.Alike y) :
    y.IsTaken c u type where
  mode := hy.mode ▸ h.mode
  small := hs.types ▸ hy.type ▸ h.small
  fits := hs.types ▸ hy.type ▸ hy.constant ▸ h.fits
  assignable := hs.assignable_iff.mp (hy.type ▸ h.assignable)

theorem Operand.IsAmount.of_alike (h : v.IsAmount s) (hs : SameTypes s u) (hy : v.Alike y) :
    y.IsAmount u where
  mode := hy.mode ▸ h.mode
  small := hs.types ▸ hy.type ▸ h.small
  fits := hs.types ▸ hy.type ▸ hy.constant ▸ h.fits
  integer := hs.types ▸ hy.type ▸ h.integer

end

/-! ## Values -/

theorem run_isInvalid_bind {α : Type} (type : TypeId) (f : Bool → Lower α) :
    (isInvalid type >>= f) c s = f (s.types.isInvalid type) c s := rfl

theorem isUntyped_of_isBig (hbig : s.types.isBig v.type = true) :
    s.types.isUntyped v.type = true := by
  by_contra htyped
  cases hbig.symm.trans (isBig_of_typed (by simpa using htyped))

namespace Operand

theorem isSingle_of_isUntyped (hmode : v.mode = .value)
    (huntyped : s.types.isUntyped v.type = true) : v.IsSingle s.types := by
  obtain ⟨kind, hkind, -⟩ := TypeTable.get_of_isUntyped huntyped
  exact ⟨.inl hmode, fun elements htuple => by cases hkind.symm.trans htuple⟩

/-- A value that a type takes is left as it is, if the type is not registered. -/
theorem IsTaken.run_coerce (h : v.IsTaken c s type) (hsingle : v.IsSingle s.types)
    (hunregistered : c.registry.get? type = none) :
    coerce v type c s = (.ok v.id, s) := by
  have hoverflow : (s.types.isUntyped v.type &&
      overflows BasicType.isNumeric v.constant (s.types.basic? type)) = false := by
    cases huntyped : s.types.isUntyped v.type with
    | true => rw [h.fits huntyped]; rfl
    | false => rfl
  have hassignable : s.types.assignable (fun id name => (s.method? c.env id name).isSome) v.type
      type = true := h.assignable
  unfold coerce
  rw [run_bind, hsingle.run_checkValue]
  dsimp only
  rw [run_bind, run_getTypes]
  dsimp only
  split
  · rfl
  · rw [h.mode, if_neg (by decide), run_read, hunregistered, Option.isSome_none, Bool.and_false,
      if_neg Bool.false_ne_true, run_isUntypedBig_bind, h.small, if_neg Bool.false_ne_true,
      hoverflow, if_neg Bool.false_ne_true, run_assignable_bind, hassignable, if_pos rfl]
    rfl

/-- What is taken as a value of an unregistered type that is no interface and has no `nil`. -/
theorem isTaken_of_coerce {id : HostId} (hsingle : v.IsSingle s.types)
    (hvalid : s.types.isInvalid v.type = false) (htarget : s.types.isInvalid type = false)
    (hunregistered : c.registry.get? type = none) (hinterface : s.types.isInterface type = false)
    (hnil : s.types.isNilable type = false) (hrun : coerce v type c s = (.ok id, s')) :
    v.IsTaken c s type := by
  rcases hsingle.mode with hmode | hmode
  · have hok := (coerce_ok_iff hsingle hmode hvalid htarget).mp ⟨id, s', hrun⟩
    rw [hunregistered, hinterface, if_neg (by rintro ⟨-, -, ⟨⟩⟩)] at hok
    cases hbig : s.types.isBig v.type with
    | true =>
      rw [if_pos hbig] at hok
      cases hok.1
    | false =>
      rw [if_neg (by rw [hbig]; exact Bool.false_ne_true)] at hok
      exact ⟨hmode, hbig, hok.1, hok.2⟩
  · rw [coerce_nil_ok hmode hvalid htarget hrun] at hnil
    cases hnil

/-- As a value of an unregistered type, a value that is not unbounded stays what it is. -/
theorem state_of_coerce {id : HostId} (hsmall : s.types.isBig v.type = false)
    (hunregistered : c.registry.get? type = none) (hrun : coerce v type c s = (.ok id, s')) :
    s' = s := by
  unfold coerce at hrun
  obtain ⟨_, s₁, hcheck, hrun⟩ := bind_ok.mp hrun
  obtain ⟨-, rfl⟩ := checkValue_ok_iff.mp hcheck
  obtain ⟨_, _, ⟨⟩, hrun⟩ := bind_ok.mp hrun
  split at hrun
  · exact (pure_ok.mp hrun).2.symm
  split at hrun
  · split at hrun
    · exact (pure_ok.mp hrun).2.symm
    · exact absurd hrun Fails.fails
  rw [run_read, hunregistered, Option.isSome_none, Bool.and_false, if_neg Bool.false_ne_true,
    run_isUntypedBig_bind, hsmall, if_neg Bool.false_ne_true] at hrun
  split at hrun
  · exact absurd hrun Fails.fails
  rw [run_assignable_bind] at hrun
  split at hrun
  · exact (pure_ok.mp hrun).2.symm
  · exact absurd hrun Fails.fails

/-- A failed operand is a value of every type. -/
theorem run_coerce_of_isInvalid (hsingle : v.IsSingle s.types)
    (hinvalid : s.types.isInvalid v.type = true) : coerce v type c s = (.ok v.id, s) := by
  unfold coerce
  rw [run_bind, hsingle.run_checkValue]
  dsimp only
  rw [run_bind, run_getTypes]
  dsimp only
  rw [hinvalid, Bool.true_or, if_pos rfl]
  rfl

theorem mode_of_defaultValue {value : HostId × TypeId}
    (hrun : defaultValue v c s = (.ok value, s')) : v.mode = .value := by
  unfold defaultValue at hrun
  obtain ⟨_, s₁, hcheck, hrun⟩ := bind_ok.mp hrun
  obtain ⟨hsingle, rfl⟩ := checkValue_ok_iff.mp hcheck
  refine hsingle.mode.resolve_right (fun hnil => ?_)
  rw [hnil, if_pos (by decide)] at hrun
  exact Fails.fails hrun

/-- A value that is not unbounded, by default. -/
theorem run_defaultValue_small (hsingle : v.IsSingle s.types) (hmode : v.mode = .value)
    (hsmall : s.types.isBig v.type = false) :
    defaultValue v c s =
      if s.types.isUntyped v.type = true ∧ overflows BasicType.isInteger v.constant
          (s.types.basic? (s.types.defaultType v.type)) = true then
        failOverflow v c s
      else (.ok (v.id, s.types.defaultType v.type), s) := by
  unfold defaultValue
  rw [run_bind, hsingle.run_checkValue]
  dsimp only
  rw [hmode, if_neg (by decide), run_isUntypedBig_bind, hsmall, if_neg Bool.false_ne_true, run_bind,
    run_getTypes]
  dsimp only
  cases huntyped : s.types.isUntyped v.type with
  | true =>
    rw [if_pos rfl]
    simp only [true_and]
    split <;> rfl
  | false =>
    rw [if_neg Bool.false_ne_true, if_neg (by rintro ⟨⟨⟩, -⟩),
      TypeTable.defaultType_of_typed huntyped]
    rfl

theorem IsAmount.run_defaultValue (h : v.IsAmount s) (hsingle : v.IsSingle s.types) :
    defaultValue v c s = (.ok (v.id, s.types.defaultType v.type), s) := by
  rw [run_defaultValue_small hsingle h.mode h.small, if_neg]
  rintro ⟨huntyped, hoverflow⟩
  rw [h.fits huntyped] at hoverflow
  cases hoverflow

end Operand

end Lowering

end GoLowering
