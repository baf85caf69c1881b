import GoLowering.Lowering.Unit
import GoLowering.Proofs.FrameDeclarations

/-!
# Operands of the invalid type

An expression that has failed elsewhere has the invalid type. Wherever one value is asked for, such
an operand is taken as it is: as a value by default (`run_defaultValue`), as a value of any type
(`run_coerce`), as a condition (`run_isBoolean_invalid`).

What matters of a run here is its verdict: the failure that it ends with and the reports made on
the way. Runs are compared by their verdicts, whatever nodes they put out.
-/

namespace GoLowering

namespace TypeTable

/-- A table in which the place of the invalid type is taken by it. -/
structure HasInvalid (t : TypeTable) : Prop where
  positive : 0 < t.size
  get : t.get invalid = .invalid

namespace HasInvalid

variable {t u : TypeTable}

/-- Only named types are ever given another definition. -/
theorem grows (h : t.HasInvalid) (hg : t.Grows u) : u.HasInvalid := by
  obtain ⟨hid, hget | ⟨hnamed, -⟩⟩ := hg invalid h.positive
  · exact ⟨Nat.lt_of_le_of_lt (Nat.zero_le _) hid, hget.trans h.get⟩
  · rw [h.get] at hnamed
    cases hnamed

variable (h : t.HasInvalid)

include h

theorem underlying : t.underlying invalid = invalid := by
  simp only [TypeTable.underlying, resolve, h.get]

theorem shape : t.shape invalid = .invalid := by
  rw [TypeTable.shape, h.underlying, h.get]

theorem isInvalid : t.isInvalid invalid = true := by
  rw [TypeTable.isInvalid, h.get]
  rfl

theorem isUntyped : t.isUntyped invalid = false := by
  rw [TypeTable.isUntyped, h.get]

theorem basic? : t.basic? invalid = none := by
  rw [TypeTable.basic?, h.shape]

theorem signature? : t.signature? invalid = none := by
  rw [TypeTable.signature?, h.shape]

theorem rangeTypes? : t.rangeTypes? invalid = none := by
  simp only [TypeTable.rangeTypes?, h.underlying, h.get]

theorem resultsOf : t.resultsOf invalid = [invalid] := by
  rw [TypeTable.resultsOf, h.get]

theorem format : t.format invalid = "invalid type" := by
  rw [TypeTable.format, depthBound, textWithin, h.get]
  rfl

end HasInvalid

theorem hasInvalid_initial : initial.HasInvalid := ⟨by decide, rfl⟩

end TypeTable

namespace Lowering

open Surface

/-! ## Verdicts -/

section

variable {α β γ : Type} {c : Context} {s s' : State}

/-- The failure that a run ends with, if any, and the reports that have been made until then. -/
def verdict (run : Except Failure α × State) : Option Failure × List Diagnostic :=
  (match run.1 with
    | .ok _ => none
    | .error failure => some failure,
    run.2.diagnostics)

theorem verdict_bind (m : Lower α) (f : α → Lower β) :
    verdict ((m >>= f) c s) =
      match m c s with
      | (.ok a, s') => verdict (f a c s')
      | (.error failure, s') => (some failure, s'.diagnostics) := by
  rw [run_bind]
  rcases m c s with ⟨r, s'⟩
  cases r <;> rfl

/-- What comes after a part that ends well decides. -/
theorem verdict_of_ok {m : Lower α} {a : α} (h : m c s = (.ok a, s')) (f : α → Lower β) :
    verdict ((m >>= f) c s) = verdict (f a c s') := by
  rw [verdict_bind, h]

theorem verdict_of_failed {m : Lower α} {failure : Failure} {reports : List Diagnostic}
    (h : verdict (m c s) = (some failure, reports)) (f : α → Lower β) :
    verdict ((m >>= f) c s) = (some failure, reports) := by
  rw [verdict_bind]
  rcases hm : m c s with ⟨r, s'⟩
  rw [hm] at h
  cases r with
  | error failure => exact h
  | ok a => cases h

/-- One part with either of two others after it that come to the same. -/
theorem verdict_bind_congr {m : Lower α} {f : α → Lower β} {g : α → Lower γ}
    (h : ∀ a s', m c s = (.ok a, s') → verdict (f a c s') = verdict (g a c s')) :
    verdict ((m >>= f) c s) = verdict ((m >>= g) c s) := by
  rw [verdict_bind, verdict_bind]
  rcases hm : m c s with ⟨r, s'⟩
  cases r with
  | error failure => rfl
  | ok a => exact h a s' hm

theorem verdict_bind_of_eq {m m' : Lower α} (h : m c s = m' c s) (f : α → Lower β) :
    verdict ((m >>= f) c s) = verdict ((m' >>= f) c s) := by
  rw [verdict_bind, verdict_bind, h]

/-- A part with something after it that ends well and reports nothing. -/
theorem verdict_bind_silent {m : Lower α} {f : α → Lower β}
    (h : ∀ a s', m c s = (.ok a, s') → verdict (f a c s') = (none, s'.diagnostics)) :
    verdict ((m >>= f) c s) = verdict (m c s) := by
  rw [← bind_pure m]
  simpa only [bind_pure] using verdict_bind_congr (g := pure) h

theorem verdict_map (f : α → β) (m : Lower α) : verdict ((f <$> m) c s) = verdict (m c s) := by
  rw [map_eq_pure_bind]
  exact verdict_bind_silent (fun _ _ _ => rfl)

theorem verdict_discard (m : Lower α) : verdict (discard m c s) = verdict (m c s) :=
  verdict_map _ m

/-- A failed declaration is reported after what it has reported itself. -/
theorem diagnostics_reporting (part : Lower Unit) :
    (reporting part c s).2.diagnostics =
      (verdict (part c s)).2 ++ ((verdict (part c s)).1.map Failure.report).toList := by
  unfold reporting verdict
  rw [run_bind, run_attempt]
  rcases part c s with ⟨r, s'⟩
  cases r with
  | error failure => rfl
  | ok _ => exact (List.append_nil _).symm

end

/-! ## Failed operands -/

/-- The place of the invalid type is never taken by anything else. -/
theorem hasInvalid_after {α : Type} {m : Lower α} [hm : Steady extension m] {c : Context}
    {s s' : State} {r : Except Failure α} (hs : s.types.HasInvalid) (h : m c s = (r, s')) :
    s'.types.HasInvalid := by
  have hext := hm.run c s
  rw [h] at hext
  exact hs.grows hext.types

theorem run_getTypes (c : Context) (s : State) : getTypes c s = (.ok s.types, s) := rfl

section

variable {c : Context} {s : State} (hs : s.types.HasInvalid)

include hs

theorem run_isInvalid : isInvalid TypeTable.invalid c s = (.ok true, s) := by
  change (Except.ok (s.types.isInvalid TypeTable.invalid), s) = _
  rw [hs.isInvalid]

theorem run_isUntypedBig_invalid : isUntypedBig TypeTable.invalid c s = (.ok false, s) := by
  unfold isUntypedBig
  rw [run_bind, run_getTypes]
  dsimp only
  rw [hs.get]
  rfl

theorem run_basicOf?_invalid : basicOf? TypeTable.invalid c s = (.ok none, s) := by
  change (Except.ok (s.types.basic? TypeTable.invalid), s) = _
  rw [hs.basic?]

theorem run_isBoolean_invalid : isBoolean TypeTable.invalid c s = (.ok true, s) := by
  unfold isBoolean
  rw [run_bind, run_basicOf?_invalid hs]
  dsimp only
  rw [run_bind, run_isInvalid hs]
  rfl

/-- An operator that is not defined on the invalid type is reported with the name of the type. -/
theorem verdict_failOperation {α : Type} (operator : String) (span : Span) :
    verdict ((failOperation operator TypeTable.invalid span : Lower α) c s) =
      (some (.found (.invalidOperation operator "invalid type") span), s.diagnostics) := by
  change (some (Failure.found (.invalidOperation operator (s.types.format TypeTable.invalid)) span),
    s.diagnostics) = _
  rw [hs.format]

end

/-- A value of the invalid type. -/
structure Operand.IsFailed (o : Operand) : Prop where
  mode : o.mode = .value
  type : o.type = TypeTable.invalid
  constant : o.constant = none

namespace Operand.IsFailed

variable {o : Operand} (h : o.IsFailed) {c : Context} {s : State} (hs : s.types.HasInvalid)

include h hs

theorem run_checkValue : checkValue o c s = (.ok (), s) := by
  unfold checkValue
  rw [h.mode]
  dsimp only
  rw [run_bind, run_getTypes]
  dsimp only
  rw [h.type, hs.get]
  rfl

/-- As a value of its default type, a failed value is what it is. -/
theorem run_defaultValue : defaultValue o c s = (.ok (o.id, TypeTable.invalid), s) := by
  unfold defaultValue
  rw [run_bind, h.run_checkValue hs]
  dsimp only
  rw [h.mode, if_neg (by decide), h.type, run_bind, run_isUntypedBig_invalid hs]
  dsimp only
  rw [if_neg Bool.false_ne_true, run_bind, run_getTypes]
  dsimp only
  rw [hs.isUntyped, if_neg Bool.false_ne_true]
  rfl

/-- A failed value is a value of every type. -/
theorem run_coerce (target : TypeId) : coerce o target c s = (.ok o.id, s) := by
  unfold coerce
  rw [run_bind, h.run_checkValue hs]
  dsimp only
  rw [run_bind, run_getTypes]
  dsimp only
  rw [h.type, hs.isInvalid, Bool.true_or, if_pos rfl]
  rfl

theorem run_coerceOrDefault (target : Option TypeId) :
    coerceOrDefault o target c s = (.ok (o.id, target.getD TypeTable.invalid), s) := by
  cases target with
  | none => exact h.run_defaultValue hs
  | some target =>
    change (do return (← coerce o target, target) : Lower (HostId × TypeId)) c s = _
    rw [run_bind, h.run_coerce hs]
    rfl

/-- A binary operation with a failed operand only asks for a value on the other side. -/
theorem run_lowerBinary (op : BinaryOp) (right : Operand) (span : Span) :
    lowerBinary op o right span c s = (do
      checkValue right
      let id ← binaryNode op o.id right.id
      return .value id TypeTable.invalid span : Lower Operand) c s := by
  unfold lowerBinary
  rw [run_bind, h.run_checkValue hs]
  dsimp only
  rw [run_bind, run_bind]
  rcases hright : checkValue right c s with ⟨r, s'⟩
  cases r with
  | error failure => rfl
  | ok _ =>
    dsimp only
    rw [h.type, run_bind, run_isInvalid (hasInvalid_after hs hright)]
    rfl

theorem verdict_lowerBinary_left (op : BinaryOp) (right : Operand) (span : Span) :
    verdict (lowerBinary op o right span c s) = verdict (checkValue right c s) := by
  rw [h.run_lowerBinary hs]
  exact verdict_bind_silent (fun _ _ _ => rfl)

theorem verdict_lowerBinary_right (op : BinaryOp) (left : Operand) (span : Span) :
    verdict (lowerBinary op left o span c s) = verdict (checkValue left c s) := by
  unfold lowerBinary
  refine verdict_bind_silent (fun _ s' hleft => ?_)
  have hs' := hasInvalid_after hs hleft
  have hinvalid : isInvalid left.type c s' = (.ok (s'.types.isInvalid left.type), s') := rfl
  rw [verdict_of_ok (h.run_checkValue hs'), verdict_of_ok hinvalid, h.type,
    verdict_of_ok (run_isInvalid hs'), Bool.or_true, if_pos rfl]
  rfl

end Operand.IsFailed

end Lowering

end GoLowering
