import GoLowering.Proofs.ConstantRules
import GoLowering.Proofs.InvalidOperands

/-!
# Constant expressions

A constant has a kind beside its value, and the two are found apart when an operation is folded:
`Constant.promote` goes by the kinds of the operands and `Constant.foldBinary` by their values.
Whatever uses a constant trusts them to agree. `ConstantTree.lower_isFolded` says that they do for
every expression of literals and truth values, at any depth: a constant of an integer kind is an
integer, and a fraction is in lowest terms and no integer.
-/

namespace GoLowering

/-! ## Normal forms -/

/-- Whether a constant is in the form in which the values of an untyped kind are kept. -/
def Constant.IsNormal (kind : BasicType) (value : Constant) : Prop :=
  match kind, value with
  | .untypedBool, .bool _ => True
  | .untypedInt, .int _ | .untypedRune, .int _ | .untypedBigInt, .int _ => True
  | .untypedFloat, .int _ | .untypedBigRat, .int _ => True
  | .untypedFloat, .rat r | .untypedBigRat, .rat r => r.num.natAbs.Coprime r.den ∧ 1 < r.den
  | _, _ => False

namespace Constant

theorem ofRat_of_den_eq_one {r : Rat} (h : r.den = 1) : ofRat r = .int r.num :=
  if_pos (beq_iff_eq.mpr h)

theorem ofRat_of_den_ne_one {r : Rat} (h : r.den ≠ 1) : ofRat r = .rat r :=
  if_neg (mt beq_iff_eq.mp h)

theorem isNormal_int (kind : NumberKind) (n : Int) : IsNormal kind.basic (.int n) := by
  cases kind <;> trivial

theorem isNormal_rat {kind : NumberKind} (hkind : kind.isInteger = false) {r : Rat}
    (h : r.den ≠ 1) : IsNormal kind.basic (.rat r) := by
  have hform : r.num.natAbs.Coprime r.den ∧ 1 < r.den :=
    ⟨r.reduced, by have := r.den_pos; omega⟩
  cases kind <;> first | exact hform | cases hkind

/-- A number is normal in each kind that has it. -/
theorem isNormal_ofRat {kind : NumberKind} {r : Rat} (h : kind.isInteger = true → r.den = 1) :
    IsNormal kind.basic (ofRat r) := by
  by_cases hr : r.den = 1
  · rw [ofRat_of_den_eq_one hr]
    exact isNormal_int kind r.num
  · rw [ofRat_of_den_ne_one hr]
    exact isNormal_rat (Bool.eq_false_iff.mpr (mt h hr)) hr

/-- The constants in normal form are those that stand for a truth value or an exact number. -/
theorem isNormal_iff {kind : BasicType} {value : Constant} :
    IsNormal kind value ↔ ∃ result : ExactResult, result.kind = kind ∧ result.constant = value := by
  constructor
  · intro h
    have hint (k : NumberKind) (n : Int) : ∃ result : ExactResult,
        result.kind = k.basic ∧ result.constant = .int n :=
      ⟨.number ⟨k, n, fun _ => Rat.den_intCast n⟩, rfl, ExactNumber.ofRat_intCast n⟩
    have hrat {k : NumberKind} (hk : k.isInteger = false) {r : Rat} (hr : 1 < r.den) :
        ∃ result : ExactResult, result.kind = k.basic ∧ result.constant = .rat r :=
      ⟨.number ⟨k, r, fun hkind => absurd (hk.symm.trans hkind) Bool.false_ne_true⟩, rfl,
        ofRat_of_den_ne_one (Nat.ne_of_gt hr)⟩
    cases value with
    | bool b => cases kind <;> first | exact ⟨.truth b, rfl, rfl⟩ | exact h.elim
    | int n =>
      cases kind with
      | untypedInt => exact hint .int n
      | untypedRune => exact hint .rune n
      | untypedFloat => exact hint .float n
      | untypedBigInt => exact hint .bigInt n
      | untypedBigRat => exact hint .bigRat n
      | _ => exact h.elim
    | rat r =>
      cases kind with
      | untypedFloat => exact hrat (k := .float) rfl h.2
      | untypedBigRat => exact hrat (k := .bigRat) rfl h.2
      | _ => exact h.elim
    | _ => cases kind <;> exact h.elim
  · rintro ⟨result, rfl, rfl⟩
    cases result with
    | truth b => trivial
    | number n => exact isNormal_ofRat n.integral

theorem IsNormal.isUntyped {kind : BasicType} {value : Constant} (h : IsNormal kind value) :
    kind.isUntyped = true := by
  obtain ⟨result, rfl, -⟩ := isNormal_iff.mp h
  cases result with
  | truth => rfl
  | number n => cases n with | mk k _ _ => cases k <;> rfl

theorem IsNormal.isString {kind : BasicType} {value : Constant} (h : IsNormal kind value) :
    value.isString = false := by
  cases value with
  | string => cases kind <;> exact h.elim
  | _ => rfl

/-! ## Folding of normal forms -/

variable {op : BinaryOp} {k l : BasicType} {a b value : Constant}

theorem toRat?_constant (n : ExactNumber) :
    (ExactResult.number n).constant.toRat? = some n.value := toRat?_ofRat n.value

/-- A number and a truth value have no operation in common. -/
theorem foldBinary_mixed_ne_ok {truth : Bool} {n : ExactNumber} {exact : Bool} :
    foldBinary op (.bool truth) (ExactResult.number n).constant exact ≠ .ok value ∧
      foldBinary op (ExactResult.number n).constant (.bool truth) exact ≠ .ok value := by
  have hnumber : (∃ m, (ExactResult.number n).constant = .int m) ∨
      ∃ r, (ExactResult.number n).constant = .rat r := by
    by_cases h : n.value.den = 1
    · exact .inl ⟨_, ofRat_of_den_eq_one h⟩
    · exact .inr ⟨_, ofRat_of_den_ne_one h⟩
  rcases hnumber with ⟨_, h⟩ | ⟨_, h⟩ <;> rw [h] <;> exact ⟨nofun, nofun⟩

/-- The kind and the value of a folded operation agree. -/
theorem isNormal_foldBinary (ha : IsNormal k a) (hb : IsNormal l b)
    (h : foldBinary op a b (k.isUntypedBig || l.isUntypedBig) = .ok value) :
    IsNormal (promote k l value) value := by
  obtain ⟨left, rfl, rfl⟩ := isNormal_iff.mp ha
  obtain ⟨right, rfl, rfl⟩ := isNormal_iff.mp hb
  cases left with
  | truth x =>
    cases right with
    | truth y =>
      have hbool : ∃ z, value = .bool z := by
        cases op <;> first | exact ⟨_, (Except.ok.inj h).symm⟩ | cases h
      obtain ⟨z, rfl⟩ := hbool
      trivial
    | number m => exact absurd h foldBinary_mixed_ne_ok.1
  | number n =>
    cases right with
    | truth y => exact absurd h foldBinary_mixed_ne_ok.2
    | number m =>
      have hfold := ExactNumber.toOption_foldRat op n m
      rw [← Lowering.isUntypedBig_basic, ← Lowering.isUntypedBig_basic,
        ← Lowering.foldBinary_of_toRat? op _ (toRat?_constant n) (toRat?_constant m)] at hfold
      change foldBinary op (ExactResult.number n).constant (ExactResult.number m).constant
        (n.kind.basic.isUntypedBig || m.kind.basic.isUntypedBig) = .ok value at h
      rw [h] at hfold
      obtain ⟨result, hresult, rfl⟩ := Option.map_eq_some_iff.mp hfold.symm
      exact isNormal_iff.mpr ⟨result, (ExactNumber.promote_constant hresult).symm, rfl⟩

/-- A unary operation keeps the kind of its operand, and the normal form. -/
theorem isNormal_foldUnary {op : UnaryOp} (ha : IsNormal k a) (h : foldUnary op a = .ok value) :
    IsNormal k value := by
  have hint {n m : Int} (ha : IsNormal k (.int n)) : IsNormal k (.int m) := by
    cases k <;> trivial
  have hneg {r : Rat} (ha : IsNormal k (.rat r)) : IsNormal k (.rat (-r)) := by
    cases k with
    | untypedFloat | untypedBigRat =>
      exact ⟨by simpa using ha.1, ha.2⟩
    | _ => exact ha.elim
  cases op with
  | plus =>
    unfold foldUnary at h
    dsimp only at h
    split at h
    · rwa [← Except.ok.inj h]
    · cases h
  | negate =>
    cases a with
    | int n => rw [← Except.ok.inj h]; exact hint ha
    | rat r => rw [← Except.ok.inj h]; exact hneg ha
    | float f => cases k <;> exact ha.elim
    | _ => cases h
  | bitNot =>
    cases a with
    | int n => rw [← Except.ok.inj h]; exact hint ha
    | _ => cases h
  | not =>
    cases a with
    | bool b =>
      rw [← Except.ok.inj h]
      cases k <;> trivial
    | _ => cases h
  | _ => cases h

end Constant

/-! ## Literals -/

namespace Literal

theorem integer?_eq_some {text : String} {value : Constant} (h : integer? text = some value) :
    ∃ n, value = .int n := by
  unfold integer? at h
  dsimp only at h
  split at h <;>
    · obtain ⟨n, -, rfl⟩ := Option.map_eq_some_iff.mp h
      exact ⟨_, rfl⟩

/-- A decimal literal is an exact number or one in floating point. -/
theorem decimal?_eq_some {text : String} {value : Constant} (h : decimal? text = some value) :
    (∃ r, value = .ofRat r) ∨ ∃ f, value = .float f := by
  unfold decimal? at h
  dsimp only at h
  split at h
  · exact .inl ⟨_, (Option.some.inj h).symm⟩
  · obtain ⟨f, -, rfl⟩ := Option.map_eq_some_iff.mp h
    exact .inr ⟨f, rfl⟩

theorem rune?_eq_some {text : String} {value : Constant} (h : rune? text = some value) :
    ∃ n, value = .int n := by
  unfold rune? at h
  obtain ⟨characters, -, h⟩ := Option.bind_eq_some_iff.mp h
  dsimp only at h
  split at h <;>
    · obtain ⟨code, -, h⟩ := Option.bind_eq_some_iff.mp h
      exact ⟨_, (Option.some.inj h).symm⟩

end Literal

namespace TypeTable

/-- A table in which every basic type has its place. -/
def HasBasics (t : TypeTable) : Prop := ∀ kind, t.get (basic kind) = .basic kind

namespace HasBasics

variable {t u : TypeTable} (h : t.HasBasics) (kind : BasicType)

include h

theorem grows (hg : t.Grows u) : u.HasBasics := fun kind => by
  rw [hg.get_eq (by rw [h kind]; nofun) (by rw [h kind]; rfl), h kind]

theorem isInvalid_basic : t.isInvalid (basic kind) = false := by
  rw [isInvalid_eq_false, h kind]
  nofun

theorem isUntyped_basic : t.isUntyped (basic kind) = kind.isUntyped := by
  rw [isUntyped, h kind]

theorem basic?_basic : t.basic? (basic kind) = some kind := by
  rw [basic?, shape, underlying]
  simp only [resolve, h kind]

end HasBasics

end TypeTable

namespace Lowering

/-! ## Operands -/

/-- A literal whose value is kept exactly. -/
def IsExact (kind : Surface.LiteralKind) (text : String) : Prop :=
  match kind with
  | .int | .rune | .bigInt => True
  | .float => ((Literal.decimal? text).bind Constant.toRat?).isSome = true
  | .string | .imaginary => False

/-- An operand with a constant in the normal form of its kind. -/
structure Operand.IsFolded (operand : Operand) (kind : BasicType) (value : Constant) : Prop where
  mode : operand.mode = .value
  type : operand.type = TypeTable.basic kind
  constant : operand.constant = some value
  normal : value.IsNormal kind

variable {c : Context} {s s' : State} {operand left right : Operand} {span : Span}

theorem literalValue?_isNormal {kind : Surface.LiteralKind} {text : String}
    (hexact : IsExact kind text) {basic : BasicType} {value : Constant}
    (h : literalValue? kind text = some (basic, value)) : value.IsNormal basic := by
  unfold literalValue? at h
  cases kind with
  | int =>
    obtain ⟨_, hvalue, ⟨⟩⟩ := Option.map_eq_some_iff.mp h
    obtain ⟨n, rfl⟩ := Literal.integer?_eq_some hvalue
    trivial
  | rune =>
    obtain ⟨_, hvalue, ⟨⟩⟩ := Option.map_eq_some_iff.mp h
    obtain ⟨n, rfl⟩ := Literal.rune?_eq_some hvalue
    trivial
  | float =>
    obtain ⟨_, hvalue, ⟨⟩⟩ := Option.map_eq_some_iff.mp h
    rcases Literal.decimal?_eq_some hvalue with ⟨r, rfl⟩ | ⟨f, rfl⟩
    · have hkind : NumberKind.float.isInteger = true → r.den = 1 := nofun
      exact Constant.isNormal_ofRat hkind
    · rw [IsExact, hvalue] at hexact
      cases hexact
  | bigInt =>
    dsimp only at h
    split at h
    · cases h
      trivial
    · rename_i r hvalue
      cases h
      have hdecimal : Literal.decimal? text = some (.rat r) := by
        rcases Option.or_eq_some_iff.mp hvalue with hint | ⟨-, hdecimal⟩
        · obtain ⟨n, hn⟩ := Literal.integer?_eq_some hint
          cases hn
        · exact hdecimal
      rcases Literal.decimal?_eq_some hdecimal with ⟨q, hq⟩ | ⟨f, hf⟩
      · by_cases hden : q.den = 1
        · rw [Constant.ofRat_of_den_eq_one hden] at hq
          cases hq
        · rw [Constant.ofRat_of_den_ne_one hden] at hq
          cases hq
          have hkind : NumberKind.bigRat.isInteger = false := rfl
          exact Constant.isNormal_rat hkind hden
      · cases hf
    · cases h
  | string | imaginary => exact hexact.elim

theorem isFolded_lowerLiteral {kind : Surface.LiteralKind} {text : String}
    (hexact : IsExact kind text) (h : lowerLiteral kind text span c s = (.ok operand, s')) :
    ∃ kind value, operand.IsFolded kind value := by
  unfold lowerLiteral at h
  cases hvalue : literalValue? kind text with
  | none =>
    rw [hvalue] at h
    cases h
  | some literal =>
    rw [hvalue] at h
    obtain ⟨_, _, -, h⟩ := bind_ok.mp h
    obtain ⟨rfl, -⟩ := pure_ok.mp h
    exact ⟨_, _, rfl, rfl, rfl, literalValue?_isNormal hexact hvalue⟩

theorem Operand.IsFolded.constantOf?_eq {kind : BasicType} {value : Constant}
    (h : operand.IsFolded kind value) (hs : s.types.HasBasics) :
    constantOf? s.types operand = some (kind, value) := by
  rw [constantOf?, h.constant, h.type, hs.basic?_basic, h.mode, hs.isUntyped_basic,
    h.normal.isUntyped]
  rfl

/-- A binary operation on folded operands is folded. -/
theorem isFolded_lowerBinary {op : BinaryOp} {k l : BasicType} {a b : Constant}
    (hs : s.types.HasBasics) (hleft : left.IsFolded k a) (hright : right.IsFolded l b)
    (h : lowerBinary op left right span c s = (.ok operand, s')) :
    ∃ kind value, operand.IsFolded kind value := by
  have hl := hleft.constantOf?_eq hs
  have hr := hright.constantOf?_eq hs
  have hvalid : (s.types.isInvalid left.type || s.types.isInvalid right.type) = false := by
    rw [hleft.type, hright.type, hs.isInvalid_basic, hs.isInvalid_basic]
    rfl
  have hfolded {r : Option Operand} {s'' : State}
      (h : foldBinary? op left right span c s = (.ok r, s'')) :
      ∃ operand kind value, r = some operand ∧ operand.IsFolded kind value := by
    rcases foldBinary?_ok h with ⟨-, -, hstring⟩ | ⟨_, _, _, _, value, hl', hr', -, hfold, h⟩
    · have hstring := hstring k a l b hl hr
      rw [hleft.normal.isString, hright.normal.isString] at hstring
      cases hstring
    · obtain ⟨rfl, rfl⟩ := Prod.mk.inj (Option.some.inj (hl.symm.trans hl'))
      obtain ⟨rfl, rfl⟩ := Prod.mk.inj (Option.some.inj (hr.symm.trans hr'))
      obtain ⟨id, hid⟩ :=
        run_foldedOperand op left right (Constant.promote k l value) value span c s
      rw [h] at hid
      exact ⟨_, _, _, Except.ok.inj hid, rfl, rfl, rfl,
        Constant.isNormal_foldBinary hleft.normal hright.normal hfold⟩
  rcases lowerBinary_ok h with ⟨hinvalid, -⟩ | ⟨-, h | ⟨h, -⟩⟩
  · rw [hvalid] at hinvalid
    cases hinvalid
  · obtain ⟨_, kind, value, ⟨⟩, hoperand⟩ := hfolded h
    exact ⟨kind, value, hoperand⟩
  · obtain ⟨_, _, _, hnone, -⟩ := hfolded h
    cases hnone

theorem foldUnary_ok {op : UnaryOp} {a : Constant}
    (h : foldUnary op left a span c s = (.ok operand, s')) :
    ∃ id value, Constant.foldUnary op a = .ok value ∧
      operand = .ofConstant id left.type (some value) span := by
  unfold foldUnary at h
  cases hfold : Constant.foldUnary op a with
  | error error =>
    rw [hfold] at h
    exact absurd h Fails.fails
  | ok value =>
    rw [hfold] at h
    dsimp only at h
    split at h
    · obtain ⟨id, _, -, h⟩ := bind_ok.mp h
      exact ⟨id, _, rfl, (pure_ok.mp h).1.symm⟩
    · obtain ⟨_, _, -, h⟩ := bind_ok.mp h
      split at h
      · obtain ⟨_, _, -, h⟩ := bind_ok.mp h
        obtain ⟨id, _, -, h⟩ := bind_ok.mp h
        exact ⟨id, _, rfl, (pure_ok.mp h).1.symm⟩
      · obtain ⟨id, _, -, h⟩ := bind_ok.mp h
        exact ⟨id, _, rfl, (pure_ok.mp h).1.symm⟩

/-- A unary operation on a folded operand is folded. -/
theorem isFolded_lowerUnaryOperand {op : UnaryOp} {k : BasicType} {a : Constant}
    (hs : s.types.HasBasics) (hleft : left.IsFolded k a)
    (h : lowerUnaryOperand op left span c s = (.ok operand, s')) :
    ∃ kind value, operand.IsFolded kind value := by
  unfold lowerUnaryOperand at h
  obtain ⟨_, s₁, hvalue, hrest⟩ := bind_ok.mp h
  obtain rfl := Reads.ok hvalue
  clear h
  obtain ⟨_, _, ⟨⟩, h⟩ := bind_ok.mp hrest
  rw [hleft.constant, hleft.type, hs.isUntyped_basic, hleft.normal.isUntyped] at h
  obtain ⟨id, value, hfold, rfl⟩ := foldUnary_ok h
  exact ⟨k, value, rfl, hleft.type, rfl, Constant.isNormal_foldUnary hleft.normal hfold⟩

/-! ## Expressions -/

/-- An expression of literals, truth values and operators. -/
inductive ConstantTree where
  | literal (kind : Surface.LiteralKind) (text : String) (span : Span) (exact : IsExact kind text)
  | truth (value : Bool) (span : Span)
  | unary (op : UnaryOp) (operand : ConstantTree) (span : Span)
  | binary (op : BinaryOp) (left right : ConstantTree) (span : Span)

namespace ConstantTree

/-- The names `true` and `false` stand for what the environment says about them. -/
def lower : ConstantTree → Lower Operand
  | literal kind text span _ => lowerLiteral kind text span
  | truth value span =>
    resolvedOperand (.const (.bool value) (TypeTable.basic .untypedBool)) none (toString value) span
  | unary op operand span => do lowerUnaryOperand op (← operand.lower) span
  | binary op left right span => do
    let left ← left.lower
    let right ← right.lower
    lowerBinary op left right span

instance still_lower (tree : ConstantTree) : Still extension tree.lower := by
  induction tree with
  | literal | truth => unfold lower; infer_instance
  | unary op operand span ih => exact ih.bind (fun _ => inferInstance)
  | binary op left right span ihl ihr =>
    exact ihl.bind (fun _ => ihr.bind (fun _ => inferInstance))

theorem hasBasics_after {tree : ConstantTree} (hs : s.types.HasBasics)
    (h : tree.lower c s = (.ok operand, s')) : s'.types.HasBasics := by
  have hext := Steady.run (m := tree.lower) inferInstance c s
  rw [h] at hext
  exact hs.grows hext.types

/-- Every expression of literals and truth values that is lowered is folded to a constant whose
kind and value agree, and which is in normal form. -/
theorem lower_isFolded (tree : ConstantTree) (hs : s.types.HasBasics)
    (h : tree.lower c s = (.ok operand, s')) : ∃ kind value, operand.IsFolded kind value := by
  induction tree generalizing s s' operand with
  | literal kind text span exact => exact isFolded_lowerLiteral exact h
  | truth value span =>
    obtain ⟨_, _, -, h⟩ := bind_ok.mp h
    obtain ⟨rfl, -⟩ := pure_ok.mp h
    exact ⟨.untypedBool, .bool value, rfl, rfl, rfl, trivial⟩
  | unary op inner span ih =>
    obtain ⟨part, s₁, hpart, h⟩ := bind_ok.mp h
    obtain ⟨k, a, hfolded⟩ := ih hs hpart
    exact isFolded_lowerUnaryOperand (hasBasics_after hs hpart) hfolded h
  | binary op left right span ihl ihr =>
    obtain ⟨leftPart, s₁, hleft, h⟩ := bind_ok.mp h
    obtain ⟨rightPart, s₂, hright, h⟩ := bind_ok.mp h
    have hs₁ := hasBasics_after hs hleft
    obtain ⟨k, a, hleftFolded⟩ := ihl hs hleft
    obtain ⟨l, b, hrightFolded⟩ := ihr hs₁ hright
    exact isFolded_lowerBinary (hasBasics_after hs₁ hright) hleftFolded hrightFolded h

/-- The negated third of an unbounded number. -/
def negatedThird : ConstantTree :=
  .unary .negate (.binary .div (.literal .bigInt "1" .synthetic trivial)
    (.literal .int "3" .synthetic trivial) .synthetic) .synthetic

theorem lower_isFolded_negatedThird :
    TypeTable.initial.HasBasics ∧ ∃ operand s',
      negatedThird.lower (Context.bare []) (.initial (.bare [] []) .initial) = (.ok operand, s') ∧
        operand.constant.bind Constant.toRat? = some (-1 / 3) ∧
        ∃ kind value, operand.IsFolded kind value := by
  have hvalue :
      (negatedThird.lower (Context.bare []) (.initial (.bare [] []) .initial)).1.toOption.map
        (fun operand => operand.constant.bind Constant.toRat?) = some (some (-1 / 3)) := by
    decide +kernel
  rcases h : negatedThird.lower (Context.bare []) (.initial (.bare [] []) .initial) with
    ⟨_ | operand, s'⟩
  · rw [h] at hvalue
    cases hvalue
  · rw [h] at hvalue
    exact ⟨TypeTable.get_basic, operand, s', rfl, Option.some.inj hvalue,
      lower_isFolded (s := .initial (.bare [] []) .initial) negatedThird TypeTable.get_basic h⟩

end ConstantTree

end Lowering

end GoLowering
