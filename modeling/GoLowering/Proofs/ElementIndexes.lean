import GoLowering.Lowering.Unit
import GoLowering.Proofs.Outcomes
import GoLowering.Proofs.Situations
import GoLowering.Proofs.TypeIdentity

/-!
# Indexes of elements

An element of a slice or an array lies at the index of its key, or right after the element before it
(`LiesAt`), and the length of the list is one more than the largest index (`HasLength`).

Lengths are counted in words of 64 bits, where the index after the last one is zero. So the length
that is counted is that of the list just in case no element lies at the last index of all or behind
it (`lengths_exact_iff`), and then literals `[...]T` have the right length and those of arrays are
refused just in case they do not fit. With an element at the last index an array of any length takes
the list (`lastIndex_accepted`).
-/

namespace GoLowering

/-- The index at which the element at some position lies: that of its key, or the one after the
index of the element before it. The first element lies at `start` if it has no key. -/
inductive LiesAt (start : Nat) (keys : List (Option Nat)) : Nat → Nat → Prop
  | keyed {position index : Nat} (hkey : keys[position]? = some (some index)) :
      LiesAt start keys position index
  | first (hkey : keys[0]? = some none) : LiesAt start keys 0 start
  | next {position index : Nat} (hkey : keys[position + 1]? = some none)
      (hbefore : LiesAt start keys position index) : LiesAt start keys (position + 1) (index + 1)

/-- The number of elements that a list of elements with these keys spans. -/
inductive HasLength (start : Nat) (keys : List (Option Nat)) : Nat → Prop
  | empty (hkeys : keys = []) : HasLength start keys 0
  | largest {position index : Nat} (hlies : LiesAt start keys position index)
      (hlargest : ∀ other i, LiesAt start keys other i → i ≤ index) :
      HasLength start keys (index + 1)

section

variable {start position index length : Nat} {key : Option Nat} {keys : List (Option Nat)}

theorem not_liesAt_nil : ¬LiesAt start [] position index := by
  intro h
  cases h with
  | keyed hkey | first hkey | next hkey => cases hkey

theorem liesAt_zero_iff : LiesAt start (key :: keys) 0 index ↔ index = key.getD start := by
  constructor
  · intro h
    cases h with
    | keyed hkey =>
      obtain rfl := Option.some.inj hkey
      rfl
    | first hkey =>
      obtain rfl := Option.some.inj hkey
      rfl
  · rintro rfl
    cases key with
    | none => exact .first rfl
    | some index => exact .keyed rfl

/-- The elements behind the first one lie as if they started at the index after it. -/
theorem liesAt_succ_iff : LiesAt start (key :: keys) (position + 1) index ↔
    LiesAt (key.getD start + 1) keys position index := by
  constructor
  · intro h
    induction position generalizing index with
    | zero =>
      cases h with
      | keyed hkey => exact .keyed hkey
      | next hkey hbefore =>
        rw [liesAt_zero_iff.mp hbefore]
        exact .first hkey
    | succ position ih =>
      cases h with
      | keyed hkey => exact .keyed hkey
      | next hkey hbefore => exact .next hkey (ih hbefore)
  · intro h
    induction h with
    | keyed hkey => exact .keyed hkey
    | first hkey => exact .next hkey (liesAt_zero_iff.mpr rfl)
    | next hkey _ ih => exact .next hkey ih

/-- Whether all elements lie below a bound is a matter of the length. -/
theorem HasLength.le_iff (h : HasLength start keys length) {bound : Nat} :
    length ≤ bound ↔ ∀ position index, LiesAt start keys position index → index < bound := by
  cases h with
  | empty hkeys =>
    subst hkeys
    exact iff_of_true (Nat.zero_le bound) (fun _ _ hlies => absurd hlies not_liesAt_nil)
  | largest hlies hlargest =>
    refine ⟨fun hle position index h => Nat.lt_of_le_of_lt (hlargest position index h) hle,
      fun hall => hall _ _ hlies⟩

/-- The length that is counted in words. -/
def wordLength : Nat → List (Option Nat) → Nat
  | _, [] => 0
  | start, key :: keys =>
    let next := Lowering.indexAfter (key.getD start)
    max next (wordLength next keys)

theorem lengthLimit_pos : 0 < lengthLimit := by decide

theorem wordLength_lt : wordLength start keys < lengthLimit := by
  induction keys generalizing start with
  | nil => exact lengthLimit_pos
  | cons key keys ih => exact Nat.max_lt.mpr ⟨Nat.mod_lt _ lengthLimit_pos, ih⟩

/-- Without an element at the last index nothing is lost by counting in words. -/
theorem hasLength_wordLength
    (h : ∀ position index, LiesAt start keys position index → index + 1 < lengthLimit) :
    HasLength start keys (wordLength start keys) := by
  induction keys generalizing start with
  | nil => exact .empty rfl
  | cons key keys ih =>
    have hnext : Lowering.indexAfter (key.getD start) = key.getD start + 1 :=
      Nat.mod_eq_of_lt (h 0 _ (liesAt_zero_iff.mpr rfl))
    have hrest : HasLength (key.getD start + 1) keys (wordLength (key.getD start + 1) keys) :=
      ih (fun position index hlies => h (position + 1) index (liesAt_succ_iff.mpr hlies))
    rw [wordLength, hnext]
    generalize wordLength (key.getD start + 1) keys = length at hrest
    have hfirst : LiesAt start (key :: keys) 0 (key.getD start) := liesAt_zero_iff.mpr rfl
    rcases Nat.le_total length (key.getD start + 1) with hle | hle
    · rw [Nat.max_eq_left hle]
      refine .largest hfirst (fun other i hlies => ?_)
      cases other with
      | zero => exact Nat.le_of_eq (liesAt_zero_iff.mp hlies)
      | succ other =>
        exact Nat.le_of_lt_succ (hrest.le_iff.mp hle other i (liesAt_succ_iff.mp hlies))
    · rw [Nat.max_eq_right hle]
      cases hrest with
      | empty => exact absurd hle (Nat.not_succ_le_zero _)
      | largest hlies hlargest =>
        refine .largest (liesAt_succ_iff.mpr hlies) (fun other i hother => ?_)
        cases other with
        | zero =>
          rw [liesAt_zero_iff.mp hother]
          exact Nat.le_of_succ_le_succ hle
        | succ other => exact hlargest other i (liesAt_succ_iff.mp hother)

/-- The length counted in words is that of the list just in case no element lies at the last index
of all or behind it. -/
theorem hasLength_wordLength_iff : HasLength start keys (wordLength start keys) ↔
    ∀ position index, LiesAt start keys position index → index + 1 < lengthLimit :=
  ⟨fun h position index hlies =>
    Nat.lt_of_le_of_lt (h.le_iff.mp (Nat.le_refl _) position index hlies) wordLength_lt,
    hasLength_wordLength⟩

end

namespace Lowering

open Surface

variable {walk : Walk} {c : Context} {s s' : State} {type : TypeId} {next length : Nat}
  {elements : List Element} {keys : List (Option Nat)} {host : List HostElement} {span : Span}

/-- Elements are lowered one after the other, each as a value of a type, and their keys are
constants below the limit of indexes. -/
inductive Indexes (walk : Walk) (c : Context) (type : TypeId) :
    List Element → State → List (Option Nat) → List HostElement → State → Prop
  | nil {s : State} : Indexes walk c type [] s [] [] s
  | positional {value : NodeId} {rest : List Element} {s s₁ s' : State} {id : HostId}
      {keys : List (Option Nat)} {host : List HostElement}
      (hvalue : lowerInto walk value type c s = (.ok id, s₁))
      (hrest : Indexes walk c type rest s₁ keys host s') :
      Indexes walk c type (⟨none, value⟩ :: rest) s (none :: keys) (⟨none, id⟩ :: host) s'
  | keyed {key value : NodeId} {rest : List Element} {s s₁ s₂ s' : State} {operand : Operand}
      {index : Nat} {id : HostId} {keys : List (Option Nat)} {host : List HostElement}
      (hkey : walk.expr key .none c s = (.ok operand, s₁))
      (hconstant : operand.constant = some (.int index)) (hlimit : index < lengthLimit)
      (hvalue : lowerInto walk value type c s₁ = (.ok id, s₂))
      (hrest : Indexes walk c type rest s₂ keys host s') :
      Indexes walk c type (⟨some key, value⟩ :: rest) s (some index :: keys)
        (⟨some operand.id, id⟩ :: host) s'

theorem indexValue?_eq_some_iff {constant : Option Constant} {index : Nat} :
    indexValue? constant = some index ↔
      constant = some (.int index) ∧ index < lengthLimit := by
  constructor
  · intro h
    unfold indexValue? at h
    split at h
    · split at h
      · obtain rfl := Option.some.inj h
        exact ⟨rfl, ‹_›⟩
      · cases h
    · cases h
  · rintro ⟨rfl, hlimit⟩
    exact if_pos hlimit

/-- The elements are lowered just in case their keys are such constants, and the length is counted
in words. -/
theorem lowerIndexedFrom_ok_iff :
    lowerIndexedFrom walk type next elements c s = (.ok (host, length), s') ↔
      ∃ keys, Indexes walk c type elements s keys host s' ∧ length = wordLength next keys := by
  induction elements generalizing next s host length with
  | nil =>
    constructor
    · intro h
      obtain ⟨⟨⟩, rfl⟩ := pure_ok.mp h
      exact ⟨[], .nil, rfl⟩
    · rintro ⟨keys, hkeys, rfl⟩
      cases hkeys
      rfl
  | cons element rest ih =>
    obtain ⟨_ | key, value⟩ := element
    · unfold lowerIndexedFrom
      constructor
      · intro h
        obtain ⟨_, _, ⟨⟩, h⟩ := bind_ok.mp h
        obtain ⟨id, s₁, hvalue, h⟩ := bind_ok.mp h
        obtain ⟨⟨later, reached⟩, s₂, hlater, h⟩ := bind_ok.mp h
        obtain ⟨⟨⟩, rfl⟩ := pure_ok.mp h
        obtain ⟨keys, hkeys, rfl⟩ := ih.mp hlater
        exact ⟨none :: keys, .positional hvalue hkeys, rfl⟩
      · rintro ⟨keys, hkeys, rfl⟩
        cases hkeys with
        | positional hvalue hrest =>
          refine bind_ok.mpr ⟨(none, next), s, rfl, bind_ok.mpr ⟨_, _, hvalue, ?_⟩⟩
          exact bind_ok.mpr ⟨_, s', ih.mpr ⟨_, hrest, rfl⟩, rfl⟩
    · unfold lowerIndexedFrom
      constructor
      · intro h
        obtain ⟨operand, s₁, hkey, h⟩ := bind_ok.mp h
        cases hindex : indexValue? operand.constant with
        | none =>
          rw [hindex] at h
          exact absurd h Fails.fails
        | some index =>
          rw [hindex] at h
          obtain ⟨hconstant, hlimit⟩ := indexValue?_eq_some_iff.mp hindex
          obtain ⟨_, _, ⟨⟩, h⟩ := bind_ok.mp h
          obtain ⟨id, s₂, hvalue, h⟩ := bind_ok.mp h
          obtain ⟨⟨later, reached⟩, s₃, hlater, h⟩ := bind_ok.mp h
          obtain ⟨⟨⟩, rfl⟩ := pure_ok.mp h
          obtain ⟨keys, hkeys, rfl⟩ := ih.mp hlater
          exact ⟨some index :: keys, .keyed hkey hconstant hlimit hvalue hkeys, rfl⟩
      · rintro ⟨keys, hkeys, rfl⟩
        cases hkeys with
        | keyed hkey hconstant hlimit hvalue hrest =>
          refine bind_ok.mpr ⟨_, _, hkey, ?_⟩
          rw [indexValue?_eq_some_iff.mpr ⟨hconstant, hlimit⟩]
          refine bind_ok.mpr ⟨_, _, rfl, bind_ok.mpr ⟨_, _, hvalue, ?_⟩⟩
          exact bind_ok.mpr ⟨_, s', ih.mpr ⟨_, hrest, rfl⟩, rfl⟩

/-- A literal `[...]T` of the elements has their length. -/
def Counted (walk : Walk) (c : Context) (elements : List Element) (type : TypeId) (s : State)
    (keys : List (Option Nat)) : Prop :=
  ∀ (arrayType node : NodeId) (span : Span) (before : State),
    c.unit.type? arrayType = some (.array none node) →
    walk.type node c before = (.ok type, s) → ∃ operand after length,
      lowerTypedComposite walk arrayType elements span c before = (.ok operand, after) ∧
        after.types.get operand.type = .array type length ∧ HasLength 0 keys length

/-- A literal of an array type is lowered just in case the elements fit. -/
def Bounded (walk : Walk) (c : Context) (elements : List Element) (type : TypeId) (s : State)
    (keys : List (Option Nat)) : Prop :=
  ∀ (array : TypeId) (limit : Nat) (span : Span), s.types.shape array = .array type limit →
    ((∃ operand after, lowerElements walk array elements span c s = (.ok operand, after)) ↔
      ∀ position index, LiesAt 0 keys position index → index < limit)

theorem counted_of_hasLength (hrun : lowerIndexed walk type elements c s = (.ok (host, length), s'))
    (hlength : HasLength 0 keys length) : Counted walk c elements type s keys := by
  intro arrayType node span before harray htype
  rcases hintern : s'.types.intern (.array type length) with ⟨array, types⟩
  have hget : types.get array = .array type length := by
    have hget := (s'.types.get_intern (.array type length)).2
    rwa [hintern] at hget
  obtain ⟨id, s₁, hplace⟩ := exists_ok (m := place (.composite (some array) host) span) (c := c)
    (s := { s' with types }) rfl
  refine ⟨.value id array span, s₁, length, ?_, ?_, hlength⟩
  · unfold lowerTypedComposite
    refine bind_ok.mpr ⟨c, before, rfl, ?_⟩
    rw [harray]
    refine bind_ok.mpr ⟨type, s, htype, bind_ok.mpr ⟨(host, length), s', hrun, ?_⟩⟩
    refine bind_ok.mpr ⟨array, { s' with types }, ?_, bind_ok.mpr ⟨id, s₁, hplace, rfl⟩⟩
    change (Except.ok (s'.types.intern (.array type length)).1,
      { s' with types := (s'.types.intern (.array type length)).2 }) = _
    rw [hintern]
  · obtain ⟨-, rfl⟩ := Prod.mk.inj hplace
    exact hget

theorem bounded_of_hasLength (hrun : lowerIndexed walk type elements c s = (.ok (host, length), s'))
    (hlength : HasLength 0 keys length) : Bounded walk c elements type s keys := by
  intro array limit span hshape
  rw [← hlength.le_iff]
  unfold lowerElements
  have hopen {m : TypeTable → Lower Operand} : (getTypes >>= m) c s = m s.types c s := rfl
  rw [hopen, hshape]
  dsimp only
  rw [run_bind, hrun]
  dsimp only
  split
  · rename_i hlt
    exact iff_of_false (fun ⟨_, _, h⟩ => Fails.fails h) (Nat.not_le.mpr hlt)
  · rename_i hge
    exact iff_of_true (exists_ok (m := compositeOperand array host span) rfl) (Nat.not_lt.mp hge)

/-- Of elements that are lowered the length is the exact one, by itself, as that of a literal
`[...]T` and against the bound of an array, just in case no element lies at the last index of all or
behind it. -/
theorem lengths_exact_iff
    (hrun : lowerIndexed walk type elements c s = (.ok (host, length), s')) :
    ∃ keys, Indexes walk c type elements s keys host s' ∧
      ((HasLength 0 keys length ∧ Counted walk c elements type s keys ∧
          Bounded walk c elements type s keys) ↔
        ∀ position index, LiesAt 0 keys position index → index + 1 < lengthLimit) := by
  obtain ⟨keys, hkeys, hlength⟩ := lowerIndexedFrom_ok_iff.mp hrun
  refine ⟨keys, hkeys, ?_⟩
  rw [← hasLength_wordLength_iff, ← hlength]
  exact ⟨fun h => h.1, fun h => ⟨h, counted_of_hasLength hrun h, bounded_of_hasLength hrun h⟩⟩

/-- The nodes of `2`, `7`, `8` and `18446744073709551615`. -/
def indexSample : Context :=
  .sample [.expr (.literal .int "2"), .expr (.literal .int "7"), .expr (.literal .int "8"),
    .expr (.literal .int "18446744073709551615")] []

/-- A place where the type behind the fixed ones is `[5]int`. -/
def indexState : State :=
  .inside ⟨TypeTable.initial.entries ++ #[.array TypeTable.int 5]⟩ [] []

/-- The elements `2: 7, 8`. -/
def sparseElements : List Element := [⟨some ⟨0⟩, ⟨1⟩⟩, ⟨none, ⟨2⟩⟩]

/-- The elements `2: 7, 8` of a list of integers span four of them. -/
theorem lengths_exact_iff_sparse : ∃ host s',
    lowerIndexed (walkWithin 1) TypeTable.int sparseElements indexSample indexState =
        (.ok (host, 4), s') ∧
      ∃ keys, Indexes (walkWithin 1) indexSample TypeTable.int sparseElements indexState keys host
          s' ∧
        ((HasLength 0 keys 4 ∧
            Counted (walkWithin 1) indexSample sparseElements TypeTable.int indexState keys ∧
            Bounded (walkWithin 1) indexSample sparseElements TypeTable.int indexState keys) ↔
          ∀ position index, LiesAt 0 keys position index → index + 1 < lengthLimit) := by
  obtain ⟨⟨host, length⟩, s', hrun⟩ := exists_ok (m := lowerIndexed (walkWithin 1) TypeTable.int
    sparseElements) (c := indexSample) (s := indexState) (by decide +kernel)
  have hlength : (lowerIndexed (walkWithin 1) TypeTable.int sparseElements indexSample
      indexState).1.toOption.map (·.2) = some 4 := by
    decide +kernel
  rw [hrun] at hlength
  obtain rfl : length = 4 := Option.some.inj hlength
  exact ⟨host, s', hrun, lengths_exact_iff hrun⟩

/-- The literal `[5]int{18446744073709551615: 7}` is lowered: its length is counted as zero. -/
theorem lastIndex_accepted : ∃ host s',
    Indexes (walkWithin 1) indexSample TypeTable.int [⟨some ⟨3⟩, ⟨1⟩⟩] indexState
        [some 18446744073709551615] host s' ∧
      lowerIndexed (walkWithin 1) TypeTable.int [⟨some ⟨3⟩, ⟨1⟩⟩] indexSample indexState =
        (.ok (host, 0), s') ∧
      ¬HasLength 0 [some 18446744073709551615] 0 ∧
      ¬Bounded (walkWithin 1) indexSample [⟨some ⟨3⟩, ⟨1⟩⟩] TypeTable.int indexState
        [some 18446744073709551615] := by
  obtain ⟨operand, s₁, hkey⟩ := exists_ok (m := (walkWithin 1).expr ⟨3⟩ .none) (c := indexSample)
    (s := indexState) (by decide +kernel)
  have hindex : ((walkWithin 1).expr ⟨3⟩ .none indexSample indexState).1.toOption.map
      (fun operand => indexValue? operand.constant) = some (some 18446744073709551615) := by
    decide +kernel
  have hvalue : (lowerInto (walkWithin 1) ⟨1⟩ TypeTable.int indexSample
      ((walkWithin 1).expr ⟨3⟩ .none indexSample indexState).2).1.isOk = true := by
    decide +kernel
  rw [hkey] at hindex hvalue
  obtain ⟨hconstant, hlimit⟩ := indexValue?_eq_some_iff.mp (Option.some.inj hindex)
  obtain ⟨id, s₂, hvalue⟩ := exists_ok hvalue
  have hindexes : Indexes (walkWithin 1) indexSample TypeTable.int [⟨some ⟨3⟩, ⟨1⟩⟩] indexState
      [some 18446744073709551615] [⟨some operand.id, id⟩] s₂ :=
    .keyed hkey hconstant hlimit hvalue .nil
  have hlies : LiesAt 0 [some 18446744073709551615] 0 18446744073709551615 := .keyed rfl
  refine ⟨_, _, hindexes, lowerIndexedFrom_ok_iff.mpr ⟨_, hindexes, by decide⟩, fun h => ?_,
    fun h => ?_⟩
  · exact absurd (h.le_iff.mp (Nat.le_refl 0) 0 _ hlies) (Nat.not_lt_zero _)
  · have hfits := (h ⟨32⟩ 5 .synthetic rfl).mp (exists_ok (by decide +kernel))
    exact absurd (hfits 0 _ hlies) (by decide)

end Lowering

end GoLowering
