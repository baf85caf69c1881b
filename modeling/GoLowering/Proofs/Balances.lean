import Mathlib.Algebra.Order.BigOperators.Group.List
import Mathlib.Data.ENat.Lattice
import Mathlib.Data.List.Perm.Lattice
import Mathlib.Order.CompletePartialOrder
import Mathlib.Tactic.Abel
import GoLowering.Host.Imports
import GoLowering.Proofs.Outcomes
import GoLowering.Proofs.Records

/-!
# Balances of hoisted statements

A statement that has been hoisted is looked for in the tree that a lowering ends with (`Watch`).
Between the parts of the lowering it is still hoisted, below a result that is held, or in the
output, and each time that it has been hoisted is accounted for (`Watch.Books`). A part that is
given results which weigh `D` gives results which weigh `W` and leaves the books balanced
(`Watch.Balances`).

What a part hoists and what the values of the package hoist that it needs are told apart by the
package level they are hoisted at: at the level in hand nothing is put out, so what has been hoisted
there is what is held or still hoisted. Below a function literal stands what has been hoisted at its
level while its body was lowered.

An infinite weight is one that no books balance with. A node weighs that much where it is taken for
a value although it is the statement itself, and so does an operand that need not be kept although
something stands below it: constants, types, packages, built-in functions and `nil` may be dropped.
-/

/-!
## Statements in the lists of a tree

The nodes below a node stand either in its statement lists or elsewhere in it
(`HostKind.listed`, `HostKind.unlisted`). How often a node stands in the statement lists at and
below another one is counted along all ways down (`HostTree.occurrences`): a list that is reached
in two ways is printed twice.
-/

namespace GoLowering

namespace HostKind

/-- The entries of the statement lists of a node. -/
def listed : HostKind → List HostId
  | block statements => statements
  | switch _ _ cases => cases.flatMap (·.body)
  | typeSwitch _ _ _ cases => cases.flatMap (·.body)
  | select cases => cases.flatMap (·.body)
  | _ => []

/-- The nodes that a node refers to outside of its statement lists. -/
def unlisted : HostKind → List HostId
  | block _ => []
  | switch init tag cases =>
    init.toList ++ tag.toList ++ cases.flatMap (fun c => c.values.getD [])
  | typeSwitch init _ subject _ => init.toList ++ [subject]
  | select cases => cases.flatMap (fun c => c.comm.toList)
  | kind => kind.children

end HostKind

namespace HostTree

/-- The entries of the statement lists at and below a node, looking at most `depth` levels
down. -/
def listedWithin (t : HostTree) : Nat → HostId → List HostId
  | 0, _ => []
  | depth + 1, id =>
    (t.kind id).unlisted.flatMap (t.listedWithin depth) ++
      (t.kind id).listed.flatMap (fun entry => entry :: t.listedWithin depth entry)

/-- How often a node stands in the statement lists at and below another one. -/
noncomputable def occurrences (t : HostTree) (x id : HostId) : ℕ∞ :=
  ⨆ depth, ((t.listedWithin depth id).count x : ℕ∞)

/-- How often a node stands in the statement lists that an entry of a list adds: the list itself
and those below the entry. -/
noncomputable def entryOccurrences (t : HostTree) (x entry : HostId) : ℕ∞ :=
  (if entry = x then 1 else 0) + t.occurrences x entry

variable (t : HostTree) (x : HostId)

theorem count_listedWithin_succ (depth : Nat) (id : HostId) :
    (t.listedWithin (depth + 1) id).count x =
      ((t.kind id).unlisted.map (fun child => (t.listedWithin depth child).count x)).sum +
        ((t.kind id).listed.map (fun entry =>
          (if entry = x then 1 else 0) + (t.listedWithin depth entry).count x)).sum := by
  rw [listedWithin, List.count_append, List.count_flatMap, List.count_flatMap]
  congr 3
  funext entry
  simp only [Function.comp_apply, List.count_cons, beq_iff_eq]
  omega

theorem count_listedWithin_mono (id : HostId) :
    Monotone (fun depth => (t.listedWithin depth id).count x) := by
  refine monotone_nat_of_le_succ (fun depth => ?_)
  induction depth generalizing id with
  | zero => simp [listedWithin]
  | succ depth ih =>
    rw [count_listedWithin_succ, count_listedWithin_succ]
    exact Nat.add_le_add (List.sum_le_sum (fun child _ => ih child))
      (List.sum_le_sum (fun entry _ => Nat.add_le_add_left (ih entry) _))

theorem iSup_sum_map {α : Type} {l : List α} {f : Nat → α → Nat}
    (hf : ∀ a, Monotone (fun n => f n a)) :
    ⨆ n, (((l.map (f n)).sum : ℕ) : ℕ∞) = (l.map (fun a => ⨆ n, (f n a : ℕ∞))).sum := by
  induction l with
  | nil => simp
  | cons a l ih =>
    have htail : Monotone (fun n => (l.map (f n)).sum) :=
      fun m n hmn => List.sum_le_sum (fun a _ => hf a hmn)
    simp only [List.map_cons, List.sum_cons, Nat.cast_add, ← ih]
    exact (ENat.iSup_add_iSup_of_monotone (fun _ _ h => Nat.cast_le.mpr (hf a h))
      (fun _ _ h => Nat.cast_le.mpr (htail h))).symm

/-- What stands in the lists at and below a node stands in its own lists or below one of the nodes
it refers to. -/
theorem occurrences_eq (id : HostId) :
    t.occurrences x id = ((t.kind id).unlisted.map (t.occurrences x)).sum +
      ((t.kind id).listed.map (t.entryOccurrences x)).sum := by
  have hcount := t.count_listedWithin_mono x
  have hentry (entry : HostId) : Monotone (fun depth =>
      (if entry = x then 1 else 0) + (t.listedWithin depth entry).count x) :=
    fun _ _ h => Nat.add_le_add_left (hcount entry h) _
  have hshift : t.occurrences x id =
      ⨆ depth, (((t.listedWithin (depth + 1) id).count x : ℕ) : ℕ∞) :=
    (Monotone.iSup_nat_add (fun _ _ h => Nat.cast_le.mpr (hcount id h)) 1).symm
  rw [hshift]
  simp only [count_listedWithin_succ, Nat.cast_add]
  rw [← ENat.iSup_add_iSup_of_monotone, iSup_sum_map hcount, iSup_sum_map hentry]
  · congr 3
    funext entry
    simp only [entryOccurrences, occurrences, Nat.cast_add, Nat.cast_ite, Nat.cast_one,
      Nat.cast_zero, ENat.add_iSup]
  · exact fun _ _ h => Nat.cast_le.mpr (List.sum_le_sum (fun child _ => hcount child h))
  · exact fun _ _ h => Nat.cast_le.mpr (List.sum_le_sum (fun entry _ => hentry entry h))

end HostTree

end GoLowering

namespace GoLowering.Lowering

open Surface

/-- The second state may be what a lowering ends with that goes on from the first one. -/
structure State.Before (s o : State) : Prop where
  tree : s.tree.Grows o.tree
  diagnostics : s.diagnostics <+: o.diagnostics
  log : ∃ later, o.hoistLog = s.hoistLog ++ later ∧ ∀ id ∈ later, s.tree.size ≤ id.index

theorem State.Before.refl (s : State) : s.Before s :=
  ⟨.refl _, List.prefix_rfl, [], by simp, by simp⟩

theorem Records.before {s s' o : State} (h : Records s s') (ho : s'.Before o) : s.Before o := by
  obtain ⟨pushed, h⟩ := h.pushes
  obtain ⟨later, hlater, hmade⟩ := ho.log
  refine ⟨h.tree.trans ho.tree, h.diagnostics.trans ho.diagnostics, pushed ++ later, ?_,
    fun id hid => ?_⟩
  · rw [hlater, h.log, List.append_assoc]
  · rcases List.mem_append.mp hid with hid | hid
    · exact (h.made id hid).1
    · exact Nat.le_trans h.tree.size_le (hmade id hid)

theorem Settles.before {s s' o : State} (h : Settles s s') (ho : s'.Before o) : s.Before o :=
  Records.before ⟨⟨[], .of_settles h⟩, fun _ => by rw [(Settles.toStays h).hoisted]⟩ ho

/-- What comes after a state is told by its nodes, its reports and its log. -/
theorem State.Before.congr {s t o : State} (h : s.Before o) (htree : s.tree = t.tree)
    (hdiagnostics : s.diagnostics = t.diagnostics) (hlog : s.hoistLog = t.hoistLog) :
    t.Before o :=
  ⟨htree ▸ h.tree, hdiagnostics ▸ h.diagnostics, htree ▸ hlog ▸ h.log⟩

/-- What has been put out. -/
def State.output (s : State) : List HostId :=
  s.outline.typeOutput ++ s.outline.constantOutput ++ s.outline.functionOutput

/-- Whether an operand may be dropped: nothing is made for it but a spelling. -/
def Operand.isInert (o : Operand) : Bool :=
  o.constant.isSome || !(o.mode == .value || o.mode == .noValue)

/-- A hoisted statement that is looked for in the state that a lowering without reports ends
with. -/
structure Watch where
  final : State
  statement : HostId
  clean : final.diagnostics = []
  hoisted : statement ∈ final.hoistLog
  /-- Whether the package level in hand is watched, too. -/
  level : Bool

/-- An earlier moment at a package level: how often a statement was held or hoisted then, and how
often it had been hoisted at the level. -/
structure Moment where
  held : ℕ
  logged : ℕ

attribute [simp] HostKind.children HostKind.listed HostKind.unlisted

namespace Watch

variable (w : Watch)

/-! ## Weights -/

/-- How often the statement stands in the lists below a node. -/
noncomputable def below (id : HostId) : ℕ∞ := w.final.tree.occurrences w.statement id

/-- What a node weighs that is taken for a value. -/
noncomputable def value (id : HostId) : ℕ∞ := if id = w.statement then ⊤ else w.below id

/-- What a node weighs as an entry of a list of statements. -/
noncomputable def entry (id : HostId) : ℕ∞ := w.final.tree.entryOccurrences w.statement id

noncomputable def values (ids : List HostId) : ℕ∞ := (ids.map w.value).sum

noncomputable def entries (ids : List HostId) : ℕ∞ := (ids.map w.entry).sum

/-- What weighs on a node by the nodes it refers to. -/
@[simp] noncomputable def kind (k : HostKind) : ℕ∞ := w.values k.unlisted + w.entries k.listed

noncomputable def operand (o : Operand) : ℕ∞ :=
  if o.isInert then ⊤ * w.value o.id else w.value o.id

@[simp] theorem values_nil : w.values [] = 0 := rfl

@[simp] theorem values_cons (id : HostId) (ids : List HostId) :
    w.values (id :: ids) = w.value id + w.values ids := by
  simp [values]

@[simp] theorem values_append (ids ids' : List HostId) :
    w.values (ids ++ ids') = w.values ids + w.values ids' := by
  simp [values]

@[simp] theorem entries_nil : w.entries [] = 0 := rfl

@[simp] theorem entries_cons (id : HostId) (ids : List HostId) :
    w.entries (id :: ids) = w.entry id + w.entries ids := by
  simp [entries]

@[simp] theorem entries_append (ids ids' : List HostId) :
    w.entries (ids ++ ids') = w.entries ids + w.entries ids' := by
  simp [entries]

variable {w} {id : HostId} {o : Operand}

theorem value_eq_below (h : w.value id ≠ ⊤) : w.value id = w.below id := by
  unfold value at h ⊢
  split
  · rename_i he
    exact absurd (if_pos he) h
  · rfl

/-- A value is an entry of a list unless it is the statement itself. -/
theorem entry_eq_value (h : w.value id ≠ ⊤) : w.entry id = w.value id := by
  have hne : id ≠ w.statement := fun he => h (if_pos he)
  rw [value_eq_below h, entry, HostTree.entryOccurrences, if_neg hne, zero_add]
  rfl

theorem top_mul_of_ne_top {a : ℕ∞} (h : ⊤ * a ≠ ⊤) : a = 0 := by
  by_contra hne
  exact h (ENat.top_mul hne)

theorem operand_inert (h : o.isInert) : w.operand o = ⊤ * w.value o.id := if_pos h

theorem operand_live (h : o.isInert = false) : w.operand o = w.value o.id := by
  rw [operand, h]
  rfl

theorem operand_eq_value (h : w.operand o ≠ ⊤) : w.operand o = w.value o.id := by
  cases hinert : o.isInert with
  | false => exact operand_live hinert
  | true =>
    rw [operand_inert hinert] at h ⊢
    rw [top_mul_of_ne_top h, mul_zero]

theorem operands_eq_values {os : List Operand} (h : (os.map w.operand).sum ≠ ⊤) :
    (os.map w.operand).sum = w.values (os.map (·.id)) := by
  rw [values, List.map_map]
  refine congrArg List.sum (List.map_congr_left (fun o ho => operand_eq_value (fun he => h ?_)))
  obtain ⟨before, after, rfl⟩ := List.append_of_mem ho
  simp [he]

theorem value_of_inert (hinert : o.isInert) (h : w.operand o ≠ ⊤) : w.value o.id = 0 := by
  rw [operand_inert hinert] at h
  exact top_mul_of_ne_top h

theorem operand_of_inert (hinert : o.isInert) (h : w.operand o ≠ ⊤) : w.operand o = 0 := by
  rw [operand_inert hinert, value_of_inert hinert h, mul_zero]

/-- An operand whose node nothing stands below weighs nothing, whether or not it may be dropped. -/
theorem operand_eq_top_mul (h : ⊤ * w.value o.id ≠ ⊤) : w.operand o = ⊤ * w.value o.id := by
  cases hinert : o.isInert with
  | false => rw [operand_live hinert, top_mul_of_ne_top h, mul_zero]
  | true => exact operand_inert hinert

@[simp] theorem operand_value (id : HostId) (type : TypeId) (span : Span) :
    w.operand (.value id type span) = w.value id := rfl

theorem below_eq_kind {k : HostKind} (hkind : w.final.tree.kind id = k)
    (hfinite : w.kind k ≠ ⊤) : w.below id = w.kind k := by
  rw [below, HostTree.occurrences_eq, hkind, kind]
  congr 1
  refine congrArg List.sum (List.map_congr_left (fun child hchild => ?_))
  refine (value_eq_below (fun he => hfinite ?_)).symm
  obtain ⟨before, after, hsplit⟩ := List.append_of_mem hchild
  rw [kind, hsplit, values_append, values_cons, he, top_add, add_top, top_add]

/-! ## Books -/

/-- A function literal, below which stands what has been hoisted in it. -/
def IsLiteral (w : Watch) (literal : HostId × List HostId) : Prop :=
  (∃ signature body, w.final.tree.kind literal.1 = .functionLiteral signature body) ∧
    w.value literal.1 = literal.2.count w.statement

/-- The books of a state balance with what is held: the statement has been hoisted as often as it
is held, still hoisted or put out. At the level in hand it has been hoisted as often since an earlier
moment as it is held or still hoisted more than then. -/
structure Books (w : Watch) (since : Moment) (held : ℕ∞) (s : State) : Prop where
  logged : ∀ id ∈ s.hoistLog, id.index < s.tree.size
  count : (s.hoistLog.count w.statement : ℕ∞) =
    held + (w.entries s.hoisted + w.values s.output)
  level : w.level → (s.levelLog.count w.statement + since.held : ℕ∞) =
    held + w.entries s.hoisted + since.logged
  literals : ∀ literal ∈ s.literals, w.IsLiteral literal

section

variable {held held' : ℕ∞} {s s' : State} {since since' : Moment}

theorem Books.finite (h : w.Books since held s) : held + w.entries s.hoisted ≠ ⊤ := by
  intro he
  have hcount := h.count
  rw [← add_assoc, he, top_add] at hcount
  exact ENat.natCast_ne_top _ hcount

theorem Books.ne_top (h : w.Books since held s) : held ≠ ⊤ :=
  fun he => h.finite (by rw [he, top_add])

theorem Books.congr (h : w.Books since held s) (he : held = held') : w.Books since held' s :=
  he ▸ h

/-- The books of a state balance with one weight only. -/
theorem Books.unique (h : w.Books since held s) (h' : w.Books since' held' s) : held = held' := by
  have heq := h.count.symm.trans h'.count
  have hfinite : w.entries s.hoisted + w.values s.output ≠ ⊤ := by
    intro he
    have hcount := h.count
    rw [he, add_top] at hcount
    exact ENat.natCast_ne_top _ hcount
  exact ENat.add_left_injective_of_ne_top hfinite heq

/-- What makes no notes leaves the books as they are. -/
theorem Books.settles (h : w.Books since held s) (hs : Settles s s') : w.Books since held s' where
  logged id hid := Nat.lt_of_lt_of_le (h.logged id (hs.hoistLog ▸ hid)) hs.tree.size_le
  count := by
    have houtline : s'.outline = s.outline := congrArg Ledger.outline hs.ledger
    rw [hs.hoistLog, hs.hoisted, State.output, houtline]
    exact h.count
  level hw := by
    rw [hs.levelLog, hs.hoisted]
    exact h.level hw
  literals literal hliteral := h.literals literal (hs.literals ▸ hliteral)

/-- The same watch, less the package level. -/
def atLarge (w : Watch) : Watch := { w with level := false }

@[simp] theorem value_atLarge : w.atLarge.value = w.value := rfl

theorem Books.atLarge (h : w.Books since held s) : w.atLarge.Books since' held s :=
  ⟨h.logged, h.count, fun hlevel => Bool.noConfusion hlevel, h.literals⟩

/-- A level can be watched from any moment on. -/
theorem Books.now (h : w.atLarge.Books since held s) : ∃ now, w.Books now held s := by
  obtain ⟨n, hn⟩ := ENat.ne_top_iff_exists.mp h.finite
  have hheld : (n : ℕ∞) = held + w.entries s.hoisted := hn
  refine ⟨⟨n, s.levelLog.count w.statement⟩, h.logged, h.count, fun _ => ?_, h.literals⟩
  rw [← hheld, add_comm]

end

/-- A part that is given what weighs `D` leaves the books balanced when its result is held, which
weighs `W`. -/
structure Balances (w : Watch) {α : Type} (D : ℕ∞) (m : Lower α) (W : α → ℕ∞) : Prop where
  before : ∀ ⦃c s a s'⦄, m c s = (.ok a, s') → s'.Before w.final → s.Before w.final
  settled : ∀ ⦃c s a s'⦄, m c s = (.ok a, s') → s'.Before w.final → ∀ since held,
    w.Books since (held + D) s → w.Books since (held + W a) s'

namespace Balances

variable {α β γ : Type} {D D' E : ℕ∞} {m : Lower α} {f : α → Lower β} {W W' : α → ℕ∞}
  {V : β → ℕ∞}

/-- Weights that differ only where no books balance. -/
theorem relax (h : w.Balances D' m W') (hD : D ≠ ⊤ → D = D') (hW : ∀ a, W' a ≠ ⊤ → W a = W' a) :
    w.Balances D m W where
  before := h.before
  settled _ _ _ _ hrun ho since held hb := by
    have hfinite := hb.ne_top
    have hne : D ≠ ⊤ := fun he => hfinite (by rw [he, add_top])
    rw [hD hne] at hb
    have hb' := h.settled hrun ho since held hb
    have hfinite' := hb'.ne_top
    rwa [hW _ (fun he => hfinite' (by rw [he, add_top]))]

/-- A part leaves the books balanced without the package level. -/
theorem atLarge (h : w.Balances D m W) : w.atLarge.Balances D m W where
  before := h.before
  settled _ _ _ _ hrun ho _ held hb := by
    obtain ⟨now, hb⟩ := hb.now
    exact (h.settled hrun ho now held hb).atLarge

theorem given (h : w.Balances D' m W) (hD : D ≠ ⊤ → D = D') : w.Balances D m W :=
  h.relax hD (fun _ _ => rfl)

theorem giving (h : w.Balances D m W') (hW : ∀ a, W' a ≠ ⊤ → W a = W' a) : w.Balances D m W :=
  h.relax (fun _ => rfl) hW

theorem swap (h : w.Balances (E + D) m W) : w.Balances (D + E) m W :=
  h.given (fun _ => add_comm _ _)

theorem pure {a : α} (h : D ≠ ⊤ → W a = D) : w.Balances D (pure a : Lower α) W where
  before _ _ _ _ hrun ho := (pure_ok.mp hrun).2 ▸ ho
  settled _ _ _ _ hrun _ _ held hb := by
    obtain ⟨rfl, rfl⟩ := pure_ok.mp hrun
    have hfinite := hb.ne_top
    rwa [h (fun he => hfinite (by rw [he, add_top]))]

theorem failing [hm : Fails m] : w.Balances D m W where
  before _ _ _ _ hrun := absurd hrun hm.fails
  settled _ _ _ _ hrun := absurd hrun hm.fails

theorem bind (hm : w.Balances D m W) (hf : ∀ a, w.Balances (W a + E) (f a) V) :
    w.Balances (D + E) (m >>= f) V where
  before _ _ _ _ hrun ho := by
    obtain ⟨a, s₁, ha, hrest⟩ := bind_ok.mp hrun
    exact hm.before ha ((hf a).before hrest ho)
  settled _ _ _ _ hrun ho since held hb := by
    obtain ⟨a, s₁, ha, hrest⟩ := bind_ok.mp hrun
    have hb₁ := hm.settled ha ((hf a).before hrest ho) since (held + E) (hb.congr (by abel))
    exact (hf a).settled hrest ho since held (hb₁.congr (by abel))

/-- A part that is given something of what is held. -/
theorem spend (hm : w.Balances D' m W) (hD : D = D' + E)
    (hf : ∀ a, w.Balances (W a + E) (f a) V) : w.Balances D (m >>= f) V :=
  hD ▸ hm.bind hf

/-- A part that is given nothing. -/
theorem next (hm : w.Balances 0 m W) (hf : ∀ a, w.Balances (W a + D) (f a) V) :
    w.Balances D (m >>= f) V :=
  hm.spend (zero_add D).symm hf

theorem still [Still recording m] (hm : ∀ ⦃c s a s'⦄, m c s = (.ok a, s') → W a = 0) :
    w.Balances 0 m W where
  before _ _ _ _ hrun ho := (Still.settles hrun).before ho
  settled _ _ _ _ hrun _ _ held hb := (hb.settles (Still.settles hrun)).congr (by rw [hm hrun])

/-- A part that makes no notes, of whose result something is known. -/
theorem knowing {P : α → Prop} [hm : Still recording m]
    (hP : ∀ ⦃c s a s'⦄, m c s = (.ok a, s') → P a) (hf : ∀ a, P a → w.Balances D (f a) V) :
    w.Balances D (m >>= f) V where
  before _ _ _ _ hrun ho := by
    obtain ⟨a, s₁, ha, hrest⟩ := bind_ok.mp hrun
    exact (Still.settles ha).before ((hf a (hP ha)).before hrest ho)
  settled _ _ _ _ hrun ho since held hb := by
    obtain ⟨a, s₁, ha, hrest⟩ := bind_ok.mp hrun
    exact (hf a (hP ha)).settled hrest ho since held (hb.settles (Still.settles ha))

/-- A part that is given all that is held. -/
theorem wholly (hm : w.Balances D m W) (hf : ∀ a, w.Balances (W a) (f a) V) :
    w.Balances D (m >>= f) V :=
  hm.spend (add_zero D).symm (fun a => by simpa using hf a)

/-- A part that makes no notes and of whose result nothing is held. -/
theorem skip [Still recording m] (hf : ∀ a, w.Balances D (f a) V) : w.Balances D (m >>= f) V :=
  (still (W := fun _ => 0) (fun _ _ _ _ _ => rfl)).next (fun a => by simpa using hf a)

theorem read {f : Context → Lower α} (hf : ∀ c, w.Balances D (f c) W) :
    w.Balances D (read >>= f) W where
  before c _ _ _ hrun := (hf c).before hrun
  settled c _ _ _ hrun := (hf c).settled hrun

theorem get {f : State → Lower α} (hf : ∀ s, w.Balances D (f s) W) :
    w.Balances D (get >>= f) W where
  before _ s _ _ hrun := (hf s).before hrun
  settled _ s _ _ hrun := (hf s).settled hrun

/-- The result of a part is put into something that weighs as much. -/
theorem finish {g : α → β} (hm : w.Balances D m W) (hg : ∀ a, W a ≠ ⊤ → V (g a) = W a) :
    w.Balances D (m >>= fun a => Pure.pure (g a)) V :=
  hm.spend (add_zero D).symm (fun a => .pure (fun h => by
    rw [add_zero] at h ⊢
    exact hg a h))

theorem map {g : α → β} (hm : w.Balances D m W) (hg : ∀ a, W a ≠ ⊤ → V (g a) = W a) :
    w.Balances D (g <$> m) V := by
  rw [map_eq_pure_bind]
  exact hm.finish hg

/-- A part that is given nothing and gives nothing. -/
theorem pass (hm : w.Balances 0 m (fun _ => 0)) (hf : ∀ a, w.Balances D (f a) V) :
    w.Balances D (m >>= f) V :=
  hm.next (fun a => by simpa using hf a)

theorem returned {a : α} (h : w.Balances D (f a) V) : w.Balances D (Pure.pure a >>= f) V := by
  rwa [pure_bind]

/-- Parts `B` that go on in the same way. -/
theorem join (B : (α → Lower β) → Lower β) {J : α → ℕ∞} {g : α → Lower β}
    (hg : ∀ a, w.Balances (J a) (g a) V)
    (hB : ∀ k, (∀ a, w.Balances (J a) (k a) V) → w.Balances D (B k) V) :
    w.Balances D (B g) V :=
  hB g hg

theorem mapM {f : γ → Lower α} {debt : γ → ℕ∞} (h : ∀ x, w.Balances (debt x) (f x) W)
    (xs : List γ) : w.Balances ((xs.map debt).sum) (xs.mapM f) (fun as => (as.map W).sum) := by
  induction xs with
  | nil => exact .pure (fun _ => rfl)
  | cons x xs ih =>
    rw [List.mapM_cons, List.map_cons, List.sum_cons]
    refine (h x).bind (fun a => ?_)
    refine ih.spend (add_comm _ _) (fun as => ?_)
    exact .pure (fun _ => by simp [add_comm])

/-- A part is run for each of some things, and nothing is held before. -/
theorem forEach {f : γ → Lower α} (h : ∀ x, w.Balances 0 (f x) W) (xs : List γ) :
    w.Balances 0 (xs.mapM f) (fun as => (as.map W).sum) :=
  (mapM h xs).given (fun _ => by simp)

theorem passEach {f : γ → Lower α} (h : ∀ x, w.Balances 0 (f x) (fun _ => 0)) (xs : List γ) :
    w.Balances 0 (xs.mapM f) (fun _ => 0) :=
  (forEach h xs).giving (fun _ _ => by simp)

theorem optionMapM {f : γ → Lower α} (h : ∀ x, w.Balances 0 (f x) W) (x : Option γ) :
    w.Balances 0 (x.mapM f) (fun a => (a.toList.map W).sum) := by
  cases x with
  | none => exact .pure (fun _ => rfl)
  | some x => exact (h x).map (fun a _ => by simp)

/-! ## Operands -/

/-- An operand is taken for a value. -/
theorem opening {o : Operand} (h : w.Balances (w.value o.id + D) m W) :
    w.Balances (w.operand o + D) m W :=
  h.given (fun hne => by
    rw [operand_eq_value (fun he => hne (by rw [he, top_add]))])

theorem opened {o : Operand} (h : w.Balances (w.value o.id) m W) :
    w.Balances (w.operand o) m W :=
  h.given operand_eq_value

/-- An operand is dropped that has nothing below it. -/
theorem dropping {o : Operand} (hinert : o.isInert) (h : w.Balances D m W) :
    w.Balances (w.operand o + D) m W :=
  h.given (fun hne => by
    rw [operand_of_inert hinert (fun he => hne (by rw [he, top_add])), zero_add])

theorem dropped {o : Operand} (hinert : o.isInert) (h : w.Balances 0 m W) :
    w.Balances (w.operand o) m W :=
  h.given (operand_of_inert hinert)

/-- What may be dropped may be kept. -/
theorem voiding {a : ℕ∞} (h : w.Balances (a + D) m W) : w.Balances (⊤ * a + D) m W :=
  h.given (fun hne => by
    have ha : a = 0 := top_mul_of_ne_top (fun he => hne (by rw [he, top_add]))
    rw [ha, mul_zero])

theorem voided {a : ℕ∞} (h : w.Balances D m W) : w.Balances (⊤ * a + D) m W :=
  h.given (fun hne => by
    have ha : a = 0 := top_mul_of_ne_top (fun he => hne (by rw [he, top_add]))
    rw [ha, mul_zero, zero_add])

/-- A part that makes no notes makes what may be dropped of what may be dropped. -/
theorem inert [Still recording m] (h : w.Balances D m W) :
    w.Balances (⊤ * D) m (fun a => ⊤ * W a) where
  before := h.before
  settled _ s _ _ hrun ho since held hb := by
    have hfinite := hb.ne_top
    have hD : D = 0 := top_mul_of_ne_top (fun he => hfinite (by rw [he, add_top]))
    rw [hD, mul_zero] at hb
    have hstill := hb.settles (Still.settles hrun)
    have hheld := hstill.unique (h.settled hrun ho since held (hD ▸ hb))
    have hne : held ≠ ⊤ := fun he => hfinite (by rw [he, top_add])
    have hresult : 0 = W _ := ENat.add_right_injective_of_ne_top hne hheld
    exact hstill.congr (by rw [← hresult, mul_zero])

/-! ## Nodes -/

/-- A new node weighs as much as what it refers to. -/
theorem addNode (kind : HostKind) (origin : Option Span) :
    w.Balances (w.kind kind) (addNode kind origin) w.value where
  before _ _ _ _ hrun ho := (Still.settles hrun).before ho
  settled c s id s' hrun ho _ held hb := by
    have hstill : Still recording (Lowering.addNode kind origin) := inferInstance
    refine (hb.settles (Still.settles hrun)).congr (congrArg (held + ·) ?_)
    have hfinite : w.kind kind ≠ ⊤ := fun he => hb.ne_top (by rw [he, add_top])
    obtain ⟨hid, rfl⟩ := Prod.mk.inj (run_addNode kind origin c s ▸ hrun)
    obtain rfl := Except.ok.inj hid
    have hkind : w.final.tree.kind ⟨s.tree.size⟩ = kind := by
      rw [ho.tree.kind_eq (by simp), HostTree.kind_add]
    -- The node comes after all that have been hoisted, and before all that will be.
    have hnew : (⟨s.tree.size⟩ : HostId) ≠ w.statement := by
      intro he
      have hmem := w.hoisted
      obtain ⟨later, hlater, hmade⟩ := ho.log
      rw [← he, hlater] at hmem
      rcases List.mem_append.mp hmem with hid | hid
      · exact absurd (hb.logged _ hid) (Nat.lt_irrefl _)
      · have hle := hmade _ hid
        rw [HostTree.size_add] at hle
        exact absurd hle (Nat.not_succ_le_self _)
    change w.kind kind = w.value ⟨s.tree.size⟩
    rw [value, if_neg hnew, below_eq_kind hkind hfinite]

theorem place (kind : HostKind) (span : Span) :
    w.Balances (w.kind kind) (place kind span) w.value :=
  addNode kind _

theorem scaffold (kind : HostKind) : w.Balances (w.kind kind) (scaffold kind) w.value :=
  addNode kind _

/-- A node that is given what it refers to. -/
theorem placing {kind : HostKind} {span : Span} (h : D = w.kind kind) :
    w.Balances D (Lowering.place kind span) w.value :=
  h ▸ place kind span

theorem scaffolding {kind : HostKind} (h : D = w.kind kind) :
    w.Balances D (Lowering.scaffold kind) w.value :=
  h ▸ scaffold kind

/-- A node that refers to nothing that weighs anything may be dropped. -/
theorem placeInert {kind : HostKind} {span : Span} (h : D ≠ ⊤ → D = ⊤ * w.kind kind) :
    w.Balances D (Lowering.place kind span) (fun id => ⊤ * w.value id) :=
  (addNode kind _).inert.given h

/-- A value is put into a list of statements. -/
theorem listing (h : w.Balances (w.entry id + D) m W) : w.Balances (w.value id + D) m W :=
  h.given (fun hne => by
    rw [entry_eq_value (fun he => hne (by rw [he, top_add]))])

end Balances

end Watch

/-- A walk whose parts leave the books balanced, and so do the names that it is asked for. -/
class Walk.Balanced (w : Watch) (walk : Walk) : Prop extends walk.Keeps recording where
  level : w.level
  balances_expr (id : NodeId) (expect : Expectation) : w.Balances 0 (walk.expr id expect) w.operand
  balances_statement (id : NodeId) :
    w.Balances 0 (walk.statement id) (fun r => w.values r.toList)
  branch_isSome ⦃id : NodeId⦄ ⦃c : Context⦄ ⦃s : State⦄ ⦃r : Option HostId⦄ ⦃s' : State⦄ :
    walk.statement id c s = (.ok r, s') → (∃ init condition thenBlock elseBranch,
      c.unit.stmt? id = some (.ifElse init condition thenBlock elseBranch)) → r.isSome
  balances_type (id : NodeId) : w.Balances 0 (walk.type id) (fun _ => 0)
  balances_typeOfName (name : String) (span : Span) :
    w.Balances 0 (Lowering.typeOfName walk name span) (fun _ => 0)
  balances_unbound? (name : String) (span : Span) :
    w.Balances 0 (unboundOperand? walk name span) (fun r => r.elim 0 w.operand)

theorem Walk.Balanced.level_of (w : Watch) (walk : Walk) [h : walk.Balanced w] : w.level := h.level

end GoLowering.Lowering

/-!
## Balances of parts in scopes and functions

What a part is run in is entered before it and left after it. A scope keeps what is hoisted. A
function, a statement with hoisted statements of its own and the package level start with nothing
hoisted and give back what was hoisted before; the books stay balanced if they use up all that is
hoisted in them.
-/

namespace GoLowering.Lowering

/-- Two states with the same nodes, reports and output, and the same notes of what is hoisted. -/
structure State.Alike (s t : State) : Prop where
  tree : s.tree = t.tree
  diagnostics : s.diagnostics = t.diagnostics
  hoistLog : s.hoistLog = t.hoistLog
  output : s.output = t.output
  levelLog : s.levelLog = t.levelLog
  literals : s.literals = t.literals

theorem State.Alike.before {s t o : State} (h : s.Alike t) (ho : s.Before o) : t.Before o :=
  ho.congr h.tree h.diagnostics h.hoistLog

theorem State.Alike.symm {s t : State} (h : s.Alike t) : t.Alike s :=
  ⟨h.tree.symm, h.diagnostics.symm, h.hoistLog.symm, h.output.symm, h.levelLog.symm,
    h.literals.symm⟩

namespace Watch

variable {w : Watch} {since : Moment} {held held' : ℕ∞} {s t : State}

/-- What is hoisted in one state and not in the other is held there. -/
theorem Books.alike (h : w.Books since held s) (hst : s.Alike t)
    (hheld : held + w.entries s.hoisted = held' + w.entries t.hoisted) : w.Books since held' t where
  logged id hid := hst.tree ▸ h.logged id (hst.hoistLog ▸ hid)
  count := by
    have hcount := h.count
    rw [hst.hoistLog, hst.output] at hcount
    rw [hcount, ← add_assoc, hheld, add_assoc]
  level hw := by
    rw [← hst.levelLog, ← hheld]
    exact h.level hw
  literals := hst.literals ▸ h.literals

namespace Balances

variable {α β : Type} {D : ℕ∞} {m : Lower α} {W : α → ℕ∞}
  {enter : State → State} {leave : State → State → State}

/-- A part in a scope. -/
theorem around (h : w.Balances D m W)
    (henter : ∀ s, (enter s).Alike s ∧ (enter s).hoisted = s.hoisted)
    (hleave : ∀ s s₁, (leave s s₁).Alike s₁ ∧ (leave s s₁).hoisted = s₁.hoisted) :
    w.Balances D (within enter leave m) W where
  before _ s _ _ hrun ho := by
    obtain ⟨s₁, hm, rfl⟩ := within_ok.mp hrun
    exact (henter s).1.before (h.before hm ((hleave s s₁).1.before ho))
  settled _ s _ _ hrun ho since held hb := by
    obtain ⟨s₁, hm, rfl⟩ := within_ok.mp hrun
    have hb₁ := hb.alike (henter s).1.symm (by rw [(henter s).2])
    exact (h.settled hm ((hleave s s₁).1.before ho) since held hb₁).alike (hleave s s₁).1.symm
      (by rw [(hleave s s₁).2])

/-- A part that uses up all that it hoists. -/
theorem apart (h : w.Balances D m W)
    (henter : ∀ s, (enter s).Alike s ∧ (enter s).hoisted = [])
    (hleave : ∀ s s₁, (leave s s₁).Alike s₁ ∧ (leave s s₁).hoisted = s.hoisted)
    (hused : ∀ ⦃c s a s₁⦄, m c (enter s) = (.ok a, s₁) → s₁.hoisted = []) :
    w.Balances D (within enter leave m) W where
  before _ s _ _ hrun ho := by
    obtain ⟨s₁, hm, rfl⟩ := within_ok.mp hrun
    exact (henter s).1.before (h.before hm ((hleave s s₁).1.before ho))
  settled _ s _ _ hrun ho since held hb := by
    obtain ⟨s₁, hm, rfl⟩ := within_ok.mp hrun
    have hkept : held + D + w.entries s.hoisted =
        held + w.entries s.hoisted + D + w.entries (enter s).hoisted := by
      rw [(henter s).2, entries_nil]
      abel
    have hb₁ := hb.alike (henter s).1.symm hkept
    refine (h.settled hm ((hleave s s₁).1.before ho) since _ hb₁).alike (hleave s s₁).1.symm ?_
    rw [(hleave s s₁).2, hused hm, entries_nil]
    abel

/-- A change of what the books do not tell about. -/
theorem modifying {f : State → State} (h : ∀ s, (f s).Alike s ∧ (f s).hoisted = s.hoisted) :
    w.Balances 0 (modify f : Lower Unit) (fun _ => 0) where
  before _ s _ _ hrun ho := by
    obtain ⟨-, rfl⟩ := Prod.mk.inj hrun
    exact (h s).1.before ho
  settled _ s _ _ hrun _ _ held hb := by
    obtain ⟨-, rfl⟩ := Prod.mk.inj hrun
    exact hb.alike (h s).1.symm (by rw [(h s).2])

theorem inScope {kind : ScopeKind} (h : w.Balances D m W) :
    w.Balances D (Lowering.inScope kind m) W :=
  h.around (fun _ => ⟨⟨rfl, rfl, rfl, rfl, rfl, rfl⟩, rfl⟩) (fun _ _ => ⟨⟨rfl, rfl, rfl, rfl, rfl, rfl⟩, rfl⟩)

theorem inFrame {name : String} (h : w.Balances D m W) :
    w.Balances D (Lowering.inFrame name m) W :=
  h.around (fun _ => ⟨⟨rfl, rfl, rfl, rfl, rfl, rfl⟩, rfl⟩) (fun _ _ => ⟨⟨rfl, rfl, rfl, rfl, rfl, rfl⟩, rfl⟩)

theorem takeHoisted : w.Balances 0 Lowering.takeHoisted w.entries where
  before _ s _ _ hrun ho := by
    obtain ⟨-, rfl⟩ := Prod.mk.inj hrun
    exact ho.congr rfl rfl rfl
  settled _ s _ _ hrun _ _ held hb := by
    obtain ⟨hids, rfl⟩ := Prod.mk.inj hrun
    obtain rfl := Except.ok.inj hids
    exact hb.alike ⟨rfl, rfl, rfl, rfl, rfl, rfl⟩ (by simp)

/-- A part whose hoisted statements are held apart. -/
theorem hoisting (h : w.Balances D m W) :
    w.Balances D (Lowering.hoisting m) (fun r => w.entries r.1 + W r.2) := by
  refine apart (h.wholly (fun a => takeHoisted.next (fun hoisted => .pure (fun _ => rfl))))
    (fun _ => ⟨⟨rfl, rfl, rfl, rfl, rfl, rfl⟩, rfl⟩) (fun _ _ => ⟨⟨rfl, rfl, rfl, rfl, rfl, rfl⟩, rfl⟩)
    (fun c s r s₁ hrun => ?_)
  obtain ⟨a, s₂, -, hrun⟩ := bind_ok.mp hrun
  obtain ⟨hoisted, s₃, htake, hrun⟩ := bind_ok.mp hrun
  obtain ⟨-, rfl⟩ := pure_ok.mp hrun
  obtain ⟨-, rfl⟩ := Prod.mk.inj htake
  rfl

/-- A part inside of a function. -/
theorem inFunction {kind : ScopeKind} {results : List TypeId} (h : w.Balances D m W)
    (hused : ∀ ⦃c s a s₁⦄, m c s = (.ok a, s₁) → s.hoisted = [] → s.function = some results →
      s₁.hoisted = []) :
    w.Balances D (Lowering.inFunction kind results m) W :=
  h.apart (fun _ => ⟨⟨rfl, rfl, rfl, rfl, rfl, rfl⟩, rfl⟩) (fun _ _ => ⟨⟨rfl, rfl, rfl, rfl, rfl, rfl⟩, rfl⟩)
    (fun _ _ _ _ hrun => hused hrun rfl rfl)

/-- A part that hoists nothing for the function around it is a function by itself. -/
theorem inQuietFunction {kind : ScopeKind} {results : List TypeId} [hm : Quiet recording m]
    (h : w.Balances D m W) : w.Balances D (Lowering.inFunction kind results m) W := by
  refine h.inFunction (fun c s a s₁ hrun hs _ => ?_)
  obtain ⟨pushed, h⟩ := hm.hoists hrun
  rw [h.hoisted, hs, List.append_nil]

/-- Nothing is hoisted in a function that returns no error. -/
theorem inPlainFunction {kind : ScopeKind} {results : List TypeId} [hm : Steady recording m]
    (h : w.Balances D m W) (hresults : results.getLast? ≠ some TypeTable.error) :
    w.Balances D (Lowering.inFunction kind results m) W := by
  refine h.inFunction (fun c s a s₁ hrun hs hfunction => ?_)
  have hnone : ¬ s.ReturnsError := by
    rintro ⟨results', h, hlast⟩
    rw [hfunction] at h
    exact hresults (Option.some.inj h ▸ hlast)
  exact List.sublist_nil.mp (hs ▸ (Steady.records hrun).outside hnone)

/-- A statement is hoisted by the part that has made it. -/
theorem hoistPlaced (kind : HostKind) (span : Span) :
    w.Balances (w.kind kind) (Lowering.place kind span >>= hoist) (fun _ => 0) where
  before _ _ _ _ hrun ho := by
    obtain ⟨id, s₁, hplace, hrun⟩ := bind_ok.mp hrun
    obtain ⟨-, rfl⟩ := Prod.mk.inj hrun
    have hmade := addNode_ok hplace
    have hs : Settles _ _ := Still.settles hplace
    obtain ⟨later, hlater, hlate⟩ := ho.log
    refine ⟨hmade.grows.trans ho.tree, hs.diagnostics.trans ho.diagnostics, id :: later, ?_,
      fun other hother => ?_⟩
    · rw [hlater, ← hs.hoistLog, List.append_assoc]
      rfl
    · rcases List.mem_cons.mp hother with rfl | hother
      · exact hmade.index.ge
      · exact Nat.le_trans hmade.grows.size_le (hlate other hother)
  settled _ _ _ _ hrun ho _ held hb := by
    obtain ⟨id, s₁, hplace, hrun⟩ := bind_ok.mp hrun
    obtain ⟨-, rfl⟩ := Prod.mk.inj hrun
    have hmade := addNode_ok hplace
    have hid : id.index < s₁.tree.size := (made_place hplace).2
    have hb₁ := hb.settles (Still.settles hplace)
    have hbelow : w.below id = w.kind kind :=
      below_eq_kind (by rw [ho.tree.kind_eq hid, hmade.kind])
        (fun he => hb.ne_top (by rw [he, add_top]))
    have hentries : w.entries (s₁.hoisted ++ [id]) =
        w.entries s₁.hoisted + ([id].count w.statement : ℕ∞) + w.kind kind := by
      rw [← hbelow]
      simp only [entries_append, entries_cons, entries_nil, entry, HostTree.entryOccurrences,
        List.count_singleton, below, beq_iff_eq, Nat.cast_ite, Nat.cast_one, Nat.cast_zero]
      abel
    refine ⟨fun other hother => ?_, ?_, fun hw => ?_, hb₁.literals⟩
    · rcases List.mem_append.mp hother with hother | hother
      · exact hb₁.logged other hother
      · exact List.mem_singleton.mp hother ▸ hid
    · change ((s₁.hoistLog ++ [id]).count w.statement : ℕ∞) =
        held + 0 + (w.entries (s₁.hoisted ++ [id]) + w.values s₁.output)
      rw [List.count_append, Nat.cast_add, hb₁.count, hentries]
      abel
    · change ((s₁.levelLog ++ [id]).count w.statement + _ : ℕ∞) =
        held + 0 + w.entries (s₁.hoisted ++ [id]) + _
      rw [List.count_append, Nat.cast_add, add_right_comm, hb₁.level hw, hentries]
      abel

end Balances

end Watch

end GoLowering.Lowering
