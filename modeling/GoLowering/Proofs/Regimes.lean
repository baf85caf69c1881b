import GoLowering.Lowering.ErrorWraps
import GoLowering.Lowering.ValueSpecs
import GoLowering.Proofs.Runs

/-!
# Regimes

Something that is asked of every part of a lowering, such as that it gives back what it borrows,
is shown for all of them at once: a `Regime` says what is asked of parts at each level of care,
and a `Discipline` is a regime that the steps which parts are made of keep to: the steps that
neither hoist nor define anything (`Footing`), the hoisting of a call whose error is returned, and
the declaration of a type inside of a function. The parts of the walk then keep to every
discipline, so each of them is gone through only once.

* `still` parts make nodes and types, bind names and warn, and nothing else.
* `quiet` parts hoist nothing, and what is hoisted around them stays.
* `additive` parts may hoist more, after what has been hoisted before.
* `steady` parts may also use up what has been hoisted.

What the parts of the walk look at directly leaves out what belongs to the unit as a whole: its
top-level statements (`Context.visible`), and what has become of the declarations so far
(`State.visible`). Only package-level names lead there.
-/

namespace GoLowering.Lowering

open Surface

/-- How much a part of a lowering may do to what is around it. -/
inductive Care where
  | still | quiet | additive | steady
  deriving DecidableEq, Repr

/-- What is asked of the parts of a lowering at each level of care. -/
structure Regime where
  Holds : Care → {α : Type} → Lower α → Prop

/-- A part keeps to a regime. -/
class Keeps (L : Regime) (care : Care) {α : Type} (m : Lower α) : Prop where
  holds : L.Holds care m

abbrev Still (L : Regime) {α : Type} (m : Lower α) : Prop := Keeps L .still m

abbrev Quiet (L : Regime) {α : Type} (m : Lower α) : Prop := Keeps L .quiet m

abbrev Additive (L : Regime) {α : Type} (m : Lower α) : Prop := Keeps L .additive m

abbrev Steady (L : Regime) {α : Type} (m : Lower α) : Prop := Keeps L .steady m

/-- The context less the list of the top-level statements. -/
def Context.visible (c : Context) : Context := { c with unit := { c.unit with roots := [] } }

/-- The state less what is known about the declarations of the unit. -/
def State.visible (s : State) : State :=
  { s with
    outline := .empty
    imports := []
    globals := []
    progress := []
    explicitEntry := false
    diagnostics := []
    halted := false }

/-- A regime that the steps of a lowering keep to which hoist nothing and define no types. -/
class Footing (L : Regime) : Prop where
  pure {care : Care} {α : Type} (a : α) : L.Holds care (pure a : Lower α)
  throw {care : Care} {α : Type} (failure : Failure) : L.Holds care (throw failure : Lower α)
  bind {care : Care} {α β : Type} {m : Lower α} {f : α → Lower β} (hm : L.Holds care m)
    (hf : ∀ a, L.Holds care (f a)) : L.Holds care (m >>= f)
  read {care : Care} {α : Type} {f : Context → Lower α} (blind : ∀ c, f c.visible = f c)
    (hf : ∀ c, L.Holds care (f c)) : L.Holds care (read >>= f)
  get {care : Care} {α : Type} {f : State → Lower α} (blind : ∀ s, f s.visible = f s)
    (hf : ∀ s, L.Holds care (f s)) : L.Holds care (get >>= f)
  quiet {α : Type} {m : Lower α} (hm : L.Holds .still m) : L.Holds .quiet m
  additive {α : Type} {m : Lower α} (hm : L.Holds .quiet m) : L.Holds .additive m
  steady {α : Type} {m : Lower α} (hm : L.Holds .additive m) : L.Holds .steady m
  addNode (kind : HostKind) (origin : Option Span) : L.Holds .still (addNode kind origin)
  onTypes {α : Type} {f : TypeTable → α × TypeTable} (h : TypeTable.Adds f) :
    L.Holds .still (onTypes f)
  freshName : L.Holds .still freshName
  warn (problem : Problem) (span : Span) : L.Holds .still (warn problem span)
  bindName (name : String) (symbol : Symbol) : L.Holds .still (Lowering.bind name symbol)
  bindNew (span : Span) (name : String) (symbol : Symbol) :
    L.Holds .still (bindNew span name symbol)
  packagePath (name : String) (span : Span) : L.Holds .still (packagePath name span)
  inScope {care : Care} {α : Type} (kind : ScopeKind) {part : Lower α} (h : L.Holds care part) :
    L.Holds care (inScope kind part)
  inFunction {α : Type} (kind : ScopeKind) (results : List TypeId) {part : Lower α}
    (h : L.Holds .steady part) : L.Holds .quiet (inFunction kind results part)
  inFrame {α : Type} (name : String) {part : Lower α} (h : L.Holds .quiet part) :
    L.Holds .quiet (inFrame name part)
  atPackageLevel {α : Type} {part : Lower α} (h : L.Holds .steady part) :
    L.Holds .quiet (atPackageLevel part)
  hoisting {α : Type} {part : Lower α} (h : L.Holds .steady part) : L.Holds .quiet (hoisting part)
  takeHoisted : L.Holds .steady takeHoisted
  noteLiteral (id : HostId) (statements : List HostId) :
    L.Holds .quiet (noteLiteral id statements)

/-- A regime that all steps of a lowering keep to. -/
class Discipline (L : Regime) : Prop extends Footing L where
  propagate (call : HostId) (values : List TypeId) (text : String) (span : Span) :
    L.Holds .additive (wrapPropagate call values text span)
  localType {walk : Walk} (type : NodeId) (h : L.Holds .additive (walk.type type))
    (name : String) (doc : Option String) (span : Span) :
    L.Holds .additive (lowerLocalType walk name type false doc span)

/-- A regime that is asked of a part for each context and each state. -/
class Pointwise (L : Regime) : Prop where
  reading {care : Care} {α : Type} {f : Context → Lower α} (hf : ∀ c, L.Holds care (f c)) :
    L.Holds care (read >>= f)
  getting {care : Care} {α : Type} {f : State → Lower α} (hf : ∀ s, L.Holds care (f s)) :
    L.Holds care (get >>= f)

/-- What is asked of a part may look at all of the context. -/
theorem keeps_reading {L : Regime} [Pointwise L] {care : Care} {α : Type}
    {f : Context → Lower α} (hf : ∀ c, Keeps L care (f c)) : Keeps L care (read >>= f) :=
  ⟨Pointwise.reading (fun c => (hf c).holds)⟩

/-- What is asked of a part may look at all of the state. -/
theorem keeps_getting {L : Regime} [Pointwise L] {care : Care} {α : Type}
    {f : State → Lower α} (hf : ∀ s, Keeps L care (f s)) : Keeps L care (get >>= f) :=
  ⟨Pointwise.getting (fun s => (hf s).holds)⟩

variable {L : Regime} [Footing L] {care : Care} {α β : Type}

instance (priority := low) quiet_of_still {m : Lower α} [h : Still L m] : Quiet L m :=
  ⟨Footing.quiet h.holds⟩

instance (priority := low) additive_of_quiet {m : Lower α} [h : Quiet L m] : Additive L m :=
  ⟨Footing.additive h.holds⟩

instance (priority := low) steady_of_additive {m : Lower α} [h : Additive L m] : Steady L m :=
  ⟨Footing.steady h.holds⟩

/-! ## Sequences -/

theorem Keeps.bind {m : Lower α} {f : α → Lower β} (hm : Keeps L care m)
    (hf : ∀ a, Keeps L care (f a)) : Keeps L care (m >>= f) :=
  ⟨Footing.bind hm.holds (fun a => (hf a).holds)⟩

/-- What follows a part that keeps to the regime has to keep to it too. -/
theorem Keeps.before {m : Lower α} [hm : Keeps L care m] {f : α → Lower β}
    (hf : ∀ a, Keeps L care (f a)) : Keeps L care (m >>= f) :=
  hm.bind hf

theorem Keeps.read {f : Context → Lower α} (blind : ∀ c, f c.visible = f c)
    (hf : ∀ c, Keeps L care (f c)) : Keeps L care (read >>= f) :=
  ⟨Footing.read blind (fun c => (hf c).holds)⟩

theorem Keeps.get {f : State → Lower α} (blind : ∀ s, f s.visible = f s)
    (hf : ∀ s, Keeps L care (f s)) : Keeps L care (get >>= f) :=
  ⟨Footing.get blind (fun s => (hf s).holds)⟩

instance keeps_bind {m : Lower α} {f : α → Lower β} [hm : Keeps L care m]
    [hf : ∀ a, Keeps L care (f a)] : Keeps L care (m >>= f) :=
  hm.bind hf

instance keeps_pure (a : α) : Keeps L care (pure a : Lower α) := ⟨Footing.pure a⟩

instance keeps_throw (failure : Failure) : Keeps L care (throw failure : Lower α) :=
  ⟨Footing.throw failure⟩

instance keeps_fail (problem : Problem) (span : Span) :
    Keeps L care (fail problem span : Lower α) :=
  keeps_throw _

instance keeps_map {m : Lower α} (f : α → β) [hm : Keeps L care m] : Keeps L care (f <$> m) := by
  rw [map_eq_pure_bind]
  infer_instance

instance keeps_ite {p : Prop} [Decidable p] {m n : Lower α} [hm : Keeps L care m]
    [hn : Keeps L care n] : Keeps L care (if p then m else n) := by
  split
  · exact hm
  · exact hn

instance keeps_mapM {f : α → Lower β} {xs : List α} [h : ∀ a, Keeps L care (f a)] :
    Keeps L care (xs.mapM f) := by
  induction xs with
  | nil => exact keeps_pure []
  | cons a as ih =>
    rw [List.mapM_cons]
    infer_instance

instance keeps_optionMapM {f : α → Lower β} {a : Option α} [h : ∀ a, Keeps L care (f a)] :
    Keeps L care (a.mapM f) := by
  cases a with
  | none => exact keeps_pure none
  | some a => exact keeps_map some

instance keeps_forM {f : α → Lower PUnit} {xs : List α} [h : ∀ a, Keeps L care (f a)] :
    Keeps L care (xs.forM f) := by
  induction xs with
  | nil => exact keeps_pure _
  | cons a as ih => exact keeps_bind

instance keeps_allM {f : α → Lower Bool} {xs : List α} [h : ∀ a, Keeps L care (f a)] :
    Keeps L care (xs.allM f) := by
  induction xs with
  | nil => exact keeps_pure true
  | cons a as ih =>
    refine Keeps.before (fun b => ?_)
    cases b with
    | true => exact ih
    | false => exact keeps_pure false

/-! ## Steps -/

instance still_addNode (kind : HostKind) (origin : Option Span) : Still L (addNode kind origin) :=
  ⟨Footing.addNode kind origin⟩

instance still_place (kind : HostKind) (span : Span) : Still L (place kind span) :=
  still_addNode _ _

instance still_scaffold (kind : HostKind) : Still L (scaffold kind) := still_addNode _ _

instance still_onTypes {f : TypeTable → α × TypeTable} [h : TypeTable.Adds f] :
    Still L (onTypes f) := ⟨Footing.onTypes h⟩

instance still_freshName : Still L freshName := ⟨Footing.freshName⟩

instance still_warn (problem : Problem) (span : Span) : Still L (warn problem span) :=
  ⟨Footing.warn problem span⟩

instance still_bindName (name : String) (symbol : Symbol) : Still L (bind name symbol) :=
  ⟨Footing.bindName name symbol⟩

instance still_bindNew (span : Span) (name : String) (symbol : Symbol) :
    Still L (bindNew span name symbol) :=
  ⟨Footing.bindNew span name symbol⟩

instance still_packagePath (name : String) (span : Span) : Still L (packagePath name span) :=
  ⟨Footing.packagePath name span⟩

instance keeps_inScope {part : Lower α} (kind : ScopeKind) [h : Keeps L care part] :
    Keeps L care (inScope kind part) := ⟨Footing.inScope kind h.holds⟩

instance quiet_inFunction {part : Lower α} (kind : ScopeKind) (results : List TypeId)
    [h : Steady L part] : Quiet L (inFunction kind results part) :=
  ⟨Footing.inFunction kind results h.holds⟩

instance quiet_inFrame {part : Lower α} (name : String) [h : Quiet L part] :
    Quiet L (inFrame name part) :=
  ⟨Footing.inFrame name h.holds⟩

instance quiet_atPackageLevel {part : Lower α} [h : Steady L part] :
    Quiet L (atPackageLevel part) :=
  ⟨Footing.atPackageLevel h.holds⟩

instance quiet_hoisting {part : Lower α} [h : Steady L part] : Quiet L (hoisting part) :=
  ⟨Footing.hoisting h.holds⟩

instance steady_takeHoisted : Steady L takeHoisted := ⟨Footing.takeHoisted⟩

instance quiet_noteLiteral (id : HostId) (statements : List HostId) :
    Quiet L (noteLiteral id statements) :=
  ⟨Footing.noteLiteral id statements⟩

end GoLowering.Lowering
