import GoLowering.Proofs.Filling
import GoLowering.Proofs.TypeIdentity
import GoLowering.Proofs.Outcomes
import GoLowering.Proofs.WrittenNumbers

/-!
# Big numbers in the output

An unbounded constant of a registered type is written as a call of an initializer on a big number,
and the big number as a call that makes it from words (`HostTree.made?`) or as one that reads it
from its digits (`HostTree.parsed?`). `materialize_unbounded` says which initializer is called and
that its argument is the number of the constant, on both sides of what fits a word.
-/

namespace GoLowering

/-! ## Calls that build a number -/

/-- A call that builds a big number from texts. -/
inductive BigCall where
  /-- `big.NewInt(text)` or `big.NewRat(text, text)` -/
  | make (function : String) (texts : List String)
  /-- `func() *big.T { v, _ := new(big.T).SetString(text); return v }()` -/
  | read (type : String) (texts : List String)
  deriving DecidableEq, Repr

namespace BigCall

/-- An integer that fits a word of the host. -/
def word? (text : String) : Option Int :=
  (Literal.hostInteger? text).filter Lowering.fitsInt64

/-- The number that a call builds. -/
def value? : BigCall → Option Constant
  | make "NewInt" [text] => (word? text).map .int
  | make "NewRat" [num, den] => do
    let n ← word? num
    let d ← word? den
    if d == 0 then none else return .rat (Rat.divInt n d)
  | read "Int" [text, "10"] => ((Literal.quoted? text).bind Literal.signed?).map .int
  | read "Rat" [text] => ((Literal.quoted? text).bind Literal.fraction?).map .rat
  | _ => none

/-- The call for a number: from words if it fits them, and from its digits otherwise. -/
def of? : Constant → Option BigCall
  | .int n =>
    some (if Lowering.fitsInt64 n then make "NewInt" [toString n]
      else read "Int" ["\"" ++ toString n ++ "\"", "10"])
  | .rat r =>
    some (if Lowering.fitsInt64 r.num && Lowering.fitsInt64 r.den then
        make "NewRat" [toString r.num, toString r.den]
      else read "Rat" ["\"" ++ Lowering.fractionText r ++ "\""])
  | _ => none

theorem word?_toString {n : Int} (h : Lowering.fitsInt64 n = true) :
    word? (toString n) = some n := by
  rw [word?, Literal.hostInteger?_toString]
  simp [h]

theorem word?_toString_nat {n : Nat} (h : Lowering.fitsInt64 n = true) :
    word? (toString n) = some (n : Int) := by
  have htext : toString n = toString (n : Int) := by simp [Int.repr_eq_if]
  rw [htext]
  exact word?_toString h

/-- The call for a number builds that number. -/
theorem value?_of? {value : Constant} {call : BigCall} (h : of? value = some call) :
    call.value? = some value := by
  cases value with
  | int n =>
    obtain rfl := Option.some.inj h
    split
    · rename_i hfits
      simp only [value?, word?_toString hfits, Option.map_some]
    · have hplain := Literal.isPlain_toString n
      simp only [value?, Literal.quoted?_text hplain, Option.bind_some, Literal.signed?_toString,
        Option.map_some]
  | rat r =>
    obtain rfl := Option.some.inj h
    split
    · rename_i hfits
      obtain ⟨hnum, hden⟩ := Bool.and_eq_true_iff.mp hfits
      have hne : ((r.den : Int) == 0) = false := by
        have := r.den_nz
        exact beq_eq_false_iff_ne.mpr (by omega)
      have hr : Rat.divInt r.num r.den = r := Rat.num_divInt_den r
      simp only [value?, word?_toString hnum, word?_toString_nat hden, Option.bind_eq_bind,
        Option.bind_some, hne, hr]
      rfl
    · have hplain := Literal.isPlain_fractionText r
      simp only [value?, Literal.quoted?_text hplain, Option.bind_some,
        Literal.fraction?_fractionText, Option.map_some]
  | bool | string | float | complex => cases h

end BigCall

namespace HostTree

/-- The texts of literals. -/
def texts? (t : HostTree) (ids : List HostId) : Option (List String) :=
  (ids.map t.kind).mapM (fun
    | .literal text => some text
    | _ => none)

theorem texts?_of_kinds {t : HostTree} {ids : List HostId} {texts : List String}
    (h : ids.map t.kind = texts.map .literal) : t.texts? ids = some texts := by
  rw [texts?, h, List.mapM_map]
  exact (List.mapM_pure (m := Option) (f := id)).trans (congrArg some (List.map_id texts))

/-- A call of a function of the package of big numbers. -/
def made? (t : HostTree) (id : HostId) : Option BigCall := do
  let .call callee args false := t.kind id | none
  let .qualified package name := t.kind callee | none
  if package = bigPath then return .make name (← t.texts? args) else none

/-- The type of `new(big.T).SetString(text)`, and the call that reads the text. -/
def read? (types : TypeTable) (t : HostTree) (id : HostId) : Option (TypeId × BigCall) := do
  let .call method args false := t.kind id | none
  let .selector fresh "SetString" := t.kind method | none
  let .call new [argument] false := t.kind fresh | none
  let .identifier "new" := t.kind new | none
  let .typeExpression type := t.kind argument | none
  let .named (some package) name _ := types.get type | none
  if package = bigPath then return (type, .read name (← t.texts? args)) else none

/-- A function that reads a text and gives back what it has read. -/
def parsed? (types : TypeTable) (t : HostTree) (id : HostId) : Option BigCall := do
  let .call function [] false := t.kind id | none
  let .functionLiteral ⟨[], [⟨none, result⟩], false⟩ body := t.kind function | none
  let .block [define, ret] := t.kind body | none
  let .assign [value, blank] .define [parse] := t.kind define | none
  let .ret [returned] := t.kind ret | none
  let (type, call) ← t.read? types parse
  if t.kind value = .identifier "v" ∧ t.kind blank = .identifier Names.blank ∧
      t.kind returned = .identifier "v" ∧ types.get result = .pointer type then return call
  else none

/-- The call of either kind that stands at a node. -/
def bigCall? (types : TypeTable) (t : HostTree) (id : HostId) : Option BigCall :=
  (t.made? id).or (t.parsed? types id)

end HostTree

namespace Lowering

variable {α β : Type}

/-- A part that always runs to its end and only adds to the tree. What is said of its result and of
a tree holds of all trees to come. -/
def Builds (m : Lower α) (P : HostTree → α → Prop) : Prop :=
  ∀ c s, ∃ a tree, m c s = (.ok a, { s with tree }) ∧ s.tree.Grows tree ∧
    ∀ later, tree.Grows later → P later a

namespace Builds

variable {m : Lower α} {f : α → Lower β} {P : HostTree → α → Prop} {Q : HostTree → β → Prop}

theorem pure {a : α} (h : ∀ later, P later a) : Builds (pure a : Lower α) P :=
  fun _ s => ⟨a, s.tree, rfl, .refl _, fun later _ => h later⟩

theorem node (kind : HostKind) (origin : Option Span) :
    Builds (addNode kind origin) (fun later id => later.kind id = kind) := by
  intro c s
  refine ⟨_, _, run_addNode kind origin c s, HostTree.grows_add .., fun later hlater => ?_⟩
  have hget := hlater.get? (HostTree.get?_add s.tree kind origin)
  simp only [HostTree.kind, hget]

theorem bind (hm : Builds m P) (hf : ∀ a, Builds (f a) (fun later b => P later a → Q later b)) :
    Builds (m >>= f) Q := by
  intro c s
  obtain ⟨a, t₁, ha, hg₁, hp⟩ := hm c s
  obtain ⟨b, t₂, hb, hg₂, hq⟩ := hf a c { s with tree := t₁ }
  refine ⟨b, t₂, ?_, hg₁.trans hg₂, fun later hlater => ?_⟩
  · rw [run_bind, ha]
    exact hb
  · exact hq later hlater (hp later (hg₂.trans hlater))

theorem mono {P' : HostTree → α → Prop} (hm : Builds m P) (h : ∀ later a, P later a → P' later a) :
    Builds m P' := by
  intro c s
  obtain ⟨a, tree, ha, hg, hp⟩ := hm c s
  exact ⟨a, tree, ha, hg, fun later hlater => h later a (hp later hlater)⟩

theorem literals (texts : List String) :
    Builds (texts.mapM literalNode) (fun later ids => ids.map later.kind = texts.map .literal) := by
  induction texts with
  | nil => exact .pure (fun _ => rfl)
  | cons text texts ih =>
    rw [List.mapM_cons]
    refine (node _ _).bind (fun id => ih.bind (fun ids => .pure (fun later hids hid => ?_)))
    rw [List.map_cons, List.map_cons, hid, hids]

/-- A run of such a part. -/
theorem exists_run (hm : Builds m P) (c : Context) (s : State) :
    ∃ a s', m c s = (.ok a, s') ∧ s'.types = s.types ∧ s.tree.Grows s'.tree ∧
      ∀ later, s'.tree.Grows later → P later a := by
  obtain ⟨a, tree, ha, hg, hp⟩ := hm c s
  exact ⟨a, _, ha, rfl, hg, hp⟩

end Builds

/-! ## Calls that build a number -/

theorem run_onTypes (f : TypeTable → α × TypeTable) (g : α → Lower β) (c : Context) (s : State) :
    (onTypes f >>= g) c s = g (f s.types).1 c { s with types := (f s.types).2 } := rfl

theorem get_declareNamed (t : TypeTable) (package : Option String) (name : String) :
    ∃ definition, (t.declareNamed package name).1.index < (t.declareNamed package name).2.size ∧
      (t.declareNamed package name).2.get (t.declareNamed package name).1 =
        .named package name definition := by
  have hlookup := lookupNamed?_declareNamed t package name
  obtain ⟨hlt, hnamed, -⟩ := TypeTable.lookupNamed?_eq_some.mp hlookup
  obtain ⟨definition, hdefinition⟩ := TypeTable.isNamedAs_iff.mp hnamed
  exact ⟨definition, hlt, hdefinition⟩

/-- A number is read from its digits by the type with the name. -/
theorem bigFromText_reads (name text : String) (base : Option String) (c : Context) (s : State) :
    ∃ id s', bigFromText name text base c s = (.ok id, s') ∧ s.tree.Grows s'.tree ∧
      ∀ later, s'.tree.Grows later →
        later.bigCall? s'.types id = some (.read name (("\"" ++ text ++ "\"") :: base.toList)) := by
  obtain ⟨definition, hlt, htype⟩ := get_declareNamed s.types (some bigPath) name
  rcases hdeclared : s.types.declareNamed (some bigPath) name with ⟨type, types₁⟩
  rw [hdeclared] at hlt htype
  rcases hinterned : types₁.pointer type with ⟨pointer, types₂⟩
  have hpointer : types₂.get pointer = .pointer type := by
    have hget := (types₁.get_intern (.pointer type)).2
    rwa [show types₁.intern (.pointer type) = _ from hinterned] at hget
  have htype : types₂.get type = .named (some bigPath) name definition := by
    have hbegins := types₁.begins_intern (.pointer type)
    rw [show types₁.intern (.pointer type) = _ from hinterned] at hbegins
    exact (hbegins.get_eq hlt).trans htype
  suffices h : ∃ id s', bigFromText name text base c s = (.ok id, s') ∧ s'.types = types₂ ∧
      s.tree.Grows s'.tree ∧ ∀ later, s'.tree.Grows later →
        later.bigCall? types₂ id = some (.read name (("\"" ++ text ++ "\"") :: base.toList)) by
    obtain ⟨id, s', hrun, htypes, hgrows, hreads⟩ := h
    exact ⟨id, s', hrun, hgrows, htypes ▸ hreads⟩
  unfold bigFromText
  simp only [run_onTypes, hdeclared, hinterned]
  refine Builds.exists_run ?_ c { s with types := types₂ }
  refine (Builds.node _ _).bind (fun new => ?_)
  refine (Builds.node _ _).bind (fun argument => ?_)
  refine (Builds.node _ _).bind (fun fresh => ?_)
  refine (Builds.node _ _).bind (fun setString => ?_)
  refine (Builds.node _ _).bind (fun digits => ?_)
  refine (Builds.literals _).bind (fun arguments => ?_)
  refine (Builds.node _ _).bind (fun parse => ?_)
  refine (Builds.node _ _).bind (fun value => ?_)
  refine (Builds.node _ _).bind (fun blank => ?_)
  refine (Builds.node _ _).bind (fun define => ?_)
  refine (Builds.node _ _).bind (fun returned => ?_)
  refine (Builds.node _ _).bind (fun ret => ?_)
  refine (Builds.node _ _).bind (fun body => ?_)
  refine (Builds.node _ _).bind (fun literal => ?_)
  refine (Builds.node _ _).mono (fun later id hcall hliteral hbody hret hreturned hdefine hblank
    hvalue hparse hbase hdigits hsetString hfresh hargument hnew => ?_)
  have htexts : later.texts? (digits :: arguments) =
      some (("\"" ++ text ++ "\"") :: base.toList) :=
    HostTree.texts?_of_kinds (by rw [List.map_cons, List.map_cons, hdigits, hbase])
  have hread : later.read? types₂ parse =
      some (type, .read name (("\"" ++ text ++ "\"") :: base.toList)) := by
    simp [HostTree.read?, hparse, hsetString, hfresh, hnew, hargument, htype, htexts]
  have hmade : later.made? id = none := by
    simp [HostTree.made?, hcall, hliteral]
  have hparsed : later.parsed? types₂ id =
      some (.read name (("\"" ++ text ++ "\"") :: base.toList)) := by
    simp [HostTree.parsed?, hcall, hliteral, hbody, hret, hreturned, hdefine, hblank, hvalue,
      hread, hpointer]
  rw [HostTree.bigCall?, hmade, Option.none_or, hparsed]

/-- A part that gives the call for a number, in its state and in all states to come. -/
def BuildsNumber (m : Lower HostId) (c : Context) (s : State) (value : Constant) : Prop :=
  ∃ id s', m c s = (.ok id, s') ∧ s.tree.Grows s'.tree ∧
    ∀ later, s'.tree.Grows later → later.bigCall? s'.types id = BigCall.of? value

theorem bigFromText_builds {name text : String} {base : Option String} {value : Constant}
    (hvalue : BigCall.of? value = some (.read name (("\"" ++ text ++ "\"") :: base.toList)))
    (c : Context) (s : State) : BuildsNumber (bigFromText name text base) c s value := by
  rw [BuildsNumber, hvalue]
  exact bigFromText_reads name text base c s

theorem builds_made {m : Lower HostId} {value : Constant}
    (h : Builds m (fun later id => later.made? id = BigCall.of? value))
    (hvalue : (BigCall.of? value).isSome = true) (c : Context) (s : State) :
    BuildsNumber m c s value := by
  obtain ⟨id, s', hrun, -, hgrows, hmade⟩ := h.exists_run c s
  refine ⟨id, s', hrun, hgrows, fun later hlater => ?_⟩
  obtain ⟨call, hcall⟩ := Option.isSome_iff_exists.mp hvalue
  rw [HostTree.bigCall?, hmade later hlater, hcall]
  rfl

theorem bigInteger_builds (n : Int) (c : Context) (s : State) :
    BuildsNumber (bigInteger n) c s (.int n) := by
  unfold bigInteger
  split
  · rename_i hfits
    refine builds_made ?_ rfl c s
    refine (Builds.node _ _).bind (fun newInt => ?_)
    refine (Builds.node _ _).bind (fun literal => ?_)
    refine (Builds.node _ _).mono (fun later id hcall hliteral hnewInt => ?_)
    have htexts : later.texts? [literal] = some [toString n] :=
      HostTree.texts?_of_kinds (by rw [List.map_singleton, hliteral, List.map_singleton])
    simp [HostTree.made?, hcall, hnewInt, htexts, BigCall.of?, hfits]
  · rename_i hwide
    exact bigFromText_builds (by simp [BigCall.of?, hwide]) c s

theorem bigRational_builds (r : Rat) (c : Context) (s : State) :
    BuildsNumber (bigRational r) c s (.rat r) := by
  unfold bigRational
  split
  · rename_i hfits
    refine builds_made ?_ rfl c s
    refine (Builds.node _ _).bind (fun newRat => ?_)
    refine (Builds.node _ _).bind (fun num => ?_)
    refine (Builds.node _ _).bind (fun den => ?_)
    refine (Builds.node _ _).mono (fun later id hcall hden hnum hnewRat => ?_)
    have htexts : later.texts? [num, den] = some [toString r.num, toString r.den] :=
      HostTree.texts?_of_kinds (by simp only [List.map_cons, hnum, hden, List.map_nil])
    simp only [BigCall.of?, if_pos hfits]
    simp [HostTree.made?, hcall, hnewRat, htexts]
  · rename_i hwide
    exact bigFromText_builds (by simp only [BigCall.of?, if_neg hwide]; rfl) c s

end Lowering

/-! ## Initializers -/

/-- The initializer that builds a value of the type from a constant. Words are left to the
initializer for `int` unless the constant is unbounded. -/
def RegisteredType.initializer? (entry : RegisteredType) (unbounded : Bool) :
    Constant → Option String
  | .int n =>
    (if unbounded || !Lowering.fitsInt64 n then none else entry.initInt).or entry.initBig
  | .rat _ => entry.initRat
  | _ => none

/-- A node that calls a function of a package on one argument. -/
def HostTree.CallsOn (t : HostTree) (id : HostId) (package function : String) (argument : HostId) :
    Prop :=
  ∃ callee, t.kind id = .call callee [argument] false ∧
    t.kind callee = .qualified package function

/-- An untyped type of unbounded constants. -/
def TypeTable.IsUnbounded (t : TypeTable) (id : TypeId) : Prop :=
  ∃ kind, t.get id = .basic kind ∧ kind.isUntypedBig

namespace Lowering

theorem initializerCall_builds (package function : String) (argument : HostId) (span : Span) :
    Builds (initializerCall package function argument span)
      (fun later id => later.CallsOn id package function argument) := by
  refine (Builds.node _ _).bind (fun callee => ?_)
  exact (Builds.node _ _).mono (fun later id hcall hcallee => ⟨callee, hcall, hcallee⟩)

variable {c : Context} {s : State} {operand : Operand} {target : TypeId} {entry : RegisteredType}

theorem run_isUntypedBig_bind {α : Type} (type : TypeId) (f : Bool → Lower α) :
    (isUntypedBig type >>= f) c s = f (s.types.isBig type) c s := by
  rw [run_bind, run_isUntypedBig]

/-- An initializer that is called on the number of a constant, or on the constant itself. -/
def Initializes (c : Context) (s : State) (operand : Operand) (target : TypeId)
    (package function : String) (value : Constant) : Prop :=
  ∃ id s' argument, materialize operand target c s = (.ok id, s') ∧
    s'.tree.CallsOn id package function argument ∧
    (s'.tree.bigCall? s'.types argument = BigCall.of? value ∨
      s.types.isBig operand.type = false ∧ argument = operand.id)

theorem initializes_of_builds {m : Lower HostId} {value : Constant} {package function : String}
    (hm : BuildsNumber m c s value)
    (hrun : materialize operand target c s =
      (m >>= fun number => initializerCall package function number operand.span) c s) :
    Initializes c s operand target package function value := by
  obtain ⟨number, s₁, hnumber, -, hcall⟩ := hm
  obtain ⟨id, s', hinit, htypes, hgrows, hcalls⟩ :=
    (initializerCall_builds package function number operand.span).exists_run c s₁
  refine ⟨id, s', number, ?_, hcalls _ (.refl _), .inl ?_⟩
  · rw [hrun, run_bind, hnumber]
    exact hinit
  · rw [htypes]
    exact hcall _ hgrows

/-- An initializer for a constant is called. -/
theorem materialize_initializes {value : Constant} {function : String}
    (hentry : c.registry.get? target = some entry) (hvalue : operand.constant = some value)
    (hfunction : entry.initializer? (s.types.isBig operand.type) value = some function) :
    Initializes c s operand target entry.package function value := by
  cases value with
  | int n =>
    simp only [RegisteredType.initializer?] at hfunction
    rcases hdirect : (if s.types.isBig operand.type || !fitsInt64 n then none else entry.initInt)
      with _ | direct
    · rw [hdirect, Option.none_or] at hfunction
      refine initializes_of_builds (bigInteger_builds n c s) ?_
      unfold materialize
      simp only [run_read, hentry, hvalue, run_isUntypedBig_bind, hdirect, hfunction]
    · rw [hdirect] at hfunction
      obtain rfl : direct = function := Option.some.inj hfunction
      have hsmall : s.types.isBig operand.type = false := by
        by_contra hbig
        rw [Bool.not_eq_false] at hbig
        simp [hbig] at hdirect
      obtain ⟨id, s', hinit, -, -, hcalls⟩ :=
        (initializerCall_builds entry.package direct operand.id operand.span).exists_run c s
      refine ⟨id, s', operand.id, ?_, hcalls _ (.refl _), .inr ⟨hsmall, rfl⟩⟩
      unfold materialize
      simp only [run_read, hentry, hvalue, run_isUntypedBig_bind, hdirect]
      exact hinit
  | rat r =>
    refine initializes_of_builds (bigRational_builds r c s) ?_
    have hrat : entry.initRat = some function := hfunction
    unfold materialize
    simp only [run_read, hentry, hvalue, hrat]
  | bool | string | float | complex => cases hfunction

/-- Without an initializer for the constant there is no value of the type. -/
theorem materialize_mismatch
    (h : ∀ entry value, c.registry.get? target = some entry → operand.constant = some value →
      entry.initializer? (s.types.isBig operand.type) value = none) :
    materialize operand target c s = (.error (.found
      (.typeMismatch (s.types.format target) (s.types.format operand.type)) operand.span), s) := by
  unfold materialize
  rw [run_read]
  cases hentry : c.registry.get? target with
  | none => rfl
  | some entry =>
    cases hvalue : operand.constant with
    | none => rfl
    | some value =>
      have hnone := h entry value hentry hvalue
      cases value with
      | int n =>
        simp only [RegisteredType.initializer?, Option.or_eq_none_iff] at hnone
        simp only [run_isUntypedBig_bind, hnone.1, hnone.2]
        rfl
      | rat r =>
        have hrat : entry.initRat = none := hnone
        simp only [hrat]
        rfl
      | bool | string | float | complex => rfl

/-- `materialize` runs to its end just in case the target has an initializer for the constant. -/
theorem materialize_ok_iff : (∃ id s', materialize operand target c s = (.ok id, s')) ↔
    ∃ entry value function, c.registry.get? target = some entry ∧
      operand.constant = some value ∧
      entry.initializer? (s.types.isBig operand.type) value = some function := by
  constructor
  · intro hok
    by_contra hnone
    have hfails := @materialize_mismatch c s operand target (by
      intro entry value hentry hvalue
      cases hfunction : entry.initializer? (s.types.isBig operand.type) value with
      | none => rfl
      | some function => exact absurd ⟨entry, value, function, hentry, hvalue, hfunction⟩ hnone)
    obtain ⟨id, s', hrun⟩ := hok
    rw [hfails] at hrun
    cases hrun
  · rintro ⟨entry, value, function, hentry, hvalue, hfunction⟩
    obtain ⟨id, s', argument, hrun, -⟩ := materialize_initializes hentry hvalue hfunction
    exact ⟨id, s', hrun⟩

/-- An unbounded constant becomes a value of a registered type if the type has an initializer for
numbers of its shape: the initializer is called on a call that builds the number of the constant,
from words if they hold it and from its digits otherwise. Without such an initializer, and only
then, it is a mismatch. -/
theorem materialize_unbounded {value : Constant} (htype : s.types.IsUnbounded operand.type)
    (hentry : c.registry.get? target = some entry) (hvalue : operand.constant = some value) :
    (∀ id s', materialize operand target c s = (.ok id, s') →
      ∃ function argument call, entry.initializer? true value = some function ∧
        s'.tree.CallsOn id entry.package function argument ∧
        s'.tree.bigCall? s'.types argument = some call ∧
        BigCall.of? value = some call ∧ call.value? = some value) ∧
    ((∃ failure s', materialize operand target c s = (.error failure, s')) ↔
      entry.initializer? true value = none) := by
  have hbig : s.types.isBig operand.type = true := by
    obtain ⟨kind, hkind, hbig⟩ := htype
    rw [TypeTable.isBig, hkind]
    exact hbig
  cases hfunction : entry.initializer? true value with
  | none =>
    have hfails := @materialize_mismatch c s operand target (by
      intro entry' value' hentry' hvalue'
      obtain rfl := Option.some.inj (hentry.symm.trans hentry')
      obtain rfl := Option.some.inj (hvalue.symm.trans hvalue')
      rw [hbig, hfunction])
    refine ⟨fun id s' hrun => ?_, iff_of_true ⟨_, _, hfails⟩ rfl⟩
    rw [hfails] at hrun
    cases hrun
  | some function =>
    obtain ⟨id, s', argument, hrun, hcalls, hnumber | ⟨hsmall, -⟩⟩ :=
      materialize_initializes hentry hvalue (by rw [hbig, hfunction])
    · refine ⟨fun id₁ s₁ hrun₁ => ?_, iff_of_false ?_ (by simp)⟩
      · obtain ⟨hid, rfl⟩ := Prod.mk.inj (hrun.symm.trans hrun₁)
        obtain rfl := Except.ok.inj hid
        have hcall : ∃ call, BigCall.of? value = some call := by
          cases value with
          | int | rat => exact ⟨_, rfl⟩
          | bool | string | float | complex => cases hfunction
        obtain ⟨call, hcall⟩ := hcall
        exact ⟨function, argument, call, rfl, hcalls, hnumber.trans hcall, hcall,
          BigCall.value?_of? hcall⟩
      · rintro ⟨failure, s₁, hrun₁⟩
        rw [hrun] at hrun₁
        cases hrun₁
    · rw [hbig] at hsmall
      cases hsmall

/-- A table with the types `Bigint` and `Bigrat` of the package of numbers. -/
def bigTypes : TypeTable :=
  ((TypeTable.initial.declareNamed (some numericsPath) "Bigint").2.declareNamed
    (some numericsPath) "Bigrat").2

def bigint : TypeId := ⟨32⟩

def bigrat : TypeId := ⟨33⟩

/-- A context in which those types are registered. -/
def bigContext : Context :=
  { Context.bare [] with registry := .standard bigTypes }

def bigState : State := State.initial (.bare [] []) bigTypes

/-- A third of a number that no word holds. -/
def third : Operand :=
  .ofConstant ⟨0⟩ (TypeTable.basic .untypedBigRat)
    (some (.rat (mkRat 18446744073709551616 3))) .synthetic

/-- It is read from its digits. -/
theorem materialize_unbounded_third :
    ∃ id s' argument, materialize third bigrat bigContext bigState = (.ok id, s') ∧
      s'.tree.CallsOn id numericsPath "Bigrat_Init__2" argument ∧
      s'.tree.bigCall? s'.types argument =
        some (.read "Rat" ["\"18446744073709551616/3\""]) := by
  have hentry : bigContext.registry.get? bigrat = some ⟨bigrat, numericsPath, "Bigrat", "",
      some "Bigrat_Init__0", some "Bigrat_Init__1", some "Bigrat_Init__2"⟩ := by decide +kernel
  have htype : bigState.types.IsUnbounded third.type := ⟨.untypedBigRat, by decide +kernel, rfl⟩
  obtain ⟨hok, hfails⟩ := materialize_unbounded htype hentry rfl
  rcases hrun : materialize third bigrat bigContext bigState with ⟨failure | id, s'⟩
  · cases hfails.mp ⟨failure, s', hrun⟩
  · obtain ⟨function, argument, call, hfunction, hcalls, hcall, hnumber, -⟩ := hok id s' hrun
    obtain rfl := Option.some.inj hfunction
    refine ⟨id, s', argument, rfl, hcalls, hcall.trans (hnumber.symm.trans ?_)⟩
    decide +kernel

end Lowering

end GoLowering
