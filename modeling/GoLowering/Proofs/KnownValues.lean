import GoLowering.Proofs.BinaryOperations
import GoLowering.Proofs.BigInitializers
import GoLowering.Proofs.FrameDeclarations
import GoLowering.Proofs.HeaderOrder
import GoLowering.Proofs.HostComparisons

/-!
# Nodes of known values

The host evaluates some expressions before the program runs: those with no call in them other than
conversions to types of truth values, numbers and strings, and without composite and function
literals (`HostTree.IsStatic`). The value of an operand is known if it is a literal or a constant,
or computed from such, and it should then be static.

`known_walkWithin` says of every expression what stands for it if its value is known: a node in
which nothing is called or built (`HostTree.IsInert`), or a conversion (`HostTree.Converts`) of
such a node or, for an unbounded constant, of a call of an initializer. Only the last one is not
static.
-/

namespace GoLowering

/-- Whether a node neither calls nor builds anything. -/
def HostKind.isInert : HostKind → Bool
  | .call .. | .composite .. | .functionLiteral .. => false
  | _ => true

/-- The types of truth values, numbers and strings, and those that are defined as one of them. -/
def TypeTable.IsScalar (t : TypeTable) (type : TypeId) : Prop :=
  ∃ kind, t.basic? type = some kind ∧
    (kind.isNumeric = true ∨ kind = .string ∨ kind = .bool)

namespace TypeTable

variable {t u : TypeTable} {id : TypeId} {kind : BasicType}

theorem Begins.get_of_get {type : Ty} (h : t.Begins u) (hget : t.get id = type)
    (hvalid : type ≠ .invalid) : u.get id = type := by
  rw [← hget] at hvalid ⊢
  exact h.get_eq (index_lt_of_get hvalid)

theorem Begins.resolve_eq (h : t.Begins u) (n : Nat) :
    t.get (t.resolve n id) = .basic kind → u.resolve n id = t.resolve n id := by
  induction n generalizing id with
  | zero => exact fun _ => rfl
  | succ n ih =>
    intro hbase
    cases hget : t.get id with
    | invalid =>
      simp only [resolve, hget] at hbase
      cases hbase
    | named package name definition =>
      have hsame := (h.get_of_get hget (by simp)).trans hget.symm
      cases definition with
      | none =>
        simp only [resolve, hget, hsame]
      | some next =>
        simp only [resolve, hget, hsame] at hbase ⊢
        exact ih hbase
    | _ =>
      have hsame := (h.get_of_get hget (by simp)).trans hget.symm
      simp only [resolve, hget, hsame]

/-- What is a basic type stays one when types are added. -/
theorem Begins.basic?_eq (h : t.Begins u) (hkind : t.basic? id = some kind) :
    u.basic? id = some kind := by
  have hshape := shape_of_basic? hkind
  have hbase : u.underlying id = t.underlying id := h.resolve_eq 64 hshape
  rw [shape] at hshape
  have hsame := h.get_of_get hshape (by simp)
  rw [basic?, shape, hbase, hsame]

end TypeTable

/-- Whether a node names something of another package. -/
def HostKind.isQualified : HostKind → Bool
  | .qualified .. => true
  | _ => false

namespace HostTree

variable {t : HostTree} {types : TypeTable} {type : TypeId} {id arg : HostId}

theorem Grows.kind_of_ne {u : HostTree} {kind : HostKind} (h : t.Grows u) (hkind : t.kind id = kind)
    (hne : kind ≠ .block []) : u.kind id = kind := by
  rw [← hkind]
  refine h.kind_eq ?_
  by_contra hlt
  have hnone : t.get? id = none := Array.getElem?_eq_none (Nat.le_of_not_lt hlt)
  rw [HostTree.kind, hnone] at hkind
  exact hne hkind.symm

theorem all_kinds {p : HostKind → Bool} (hnone : p (.block []) = true)
    (h : t.nodes.all (p ·.kind) = true) (id : HostId) : p (t.kind id) = true := by
  rw [kind, get?]
  split
  · rename_i node hnode
    exact Array.all_eq_true_iff_forall_mem.mp h node (Array.mem_of_getElem? hnode)
  · exact hnone

/-- Nothing is called or built in a node. -/
def IsInert (t : HostTree) (id : HostId) : Prop := ∀ x, t.Reaches id x → (t.kind x).isInert = true

/-- Whether the host evaluates an expression before the program runs: there is no composite literal
and no function literal in it, and no call other than a conversion to a scalar type. -/
def IsStatic (t : HostTree) (types : TypeTable) (id : HostId) : Prop :=
  ∀ x, t.Reaches id x →
    match t.kind x with
    | .composite .. | .functionLiteral .. => False
    | .call callee _ _ => ∃ type, t.kind callee = .typeExpression type ∧ types.IsScalar type
    | _ => True

/-- A conversion of a node to a type, in parentheses or not. -/
inductive Converts (t : HostTree) (type : TypeId) (arg : HostId) : HostId → Prop
  | call {id callee : HostId} (hcall : t.kind id = .call callee [arg] false)
      (hcallee : t.kind callee = .typeExpression type) : Converts t type arg id
  | paren {id inner : HostId} (hparen : t.kind id = .paren inner)
      (hinner : Converts t type arg inner) : Converts t type arg id

/-- A call of a function of a package. -/
def CallsPackage (t : HostTree) (id : HostId) : Prop :=
  ∃ package function argument, t.CallsOn id package function argument

theorem CallsPackage.grows {u : HostTree} (h : t.CallsPackage id) (hgrows : t.Grows u) :
    u.CallsPackage id := by
  obtain ⟨package, function, argument, callee, hcall, hcallee⟩ := h
  exact ⟨package, function, argument, callee, hgrows.kind_of_ne hcall HostKind.noConfusion,
    hgrows.kind_of_ne hcallee HostKind.noConfusion⟩

theorem isInert_iff : t.IsInert id ↔
    (t.kind id).isInert = true ∧ ∀ child ∈ (t.kind id).children, t.IsInert child := by
  constructor
  · intro h
    exact ⟨h id .refl, fun child hchild x hx => h x (.head hchild hx)⟩
  · rintro ⟨hid, hchildren⟩ x hx
    rcases reaches_iff.mp hx with rfl | ⟨child, hchild, hx⟩
    · exact hid
    · exact hchildren child hchild x hx

theorem isInert_of_leaf {kind : HostKind} (h : t.kind id = kind) (hinert : kind.isInert = true)
    (hleaf : kind.children = []) : t.IsInert id := by
  refine isInert_iff.mpr ⟨h.symm ▸ hinert, fun child hchild => ?_⟩
  rw [h, hleaf] at hchild
  exact absurd hchild List.not_mem_nil

theorem IsInert.isStatic (h : t.IsInert id) : t.IsStatic types id := by
  intro x hx
  have hinert := h x hx
  cases hkind : t.kind x with
  | call | composite | functionLiteral =>
    rw [hkind] at hinert
    cases hinert
  | _ => trivial

namespace Converts

theorem isStatic (h : t.Converts type arg id) (hscalar : types.IsScalar type)
    (harg : t.IsInert arg) : t.IsStatic types id := by
  induction h with
  | @call id callee hcall hcallee =>
    intro x hx
    rcases reaches_iff.mp hx with rfl | ⟨child, hchild, hx⟩
    · rw [hcall]
      exact ⟨type, hcallee, hscalar⟩
    · rw [hcall] at hchild
      rcases List.mem_cons.mp hchild with rfl | hchild
      · exact (isInert_of_leaf hcallee rfl rfl).isStatic x hx
      · rw [List.mem_singleton.mp hchild] at hx
        exact harg.isStatic x hx
  | @paren id inner hparen _ ih =>
    intro x hx
    rcases reaches_iff.mp hx with rfl | ⟨child, hchild, hx⟩
    · rw [hparen]
      trivial
    · rw [hparen] at hchild
      rw [List.mem_singleton.mp hchild] at hx
      exact ih x hx

theorem reaches (h : t.Converts type arg id) : t.Reaches id arg := by
  induction h with
  | call hcall _ => exact reaches_child (by simp [hcall, HostKind.children])
  | paren hparen _ ih => exact .head (by simp [hparen, HostKind.children]) ih

end Converts

/-- A conversion of what a function of a package gives. -/
def ConvertsCall (t : HostTree) (id : HostId) : Prop :=
  ∃ type arg, t.Converts type arg id ∧ t.CallsPackage arg

theorem not_convertsCall_of_all (h : t.nodes.all (!·.kind.isQualified) = true) :
    ¬t.ConvertsCall id := by
  rintro ⟨_, _, _, _, _, _, callee, _, hcallee⟩
  have hlocal := all_kinds (p := (!·.isQualified)) rfl h callee
  rw [hcallee] at hlocal
  cases hlocal

/-- What calls a function of a package is not static. -/
theorem CallsPackage.not_isStatic (h : t.CallsPackage arg) (hreaches : t.Reaches id arg) :
    ¬t.IsStatic types id := by
  obtain ⟨package, function, argument, callee, hcall, hcallee⟩ := h
  intro hstatic
  have hconversion := hstatic arg hreaches
  rw [hcall] at hconversion
  obtain ⟨type, htype, -⟩ := hconversion
  cases hcallee.symm.trans htype

end HostTree

namespace Lowering

open Surface

variable {c : Context} {final s s' : State} {walk : Walk} {r left right operand : Operand}
  {span : Span} {α : Type}

/-! ## Operands without a known value -/

/-- Whether an operand is a value or a call without results. -/
def Operand.IsResult (types : TypeTable) (r : Operand) : Prop :=
  r.mode = .value ∨ r.mode = .noValue ∧ types.get r.type = .tuple []

theorem Operand.IsResult.mode_ne_type {types : TypeTable} (h : r.IsResult types) :
    r.mode ≠ .type := by
  intro htype
  rcases h with hmode | ⟨hmode, -⟩
  · rw [hmode] at htype
    cases htype
  · rw [hmode] at htype
    cases htype

/-- A part that gives neither an operand with a known value nor anything but the result of an
evaluation. -/
class Plain (m : Lower Operand) : Prop where
  plain {c : Context} {s s' : State} {r : Operand} (h : m c s = (.ok r, s')) :
    r.constant = none ∧ r.IsResult s'.types

theorem plain_pure (hconstant : r.constant = none) (hmode : r.mode = .value) :
    Plain (pure r : Lower Operand) where
  plain h := by
    obtain ⟨rfl, -⟩ := pure_ok.mp h
    exact ⟨hconstant, .inl hmode⟩

instance (id : HostId) (type : TypeId) (span : Span) :
    Plain (pure (.value id type span) : Lower Operand) :=
  plain_pure rfl rfl

instance (priority := low) plain_failing {m : Lower Operand} [hm : Fails m] : Plain m where
  plain h := absurd h hm.fails

instance plain_bind {m : Lower α} {f : α → Lower Operand} [h : ∀ a, Plain (f a)] :
    Plain (m >>= f) where
  plain hrun := by
    obtain ⟨a, s₁, -, hrun⟩ := bind_ok.mp hrun
    exact (h a).plain hrun

instance plain_ite {p : Prop} [Decidable p] {m n : Lower Operand} [h : Plain m] [k : Plain n] :
    Plain (if p then m else n) := by
  split
  · exact h
  · exact k

instance (type : TypeId) (elements : List HostElement) (span : Span) :
    Plain (compositeOperand type elements span) := by
  unfold compositeOperand
  infer_instance

instance (call : HostId) (results : List TypeId) (span : Span) :
    Plain (resultOperand call results span) := by
  unfold resultOperand
  split
  · infer_instance
  · refine ⟨fun h => ?_⟩
    obtain ⟨type, s₁, htype, h⟩ := bind_ok.mp h
    obtain ⟨rfl, rfl⟩ := pure_ok.mp h
    refine ⟨rfl, ?_⟩
    cases results with
    | nil =>
      obtain ⟨hid, rfl⟩ := Prod.mk.inj htype
      obtain rfl := Except.ok.inj hid
      exact .inr ⟨rfl, (TypeTable.get_intern _ _).2⟩
    | cons => exact .inl rfl

instance (results : List HostParam) (body : List HostId) (span : Span) :
    Plain (immediateCall results body span) := by
  unfold immediateCall
  infer_instance

/-! ## Parts of the walk that give no known value -/

instance (type : TypeId) (elements : List Element) (span : Span) :
    Plain (lowerElements walk type elements span) := by
  unfold lowerElements
  refine plain_bind (h := fun types => ?_)
  split
  · infer_instance
  · infer_instance
  · refine plain_bind (h := fun x => ?_)
    split
    infer_instance
  · infer_instance
  · infer_instance
  · infer_instance

instance (type : TypeId) (elements : List Element) (span : Span) :
    Plain (lowerElementsInto walk type elements span) := by
  unfold lowerElementsInto
  refine plain_bind (h := fun types => ?_)
  split <;> infer_instance

instance (elements : List Element) (span : Span) : Plain (inferSlice walk elements span) := by
  unfold inferSlice
  infer_instance

instance (elements : List (NodeId × NodeId)) (span : Span) :
    Plain (inferMap walk elements span) := by
  unfold inferMap
  infer_instance

instance (elements : List Element) (span : Span) (expect : Expectation) :
    Plain (lowerSliceLiteral walk elements span expect) := by
  unfold lowerSliceLiteral
  refine plain_bind (h := fun types => ?_)
  dsimp only
  split
  · infer_instance
  · split <;> infer_instance

instance (elements : List Element) (span : Span) :
    Plain (lowerBareComposite walk elements span) := by
  unfold lowerBareComposite
  infer_instance

instance (type : NodeId) (elements : List Element) (span : Span) :
    Plain (lowerTypedComposite walk type elements span) := by
  unfold lowerTypedComposite
  refine plain_bind (h := fun context => ?_)
  split
  · refine plain_bind (h := fun element => plain_bind (h := fun x => ?_))
    split
    infer_instance
  · infer_instance

instance (type : Option NodeId) (elements : List Element) (span : Span) (expect : Expectation) :
    Plain (lowerComposite walk type elements span expect) := by
  unfold lowerComposite
  split <;> infer_instance

instance (object : Operand) (name : String) (span : Span) :
    Plain (lowerMethodExpression object name span) := by
  unfold lowerMethodExpression
  refine plain_bind (h := fun method => ?_)
  split
  · infer_instance
  · refine plain_bind (h := fun types => ?_)
    split
    · infer_instance
    · refine plain_bind (h := fun type => plain_bind (h := fun types => ?_))
      dsimp only
      split <;> infer_instance

instance (object : HostId) (method : Method) (span : Span) (expect : Expectation) :
    Plain (lowerProperty object method span expect) := by
  unfold lowerProperty
  refine plain_bind (h := fun selector => plain_bind (h := fun types => ?_))
  split <;> infer_instance

instance (object : Operand) (name : String) (span : Span) (expect : Expectation) :
    Plain (lowerValueMember object name span expect) := by
  unfold lowerValueMember
  refine plain_bind (h := fun x => ?_)
  split
  refine plain_bind (h := fun types => ?_)
  dsimp only
  split
  · infer_instance
  · split
    · infer_instance
    · refine plain_bind (h := fun method => ?_)
      split
      · infer_instance
      · refine plain_bind (h := fun method => ?_)
        split <;> infer_instance

instance (object index : NodeId) (span : Span) : Plain (lowerIndex walk object index span) := by
  unfold lowerIndex
  refine plain_bind (h := fun object => plain_bind (h := fun _ => ?_))
  refine plain_bind (h := fun types => ?_)
  have hrest (index : HostId) (element : TypeId) (commaOk : Bool) : Plain (do
      let x ← defaultValue object
      let id ← place (.index x.1 index) span
      return { Operand.value id element span with commaOk } : Lower Operand) :=
    plain_bind (h := fun x => plain_bind (h := fun id => plain_pure rfl rfl))
  dsimp only
  split
  · exact plain_bind (h := fun index => hrest ..)
  · exact plain_bind (h := fun index => hrest ..)
  · exact plain_bind (h := fun index => hrest ..)
  · exact plain_bind (h := fun index => hrest ..)
  · split
    · exact plain_bind (h := fun index => hrest ..)
    · infer_instance
  · infer_instance

instance (object : NodeId) (low high max : Option NodeId) (span : Span) :
    Plain (lowerSlice walk object low high max span) := by
  unfold lowerSlice
  refine plain_bind (h := fun object => plain_bind (h := fun _ => plain_bind (h := fun type => ?_)))
  split
  · infer_instance
  · refine plain_bind (h := fun _ => plain_bind (h := fun _ => plain_bind (h := fun _ => ?_)))
    refine plain_bind (h := fun x => ?_)
    split
    infer_instance

instance (object : NodeId) (type : Option NodeId) (span : Span) :
    Plain (lowerTypeAssertion walk object type span) := by
  unfold lowerTypeAssertion
  split
  · infer_instance
  · refine plain_bind (h := fun object => plain_bind (h := fun _ => ?_))
    refine plain_bind (h := fun types => ?_)
    dsimp only
    split
    · exact plain_bind (h := fun _ => plain_bind (h := fun _ => plain_pure rfl rfl))
    · infer_instance

instance (operand : NodeId) (span : Span) (expect : Expectation) :
    Plain (lowerAddressOf walk operand span expect) := by
  unfold lowerAddressOf
  infer_instance

instance (operand : NodeId) (span : Span) : Plain (lowerReceive walk operand span) := by
  unfold lowerReceive
  refine plain_bind (h := fun channel => plain_bind (h := fun _ => ?_))
  have hreceive (element : TypeId) : Plain (do
      let id ← place (.unary .receive channel.id) span
      return { Operand.value id element span with commaOk := true } : Lower Operand) :=
    plain_bind (h := fun id => plain_pure rfl rfl)
  refine plain_bind (h := fun types => ?_)
  split
  · exact hreceive _
  · exact hreceive _
  · infer_instance

instance (op : UnaryOp) (operand : Operand) (span : Span) :
    Plain (lowerRegisteredUnary op operand span) := by
  unfold lowerRegisteredUnary
  split <;> infer_instance

instance (op : BinaryOp) (target : TypeId) (left right : Operand) (span : Span) :
    Plain (lowerRegisteredBinary op target left right span) := by
  unfold lowerRegisteredBinary
  refine plain_bind (h := fun context => ?_)
  split
  · refine plain_bind (h := fun left => ?_)
    dsimp only
    split <;> infer_instance
  · infer_instance

instance (op : BinaryOp) (left right : Operand) (span : Span) :
    Plain (lowerHostBinary op left right span) := by
  unfold lowerHostBinary
  have hshift : Plain (lowerShift op left right span) := by
    unfold lowerShift
    infer_instance
  have hcomparison : Plain (lowerComparison op left right span) := by
    unfold lowerComparison
    dsimp only
    split <;> infer_instance
  have harithmetic : Plain (lowerArithmetic op left right span) := by
    unfold lowerArithmetic
    infer_instance
  infer_instance

instance (call : HostId) (values : List TypeId) (text : String) (span : Span) :
    Plain (wrapPropagate call values text span) := by
  unfold wrapPropagate
  refine plain_bind (h := fun results => ?_)
  split <;> infer_instance

instance (inner : NodeId) (policy : WrapPolicy) (span : Span) :
    Plain (lowerErrorWrap walk inner policy span) := by
  have hraise (call : HostId) (values : List TypeId) (text : String) :
      Plain (wrapRaise call values text span) := by
    unfold wrapRaise
    infer_instance
  have hfallback (call : HostId) (values : List TypeId) (default : Option NodeId) :
      Plain (wrapFallback walk call values default span) := by
    unfold wrapFallback
    split
    · dsimp only
      split <;> infer_instance
    · infer_instance
  unfold lowerErrorWrap
  refine plain_bind (h := fun call => plain_bind (h := fun text => ?_))
  refine plain_bind (h := fun types => ?_)
  split <;> infer_instance

instance (yields : Yield) (clauses : List ForClause) (span : Span) (expect : Expectation) :
    Plain (lowerComprehension walk yields clauses span expect) := by
  unfold lowerComprehension
  infer_instance

instance (params : List String) (body : LambdaBody) (span : Span) (expect : Expectation) :
    Plain (lowerLambda walk params body span expect) := by
  unfold lowerLambda
  split
  · infer_instance
  · refine plain_bind (h := fun types => ?_)
    split <;> infer_instance

instance (signature body : NodeId) (span : Span) :
    Plain (lowerFunctionLiteral walk signature body span) := by
  unfold lowerFunctionLiteral
  infer_instance

/-! ## Operands with a known value -/

/-- No untyped type is written in the output. -/
def State.WritesTyped (final : State) : Prop :=
  ∀ x type, final.tree.kind x = .typeExpression type → final.types.isUntyped type = false

theorem State.writesTyped_of_all (h : final.tree.nodes.all (fun node =>
    match node.kind with
    | .typeExpression type => !final.types.isUntyped type
    | _ => true) = true) : final.WritesTyped := by
  intro x type hkind
  have hall := HostTree.all_kinds (p := fun
    | .typeExpression type => !final.types.isUntyped type
    | _ => true) rfl h x
  rw [hkind] at hall
  simpa using hall

/-- What stands in the end for an operand with a known value, and for a type. -/
structure KnownForm (final s : State) (r : Operand) : Prop where
  constant (h : r.constant.isSome = true) : final.tree.IsInert r.id ∨
    final.types.isUntyped r.type = false ∧ s.types.IsScalar r.type ∧
      ∃ arg, final.tree.Converts r.type arg r.id ∧
        (final.tree.IsInert arg ∨ final.tree.CallsPackage arg)
  type (h : r.mode = .type) : final.tree.kind r.id = .typeExpression r.type

/-- A part that runs to its end, in a lowering that comes to a state, gives a result with a
property. -/
def Gives (c : Context) (final : State) (m : Lower α) (P : State → α → Prop) : Prop :=
  ∀ ⦃s a s'⦄, m c s = (.ok a, s') → Extends s' final → P s' a

namespace Gives

variable {β : Type} {m : Lower α} {f : α → Lower β} {P : State → α → Prop} {Q : State → β → Prop}

theorem pure {a : α} (h : ∀ s, P s a) : Gives c final (pure a : Lower α) P := by
  intro s b s' hrun _
  obtain ⟨rfl, rfl⟩ := pure_ok.mp hrun
  exact h _

theorem failing [hm : Fails m] : Gives c final m P := fun _ _ _ hrun => absurd hrun hm.fails

/-- A part of whose result nothing is to be known, before another one. -/
theorem after (h : ∀ a, Gives c final (f a) Q) : Gives c final (m >>= f) Q := by
  intro s b s' hrun hfinal
  obtain ⟨a, s₁, -, hrun⟩ := bind_ok.mp hrun
  exact h a hrun hfinal

/-- One part after the other. -/
theorem bind [g : ∀ a, Steady extension (f a)] (hm : Gives c final m P)
    (h : ∀ a s₁ b s', P s₁ a → f a c s₁ = (.ok b, s') → Extends s' final → Q s' b) :
    Gives c final (m >>= f) Q := by
  intro s b s' hrun hfinal
  obtain ⟨a, s₁, ha, hb⟩ := bind_ok.mp hrun
  have hs := (g a).run c s₁
  rw [hb] at hs
  exact h a s₁ b s' (hm ha (hs.trans hfinal)) hb hfinal

theorem ite {p : Prop} [Decidable p] {m n : Lower α} (hm : p → Gives c final m P)
    (hn : ¬p → Gives c final n P) : Gives c final (if p then m else n) P := by
  split
  · exact hm ‹_›
  · exact hn ‹_›

theorem place {kind : HostKind} : Gives c final (place kind span)
    (fun _ id => final.tree.kind id = kind) :=
  fun _ _ _ hrun hfinal => (addNode_ok hrun).kind_of_grows hfinal.tree

end Gives

theorem known_of_constant_eq_none (hconstant : r.constant = none)
    (hmode : r.mode = .type → final.tree.kind r.id = .typeExpression r.type) : KnownForm final s r := by
  refine ⟨fun h => ?_, hmode⟩
  rw [hconstant] at h
  cases h

theorem Plain.gives {m : Lower Operand} (hm : Plain m) : Gives c final m (KnownForm final) := by
  intro s r s' hrun _
  obtain ⟨hconstant, hresult⟩ := hm.plain hrun
  exact known_of_constant_eq_none hconstant (fun h => absurd h hresult.mode_ne_type)

theorem known_of_isInert (h : final.tree.IsInert r.id) (hmode : r.mode ≠ .type) :
    KnownForm final s r :=
  ⟨fun _ => .inl h, fun htype => absurd htype hmode⟩

theorem OperandMode.value_ne_type : OperandMode.value ≠ .type := by
  decide

/-- A value that stands for itself. -/
theorem gives_leaf {kind : HostKind} {f : HostId → Operand} (hinert : kind.isInert = true)
    (hleaf : kind.children = []) (hid : ∀ id, (f id).id = id) (hmode : ∀ id, (f id).mode ≠ .type) :
    Gives c final (do return f (← place kind span)) (KnownForm final) := by
  refine Gives.place.bind (fun id s₁ r s' hkind hrun _ => ?_)
  obtain ⟨rfl, rfl⟩ := pure_ok.mp hrun
  exact known_of_isInert (HostTree.isInert_of_leaf ((hid id).symm ▸ hkind) hinert hleaf) (hmode id)

theorem gives_typeOperand (type : TypeId) :
    Gives c final (typeOperand type span) (KnownForm final) := by
  refine Gives.place.bind (fun id s₁ r s' hkind hrun _ => ?_)
  obtain ⟨rfl, rfl⟩ := pure_ok.mp hrun
  exact known_of_constant_eq_none rfl (fun _ => hkind)

/-! ## Names -/

theorem gives_namedOperand (name : String) (type : TypeId) {f : Operand → Operand}
    (hid : ∀ operand, (f operand).id = operand.id)
    (hmode : ∀ operand, operand.mode = .value → (f operand).mode ≠ .type) :
    Gives c final (do return f (← namedOperand name type span)) (KnownForm final) := by
  unfold namedOperand
  rw [bind_assoc]
  simp only [pure_bind]
  exact gives_leaf rfl rfl (fun id => hid _) (fun id => hmode _ rfl)

theorem gives_symbolOperand (name : String) (symbol : Symbol) :
    Gives c final (symbolOperand name symbol span) (KnownForm final) := by
  cases symbol with
  | typeName type => exact gives_typeOperand type
  | «variable» type => exact gives_leaf rfl rfl (fun _ => rfl) (fun _ => OperandMode.value_ne_type)
  | constant type value =>
    exact gives_namedOperand name type (fun _ => rfl) (fun _ h => by
      dsimp only
      rw [h]
      exact OperandMode.value_ne_type)

theorem gives_resolvedOperand (resolution : Resolution) (package : Option String) (name : String) :
    Gives c final (resolvedOperand resolution package name span) (KnownForm final) := by
  have hmember (hostName : String) (package : Option String) {f : HostId → Operand}
      (hid : ∀ id, (f id).id = id) (hmode : ∀ id, (f id).mode ≠ .type) :
      Gives c final (do return f (← memberNode package hostName span)) (KnownForm final) := by
    unfold memberNode
    cases package <;> exact gives_leaf rfl rfl hid hmode
  have hmode {mode : OperandMode} (hother : mode ≠ .type) (operand : Operand)
      (_ : operand.mode = .value) : ({ operand with mode } : Operand).mode ≠ .type := hother
  unfold resolvedOperand
  cases resolution with
  | value spelled hostName type =>
    exact hmember _ _ (fun _ => rfl) (fun _ => OperandMode.value_ne_type)
  | const value type => exact hmember _ _ (fun _ => rfl) (fun _ => OperandMode.value_ne_type)
  | nil => exact gives_namedOperand _ _ (fun _ => rfl) (hmode (by simp))
  | type type => exact gives_typeOperand type
  | package path => exact gives_namedOperand _ _ (fun _ => rfl) (hmode (by simp))
  | builtin function => exact gives_namedOperand _ _ (fun _ => rfl) (hmode (by simp))

/-- The property of an operand, if there is one. -/
abbrev IfAny (P : State → Operand → Prop) (s : State) (r : Option Operand) : Prop :=
  ∀ operand ∈ r, P s operand

section

variable {P : State → Operand → Prop}

theorem ifAny_none : IfAny P s none := by
  rintro _ ⟨⟩

theorem Gives.some {m : Lower Operand} (h : Gives c final m P) :
    Gives c final (do return some (← m)) (IfAny P) := by
  intro s found s' hrun hfinal
  obtain ⟨operand, s₁, hm, hrun⟩ := bind_ok.mp hrun
  obtain ⟨rfl, rfl⟩ := pure_ok.mp hrun
  rintro _ ⟨⟩
  exact h hm hfinal

/-- The operand that is found, or else the one that another part gives. -/
theorem gives_found {m : Lower (Option Operand)} {f : Option Operand → Lower Operand}
    [g : ∀ a, Steady extension (f a)] (hm : Gives c final m (IfAny P))
    (hsome : ∀ operand, f (some operand) = pure operand)
    (hnone : Gives c final (f none) P) :
    Gives c final (m >>= f) P := by
  refine Gives.bind hm (fun found s₁ r s' hfound hrun hfinal => ?_)
  cases found with
  | none => exact hnone hrun hfinal
  | some operand =>
    rw [hsome] at hrun
    obtain ⟨rfl, rfl⟩ := pure_ok.mp hrun
    exact hfound _ rfl

theorem gives_boundOperand {m : Lower (Option Operand)} {name : String}
    (hm : Gives c final m (IfAny P)) :
    Gives c final (do
      match ← m with
      | some operand => return operand
      | none => fail (.undeclaredName name) span) P := by
  refine gives_found (g := fun a => ?_) hm (fun _ => rfl) .failing
  split <;> infer_instance

/-- What a name stands for, by the places where it is looked for. -/
theorem gives_nameOperand? (name : String)
    (hsymbol : ∀ symbol, Gives c final (symbolOperand name symbol span) P)
    (hglobal : ∀ global, Gives c final (globalOperand walk global name span) P)
    (himport : ∀ path, Gives c final (do
      return { ← namedOperand name TypeTable.invalid span with mode := .package path }) P)
    (hresolved : ∀ resolution, Gives c final (resolvedOperand resolution none name span) P) :
    Gives c final (nameOperand? walk name span) (IfAny P) := by
  have himported (path : String) : Gives c final (do
      return some { ← namedOperand name TypeTable.invalid span with mode := .package path })
      (IfAny P) := by
    simpa only [bind_assoc, pure_bind] using (himport path).some
  unfold nameOperand?
  refine .after (fun s => ?_)
  split
  · exact (hsymbol _).some
  · unfold unboundOperand?
    refine .after (fun s => ?_)
    split
    · exact (hglobal _).some
    · refine .after (fun s => ?_)
      split
      · exact himported _
      · refine .after (fun context => ?_)
        split
        · exact (hresolved _).some
        · exact .pure (fun _ => ifAny_none)

theorem gives_lowerIdentifier [walk.Keeps extension] (name : String)
    (h : ∀ name, Gives c final (nameOperand? walk name span) (IfAny P)) :
    Gives c final (lowerIdentifier walk name span) P := by
  unfold lowerIdentifier
  refine .ite (fun _ => .failing) (fun _ => ?_)
  refine gives_found (g := fun a => ?_) (h name) (fun _ => rfl) ?_
  · split
    · infer_instance
    · dsimp only
      split
      · refine Keeps.before (fun fallback => ?_)
        split <;> infer_instance
      · refine Keeps.before (fun fallback => ?_)
        split <;> infer_instance
  · refine .ite (fun _ => ?_) (fun _ => gives_boundOperand (h _))
    exact gives_boundOperand (.pure (fun _ => ifAny_none))

/-- A member, by what stands for the members of packages. -/
theorem gives_lowerMember (object : NodeId) (name : String) (expect : Expectation)
    (hresolved : ∀ resolution path name,
      Gives c final (resolvedOperand resolution (some path) name span) P)
    (hplain : ∀ {m : Lower Operand}, Plain m → Gives c final m P) :
    Gives c final (lowerMember walk object name span expect) P := by
  have hpackage (path : String) : Gives c final (lowerPackageMember path name span) P := by
    unfold lowerPackageMember
    refine .after (fun context => ?_)
    dsimp only
    split
    · exact hresolved _ _ _
    · split
      · exact hresolved _ _ _
      · exact .failing
  unfold lowerMember
  refine .after (fun object => ?_)
  split
  · exact hpackage _
  · exact hplain inferInstance
  · exact hplain inferInstance

end

theorem known_globalOperand (global : Global) (name : String) :
    Gives c final (globalOperand walk global name span) (KnownForm final) := by
  unfold globalOperand
  cases global with
  | value root =>
    refine .after (fun _ => .after (fun s => ?_))
    split
    · exact gives_symbolOperand name _
    · exact gives_leaf rfl rfl (fun _ => rfl) (fun _ => OperandMode.value_ne_type)
  | func _ type => exact gives_leaf rfl rfl (fun _ => rfl) (fun _ => OperandMode.value_ne_type)
  | type => exact .after (fun type => gives_typeOperand type)

theorem known_nameOperand? (name : String) :
    Gives c final (nameOperand? walk name span) (IfAny (KnownForm final)) :=
  gives_nameOperand? name (gives_symbolOperand name) (fun global => known_globalOperand global name)
    (fun _ => gives_namedOperand _ _ (fun _ => rfl) (fun _ _ => by simp))
    (fun resolution => gives_resolvedOperand resolution none name)

/-! ## Folded operands -/

/-- What stands for an untyped operand with a known value is inert, since conversions are not to
untyped types. -/
theorem KnownForm.isInert {s₀ : State} (h : KnownForm final s₀ operand)
    (hconstant : operand.constant.isSome = true)
    (huntyped : s.types.isUntyped operand.type = true) (hgrows : s.types.Grows final.types) :
    final.tree.IsInert operand.id := by
  rcases h.constant hconstant with hinert | ⟨htyped, -⟩
  · exact hinert
  · rw [hgrows.isUntyped_of huntyped] at htyped
    cases htyped

/-- A value that is made of inert nodes. -/
theorem gives_node {kind : HostKind} {f : HostId → Operand} (hinert : kind.isInert = true)
    (hchildren : ∀ child ∈ kind.children, final.tree.IsInert child) (hid : ∀ id, (f id).id = id)
    (hmode : ∀ id, (f id).mode ≠ .type) :
    Gives c final (do return f (← place kind span)) (KnownForm final) := by
  refine Gives.place.bind (fun id s₁ r s' hkind hrun _ => ?_)
  obtain ⟨rfl, rfl⟩ := pure_ok.mp hrun
  refine known_of_isInert (HostTree.isInert_iff.mpr ?_) (hmode id)
  rw [hid, hkind]
  exact ⟨hinert, hchildren⟩

theorem gives_foldUnary {op : UnaryOp} {value : Constant}
    (hinert : final.tree.IsInert operand.id) :
    Gives c final (foldUnary op operand value span) (KnownForm final) := by
  unfold foldUnary
  split
  · exact .failing
  · dsimp only
    split
    · exact gives_leaf rfl rfl (fun _ => rfl) (fun _ => OperandMode.value_ne_type)
    · refine .after (fun big => .ite (fun _ => .after (fun text => ?_)) (fun _ => ?_))
      · exact gives_leaf rfl rfl (fun _ => rfl) (fun _ => OperandMode.value_ne_type)
      · exact gives_node rfl (fun child hchild => List.mem_singleton.mp hchild ▸ hinert)
          (fun _ => rfl) (fun _ => OperandMode.value_ne_type)

theorem known_lowerUnaryOperand {s₀ : State} {op : UnaryOp} (hoperand : KnownForm final s₀ operand)
    (h : lowerUnaryOperand op operand span c s = (.ok r, s')) (hfinal : Extends s' final) :
    KnownForm final s' r := by
  have hs := Steady.run (m := lowerUnaryOperand op operand span) inferInstance c s
  rw [h] at hs
  have hgrows := (hs.trans hfinal).types
  unfold lowerUnaryOperand at h
  obtain ⟨_, s₁, hcheck, hrest⟩ := bind_ok.mp h
  obtain rfl := Reads.ok hcheck
  obtain ⟨_, _, ⟨⟩, hrest⟩ := bind_ok.mp hrest
  have hplain : Plain (do
      if ((← read).registry.get? operand.type).isSome then
        lowerRegisteredUnary op operand span
      else if s₁.types.isInvalid operand.type || (← hasUnary op operand.type) then
        return .value (← place (.unary op operand.id) span) operand.type span
      else
        failOperation op.symbol operand.type span : Lower Operand) := inferInstance
  cases hvalue : operand.constant with
  | none =>
    rw [hvalue] at hrest
    exact hplain.gives hrest hfinal
  | some value =>
    cases huntyped : s₁.types.isUntyped operand.type with
    | false =>
      rw [hvalue, huntyped] at hrest
      exact hplain.gives hrest hfinal
    | true =>
      rw [hvalue, huntyped] at hrest
      have hinert := hoperand.isInert (by rw [hvalue]; rfl) huntyped hgrows
      exact gives_foldUnary hinert hrest hfinal

theorem constantOf?_eq_some {types : TypeTable} {kind : BasicType} {value : Constant}
    (h : constantOf? types operand = some (kind, value)) :
    operand.constant = some value ∧ types.isUntyped operand.type = true := by
  unfold constantOf? at h
  split at h
  · rename_i hvalue hkind
    split at h
    · rename_i huntyped
      obtain ⟨rfl, rfl⟩ := Prod.mk.inj (Option.some.inj h)
      exact ⟨hvalue, (Bool.and_eq_true_iff.mp huntyped).2⟩
    · cases h
  · cases h

theorem gives_foldedNode (hinert : final.tree.IsInert operand.id) :
    Gives c final (foldedNode operand) (fun _ id => final.tree.IsInert id) := by
  unfold foldedNode
  split
  · refine .after (fun big => .ite (fun _ => ?_) (fun _ => .pure (fun _ => hinert)))
    intro s id s' hrun hfinal
    exact HostTree.isInert_of_leaf ((addNode_ok hrun).kind_of_grows hfinal.tree) rfl rfl
  · exact .pure (fun _ => hinert)

theorem gives_foldedOperand {op : BinaryOp} {kind : BasicType} {value : Constant}
    (hleft : final.tree.IsInert left.id) (hright : final.tree.IsInert right.id) :
    Gives c final (foldedOperand op left right kind value span) (IfAny (KnownForm final)) := by
  have hsome {m : Lower HostId} (hm : Gives c final m (fun _ id => final.tree.IsInert id)) :
      Gives c final (do
        return some (Operand.ofConstant (← m) (TypeTable.basic kind) (some value) span))
        (IfAny (KnownForm final)) := by
    refine Gives.bind hm (fun id s₁ r s' hinert hrun _ => ?_)
    obtain ⟨rfl, rfl⟩ := pure_ok.mp hrun
    rintro _ ⟨⟩
    exact known_of_isInert hinert OperandMode.value_ne_type
  have hplace {kind : HostKind} (hinert : kind.isInert = true)
      (hchildren : ∀ child ∈ kind.children, final.tree.IsInert child) :
      Gives c final (place kind span) (fun _ id => final.tree.IsInert id) := by
    intro s id s' hrun hfinal
    have hkind := (addNode_ok hrun).kind_of_grows hfinal.tree
    exact HostTree.isInert_iff.mpr ⟨hkind.symm ▸ hinert, hkind.symm ▸ hchildren⟩
  unfold foldedOperand
  refine .ite (fun _ => .after (fun text => hsome (hplace rfl (fun _ h => ?_)))) (fun _ => ?_)
  · exact absurd h List.not_mem_nil
  · refine Gives.bind (gives_foldedNode hleft) (fun leftId _ _ _ hl hrun hfinal => ?_)
    refine Gives.bind (gives_foldedNode hright) (fun rightId _ _ _ hr hrun hfinal => ?_) hrun hfinal
    refine hsome (hplace rfl (fun child hchild => ?_)) hrun hfinal
    simp only [HostKind.children, List.mem_cons, List.not_mem_nil, or_false] at hchild
    rcases hchild with rfl | rfl
    · exact hl
    · exact hr

theorem known_foldBinary? {sl sr : State} {op : BinaryOp} {folded : Option Operand}
    (hleft : KnownForm final sl left) (hright : KnownForm final sr right)
    (h : foldBinary? op left right span c s = (.ok folded, s')) (hfinal : Extends s' final) :
    IfAny (KnownForm final) s' folded := by
  have hs := Steady.run (m := foldBinary? op left right span) inferInstance c s
  rw [h] at hs
  have hgrows := (hs.trans hfinal).types
  rcases foldBinary?_ok h with ⟨rfl, -⟩ | ⟨_, _, _, _, _, hl, hr, -, -, hfolded⟩
  · exact ifAny_none
  · obtain ⟨hl, hlu⟩ := constantOf?_eq_some hl
    obtain ⟨hr, hru⟩ := constantOf?_eq_some hr
    exact gives_foldedOperand (hleft.isInert (by rw [hl]; rfl) hlu hgrows)
      (hright.isInert (by rw [hr]; rfl) hru hgrows) hfolded hfinal

/-- An operation between operands that do not fold. -/
theorem plain_operation {op : BinaryOp} : Plain (do
    match ← operatorType? left right with
    | some target => lowerRegisteredBinary op target left right span
    | none => lowerHostBinary op left right span) := by
  refine plain_bind (h := fun target => ?_)
  split <;> infer_instance

theorem known_lowerBinary {sl sr : State} {op : BinaryOp} (hleft : KnownForm final sl left)
    (hright : KnownForm final sr right) (h : lowerBinary op left right span c s = (.ok r, s'))
    (hfinal : Extends s' final) : KnownForm final s' r := by
  unfold lowerBinary at h
  obtain ⟨_, s₁, hcheck, h₁⟩ := bind_ok.mp h
  obtain ⟨_, s₂, hcheck', h₂⟩ := bind_ok.mp h₁
  obtain ⟨_, _, ⟨⟩, h₃⟩ := bind_ok.mp h₂
  obtain ⟨_, _, ⟨⟩, h₄⟩ := bind_ok.mp h₃
  split at h₄
  · exact Plain.gives inferInstance h₄ hfinal
  · obtain ⟨folded, s₃, hfold, h₅⟩ := bind_ok.mp h₄
    cases folded with
    | none => exact plain_operation.gives h₅ hfinal
    | some folded =>
      obtain ⟨rfl, rfl⟩ := pure_ok.mp h₅
      exact known_foldBinary? hleft hright hfold hfinal _ rfl

/-! ## Conversions -/

/-- What is converted: the operand itself, or a call that builds the number of an unbounded
constant. The value of the result is known if it is a constant of a scalar type. -/
structure ConvertsConstant (c : Context) (s : State) (callee : HostId) (target : TypeId)
    (operand : Operand) (s' : State) (r : Operand) (arg : HostId) : Prop where
  node : ∀ t, s'.tree.Grows t → t.kind r.id = .call callee [arg] false
  type : r.type = target
  constant : r.constant = operand.constant
  untyped : s.types.isUntyped operand.type = true
  scalar : ∃ kind, s.types.basic? target = some kind ∧ s'.types.basic? target = some kind ∧
    (kind.isNumeric = true ∧ overflows BasicType.isNumeric operand.constant (some kind) = false ∨
      kind = .string ∨ kind = .bool)
  ordinary : s.types.isBig operand.type = false → arg = operand.id
  unbounded : s.types.isBig operand.type = true → ∀ t, s'.tree.Grows t → t.CallsPackage arg

/-- Types are only added by parts that are still. -/
def AppendsTypes (care : Care) (_ : Context) (s s' : State) : Prop :=
  care = .still → s.types.Begins s'.types

instance : Frame AppendsTypes where
  refl _ _ s _ := .refl s.types
  trans h₁ h₂ hcare := (h₁ hcare).trans (h₂ hcare)
  still h _ := h.begins
  quiet _ := nofun
  additive _ := nofun
  steady _ := nofun
  inScope _ h hcare := h hcare
  inFunction _ _ _ := nofun
  inFrame _ _ := nofun
  atPackageLevel _ := nofun
  hoisting _ := nofun
  takeHoisted _ _ := nofun
  hoist _ _ _ := nofun
  declareType _ _ := nofun
  noteLiteral _ _ _ _ := nofun
  needAlias _ _ _ _ _ := nofun
  openAlias _ _ := nofun
  setAlias _ _ _ := nofun

theorem materialize_callsPackage {target : TypeId} {id : HostId}
    (h : materialize operand target c s = (.ok id, s')) : s'.tree.CallsPackage id := by
  obtain ⟨entry, value, function, hentry, hvalue, hfunction⟩ := materialize_ok_iff.mp ⟨id, s', h⟩
  obtain ⟨_, _, argument, hrun, hcalls, -⟩ := materialize_initializes hentry hvalue hfunction
  rw [h] at hrun
  obtain ⟨hid, rfl⟩ := Prod.mk.inj hrun
  obtain rfl := Except.ok.inj hid
  exact ⟨_, _, argument, hcalls⟩

/-- An unbounded constant is built by a call. -/
theorem defaultValue_callsPackage {value : HostId × TypeId}
    (hbig : s.types.isBig operand.type = true)
    (h : defaultValue operand c s = (.ok value, s')) : s'.tree.CallsPackage value.1 := by
  unfold defaultValue at h
  obtain ⟨_, s₁, hcheck, hrest⟩ := bind_ok.mp h
  obtain rfl := Reads.ok hcheck
  split at hrest
  · exact absurd hrest Fails.fails
  · rw [run_isUntypedBig_bind, hbig, if_pos rfl] at hrest
    obtain ⟨type, s₂, htype, hrest⟩ := bind_ok.mp hrest
    obtain rfl := Reads.ok htype
    cases type with
    | none => exact absurd hrest Fails.fails
    | some type =>
      obtain ⟨id, s₃, hmaterialize, hrest⟩ := bind_ok.mp hrest
      obtain ⟨rfl, rfl⟩ := pure_ok.mp hrest
      exact materialize_callsPackage hmaterialize

instance (operand : Operand) (target : TypeId) : Reads (convertedConstant operand target) := by
  have hoverflow : Reads (failOverflow operand : Lower (Option Constant)) := by
    unfold failOverflow
    infer_instance
  unfold convertedConstant
  refine reads_bind (h := fun kind => ?_)
  split <;> infer_instance

theorem convertedConstant_ok {target : TypeId} {value : Option Constant}
    (h : convertedConstant operand target c s = (.ok value, s')) (hsome : value.isSome = true) :
    value = operand.constant ∧ ∃ kind, s.types.basic? target = some kind ∧
      (kind.isNumeric = true ∧ overflows BasicType.isNumeric operand.constant (some kind) = false ∨
        kind = .string ∨ kind = .bool) := by
  unfold convertedConstant at h
  obtain ⟨_, _, ⟨⟩, h⟩ := bind_ok.mp h
  cases hkind : s.types.basic? target with
  | none =>
    rw [hkind] at h
    obtain ⟨rfl, -⟩ := pure_ok.mp h
    cases hsome
  | some kind =>
    rw [hkind] at h
    dsimp only at h
    split at h
    · rename_i hnumeric
      split at h
      · exact absurd h Fails.fails
      · rename_i hfits
        obtain ⟨rfl, -⟩ := pure_ok.mp h
        exact ⟨rfl, kind, rfl, .inl ⟨hnumeric, by simpa using hfits⟩⟩
    · split at h
      · rename_i hother
        obtain ⟨rfl, -⟩ := pure_ok.mp h
        exact ⟨rfl, kind, rfl, .inr (by simpa using hother)⟩
      · obtain ⟨rfl, -⟩ := pure_ok.mp h
        cases hsome

/-- Converted operands are known by their values if they have been. -/
theorem convertOperand_known {callee : HostId} {target : TypeId}
    (h : convertOperand callee target operand span c s = (.ok r, s'))
    (hsome : r.constant.isSome = true) :
    ∃ arg, ConvertsConstant c s callee target operand s' r arg := by
  have hstill : Still (.ofFrame AppendsTypes) (convertOperand callee target operand span) :=
    inferInstance
  have hbegins := Keeps.run hstill c s rfl
  rw [h] at hbegins
  have hnone {arg : HostId} {s₁ : State} (h : (do
      return Operand.ofConstant (← place (.call callee [arg] false) span) target none span)
      c s₁ = (.ok r, s')) : False := by
    obtain ⟨_, _, -, h⟩ := bind_ok.mp h
    rw [← (pure_ok.mp h).1] at hsome
    cases hsome
  unfold convertOperand at h
  obtain ⟨_, s₁, hcheck, h₁⟩ := bind_ok.mp h
  obtain rfl := Reads.ok hcheck
  obtain ⟨_, _, ⟨⟩, h₂⟩ := bind_ok.mp h₁
  clear h h₁
  dsimp only at h₂
  rw [run_read] at h₂
  split at h₂
  · obtain ⟨_, _, -, h₂⟩ := bind_ok.mp h₂
    rw [← (pure_ok.mp h₂).1] at hsome
    cases hsome
  split at h₂
  · rename_i huntyped
    have huntyped := (Bool.and_eq_true_iff.mp huntyped).2
    obtain ⟨value, s₂, hvalue, h₃⟩ := bind_ok.mp h₂
    have hmade {arg : HostId} {s₃ : State} (h : (do
        return Operand.ofConstant (← place (.call callee [arg] false) span) target value span)
        c s₃ = (.ok r, s'))
        (ordinary : s₁.types.isBig operand.type = false → arg = operand.id)
        (unbounded : s₁.types.isBig operand.type = true → s₃.tree.CallsPackage arg) :
        ConvertsConstant c s₁ callee target operand s' r arg := by
      obtain ⟨id, s₄, hplace, h⟩ := bind_ok.mp h
      obtain ⟨rfl, rfl⟩ := pure_ok.mp h
      obtain ⟨hconstant, kind, hkind, hscalar⟩ := convertedConstant_ok hvalue hsome
      have hnode := addNode_ok hplace
      exact ⟨fun t ht => hnode.kind_of_grows ht, rfl, hconstant, huntyped,
        ⟨kind, hkind, hbegins.basic?_eq hkind, hscalar⟩, ordinary,
        fun hbig t ht => (unbounded hbig).grows (hnode.grows.trans ht)⟩
    rw [run_isUntypedBig_bind] at h₃
    obtain rfl := Reads.ok hvalue
    cases hbig : s₂.types.isBig operand.type with
    | true =>
      rw [hbig, if_pos rfl] at h₃
      obtain ⟨x, s₃, hdefault, h₄⟩ := bind_ok.mp h₃
      exact ⟨x.1, hmade h₄ (by simp [hbig]) (fun _ => defaultValue_callsPackage hbig hdefault)⟩
    | false =>
      rw [hbig, if_neg Bool.false_ne_true] at h₃
      exact ⟨operand.id, hmade h₃ (fun _ => rfl) (by simp [hbig])⟩
  · rw [pure_bind, run_isUntypedBig_bind] at h₂
    split at h₂
    · obtain ⟨_, _, -, h₂⟩ := bind_ok.mp h₂
      exact (hnone h₂).elim
    · exact (hnone h₂).elim

theorem convertOperand_mode {callee : HostId} {target : TypeId}
    (h : convertOperand callee target operand span c s = (.ok r, s')) : r.mode = .value := by
  have hof {s₁ : State} {arg : HostId} {value : Option Constant} (h : (do
      return Operand.ofConstant (← place (.call callee [arg] false) span) target value span)
      c s₁ = (.ok r, s')) : r.mode = .value := by
    obtain ⟨_, _, -, h⟩ := bind_ok.mp h
    obtain ⟨rfl, -⟩ := pure_ok.mp h
    rfl
  have hargument {s₁ : State} {value : Option Constant} (h : (do
      let argument ← if ← isUntypedBig operand.type then pure (← defaultValue operand).1
        else pure operand.id
      return Operand.ofConstant (← place (.call callee [argument] false) span) target value span)
      c s₁ = (.ok r, s')) : r.mode = .value := by
    rw [run_isUntypedBig_bind] at h
    split at h
    · obtain ⟨_, _, -, h⟩ := bind_ok.mp h
      exact hof h
    · exact hof h
  unfold convertOperand at h
  obtain ⟨_, s₁, -, h₁⟩ := bind_ok.mp h
  obtain ⟨_, _, ⟨⟩, h₂⟩ := bind_ok.mp h₁
  clear h h₁
  dsimp only at h₂
  rw [run_read] at h₂
  split at h₂
  · obtain ⟨_, _, -, h₂⟩ := bind_ok.mp h₂
    obtain ⟨rfl, -⟩ := pure_ok.mp h₂
    rfl
  · split at h₂
    · obtain ⟨_, _, -, h₂⟩ := bind_ok.mp h₂
      exact hargument h₂
    · exact hargument h₂

/-- A conversion is a literal or converts its argument. -/
theorem lowerConversion_ok {callee : Operand} {args : List Argument}
    (h : lowerConversion walk callee args span c s = (.ok r, s')) :
    (r.constant = none ∧ r.IsResult s'.types) ∨ ∃ argument operand s₁, args = [argument] ∧
      lowerArgument walk argument .none c s = (.ok operand, s₁) ∧
      convertOperand callee.id callee.type operand span c s₁ = (.ok r, s') := by
  match args with
  | [argument] =>
    have hconvert (h : (do
        convertOperand callee.id callee.type (← lowerArgument walk argument .none) span)
        c s = (.ok r, s')) : ∃ only operand s₁, [argument] = [only] ∧
        lowerArgument walk only .none c s = (.ok operand, s₁) ∧
        convertOperand callee.id callee.type operand span c s₁ = (.ok r, s') := by
      obtain ⟨operand, s₁, hargument, h⟩ := bind_ok.mp h
      exact ⟨argument, operand, s₁, rfl, hargument, h⟩
    obtain ⟨_, _, ⟨⟩, h⟩ := bind_ok.mp h
    obtain ⟨_, _, ⟨⟩, h⟩ := bind_ok.mp h
    cases helements : bareElements? c.unit argument with
    | none =>
      rw [helements] at h
      exact .inr (hconvert h)
    | some elements =>
      cases hcomposite : s.types.isComposite callee.type with
      | true =>
        rw [helements, hcomposite] at h
        exact .inl (Plain.plain h)
      | false =>
        rw [helements, hcomposite] at h
        exact .inr (hconvert h)
  | [] =>
    unfold lowerConversion at h
    exact absurd h Fails.fails
  | _ :: _ :: _ =>
    unfold lowerConversion at h
    exact absurd h Fails.fails

theorem known_convertOperand {s₀ : State} {callee : HostId} {target : TypeId}
    (hwritten : final.WritesTyped) (hoperand : KnownForm final s₀ operand)
    (hcallee : final.tree.kind callee = .typeExpression target)
    (h : convertOperand callee target operand span c s = (.ok r, s')) (hfinal : Extends s' final) :
    KnownForm final s' r := by
  have hs := Steady.run (m := convertOperand callee target operand span) inferInstance c s
  rw [h] at hs
  have hgrows := (hs.trans hfinal).types
  refine ⟨fun hsome => .inr ?_, fun htype => ?_⟩
  · obtain ⟨arg, hconverts⟩ := convertOperand_known h hsome
    obtain ⟨kind, -, hkind, hscalar⟩ := hconverts.scalar
    have hnode := hconverts.node final.tree hfinal.tree
    rw [hconverts.type]
    refine ⟨hwritten callee target hcallee, ⟨kind, hkind, hscalar.imp And.left id⟩, arg,
      .call hnode hcallee, ?_⟩
    cases hbig : s.types.isBig operand.type with
    | true => exact .inr (hconverts.unbounded hbig final.tree hfinal.tree)
    | false =>
      rw [hconverts.ordinary hbig]
      exact .inl (hoperand.isInert (hconverts.constant ▸ hsome) hconverts.untyped hgrows)
  · rw [convertOperand_mode h] at htype
    cases htype

/-- The value that a pointer points to. -/
theorem plain_dereferenced : Plain (do
    checkValue operand
    let dereference (type : TypeId) : Lower Operand := do
      return .value (← place (.dereference operand.id) span) type span
    match (← getTypes).shape operand.type with
    | .pointer target => dereference target
    | .invalid => dereference operand.type
    | _ => failOperation "*" operand.type span) := by
  refine plain_bind (h := fun _ => plain_bind (h := fun types => ?_))
  dsimp only
  split <;> infer_instance

theorem gives_lowerDereference (inner : NodeId) :
    Gives c final (lowerDereference walk inner span) (KnownForm final) := by
  unfold lowerDereference
  refine .after (fun operand => .ite (fun _ => .after (fun type => ?_))
    (fun _ => plain_dereferenced.gives))
  refine Gives.place.bind (fun id s₁ r s' hkind hrun _ => ?_)
  obtain ⟨rfl, rfl⟩ := pure_ok.mp hrun
  exact known_of_constant_eq_none rfl (fun _ => hkind)

/-- The call of a value. -/
theorem plain_calledValue {callee : Operand} {args : List Argument} {spread : Bool} : Plain (do
    if ← isInvalid callee.type then
      let operands ← args.mapM (lowerArgument walk · .none)
      let id ← place (.call callee.id (operands.map (·.id)) spread) span
      return .value id callee.type span
    else
      match (← getTypes).signature? callee.type with
      | some sig =>
        let ids ← lowerArguments walk sig args spread span
        let id ← place (.call callee.id ids spread) span
        resultOperand id sig.results span
      | none => fail (.notCallable (← textAt callee.span)) callee.span : Lower Operand) := by
  refine plain_bind (h := fun invalid => plain_ite (k := plain_bind (h := fun types => ?_)))
  split <;> infer_instance

/-! ## Parts that lower their operands -/

section

variable (hwalk : ∀ id expect, Gives c final (walk.expr id expect) (KnownForm final))

include hwalk

theorem gives_lowerUnary (op : UnaryOp) (operand : NodeId) (expect : Expectation) :
    Gives c final (lowerUnary walk op operand span expect) (KnownForm final) := by
  unfold lowerUnary
  split
  · exact Plain.gives inferInstance
  · exact Plain.gives inferInstance
  · exact Gives.bind (hwalk operand .none)
      (fun _ _ _ _ hoperand hrun hfinal => known_lowerUnaryOperand hoperand hrun hfinal)

theorem gives_lowerArgument (argument : Argument) (expect : Expectation) :
    Gives c final (lowerArgument walk argument expect) (KnownForm final) := by
  cases argument with
  | node id => exact hwalk id expect
  | signed op operand span => exact gives_lowerUnary hwalk op operand expect

/-- Values in parentheses are as those without, and types are not kept in them. -/
theorem gives_lowerGrouping (inner : NodeId) (expect : Expectation) :
    Gives c final (lowerGrouping walk inner span expect) (KnownForm final) := by
  unfold lowerGrouping
  refine Gives.bind (hwalk inner expect) (fun operand s₁ r s' hoperand hrun hfinal => ?_)
  obtain ⟨_, _, ⟨⟩, hrest⟩ := bind_ok.mp hrun
  split at hrest
  · obtain ⟨rfl, rfl⟩ := pure_ok.mp hrest
    exact hoperand
  · rename_i hvalue
    obtain ⟨id, s₂, hplace, hrest⟩ := bind_ok.mp hrest
    obtain ⟨rfl, rfl⟩ := pure_ok.mp hrest
    have hkind := (addNode_ok hplace).kind_of_grows hfinal.tree
    have htypes : s₂.types = s₁.types := by
      obtain ⟨-, rfl⟩ := Prod.mk.inj hplace
      rfl
    refine ⟨fun hsome => ?_, fun htype => ?_⟩
    · rcases hoperand.constant hsome with hinert | ⟨htyped, hscalar, arg, hconverts, harg⟩
      · refine .inl (HostTree.isInert_iff.mpr ?_)
        rw [hkind]
        exact ⟨rfl, fun child hchild => List.mem_singleton.mp hchild ▸ hinert⟩
      · exact .inr ⟨htyped, htypes ▸ hscalar, arg, .paren hkind hconverts, harg⟩
    · rw [Operand.isValue, show operand.mode = .type from htype] at hvalue
      exact absurd rfl hvalue

variable (hwritten : final.WritesTyped)

include hwritten

theorem known_lowerConversion {s₀ : State} {callee : Operand} {args : List Argument}
    (hcallee : KnownForm final s₀ callee) (hmode : callee.mode = .type)
    (h : lowerConversion walk callee args span c s = (.ok r, s')) (hfinal : Extends s' final) :
    KnownForm final s' r := by
  rcases lowerConversion_ok h with ⟨hconstant, hresult⟩ | ⟨argument, operand, s₁, -, ha, hconvert⟩
  · exact known_of_constant_eq_none hconstant (fun htype => absurd htype hresult.mode_ne_type)
  · have hs := Steady.run (m := convertOperand callee.id callee.type operand span) inferInstance
      c s₁
    rw [hconvert] at hs
    have hoperand := gives_lowerArgument hwalk argument .none ha (hs.trans hfinal)
    exact known_convertOperand hwritten hoperand (hcallee.type hmode) hconvert hfinal

theorem known_callOperand {s₀ : State} {callee : Operand} {args : List Argument} {spread : Bool}
    {expect : Expectation} (hcallee : KnownForm final s₀ callee)
    (h : callOperand walk callee args spread span expect c s = (.ok r, s'))
    (hfinal : Extends s' final) : KnownForm final s' r := by
  cases hmode : callee.mode with
  | type =>
    rw [callOperand, hmode] at h
    exact known_lowerConversion hwalk hwritten hcallee hmode h hfinal
  | value =>
    rw [callOperand, hmode] at h
    exact plain_calledValue.gives h hfinal
  | _ =>
    rw [callOperand, hmode] at h
    exact Plain.gives inferInstance h hfinal

variable [walk.Keeps extension]

omit hwritten in
theorem gives_lowerBinary (op : BinaryOp) (left right : NodeId) :
    Gives c final (do
      let left ← walk.expr left .none
      let right ← walk.expr right .none
      lowerBinary op left right span) (KnownForm final) :=
  Gives.bind (hwalk left .none) (fun _ _ _ _ hleft hrun hfinal =>
    Gives.bind (hwalk right .none) (fun _ _ _ _ hright hrun hfinal =>
      known_lowerBinary hleft hright hrun hfinal) hrun hfinal)

theorem gives_lowerCall (callee : NodeId) (args : List NodeId) (spread : Bool)
    (expect : Expectation) :
    Gives c final (lowerCall walk callee args spread span expect) (KnownForm final) :=
  Gives.bind (hwalk callee .called) (fun _ _ _ _ hcallee hrun hfinal =>
    known_callOperand hwalk hwritten hcallee hrun hfinal)

theorem gives_lowerAmbiguousCommand (head : NodeId) (op : UnaryOp) (operand : NodeId)
    (expect : Expectation) :
    Gives c final (lowerAmbiguousCommand walk head op operand span expect) (KnownForm final) := by
  unfold lowerAmbiguousCommand
  refine Gives.bind (g := fun head => ?_) (hwalk head .called)
    (fun head _ _ _ hhead hrun hfinal => ?_)
  · refine Keeps.before (fun callable => ?_)
    split
    · infer_instance
    · split <;> infer_instance
  have hcalled (argument : Argument) :
      Gives c final (callOperand walk head [argument] false span expect) (KnownForm final) :=
    fun _ _ _ hrun hfinal => known_callOperand hwalk hwritten hhead hrun hfinal
  have hbinary (binary : BinaryOp) : Gives c final (do
      lowerBinary binary head (← walk.expr operand .none) span) (KnownForm final) :=
    Gives.bind (hwalk operand .none) (fun _ _ _ _ hoperand hrun hfinal =>
      known_lowerBinary hhead hoperand hrun hfinal)
  refine Gives.after (fun callable => Gives.ite (fun _ => .after (fun _ => hcalled _))
    (fun _ => ?_)) hrun hfinal
  split
  · exact hbinary _
  · exact Plain.gives inferInstance

theorem gives_lowerExprKind (expression : Expr) (expect : Expectation) :
    Gives c final (lowerExprKind walk expression span expect) (KnownForm final) := by
  cases expression with
  | identifier name => exact gives_lowerIdentifier name known_nameOperand?
  | literal kind text =>
    change Gives c final (lowerLiteral kind text span) (KnownForm final)
    unfold lowerLiteral
    split
    · exact gives_leaf rfl rfl (fun _ => rfl) (fun _ => OperandMode.value_ne_type)
    · exact .failing
  | grouping inner => exact gives_lowerGrouping hwalk inner expect
  | member object name =>
    exact gives_lowerMember object name expect
      (fun resolution path => gives_resolvedOperand resolution (some path)) Plain.gives
  | call callee args spread => exact gives_lowerCall hwalk hwritten callee args spread expect
  | command head args => exact gives_lowerCall hwalk hwritten head args false expect
  | ambiguousCommand head op operand =>
    exact gives_lowerAmbiguousCommand hwalk hwritten head op operand expect
  | dereference inner => exact gives_lowerDereference inner
  | unary op operand => exact gives_lowerUnary hwalk op operand expect
  | binary op left right => exact gives_lowerBinary hwalk op left right
  | _ => exact Plain.gives (by unfold lowerExprKind; infer_instance)

theorem gives_lowerExpr (id : NodeId) (expect : Expectation) :
    Gives c final (lowerExpr walk id expect) (KnownForm final) := by
  unfold lowerExpr
  refine .after (fun span => .after (fun context => ?_))
  split
  · exact gives_lowerExprKind hwalk hwritten _ expect
  · exact .after (fun type => gives_typeOperand type)

end

/-- A known value is static unless it is a conversion of what an initializer builds. -/
theorem KnownForm.isStatic_iff (h : KnownForm final s r) (hsome : r.constant.isSome = true) :
    final.tree.IsStatic s.types r.id ↔ ¬final.tree.ConvertsCall r.id := by
  constructor
  · rintro hstatic ⟨type, arg, hconverts, hcalls⟩
    exact hcalls.not_isStatic hconverts.reaches hstatic
  · intro hordinary
    rcases h.constant hsome with hinert | ⟨-, hscalar, arg, hconverts, harg | hcalls⟩
    · exact hinert.isStatic
    · exact hconverts.isStatic hscalar harg
    · exact absurd ⟨_, arg, hconverts, hcalls⟩ hordinary

/-- What stands for an expression whose value is known. -/
theorem known_walkWithin (hwritten : final.WritesTyped) (depth : Nat) (id : NodeId)
    (expect : Expectation) :
    Gives c final ((walkWithin depth).expr id expect) (KnownForm final) := by
  induction depth generalizing id expect with
  | zero => exact .after (fun _ => .failing)
  | succ depth ih => exact gives_lowerExpr ih hwritten id expect

end Lowering

end GoLowering
