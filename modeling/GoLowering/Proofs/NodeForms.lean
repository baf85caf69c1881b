import GoLowering.Host.Rendering
import GoLowering.Proofs.Comprehensions
import GoLowering.Proofs.ErrorClosures

/-!
# Forms of nodes

What a node may refer to when it is made (`Context.Fits`): on a line of its own text stand only
expressions and simple statements, and the nodes that it refers to are there already. A few places
are loose: what stands there is not asked to be a value. The block that a `?` makes of a call
without values can come to them, and in the header of a statement whatever the header is written
with. The names that a node declares are written in the source, or are those of generated code.

Every node of a lowering fits if it does so when it is made, as nodes are never changed
(`Context.Formed`). That it does is told from what is known before: which nodes are there, and which
of them are expressions (`Fact`). That stays known, as trees only grow.
-/

namespace GoLowering

namespace HostKind

/-- The parts of a node that are taken as they are: arguments, what is assigned to nothing, and the
statements in headers. -/
def looseParts : HostKind → List HostId
  | call _ args _ => args
  | assign [] _ rhs => rhs
  | varDecl ⟨[], _, values, _⟩ => values
  | ifElse init _ _ _ | switch init _ _ | typeSwitch init _ _ _ => init.toList
  | loop init _ post _ => init.toList ++ post.toList
  | select cases => cases.flatMap (·.comm.toList)
  | _ => []

/-- The identifiers of a node that it declares. -/
def defined : HostKind → List HostId
  | assign lhs .define _ => lhs
  | range key value true _ _ => key.toList ++ value.toList
  | _ => []

end HostKind

/-- The names that a signature declares for a body. -/
def HostSignature.names (signature : HostSignature) : List String :=
  (signature.params ++ signature.results).filterMap (·.name)

/-- The names that a node declares itself. A method has a name of its own in no scope. -/
def HostKind.names : HostKind → List String
  | functionLiteral signature _ => signature.names
  | varDecl spec | constDecl spec => spec.names
  | typeDecl name _ _ _ => [name]
  | typeSwitch _ binding _ _ => binding.toList
  | function decl =>
    match decl.receiver with
    | some receiver => receiver.name.toList ++ decl.signature.names
    | none => decl.name :: decl.signature.names
  | _ => []

/-- The names that are declared at a node of a tree. -/
def HostTree.declaredAt (tree : HostTree) (id : HostId) : List String :=
  (tree.kind id).names ++ (tree.kind id).defined.filterMap tree.name?

namespace Surface

/-- The names of parameters. -/
def paramNames (params : List Param) : List String := params.filterMap (·.name)

def ForClause.names (clause : ForClause) : List String := clause.key.toList ++ clause.value.toList

/-- Whether a statement can stand in a header: an expression, an assignment, a step up or down, a
send, or a declaration of variables. -/
def Stmt.isShort : Stmt → Bool
  | .expression _ | .assign .. | .incDec .. | .send .. | .varDecl _ => true
  | _ => false

namespace SourceUnit

variable (unit : SourceUnit)

/-- The names that a statement declares. -/
def stmtNames : Stmt → List String
  | .assign lhs .define _ => lhs.filterMap unit.identifier?
  | .varDecl spec | .constDecl spec => spec.names
  | .typeDecl name _ _ _ => [name]
  | .function decl =>
    match decl.receiver with
    | some receiver => receiver.name.toList
    | none => [decl.name]
  | .range key value true _ _ => (key.toList ++ value.toList).filterMap unit.identifier?
  | .forPhrase clause _ => clause.names
  | .typeSwitch _ binding _ _ => binding.toList
  | _ => []

/-- The names that an expression declares. -/
def exprNames : Expr → List String
  | .lambda params _ => params
  | .comprehension _ clauses => clauses.flatMap (·.names)
  | _ => []

/-- The names that are declared at a node. Those of a function type are declared where it is the
signature of a function. -/
def namesAt (id : NodeId) : List String :=
  match unit.get? id with
  | some ⟨.stmt statement, _⟩ => unit.stmtNames statement
  | some ⟨.expr expression, _⟩ => exprNames expression
  | some ⟨.type (.func params results _), _⟩ => paramNames params ++ paramNames results
  | _ => []

/-- The statements in the header of a statement. -/
def headersOf : Stmt → List NodeId
  | .ifElse init _ _ _ | .switch init _ _ | .typeSwitch init _ _ _ => init.toList
  | .loop init _ post _ => init.toList ++ post.toList
  | .forPhrase clause _ => clause.init.toList
  | .select clauses => clauses.flatMap (·.comm.toList)
  | _ => []

/-- The statements in the headers of a node. -/
def headersAt (id : NodeId) : List NodeId :=
  match unit.get? id with
  | some ⟨.stmt statement, _⟩ => headersOf statement
  | some ⟨.expr (.comprehension _ clauses), _⟩ => clauses.flatMap (·.init.toList)
  | _ => []

variable {unit}

theorem namesAt_stmt {id : NodeId} {statement : Stmt} (h : unit.stmt? id = some statement) :
    unit.namesAt id = unit.stmtNames statement ∧ unit.headersAt id = headersOf statement := by
  unfold stmt? at h
  unfold namesAt headersAt
  split at h
  · rename_i hget
    obtain rfl := Option.some.inj h
    rw [hget]
    exact ⟨rfl, rfl⟩
  · cases h

theorem namesAt_expr {id : NodeId} {expression : Expr} (h : unit.expr? id = some expression) :
    unit.namesAt id = exprNames expression := by
  unfold expr? at h
  unfold namesAt
  split at h
  · rename_i hget
    obtain rfl := Option.some.inj h
    rw [hget]
  · cases h

theorem headersAt_comprehension {id : NodeId} {yields : Yield} {clauses : List ForClause}
    (h : unit.expr? id = some (.comprehension yields clauses)) :
    unit.headersAt id = clauses.flatMap (·.init.toList) := by
  unfold expr? at h
  unfold headersAt
  split at h
  · rename_i hget
    obtain rfl := Option.some.inj h
    rw [hget]
  · cases h

theorem namesAt_func {id : NodeId} {params results : List Param} {variadic : Bool}
    (h : unit.type? id = some (.func params results variadic)) :
    unit.namesAt id = paramNames params ++ paramNames results := by
  unfold type? at h
  unfold namesAt
  split at h
  · rename_i hget
    obtain rfl := Option.some.inj h
    rw [hget]
  · cases h

variable (unit)

/-- Whether what stands at a node can stand in a header. -/
def isShort (id : NodeId) : Bool := (unit.stmt? id).all Stmt.isShort

/-- In the headers of statements there are only statements that can stand there. -/
def ShortHeaders : Prop := ∀ id, ∀ part ∈ unit.headersAt id, unit.isShort part = true

theorem namesAt_eq_nil {unit : SourceUnit} {id : NodeId} (h : unit.nodes.size ≤ id.index) :
    unit.namesAt id = [] := by
  unfold namesAt get?
  rw [Array.getElem?_eq_none h]

instance (name : String) : Decidable (∃ id, name ∈ unit.namesAt id) := by
  refine decidable_of_iff (∃ n < unit.nodes.size, name ∈ unit.namesAt ⟨n⟩)
    ⟨fun ⟨n, _, h⟩ => ⟨⟨n⟩, h⟩, fun ⟨id, h⟩ => ⟨id.index, ?_, h⟩⟩
  by_contra hn
  rw [namesAt_eq_nil (Nat.not_lt.mp hn)] at h
  cases h

theorem headersAt_eq_nil {unit : SourceUnit} {id : NodeId} (h : unit.nodes.size ≤ id.index) :
    unit.headersAt id = [] := by
  unfold headersAt get?
  rw [Array.getElem?_eq_none h]

instance : Decidable unit.ShortHeaders :=
  decidable_of_iff
    (∀ n < unit.nodes.size, ∀ part ∈ unit.headersAt ⟨n⟩, unit.isShort part = true)
    ⟨fun h id part hpart => h id.index (by
      by_contra hn
      rw [headersAt_eq_nil (Nat.not_lt.mp hn)] at hpart
      cases hpart) part hpart, fun h n _ => h ⟨n⟩⟩

/-- Some expression returns its error. -/
def Propagates : Prop := ∃ id inner, unit.expr? id = some (.errorWrap inner .propagate)

end SourceUnit

end Surface

namespace Lowering

open Surface

/-- What a name is that is declared in the output: a name that the source declares, one of generated
code, or that of the entry. -/
class inductive Context.Declares (c : Context) (name : String) : Prop
  | source (id : NodeId) (h : name ∈ c.unit.namesAt id)
  | reserved (h : Names.IsReserved name)
  | found (h : name = Names.ok)
  | iterator (h : name = Names.iterator)
  | temporary (number : Nat) (h : name = Names.temporary number)
  | blank (h : name = Names.blank)
  | parsed (h : name = "v")
  | entry (h : name = c.settings.entryRole.functionName)

namespace Context

theorem Declares.of_stmt {c : Context} {id : NodeId} {statement : Stmt}
    (hstmt : c.unit.stmt? id = some statement) {name : String}
    (h : name ∈ c.unit.stmtNames statement) : c.Declares name :=
  .source id ((SourceUnit.namesAt_stmt hstmt).1.symm ▸ h)

variable (c : Context)

/-- A node is the block that a `?` makes. -/
structure IsBlock (tree : HostTree) (id : HostId) : Prop where
  kind : ∃ statements, tree.kind id = .block statements
  propagates : c.unit.Propagates

/-- A part of a node fits where the nodes before the `n`-th one are there. -/
def Suits (tree : HostTree) (n : Nat) (kind : HostKind) : HostKind.Part → Prop
  | .package _ | .type _ => True
  | .inline id => id.index < n ∧ ((tree.kind id).isInline ∨ id ∈ kind.looseParts ∧
      (c.unit.ShortHeaders → c.IsBlock tree id))
  | .statement id | .body id => id.index < n

/-- A node is a name that can be declared. -/
def IsDeclarable (tree : HostTree) (id : HostId) : Prop :=
  ∃ name, tree.kind id = .identifier name ∧ c.Declares name

/-- A node can be made where the nodes before the `n`-th one are there. -/
structure Fits (tree : HostTree) (n : Nat) (kind : HostKind) : Prop where
  suits : ∀ types, ∀ part ∈ kind.parts types, c.Suits tree n kind part
  branch : ∀ branch ∈ kind.elseBranch?, branch.index < n
  names : ∀ name ∈ kind.names, c.Declares name
  defined : ∀ id ∈ kind.defined, id.index < n ∧ c.IsDeclarable tree id

/-- All nodes of a tree fit. -/
def Formed (tree : HostTree) : Prop :=
  ∀ id, id.index < tree.size → c.Fits tree id.index (tree.kind id)

variable {c} {tree tree' : HostTree} {n n' : Nat} {kind : HostKind} {part : HostKind.Part}
  {id : HostId}

theorem IsBlock.grows (h : c.IsBlock tree id) (hid : id.index < tree.size)
    (hgrows : tree.Grows tree') : c.IsBlock tree' id :=
  ⟨hgrows.kind_eq hid ▸ h.kind, h.propagates⟩

theorem Suits.grows (h : c.Suits tree n kind part) (hn : n ≤ tree.size)
    (hgrows : tree.Grows tree') : c.Suits tree' n kind part := by
  cases part with
  | inline id =>
    obtain ⟨hid, hfits⟩ := h
    have hin := Nat.lt_of_lt_of_le hid hn
    refine ⟨hid, ?_⟩
    rw [hgrows.kind_eq hin]
    exact hfits.imp_right (fun h => ⟨h.1, fun hshort => (h.2 hshort).grows hin hgrows⟩)
  | _ => exact h

theorem Fits.grows (h : c.Fits tree n kind) (hn : n ≤ tree.size) (hgrows : tree.Grows tree') :
    c.Fits tree' n kind where
  suits types part hpart := (h.suits types part hpart).grows hn hgrows
  branch := h.branch
  names := h.names
  defined id hid := by
    obtain ⟨hlt, hname⟩ := h.defined id hid
    refine ⟨hlt, ?_⟩
    unfold IsDeclarable
    rwa [hgrows.kind_eq (Nat.lt_of_lt_of_le hlt hn)]

theorem Suits.mono (h : c.Suits tree n kind part) (hn : n ≤ n') : c.Suits tree n' kind part := by
  cases part with
  | inline id => exact ⟨Nat.lt_of_lt_of_le h.1 hn, h.2⟩
  | statement id | body id => exact Nat.lt_of_lt_of_le (show id.index < n from h) hn
  | _ => exact h

theorem Fits.mono (h : c.Fits tree n kind) (hn : n ≤ n') : c.Fits tree n' kind where
  suits types part hpart := (h.suits types part hpart).mono hn
  branch branch hbranch := Nat.lt_of_lt_of_le (h.branch branch hbranch) hn
  names := h.names
  defined id hid := ⟨Nat.lt_of_lt_of_le (h.defined id hid).1 hn, (h.defined id hid).2⟩

/-- A tree stays formed when a node is added that fits. -/
theorem Formed.add (h : c.Formed tree) (hkind : c.Fits tree tree.size kind)
    (origin : Option Span) : c.Formed (tree.add kind origin).2 := by
  intro id hid
  have hgrows := tree.grows_add kind origin
  rw [HostTree.size_add] at hid
  rcases Nat.lt_succ_iff_lt_or_eq.mp hid with hlt | heq
  · rw [hgrows.kind_eq hlt]
    exact (h id hlt).grows hlt.le hgrows
  · obtain rfl : id = ⟨tree.size⟩ := by cases id; exact congrArg _ heq
    rw [HostTree.kind_add]
    exact hkind.grows (Nat.le_refl _) hgrows

theorem formed_empty : c.Formed .empty := fun _ hid => absurd hid (Nat.not_lt_zero _)

end Context

end Lowering

end GoLowering

/-! ## What is known of nodes -/

namespace GoLowering.Lowering

open Surface

/-- Something that is known of a state and of all states after it. -/
structure Fact where
  Holds : State → Prop
  stays : ∀ {s t : State}, s.Precedes t → Holds s → Holds t

namespace Fact

def known (p : Prop) : Fact := ⟨fun _ => p, fun _ h => h⟩

/-- Nothing is known. -/
abbrev nothing : Fact := known True

def and (φ ψ : Fact) : Fact :=
  ⟨fun s => φ.Holds s ∧ ψ.Holds s, fun hs h => ⟨φ.stays hs h.1, ψ.stays hs h.2⟩⟩

/-- Something is known in a case. -/
def when (p : Prop) (φ : Fact) : Fact := ⟨fun s => p → φ.Holds s, fun hs h hp => φ.stays hs (h hp)⟩

def each {α : Type} (φ : α → Fact) (as : List α) : Fact :=
  ⟨fun s => ∀ a ∈ as, (φ a).Holds s, fun hs h a ha => (φ a).stays hs (h a ha)⟩

/-- A node is there. -/
def node (id : HostId) : Fact :=
  ⟨fun s => id.index < s.tree.size, fun hs h => Nat.lt_of_lt_of_le h hs.tree.size_le⟩

/-- A node that is there, and something about it. -/
def about (id : HostId) (P : HostTree → Prop)
    (hP : ∀ {t u : HostTree}, id.index < t.size → t.Grows u → P t → P u) : Fact where
  Holds s := id.index < s.tree.size ∧ P s.tree
  stays hs h := ⟨Nat.lt_of_lt_of_le h.1 hs.tree.size_le, hP h.1 hs.tree h.2⟩

/-- A node is an expression or a simple statement. -/
def inline (id : HostId) : Fact :=
  about id (fun t => (t.kind id).isInline) (fun hid hgrows h => hgrows.kind_eq hid ▸ h)

/-- What is known of a node that has been made. -/
abbrev made : HostKind → HostId → Fact
  | .typeDecl .., id | .block _, id | .ifElse .., id | .loop .., id | .range .., id
  | .switch .., id | .typeSwitch .., id | .select _, id | .labeled .., id | .function _, id =>
    node id
  | _, id => inline id

variable (c : Context)

/-- A node can stand in a loose place. -/
def loose (id : HostId) : Fact :=
  about id (fun t => (t.kind id).isInline ∨ (c.unit.ShortHeaders → c.IsBlock t id))
    (fun hid hgrows h => by
      rw [hgrows.kind_eq hid]
      exact h.imp_right (fun h hshort => (h hshort).grows hid hgrows))

/-- A node is a simple statement, or the block that a `?` makes. -/
def simple (id : HostId) : Fact :=
  about id (fun t => (t.kind id).isInline ∨ c.IsBlock t id) (fun hid hgrows h => by
    rw [hgrows.kind_eq hid]
    exact h.imp_right (·.grows hid hgrows))

/-- A node is what a statement has become. -/
def statement (source : NodeId) (id : HostId) : Fact :=
  when (c.unit.isShort source) (simple c id)

/-- A node is the block that a `?` makes. -/
def block (id : HostId) : Fact := about id (c.IsBlock · id) (fun hid hgrows h => h.grows hid hgrows)

/-- A node is a name that can be declared. -/
def declarable (id : HostId) : Fact :=
  about id (fun t => c.IsDeclarable t id) (fun hid hgrows h => by
    unfold Context.IsDeclarable
    rwa [hgrows.kind_eq hid])

/-- An operand is an expression, or else the block of a call without values. -/
def operand (o : Operand) : Fact where
  Holds s := o.id.index < s.tree.size ∧ ((s.tree.kind o.id).isInline ∨ o.mode = .noValue ∧
    o.constant = none ∧ s.types.get o.type = .tuple [] ∧ c.IsBlock s.tree o.id)
  stays hs h := by
    obtain ⟨hid, h⟩ := h
    refine ⟨Nat.lt_of_lt_of_le hid hs.tree.size_le, ?_⟩
    rw [hs.tree.kind_eq hid]
    refine h.imp_right (fun ⟨hmode, hconstant, htype, hblock⟩ =>
      ⟨hmode, hconstant, ?_, hblock.grows hid hs.tree⟩)
    exact hs.types.get_eq (by rw [htype]; nofun) (by rw [htype]; rfl) ▸ htype

/-- A node can be made. -/
def fits (kind : HostKind) : Fact where
  Holds s := c.Fits s.tree s.tree.size kind
  stays hs h := (h.grows (Nat.le_refl _) hs.tree).mono hs.tree.size_le

/-- A part of a node fits. -/
def part (kind : HostKind) (part : HostKind.Part) : Fact where
  Holds s := c.Suits s.tree s.tree.size kind part
  stays hs h := (h.grows (Nat.le_refl _) hs.tree).mono hs.tree.size_le

/-- An element of a composite literal is made of expressions. -/
abbrev element (e : HostElement) : Fact := (each inline e.key.toList).and (inline e.value)

abbrev hostCase (clause : HostCase) : Fact :=
  (each inline (clause.values.getD [])).and (each node clause.body)

abbrev typeCase (clause : HostTypeCase) : Fact := each node clause.body

abbrev selectCase (clause : HostSelectCase) : Fact :=
  (each (loose c) clause.comm.toList).and (each node clause.body)

end Fact

/-- What is known lets something else be known. -/
class Yields (Γ φ : Fact) : Prop where
  of {s : State} : Γ.Holds s → φ.Holds s

section

variable {c : Context} {Γ φ ψ χ : Fact} {α β : Type} {id : HostId} {ids : List HostId}

instance (priority := 60) yields_last : Yields (Γ.and φ) φ := ⟨And.right⟩

instance (priority := 40) yields_before [h : Yields Γ φ] : Yields (Γ.and ψ) φ :=
  ⟨fun hs => h.of hs.1⟩

instance yields_nothing : Yields Γ .nothing := ⟨fun _ => trivial⟩

instance yields_and [hφ : Yields Γ φ] [hψ : Yields Γ ψ] : Yields Γ (φ.and ψ) :=
  ⟨fun hs => ⟨hφ.of hs, hψ.of hs⟩⟩

instance (priority := 50) yields_of_and [h : Yields ((Γ.and φ).and ψ) χ] :
    Yields (Γ.and (φ.and ψ)) χ :=
  ⟨fun hs => h.of ⟨⟨hs.1, hs.2.1⟩, hs.2.2⟩⟩

/-! ## Lists -/

variable {P : α → Fact}

instance yields_nil : Yields Γ (.each P []) := ⟨fun _ => nofun⟩

instance yields_cons {a : α} {as : List α} [ha : Yields Γ (P a)] [has : Yields Γ (.each P as)] :
    Yields Γ (.each P (a :: as)) :=
  ⟨fun hs => List.forall_mem_cons.mpr ⟨ha.of hs, has.of hs⟩⟩

instance yields_append {as bs : List α} [has : Yields Γ (.each P as)]
    [hbs : Yields Γ (.each P bs)] : Yields Γ (.each P (as ++ bs)) :=
  ⟨fun hs => List.forall_mem_append.mpr ⟨has.of hs, hbs.of hs⟩⟩

instance yields_map {f : β → α} {bs : List β} [h : Yields Γ (.each (fun b => P (f b)) bs)] :
    Yields Γ (.each P (bs.map f)) :=
  ⟨fun hs => List.forall_mem_map.mpr (h.of hs)⟩

instance yields_unzip {ps : List (α × β)} [h : Yields Γ (.each (fun p => P p.1) ps)] :
    Yields Γ (.each P ps.unzip.1) := by
  rw [List.unzip_fst]
  exact yields_map

instance yields_flatMap {f : β → List α} {bs : List β}
    [h : Yields Γ (.each (fun b => .each P (f b)) bs)] : Yields Γ (.each P (bs.flatMap f)) := by
  refine ⟨fun hs a ha => ?_⟩
  obtain ⟨b, hb, hab⟩ := List.mem_flatMap.mp ha
  exact h.of hs b hb a hab

instance yields_flatten {ass : List (List α)} [h : Yields Γ (.each (.each P) ass)] :
    Yields Γ (.each P ass.flatten) := by
  refine ⟨fun hs a ha => ?_⟩
  obtain ⟨as, has, ha⟩ := List.mem_flatten.mp ha
  exact h.of hs as has a ha

instance yields_known_each {p : α → Prop} {as : List α}
    [h : Yields Γ (.each (fun a => .known (p a)) as)] : Yields Γ (.known (∀ a ∈ as, p a)) :=
  ⟨h.of⟩

theorem yields_imp {Q : α → Fact} {as : List α} [h : Yields Γ (.each P as)]
    (himp : ∀ a, Yields (P a) (Q a)) : Yields Γ (.each Q as) :=
  ⟨fun hs a ha => (himp a).of (h.of hs a ha)⟩

instance (priority := 70) yields_self : Yields φ φ := ⟨fun hs => hs⟩

instance yields_some {a : α} [h : Yields Γ (P a)] : Yields Γ (.each P (some a).toList) :=
  ⟨fun hs => List.forall_mem_singleton.mpr (h.of hs)⟩

instance yields_none : Yields Γ (.each P (none : Option α).toList) := ⟨fun _ => nofun⟩

instance yields_optionMap {f : β → α} {b : Option β}
    [h : Yields Γ (.each (fun b => P (f b)) b.toList)] : Yields Γ (.each P (b.map f).toList) := by
  cases b with
  | none => exact yields_none
  | some b => exact ⟨fun hs => List.forall_mem_singleton.mpr (h.of hs b List.mem_cons_self)⟩

instance yields_getD_some {as : List α} [h : Yields Γ (.each P as)] :
    Yields Γ (.each P ((some as).getD [])) := h

instance yields_getD_none : Yields Γ (.each P ((none : Option (List α)).getD [])) :=
  ⟨fun _ => nofun⟩

instance (priority := 50) yields_of_some {a : α} [h : Yields (Γ.and (P a)) χ] :
    Yields (Γ.and (.each P (some a).toList)) χ :=
  ⟨fun hs => h.of ⟨hs.1, hs.2 a List.mem_cons_self⟩⟩

/-! ## Nodes and operands -/

instance yields_node [h : Yields Γ (.inline id)] : Yields Γ (.node id) := ⟨fun hs => (h.of hs).1⟩

instance yields_nodes [h : Yields Γ (.each .inline ids)] : Yields Γ (.each .node ids) :=
  ⟨fun hs id hid => (h.of hs id hid).1⟩

instance yields_looses [h : Yields Γ (.each .inline ids)] : Yields Γ (.each (.loose c) ids) :=
  ⟨fun hs id hid => ⟨(h.of hs id hid).1, .inl (h.of hs id hid).2⟩⟩

instance yields_simple [h : Yields Γ (.inline id)] : Yields Γ (.simple c id) :=
  ⟨fun hs => ⟨(h.of hs).1, .inl (h.of hs).2⟩⟩

instance yields_simple_operand {o : Operand} [h : Yields Γ (.operand c o)] :
    Yields Γ (.simple c o.id) :=
  ⟨fun hs => ⟨(h.of hs).1, (h.of hs).2.imp_right (fun hblock => hblock.2.2.2)⟩⟩

instance yields_loose_operand {o : Operand} [h : Yields Γ (.operand c o)] :
    Yields Γ (.loose c o.id) :=
  ⟨fun hs => ⟨(h.of hs).1, (h.of hs).2.imp_right (fun hblock _ => hblock.2.2.2)⟩⟩

instance yields_loose_operands {os : List Operand} [h : Yields Γ (.each (.operand c) os)] :
    Yields Γ (.each (fun o => .loose c o.id) os) :=
  ⟨fun hs o ho => ⟨(h.of hs o ho).1, (h.of hs o ho).2.imp_right (fun hblock _ => hblock.2.2.2)⟩⟩

instance yields_operand {o : Operand} [h : Yields Γ (.inline o.id)] : Yields Γ (.operand c o) :=
  ⟨fun hs => ⟨(h.of hs).1, .inl (h.of hs).2⟩⟩

instance yields_value {type : TypeId} {span : Span} [h : Yields Γ (.inline id)] :
    Yields Γ (.inline (Operand.value id type span).id) := h

instance yields_ofConstant {type : TypeId} {value : Option Constant} {span : Span}
    [h : Yields Γ (.inline id)] : Yields Γ (.inline (Operand.ofConstant id type value span).id) := h

end

/-! ## Kinds of nodes -/

section

variable {c : Context} {Γ : Fact} {kind : HostKind} {id : HostId} {ids : List HostId}

instance yields_package {path : String} : Yields Γ (.part c kind (.package path)) :=
  ⟨fun _ => trivial⟩

instance yields_types {α : Type} {type : α → TypeId} {as : List α} :
    Yields Γ (.each (fun a => .part c kind (.type (type a))) as) :=
  ⟨fun _ _ _ => trivial⟩

instance yields_type {type : TypeId} : Yields Γ (.part c kind (.type type)) := ⟨fun _ => trivial⟩

instance yields_inline [h : Yields Γ (.inline id)] : Yields Γ (.part c kind (.inline id)) :=
  ⟨fun hs => ⟨(h.of hs).1, .inl (h.of hs).2⟩⟩

instance yields_inlines [h : Yields Γ (.each .inline ids)] :
    Yields Γ (.each (fun id => .part c kind (.inline id)) ids) :=
  ⟨fun hs id hid => ⟨(h.of hs id hid).1, .inl (h.of hs id hid).2⟩⟩

instance yields_statements [h : Yields Γ (.each .node ids)] :
    Yields Γ (.each (fun id => .part c kind (.statement id)) ids) :=
  ⟨h.of⟩

instance yields_body [h : Yields Γ (.node id)] : Yields Γ (.part c kind (.body id)) := ⟨h.of⟩

/-- A name is an expression. -/
theorem inlines_of_declarable [h : Yields Γ (.each (.declarable c) ids)] :
    Yields Γ (.each .inline ids) := by
  refine ⟨fun hs id hid => ?_⟩
  obtain ⟨hid, name, hname, -⟩ := h.of hs id hid
  exact ⟨hid, by simp only [hname]; rfl⟩

theorem yields_looseParts (hloose : ∀ id ∈ ids, id ∈ kind.looseParts)
    [h : Yields Γ (.each (.loose c) ids)] :
    Yields Γ (.each (fun id => .part c kind (.inline id)) ids) :=
  ⟨fun hs id hid => ⟨(h.of hs id hid).1, (h.of hs id hid).2.imp_right (⟨hloose id hid, ·⟩)⟩⟩

/-- A node fits if its parts do and it declares what can be declared. -/
theorem Yields.fitting (hparts : ∀ types, Yields Γ (.each (.part c kind) (kind.parts types)))
    [hbranch : Yields Γ (.each .node kind.elseBranch?.toList)]
    (hnames : ∀ name ∈ kind.names, c.Declares name)
    [hdefined : Yields Γ (.each (.declarable c) kind.defined)] : Yields Γ (.fits c kind) :=
  ⟨fun hs => ⟨fun types => (hparts types).of hs,
    fun branch h => hbranch.of hs branch (Option.mem_toList.mpr h), hnames, hdefined.of hs⟩⟩

/-- A node that does not declare identifiers of its own fits if its parts do. -/
theorem Yields.declaring (hparts : ∀ types, Yields Γ (.each (.part c kind) (kind.parts types)))
    (hnames : ∀ name ∈ kind.names, c.Declares name) (hbranch : kind.elseBranch? = none)
    (hdefined : kind.defined = []) : Yields Γ (.fits c kind) := by
  have : Yields Γ (.each .node kind.elseBranch?.toList) := by rw [hbranch]; infer_instance
  have : Yields Γ (.each (.declarable c) kind.defined) := by rw [hdefined]; infer_instance
  exact .fitting hparts hnames

/-- A node that declares nothing fits if its parts do. -/
theorem Yields.fits (hparts : ∀ types, Yields Γ (.each (.part c kind) (kind.parts types)))
    (hnames : kind.names = []) (hbranch : kind.elseBranch? = none) (hdefined : kind.defined = []) :
    Yields Γ (.fits c kind) :=
  .declaring hparts (by rw [hnames]; nofun) hbranch hdefined

section

variable {object left right value body : HostId} {args values : List HostId}
  {init condition post low high max branch : Option HostId}

instance yields_identifier {name : String} : Yields Γ (.fits c (.identifier name)) :=
  .fits (fun _ => yields_nil) rfl rfl rfl

instance yields_qualified {path name : String} : Yields Γ (.fits c (.qualified path name)) :=
  .fits (fun _ => by unfold HostKind.parts; infer_instance) rfl rfl rfl

instance yields_literal {text : String} : Yields Γ (.fits c (.literal text)) :=
  .fits (fun _ => yields_nil) rfl rfl rfl

instance yields_typeExpression {type : TypeId} : Yields Γ (.fits c (.typeExpression type)) :=
  .fits (fun _ => by unfold HostKind.parts; infer_instance) rfl rfl rfl

instance yields_composite {type : Option TypeId} {elements : List HostElement}
    [Yields Γ (.each .element elements)] : Yields Γ (.fits c (.composite type elements)) := by
  refine .fits (fun _ => ?_) rfl rfl rfl
  have : Yields Γ (.each (fun e => .each (.part c (.composite type elements))
      (e.key.toList.map .inline ++ [.inline e.value])) elements) :=
    yields_imp (P := .element) (fun _ => inferInstance)
  unfold HostKind.parts
  infer_instance

theorem yields_functionLiteral {signature : HostSignature}
    (hnames : ∀ name ∈ signature.names, c.Declares name) [Yields Γ (.node body)] :
    Yields Γ (.fits c (.functionLiteral signature body)) :=
  .declaring (fun _ => by unfold HostKind.parts; infer_instance) hnames rfl rfl

instance yields_call {spread : Bool} [Yields Γ (.inline value)] [Yields Γ (.each (.loose c) args)] :
    Yields Γ (.fits c (.call value args spread)) := by
  refine .fits (fun _ => ?_) rfl rfl rfl
  have : Yields Γ (.each (fun id => .part c (.call value args spread) (.inline id)) args) :=
    yields_looseParts (fun _ h => h)
  unfold HostKind.parts
  infer_instance

instance yields_selector {name : String} [Yields Γ (.inline object)] :
    Yields Γ (.fits c (.selector object name)) :=
  .fits (fun _ => by unfold HostKind.parts; infer_instance) rfl rfl rfl

instance yields_index [Yields Γ (.inline object)] [Yields Γ (.inline value)] :
    Yields Γ (.fits c (.index object value)) :=
  .fits (fun _ => by unfold HostKind.parts; infer_instance) rfl rfl rfl

instance yields_slice [Yields Γ (.inline object)] [Yields Γ (.each .inline low.toList)]
    [Yields Γ (.each .inline high.toList)] [Yields Γ (.each .inline max.toList)] :
    Yields Γ (.fits c (.slice object low high max)) :=
  .fits (fun _ => by unfold HostKind.parts; infer_instance) rfl rfl rfl

instance yields_typeAssert {type : Option TypeId} [Yields Γ (.inline object)] :
    Yields Γ (.fits c (.typeAssert object type)) :=
  .fits (fun _ => by unfold HostKind.parts; infer_instance) rfl rfl rfl

instance yields_dereference [Yields Γ (.inline value)] : Yields Γ (.fits c (.dereference value)) :=
  .fits (fun _ => by unfold HostKind.parts; infer_instance) rfl rfl rfl

instance yields_unary {op : UnaryOp} [Yields Γ (.inline value)] :
    Yields Γ (.fits c (.unary op value)) :=
  .fits (fun _ => by unfold HostKind.parts; infer_instance) rfl rfl rfl

instance yields_binary {op : BinaryOp} [Yields Γ (.inline left)] [Yields Γ (.inline right)] :
    Yields Γ (.fits c (.binary op left right)) :=
  .fits (fun _ => by unfold HostKind.parts; infer_instance) rfl rfl rfl

instance yields_paren [Yields Γ (.inline value)] : Yields Γ (.fits c (.paren value)) :=
  .fits (fun _ => by unfold HostKind.parts; infer_instance) rfl rfl rfl

instance yields_expression [Yields Γ (.inline value)] : Yields Γ (.fits c (.expression value)) :=
  .fits (fun _ => by unfold HostKind.parts; infer_instance) rfl rfl rfl

instance yields_assign [Yields Γ (.each .inline args)] [Yields Γ (.each .inline values)] :
    Yields Γ (.fits c (.assign args .plain values)) :=
  .fits (fun _ => by unfold HostKind.parts; infer_instance) rfl rfl rfl

instance yields_compound {op : BinaryOp} [Yields Γ (.each .inline args)]
    [Yields Γ (.each .inline values)] : Yields Γ (.fits c (.assign args (.compound op) values)) :=
  .fits (fun _ => by unfold HostKind.parts; infer_instance) rfl rfl rfl

/-- What is assigned to nothing need not be an expression. -/
theorem yields_assign_nil [Yields Γ (.each (.loose c) values)] :
    Yields Γ (.fits c (.assign [] .plain values)) := by
  refine .fits (fun _ => ?_) rfl rfl rfl
  have : Yields Γ (.each (fun id => .part c (.assign [] .plain values) (.inline id)) values) :=
    yields_looseParts (fun _ h => h)
  unfold HostKind.parts
  infer_instance

instance yields_define [Yields Γ (.each (.declarable c) args)]
    [Yields Γ (.each .inline values)] : Yields Γ (.fits c (.assign args .define values)) :=
  have : Yields Γ (.each .inline args) := inlines_of_declarable (c := c)
  have : Yields Γ (.each .node (HostKind.assign args .define values).elseBranch?.toList) :=
    yields_nil
  have : Yields Γ (.each (.declarable c) (HostKind.assign args .define values).defined) :=
    (inferInstance : Yields Γ (.each (.declarable c) args))
  .fitting (fun _ => by unfold HostKind.parts; infer_instance) nofun

instance yields_incDec {increment : Bool} [Yields Γ (.inline value)] :
    Yields Γ (.fits c (.incDec value increment)) :=
  .fits (fun _ => by unfold HostKind.parts; infer_instance) rfl rfl rfl

instance yields_send [Yields Γ (.inline object)] [Yields Γ (.inline value)] :
    Yields Γ (.fits c (.send object value)) :=
  .fits (fun _ => by unfold HostKind.parts; infer_instance) rfl rfl rfl

theorem yields_varDecl {spec : HostValues} (hnames : ∀ name ∈ spec.names, c.Declares name)
    [Yields Γ (.each .inline spec.values)] : Yields Γ (.fits c (.varDecl spec)) :=
  .declaring (fun _ => by unfold HostKind.parts; infer_instance) hnames rfl rfl

/-- The value of no variable need not be an expression. -/
theorem yields_varDecl_nil {type : Option TypeId} {doc : Option String}
    [Yields Γ (.each (.loose c) values)] :
    Yields Γ (.fits c (.varDecl ⟨[], type, values, doc⟩)) := by
  refine .fits (fun _ => ?_) rfl rfl rfl
  have : Yields Γ (.each
      (fun id => .part c (.varDecl ⟨[], type, values, doc⟩) (.inline id)) values) :=
    yields_looseParts (fun _ h => h)
  unfold HostKind.parts
  infer_instance

theorem yields_constDecl {spec : HostValues} (hnames : ∀ name ∈ spec.names, c.Declares name)
    [Yields Γ (.each .inline spec.values)] : Yields Γ (.fits c (.constDecl spec)) :=
  .declaring (fun _ => by unfold HostKind.parts; infer_instance) hnames rfl rfl

theorem yields_typeDecl {name : String} {type : TypeId} {isAlias : Bool} {doc : Option String}
    (hname : c.Declares name) : Yields Γ (.fits c (.typeDecl name type isAlias doc)) :=
  .declaring (fun _ => by unfold HostKind.parts; infer_instance)
    (List.forall_mem_singleton.mpr hname) rfl rfl

instance yields_block [Yields Γ (.each .node args)] : Yields Γ (.fits c (.block args)) :=
  .fits (fun _ => by unfold HostKind.parts; infer_instance) rfl rfl rfl

instance yields_ifElse [Yields Γ (.each (.loose c) init.toList)] [Yields Γ (.inline value)]
    [Yields Γ (.node body)] [h : Yields Γ (.each .node branch.toList)] :
    Yields Γ (.fits c (.ifElse init value body branch)) := by
  have : Yields Γ (.each
      (fun id => .part c (.ifElse init value body branch) (.inline id)) init.toList) :=
    yields_looseParts (fun _ h => h)
  have : Yields Γ (.each .node (HostKind.ifElse init value body branch).elseBranch?.toList) := h
  have : Yields Γ (.each (.declarable c) (HostKind.ifElse init value body branch).defined) :=
    yields_nil
  exact .fitting (fun _ => by unfold HostKind.parts; infer_instance) nofun

instance yields_loop [hinit : Yields Γ (.each (.loose c) init.toList)]
    [Yields Γ (.each .inline condition.toList)] [hpost : Yields Γ (.each (.loose c) post.toList)]
    [Yields Γ (.node body)] : Yields Γ (.fits c (.loop init condition post body)) := by
  refine .fits (fun _ => ?_) rfl rfl rfl
  have : Yields Γ (.each
      (fun id => .part c (.loop init condition post body) (.inline id)) init.toList) :=
    yields_looseParts (fun _ h => List.mem_append_left _ h)
  have : Yields Γ (.each
      (fun id => .part c (.loop init condition post body) (.inline id)) post.toList) :=
    yields_looseParts (fun _ h => List.mem_append_right _ h)
  unfold HostKind.parts
  infer_instance

instance yields_rangeDefine [Yields Γ (.each (.declarable c) init.toList)]
    [Yields Γ (.each (.declarable c) condition.toList)] [Yields Γ (.inline value)]
    [Yields Γ (.node body)] : Yields Γ (.fits c (.range init condition true value body)) :=
  have : Yields Γ (.each .inline init.toList) := inlines_of_declarable (c := c)
  have : Yields Γ (.each .inline condition.toList) := inlines_of_declarable (c := c)
  have : Yields Γ (.each .node
      (HostKind.range init condition true value body).elseBranch?.toList) :=
    yields_nil
  have : Yields Γ (.each (.declarable c) (HostKind.range init condition true value body).defined) :=
    yields_append
  .fitting (fun _ => by unfold HostKind.parts; infer_instance) nofun

instance yields_rangeAssign [Yields Γ (.each .inline init.toList)]
    [Yields Γ (.each .inline condition.toList)] [Yields Γ (.inline value)]
    [Yields Γ (.node body)] : Yields Γ (.fits c (.range init condition false value body)) :=
  .fits (fun _ => by unfold HostKind.parts; infer_instance) rfl rfl rfl

instance yields_switch {cases : List HostCase} [Yields Γ (.each (.loose c) init.toList)]
    [Yields Γ (.each .inline post.toList)] [Yields Γ (.each .hostCase cases)] :
    Yields Γ (.fits c (.switch init post cases)) := by
  refine .fits (fun _ => ?_) rfl rfl rfl
  have : Yields Γ (.each (fun id => .part c (.switch init post cases) (.inline id)) init.toList) :=
    yields_looseParts (fun _ h => h)
  have : Yields Γ (.each (fun clause => .each (.part c (.switch init post cases))
      ((clause.values.getD []).map .inline ++ clause.body.map .statement)) cases) :=
    yields_imp (P := .hostCase) (fun _ => inferInstance)
  unfold HostKind.parts
  infer_instance

theorem yields_typeSwitch {binding : Option String} {cases : List HostTypeCase}
    (hnames : ∀ name ∈ binding.toList, c.Declares name)
    [Yields Γ (.each (.loose c) init.toList)] [Yields Γ (.inline value)]
    [Yields Γ (.each .typeCase cases)] :
    Yields Γ (.fits c (.typeSwitch init binding value cases)) := by
  have : Yields Γ (.each
      (fun id => .part c (.typeSwitch init binding value cases) (.inline id)) init.toList) :=
    yields_looseParts (fun _ h => h)
  have : Yields Γ (.each (fun clause => .each (.part c (.typeSwitch init binding value cases))
      (((clause.types.getD []).filterMap id).map .type ++ clause.body.map .statement)) cases) :=
    yields_imp (P := .typeCase) (fun _ => inferInstance)
  exact .declaring (fun _ => by unfold HostKind.parts; infer_instance) hnames rfl rfl

instance yields_select {cases : List HostSelectCase} [h : Yields Γ (.each (.selectCase c) cases)] :
    Yields Γ (.fits c (.select cases)) := by
  refine .fits (fun _ => ?_) rfl rfl rfl
  have : Yields Γ (.each (fun clause => .each (.part c (.select cases))
      (clause.comm.toList.map .inline ++ clause.body.map .statement)) cases) := by
    refine ⟨fun hs clause hclause part hpart => ?_⟩
    obtain ⟨hcomm, hbody⟩ := h.of hs clause hclause
    rcases List.mem_append.mp hpart with hpart | hpart
    · obtain ⟨id, hid, rfl⟩ := List.mem_map.mp hpart
      have hloose := hcomm id hid
      exact ⟨hloose.1, hloose.2.imp_right (⟨List.mem_flatMap.mpr ⟨clause, hclause, hid⟩, ·⟩)⟩
    · obtain ⟨id, hid, rfl⟩ := List.mem_map.mp hpart
      exact hbody id hid
  unfold HostKind.parts
  infer_instance

instance yields_go [Yields Γ (.inline value)] : Yields Γ (.fits c (.go value)) :=
  .fits (fun _ => by unfold HostKind.parts; infer_instance) rfl rfl rfl

instance yields_defer [Yields Γ (.inline value)] : Yields Γ (.fits c (.defer value)) :=
  .fits (fun _ => by unfold HostKind.parts; infer_instance) rfl rfl rfl

instance yields_ret [Yields Γ (.each .inline values)] : Yields Γ (.fits c (.ret values)) :=
  .fits (fun _ => by unfold HostKind.parts; infer_instance) rfl rfl rfl

instance yields_branch {kind : BranchKind} {label : Option String} :
    Yields Γ (.fits c (.branch kind label)) :=
  .fits (fun _ => yields_nil) rfl rfl rfl

instance yields_labeled {label : String} [Yields Γ (.each .node init.toList)] :
    Yields Γ (.fits c (.labeled label init)) :=
  .fits (fun _ => by unfold HostKind.parts; infer_instance) rfl rfl rfl

theorem yields_function {decl : HostFunction}
    (hnames : ∀ name ∈ (HostKind.function decl).names, c.Declares name)
    [Yields Γ (.node decl.body)] : Yields Γ (.fits c (.function decl)) :=
  .declaring (fun _ => by unfold HostKind.parts; infer_instance) hnames rfl rfl

end

end

end GoLowering.Lowering
