import GoLowering.Proofs.FrameDeclarations
import GoLowering.Surface.Nodes

/-!
# Parts that agree

How deep a walk may go makes no difference as long as it is deep enough. Two parts agree in a
context if they do the same wherever something is the case that both of them keep (`Agrees`); what
may be the case is said about the names of the unit only (`Standing`), and parts that go on to no
other node leave these alone (`keeping`). Two walks agree below some nodes if their parts agree at
these (`Walk.Agrees`); then what is made of syntax above these nodes agrees too.
-/

namespace GoLowering.Lowering

open Surface

/-- What becomes of the names of a unit. -/
structure Standing where
  globals : Keyed String Global
  progress : Keyed NodeId Progress
  openAliases : List String
  history : List Event

def State.standing (s : State) : Standing := ⟨s.globals, s.progress, s.openAliases, s.history⟩

/-- Two parts do the same in a state, after which something is the case. -/
structure AgreesAt (c : Context) (P : Standing → Prop) (s : State) {α : Type} (m m' : Lower α) :
    Prop where
  same : m c s = m' c s
  kept : P (m c s).2.standing

/-- Two parts do the same in a context wherever something is the case, and it stays the case. -/
class Agrees (c : Context) (P : Standing → Prop) {α : Type} (m m' : Lower α) : Prop where
  run (s : State) (hs : P s.standing) : AgreesAt c P s m m'

/-- Parts are asked to keep what is the case about the names of the unit. -/
def keeping (P : Standing → Prop) : Regime :=
  ⟨fun _ _ m => ∀ c s, P s.standing → P (m c s).2.standing⟩

variable {c : Context} {P : Standing → Prop} {s : State} {α β : Type}

/-! ## Parts that keep what is the case -/

theorem Settles.standing {s s' : State} (h : Settles s s') : s'.standing = s.standing := by
  simp only [State.standing, h.openAliases, h.history, show s'.globals = s.globals from
    congrArg Ledger.globals h.ledger, show s'.progress = s.progress from
    congrArg Ledger.progress h.ledger]

theorem keeping_of_standing {care : Care} {m : Lower α}
    (h : ∀ c s, (m c s).2.standing = s.standing) : (keeping P).Holds care m :=
  fun c s hs => (h c s).symm ▸ hs

theorem keeping_bind {care : Care} {m : Lower α} {f : α → Lower β} (hm : (keeping P).Holds care m)
    (hf : ∀ a, (keeping P).Holds care (f a)) : (keeping P).Holds care (m >>= f) := by
  intro c s hs
  rw [run_bind]
  have hs' := hm c s hs
  rcases h : m c s with ⟨r, s'⟩
  rw [h] at hs'
  cases r with
  | error failure => exact hs'
  | ok a => exact hf a c s' hs'

theorem keeping_within {care : Care} {enter : State → State} {leave : State → State → State}
    {part : Lower α} (henter : ∀ s, (enter s).standing = s.standing)
    (hleave : ∀ s s', (leave s s').standing = s'.standing) (h : (keeping P).Holds care part) :
    (keeping P).Holds care (within enter leave part) := by
  intro c s hs
  rw [run_within, hleave]
  exact h c (enter s) ((henter s).symm ▸ hs)

instance : Pointwise (keeping P) where
  reading hf := fun c s => hf c c s
  getting hf := fun c s => hf s c s

instance : Footing (keeping P) where
  pure _ := fun _ _ hs => hs
  throw _ := fun _ _ hs => hs
  bind := keeping_bind
  read _ hf := fun c s => hf c c s
  get _ hf := fun c s => hf s c s
  quiet hm := hm
  additive hm := hm
  steady hm := hm
  addNode kind origin := keeping_of_standing fun c s => (settles_addNode kind origin c s).standing
  onTypes h := keeping_of_standing fun c s => (settles_onTypes h c s).standing
  freshName := keeping_of_standing fun c s => (settles_freshName c s).standing
  warn problem span := keeping_of_standing fun c s => (settles_warn problem span c s).standing
  bindName name symbol := keeping_of_standing fun c s => (settles_bindName name symbol c s).standing
  bindNew span name symbol :=
    keeping_of_standing fun c s => (settles_bindNew span name symbol c s).standing
  packagePath name span := keeping_of_standing fun c s => (settles_packagePath name span c s).standing
  inScope {_ _} _ {_} h := keeping_within (fun _ => rfl) (fun _ _ => rfl) h
  inFunction {_} _ _ {_} h := keeping_within (fun _ => rfl) (fun _ _ => rfl) h
  inFrame {_} _ {_} h := keeping_within (fun _ => rfl) (fun _ _ => rfl) h
  atPackageLevel {_ _} h := by
    unfold atPackageLevel
    exact Pointwise.reading (fun _ => keeping_within (fun _ => rfl) (fun _ _ => rfl) h)
  hoisting {_ _} h :=
    keeping_within (fun _ => rfl) (fun _ _ => rfl)
      (keeping_bind h (fun _ => keeping_bind (keeping_of_standing (m := takeHoisted)
        (fun _ _ => rfl)) (fun _ _ _ hs => hs)))
  takeHoisted := keeping_of_standing (fun _ _ => rfl)
  noteLiteral _ _ := keeping_of_standing (fun _ _ => rfl)

theorem keeping_modify {care : Care} {f : State → State} (h : ∀ s, (f s).standing = s.standing) :
    Keeps (keeping P) care (modify f : Lower Unit) :=
  ⟨keeping_of_standing (fun _ s => h s)⟩

instance keeping_hoist (id : HostId) : Additive (keeping P) (hoist id) := keeping_modify (fun _ => rfl)

instance keeping_notePropagation (call : HostId) (names : List String) :
    Additive (keeping P) (notePropagation call names) :=
  keeping_modify (fun _ => rfl)

instance keeping_define (named definition : TypeId) : Additive (keeping P)
    (modify (fun s => { s with types := s.types.define named definition }) : Lower Unit) :=
  keeping_modify (fun _ => rfl)

instance keeping_wrapPropagate (call : HostId) (values : List TypeId) (text : String)
    (span : Span) : Additive (keeping P) (wrapPropagate call values text span) := by
  unfold wrapPropagate hoistTemporary
  refine Keeps.before (fun found => ?_)
  split
  · infer_instance
  · infer_instance
  · refine Keeps.before (fun temporary => ?_)
    refine Keeps.before (fun _ => ?_)
    infer_instance
  · infer_instance

instance keeping_onOutline (f : Outline NodeId HostId → Outline NodeId HostId) :
    Additive (keeping P) (onOutline f) :=
  keeping_modify (fun _ => rfl)

instance keeping_recordFailure (failure : Failure) : Additive (keeping P) (recordFailure failure) :=
  keeps_reading (fun _ => keeping_modify (fun _ => rfl))

/-! ## Sequences that agree -/

/-- A part that goes on to no other node agrees with itself. -/
instance (priority := high) agrees_self {m : Lower α} [h : Steady (keeping P) m] :
    Agrees c P m m :=
  ⟨fun s hs => ⟨rfl, h.holds c s hs⟩⟩

theorem AgreesAt.bind {m m' : Lower α} {f f' : α → Lower β} (hm : AgreesAt c P s m m')
    (hf : ∀ a s', P s'.standing → AgreesAt c P s' (f a) (f' a)) :
    AgreesAt c P s (m >>= f) (m' >>= f') := by
  obtain ⟨heq, hs'⟩ := hm
  rcases h : m c s with ⟨r, s'⟩
  rw [h] at hs' heq
  cases r with
  | error failure =>
    have hrun : (m >>= f) c s = (.error failure, s') := by rw [run_bind, h]
    exact ⟨by rw [hrun, run_bind, ← heq], by rw [hrun]; exact hs'⟩
  | ok a =>
    have hrun : (m >>= f) c s = f a c s' := by rw [run_bind, h]
    exact ⟨by rw [hrun, run_bind, ← heq]; exact (hf a s' hs').same, by
      rw [hrun]; exact (hf a s' hs').kept⟩

theorem AgreesAt.get {f f' : State → Lower α} (h : AgreesAt c P s (f s) (f' s)) :
    AgreesAt c P s (get >>= f) (get >>= f') :=
  ⟨h.same, h.kept⟩

theorem AgreesAt.read {f f' : Context → Lower α} (h : AgreesAt c P s (f c) (f' c)) :
    AgreesAt c P s (read >>= f) (read >>= f') :=
  ⟨h.same, h.kept⟩

theorem Agrees.bind {m m' : Lower α} {f f' : α → Lower β} (hm : Agrees c P m m')
    (hf : ∀ a, Agrees c P (f a) (f' a)) : Agrees c P (m >>= f) (m' >>= f') :=
  ⟨fun s hs => (hm.run s hs).bind (fun a s' hs' => (hf a).run s' hs')⟩

instance agrees_bind {m m' : Lower α} {f f' : α → Lower β} [hm : Agrees c P m m']
    [hf : ∀ a, Agrees c P (f a) (f' a)] : Agrees c P (m >>= f) (m' >>= f') :=
  hm.bind hf

/-- What follows parts that agree has to agree too. -/
theorem Agrees.before {m m' : Lower α} [hm : Agrees c P m m'] {f f' : α → Lower β}
    (hf : ∀ a, Agrees c P (f a) (f' a)) : Agrees c P (m >>= f) (m' >>= f') :=
  hm.bind hf

/-- Only the context at hand matters. -/
theorem Agrees.read {f f' : Context → Lower α} (h : Agrees c P (f c) (f' c)) :
    Agrees c P (read >>= f) (read >>= f') :=
  ⟨fun s hs => (h.run s hs).read⟩

theorem Agrees.get {f f' : State → Lower α} (h : ∀ s, Agrees c P (f s) (f' s)) :
    Agrees c P (get >>= f) (get >>= f') :=
  ⟨fun s hs => ((h s).run s hs).get⟩

instance agrees_map {m m' : Lower α} (f : α → β) [hm : Agrees c P m m'] :
    Agrees c P (f <$> m) (f <$> m') := by
  rw [map_eq_pure_bind, map_eq_pure_bind]
  infer_instance

instance agrees_ite {p : Prop} [Decidable p] {m m' n n' : Lower α} [hm : Agrees c P m m']
    [hn : Agrees c P n n'] : Agrees c P (if p then m else n) (if p then m' else n') := by
  split
  · exact hm
  · exact hn

theorem agrees_mapM {f f' : α → Lower β} {xs : List α} (h : ∀ a ∈ xs, Agrees c P (f a) (f' a)) :
    Agrees c P (xs.mapM f) (xs.mapM f') := by
  induction xs with
  | nil => exact agrees_self (m := pure [])
  | cons a as ih =>
    have := h a List.mem_cons_self
    have := ih (fun b hb => h b (List.mem_cons_of_mem a hb))
    rw [List.mapM_cons, List.mapM_cons]
    infer_instance

theorem agrees_optionMapM {f f' : α → Lower β} {a : Option α}
    (h : ∀ b ∈ a, Agrees c P (f b) (f' b)) : Agrees c P (a.mapM f) (a.mapM f') := by
  cases a with
  | none => exact agrees_self (m := pure none)
  | some a =>
    have := h a rfl
    exact agrees_map some

theorem agrees_within {enter : State → State} {leave : State → State → State}
    {part part' : Lower α} (henter : ∀ s, (enter s).standing = s.standing)
    (hleave : ∀ s s', (leave s s').standing = s'.standing) (h : Agrees c P part part') :
    Agrees c P (within enter leave part) (within enter leave part') := by
  refine ⟨fun s hs => ?_⟩
  obtain ⟨heq, hs'⟩ := h.run (enter s) ((henter s).symm ▸ hs)
  refine ⟨by rw [run_within, run_within, heq], ?_⟩
  rw [run_within, hleave]
  exact hs'

instance agrees_inScope {part part' : Lower α} (kind : ScopeKind) [h : Agrees c P part part'] :
    Agrees c P (inScope kind part) (inScope kind part') :=
  agrees_within (fun _ => rfl) (fun _ _ => rfl) h

instance agrees_inFunction {part part' : Lower α} (kind : ScopeKind) (results : List TypeId)
    [h : Agrees c P part part'] :
    Agrees c P (inFunction kind results part) (inFunction kind results part') :=
  agrees_within (fun _ => rfl) (fun _ _ => rfl) h

instance agrees_inFrame {part part' : Lower α} (name : String) [h : Agrees c P part part'] :
    Agrees c P (inFrame name part) (inFrame name part') :=
  agrees_within (fun _ => rfl) (fun _ _ => rfl) h

instance agrees_atPackageLevel {part part' : Lower α} [h : Agrees c P part part'] :
    Agrees c P (atPackageLevel part) (atPackageLevel part') := by
  unfold atPackageLevel
  exact .read (agrees_within (fun _ => rfl) (fun _ _ => rfl) h)

instance agrees_hoisting {part part' : Lower α} [h : Agrees c P part part'] :
    Agrees c P (hoisting part) (hoisting part') := by
  unfold hoisting
  exact agrees_within (fun _ => rfl) (fun _ _ => rfl) inferInstance

/-! ## Syntax above some nodes -/

/-- Some syntax refers to nodes of a kind only. -/
class Above (A : outParam (NodeId → Prop)) {α : Type} [HasNodes α] (x : α) : Prop where
  holds : ∀ id ∈ nodes x, A id

/-- The nodes that a node of the unit refers to are all of a kind. -/
class Opens (c : Context) (A : outParam (NodeId → Prop)) (id : NodeId) : Prop where
  children : ∀ child ∈ c.unit.children id, A child

/-- Nodes of a kind refer to nodes of the kind only. -/
class Closed (c : Context) (A : outParam (NodeId → Prop)) : Prop where
  closed : ∀ id, A id → ∀ child ∈ c.unit.children id, A child

variable {A : NodeId → Prop} [HasNodes α]

theorem above_pair [HasNodes β] {x : α} {y : β} (h : ∀ id ∈ nodes x ++ nodes y, A id) :
    Above A x ∧ Above A y :=
  let ⟨hx, hy⟩ := List.forall_mem_append.mp h
  ⟨⟨hx⟩, ⟨hy⟩⟩

theorem above_mem {xs : List α} [h : Above A xs] {x : α} (hx : x ∈ xs) : Above A x :=
  ⟨fun id hid => h.holds id (List.mem_flatMap.mpr ⟨x, hx, hid⟩)⟩

theorem above_cons {x : α} {xs : List α} (h : Above A (x :: xs)) : Above A x ∧ Above A xs :=
  above_pair h.holds

theorem above_of_forall {xs : List α} (h : ∀ x ∈ xs, Above A x) : Above A xs :=
  ⟨fun id hid =>
    let ⟨x, hx, hid⟩ := List.mem_flatMap.mp hid
    (h x hx).holds id hid⟩

theorem above_optionMem {a : Option α} [h : Above A a] {x : α} (hx : x ∈ a) : Above A x := by
  subst hx
  exact ⟨fun id hid => h.holds id (List.mem_flatMap.mpr ⟨x, List.mem_singleton_self x, hid⟩)⟩

theorem agrees_each {f f' : α → Lower β} {xs : List α} [h : Above A xs]
    (hf : ∀ x [Above A x], Agrees c P (f x) (f' x)) : Agrees c P (xs.mapM f) (xs.mapM f') :=
  agrees_mapM (fun x hx => have := above_mem hx; hf x)

theorem agrees_option {f f' : α → Lower β} {a : Option α} [h : Above A a]
    (hf : ∀ x [Above A x], Agrees c P (f x) (f' x)) : Agrees c P (a.mapM f) (a.mapM f') :=
  agrees_optionMapM (fun x hx => have := above_optionMem hx; hf x)

section

variable {element : Element} [h : Above A element]

instance : Above A element.key := (above_pair h.holds).1

instance : Above A element.value := (above_pair h.holds).2

end

section

variable {clause : ForClause} [h : Above A clause]

instance : Above A clause.source := (above_pair h.holds).1

instance : Above A clause.init := (above_pair (above_pair h.holds).2.holds).1

instance : Above A clause.guard := (above_pair (above_pair h.holds).2.holds).2

end

section

variable {spec : ValueSpec} [h : Above A spec]

instance : Above A spec.type := (above_pair h.holds).1

instance : Above A spec.values := (above_pair h.holds).2

end

section

variable {decl : FunctionDecl} [h : Above A decl]

instance : Above A decl.receiver := (above_pair h.holds).1

instance : Above A decl.signature := (above_pair (above_pair h.holds).2.holds).1

instance : Above A decl.body := (above_pair (above_pair h.holds).2.holds).2

end

section

variable {clause : CaseClause} [h : Above A clause]

instance : Above A clause.values := (above_pair h.holds).1

instance : Above A clause.body := (above_pair h.holds).2

end

section

variable {clause : SelectClause} [h : Above A clause]

instance : Above A clause.comm := (above_pair h.holds).1

instance : Above A clause.body := (above_pair h.holds).2

end

instance {receiver : Receiver} [h : Above A receiver] : Above A receiver.type := ⟨h.holds⟩

instance {param : Param} [h : Above A param] : Above A param.type := ⟨h.holds⟩

instance {field : FieldSpec} [h : Above A field] : Above A field.type := ⟨h.holds⟩

instance {method : MethodSpec} [h : Above A method] : Above A method.signature := ⟨h.holds⟩

section

variable {id : NodeId}

instance opens_of_above [hc : Closed c A] [h : Above A id] : Opens c A id :=
  ⟨hc.closed id (h.holds id List.mem_cons_self)⟩

variable [h : Opens c A id]

theorem above_kind {node : Node} (hnode : c.unit.get? id = some node) : Above A node.kind := by
  refine ⟨fun child hchild => h.children child ?_⟩
  rw [SourceUnit.children, hnode]
  exact hchild

theorem above_expr {e : Expr} (he : c.unit.expr? id = some e) : Above A e := by
  unfold SourceUnit.expr? at he
  split at he
  · rename_i hnode
    obtain rfl := Option.some.inj he
    exact ⟨(above_kind hnode).holds⟩
  · cases he

theorem above_stmt {s : Stmt} (hs : c.unit.stmt? id = some s) : Above A s := by
  unfold SourceUnit.stmt? at hs
  split at hs
  · rename_i hnode
    obtain rfl := Option.some.inj hs
    exact ⟨(above_kind hnode).holds⟩
  · cases hs

theorem above_type {t : TypeExpr} (ht : c.unit.type? id = some t) : Above A t := by
  unfold SourceUnit.type? at ht
  split at ht
  · rename_i hnode
    obtain rfl := Option.some.inj ht
    exact ⟨(above_kind hnode).holds⟩
  · cases ht

end

/-! ## Walks that agree -/

/-- Two walks agree at some nodes, and so do the names that they are asked for. -/
class Walk.Agrees (c : Context) (P : Standing → Prop) (A : outParam (NodeId → Prop))
    (walk walk' : Walk) : Prop where
  expr (id : NodeId) (expect : Expectation) (h : A id) :
    Lowering.Agrees c P (walk.expr id expect) (walk'.expr id expect)
  statement (id : NodeId) (h : A id) :
    Lowering.Agrees c P (walk.statement id) (walk'.statement id)
  type (id : NodeId) (h : A id) : Lowering.Agrees c P (walk.type id) (walk'.type id)
  typeOfName (name : String) (span : Span) :
    Lowering.Agrees c P (typeOfName walk name span) (typeOfName walk' name span)
  unbound? (name : String) (span : Span) :
    Lowering.Agrees c P (unboundOperand? walk name span) (unboundOperand? walk' name span)

attribute [instance] Walk.Agrees.typeOfName Walk.Agrees.unbound?

section

variable {walk walk' : Walk} [hw : walk.Agrees c P A walk'] (id : NodeId) [h : Above A id]

instance agrees_expr (expect : Expectation) :
    Agrees c P (walk.expr id expect) (walk'.expr id expect) :=
  hw.expr id expect (h.holds id List.mem_cons_self)

instance agrees_statement : Agrees c P (walk.statement id) (walk'.statement id) :=
  hw.statement id (h.holds id List.mem_cons_self)

instance agrees_type : Agrees c P (walk.type id) (walk'.type id) :=
  hw.type id (h.holds id List.mem_cons_self)

end

end GoLowering.Lowering
