import GoLowering.Proofs.IterationNames
import GoLowering.Proofs.ScopeChains

/-!
# Statements in statements

A statement lies in constructs that loop control can leave: loops, switches and selects of the
source, and on the other side loops, switches, selects and callbacks of the host (`Encloses`). What
a statement becomes has in it what the statements in it become, with the same constructs around
them, and the scopes that are opened on the way say about loop control what these constructs say
(`plain_places`, `breakable_places`). What such a statement hoists stands there too, or is hoisted
by the statement that it lies in.
-/

namespace GoLowering

/-- Something lies in something else, inside of these constructs, the innermost first. Of the parts
of a thing, `plain` ones lie in what it lies in, and `inner` ones also in the thing itself. -/
inductive Encloses {α : Type} (plain inner : α → List α) : α → List α → α → Prop
  | here (x : α) : Encloses plain inner x [] x
  | plain {x part z : α} {around : List α} (hpart : part ∈ plain x)
      (rest : Encloses plain inner part around z) : Encloses plain inner x around z
  | inner {x part z : α} {around : List α} (hpart : part ∈ inner x)
      (rest : Encloses plain inner part around z) : Encloses plain inner x (around ++ [x]) z

theorem Encloses.trans {α : Type} {plain inner : α → List α} {x y z : α} {outer around : List α}
    (h₁ : Encloses plain inner x outer y) (h₂ : Encloses plain inner y around z) :
    Encloses plain inner x (around ++ outer) z := by
  induction h₁ with
  | here => rwa [List.append_nil]
  | plain hpart _ ih => exact .plain hpart (ih h₂)
  | inner hpart _ ih =>
    rw [← List.append_assoc]
    exact .inner hpart (ih h₂)

/-! ## The source -/

namespace Surface.SourceUnit

variable (unit : SourceUnit)

/-- The statements of a body. -/
def bodyOf (id : NodeId) : List NodeId :=
  match unit.stmt? id with
  | some (.block statements) => statements
  | _ => [id]

/-- The statements in a statement that a `break` or `continue` means the same in as around it. -/
def plainParts (id : NodeId) : List NodeId :=
  match unit.stmt? id with
  | some (.block statements) => statements
  | some (.ifElse init _ thenBlock elseBranch) =>
    init.toList ++ unit.bodyOf thenBlock ++ elseBranch.toList.flatMap unit.bodyOf
  | some (.switch init _ _) | some (.typeSwitch init _ _ _) => init.toList
  | some (.labeled _ body) => [body]
  | _ => []

/-- The statements in the body of a loop, a switch or a select. -/
def breakableParts (id : NodeId) : List NodeId :=
  match unit.stmt? id with
  | some (.loop _ _ _ body) | some (.range _ _ _ _ body) | some (.forPhrase _ body) =>
    unit.bodyOf body
  | some (.switch _ _ clauses) | some (.typeSwitch _ _ _ clauses) => clauses.flatMap (·.body)
  | some (.select clauses) => clauses.flatMap (fun clause => clause.comm.toList ++ clause.body)
  | _ => []

/-- The statements in a statement that are run before it. What they hoist is hoisted by the whole
statement. -/
def firstParts (id : NodeId) : List NodeId :=
  match unit.stmt? id with
  | some (.ifElse init _ _ _) | some (.switch init _ _) | some (.typeSwitch init _ _ _) =>
    init.toList
  | some (.labeled _ body) => [body]
  | some (.select clauses) => clauses.flatMap (·.comm.toList)
  | _ => []

/-- What a part of a statement hoists stands in the statement, unless the part is run first: then it
is among what the whole statement hoists. -/
def passedOn (id part : NodeId) (hoisted : List HostId) : List HostId :=
  if part ∈ unit.firstParts id then hoisted else []

/-- The statements in the header of a loop. -/
def headerParts (id : NodeId) : List NodeId :=
  match unit.stmt? id with
  | some (.loop init _ post _) => init.toList ++ post.toList
  | some (.forPhrase clause _) => clause.init.toList
  | _ => []

/-- Whether a statement is what a `break` or `continue` in its body leaves or continues. -/
def catches (isContinue : Bool) (id : NodeId) : Bool :=
  match unit.stmt? id with
  | some (.loop ..) | some (.range ..) | some (.forPhrase ..) => true
  | some (.switch ..) | some (.typeSwitch ..) | some (.select ..) => !isContinue
  | _ => false

/-- The statement lies in a statement, inside of these loops, switches and selects. -/
abbrev Encloses : NodeId → List NodeId → NodeId → Prop :=
  GoLowering.Encloses unit.plainParts (fun id => unit.headerParts id ++ unit.breakableParts id)

/-- The statement lies in a statement, but not in the header of a loop, inside of these loops,
switches and selects. -/
abbrev Holds : NodeId → List NodeId → NodeId → Prop :=
  GoLowering.Encloses unit.plainParts unit.breakableParts

/-- Whether a statement is an expression, an assignment, a step up or down, or a send. -/
def isSimple (id : NodeId) : Bool :=
  match unit.stmt? id with
  | none | some (.expression _) | some (.assign ..) | some (.incDec ..) | some (.send ..) => true
  | _ => false

/-- The headers of loops hold only simple statements. -/
def SimpleHeaders : Prop := ∀ id, ∀ part ∈ unit.headerParts id, unit.isSimple part = true

variable {unit}

theorem simpleHeaders_of_all
    (h : (List.range unit.nodes.size).all (fun n => (unit.headerParts ⟨n⟩).all unit.isSimple)) :
    unit.SimpleHeaders := by
  intro id part hpart
  have hin : id.index < unit.nodes.size := by
    by_contra hout
    have hget : unit.get? id = none := Array.getElem?_eq_none (Nat.not_lt.mp hout)
    simp [headerParts, stmt?, hget] at hpart
  exact List.all_eq_true.mp (List.all_eq_true.mp h id.index (List.mem_range.mpr hin)) part hpart

/-- There is no other statement in a simple one. -/
theorem eq_of_encloses_of_isSimple {id other : NodeId} {around : List NodeId}
    (h : unit.isSimple id = true) (hother : unit.Encloses id around other) : other = id := by
  unfold isSimple at h
  split at h
  case h_6 => cases h
  all_goals
    rename_i hstmt
    cases hother with
    | here => rfl
    | plain hpart => simp [plainParts, hstmt] at hpart
    | inner hpart => simp [headerParts, breakableParts, hstmt] at hpart

/-- A statement that is not simple does not lie in the header of a loop. -/
theorem holds_of_encloses (hheaders : unit.SimpleHeaders) {id other : NodeId}
    {around : List NodeId} (hother : unit.isSimple other = false)
    (h : unit.Encloses id around other) : unit.Holds id around other := by
  induction h with
  | here => exact .here _
  | plain hpart _ ih => exact .plain hpart (ih hother)
  | inner hpart rest ih =>
    rcases List.mem_append.mp hpart with hheader | hbody
    · have hsimple := hheaders _ _ hheader
      rw [eq_of_encloses_of_isSimple hsimple rest, hsimple] at hother
      cases hother
    · exact .inner hbody (ih hother)

end Surface.SourceUnit

/-! ## The host -/

namespace HostTree

variable (tree : HostTree)

/-- The body of the function literal that a call is given and nothing else. -/
def callback? (id : HostId) : Option HostId :=
  match tree.kind id with
  | .call _ [callback] false =>
    match tree.kind callback with
    | .functionLiteral _ body => some body
    | _ => none
  | _ => none

/-- The statements in a statement that a `break` or `continue` means the same in as around it. -/
def plainParts (id : HostId) : List HostId :=
  match tree.kind id with
  | .block statements => statements
  | .ifElse init _ thenBranch elseBranch => init.toList ++ thenBranch :: elseBranch.toList
  | .switch init _ _ | .typeSwitch init _ _ _ => init.toList
  | .labeled _ body => body.toList
  | _ => []

/-- The statements in the body of a loop, a switch, a select or a callback. -/
def breakableParts (id : HostId) : List HostId :=
  match tree.kind id with
  | .loop _ _ _ body | .range _ _ _ _ body => [body]
  | .switch _ _ cases => cases.flatMap (·.body)
  | .typeSwitch _ _ _ cases => cases.flatMap (·.body)
  | .select cases => cases.flatMap (fun clause => clause.comm.toList ++ clause.body)
  | .expression call => (tree.callback? call).toList
  | _ => []

/-- What a statement is to a `break` or `continue` in its body, if it is anything to it. -/
def target? (isContinue : Bool) (id : HostId) : Option BranchTarget :=
  match tree.kind id with
  | .loop .. | .range .. => some .statement
  | .switch .. | .typeSwitch .. | .select .. => if isContinue then none else some .statement
  | .expression call => (tree.callback? call).map (fun _ => .callback)
  | _ => none

/-- The statement lies in a statement, inside of these loops, switches, selects and callbacks. -/
abbrev Encloses : HostId → List HostId → HostId → Prop :=
  GoLowering.Encloses tree.plainParts tree.breakableParts

variable {tree} {id part : HostId}

theorem Encloses.of_plain (h : part ∈ tree.plainParts id) : tree.Encloses id [] part :=
  .plain h (.here part)

theorem Encloses.of_breakable (h : part ∈ tree.breakableParts id) : tree.Encloses id [id] part :=
  .inner h (.here part)

theorem Encloses.of_block {statements : List HostId} (h : tree.kind id = .block statements)
    (hpart : part ∈ statements) : tree.Encloses id [] part :=
  .of_plain (by rwa [plainParts, h])

/-- The loop of an iteration has its body in it, and is to loop control what its scope is. -/
theorem Iterates.encloses {source : HostId} {body : List HostId} {plan : Lowering.RangePlan}
    {names : List String} (h : tree.Iterates source body plan id names) (hpart : part ∈ body) :
    tree.Encloses id [id] part := by
  cases h with
  | native hloop _ hblock =>
    exact .inner (by rw [breakableParts, hloop]; exact List.mem_singleton.mpr rfl)
      (HostTree.Encloses.of_block hblock hpart)
  | push hloop hcall _ hcallback _ _ hblock =>
    exact .inner (by rw [breakableParts, hloop]; simp [callback?, hcall, hcallback])
      (HostTree.Encloses.of_block hblock hpart)
  | pull hloop _ _ _ _ hblock =>
    exact .inner (by rw [breakableParts, hloop]; exact List.mem_singleton.mpr rfl)
      (HostTree.Encloses.of_block hblock (List.mem_cons_of_mem _ (List.mem_cons_of_mem _ hpart)))

theorem Iterates.target? {source : HostId} {body : List HostId} {plan : Lowering.RangePlan}
    {names : List String} (h : tree.Iterates source body plan id names) (isContinue : Bool) :
    tree.target? isContinue id = Scopes.target? isContinue plan.scopeKind := by
  cases h with
  | native hloop => rw [HostTree.target?, hloop]; rfl
  | push hloop hcall _ hcallback =>
    rw [HostTree.target?, hloop]
    simp [callback?, hcall, hcallback]
    rfl
  | pull hloop => rw [HostTree.target?, hloop]; rfl

end HostTree

namespace Lowering

open Surface

variable {α β : Type} {c : Context} {s t u s' final : State} {depth : Nat} {part : NodeId}
  {opened kinds others : List ScopeKind} {answer : Option HostId} {left : List HostId}
  {kind : ScopeKind}

/-! ## Runs inside of a run -/

/-- What the first state has come to is still there in the second one. -/
structure State.LeadsTo (s final : State) : Prop extends s.Precedes final where
  warnings : s.warnings <+: final.warnings

theorem State.LeadsTo.refl (s : State) : s.LeadsTo s := ⟨.refl s, List.prefix_rfl⟩

theorem State.LeadsTo.trans (h₁ : s.LeadsTo t) (h₂ : t.LeadsTo final) : s.LeadsTo final :=
  ⟨h₁.toPrecedes.trans h₂.toPrecedes, h₁.warnings.trans h₂.warnings⟩

theorem leadsTo_run {m : Lower α} {a : α} [Steady extension m]
    (hrun : m c s = (.ok a, s')) : s.LeadsTo s' :=
  ⟨⟨(extends_run hrun).tree, (extends_run hrun).types⟩, (extends_run hrun).warnings⟩

theorem hoisted_subset_run {m : Lower α} {a : α} [hm : Additive extension m]
    (hrun : m c s = (.ok a, s')) : s.hoisted ⊆ s'.hoisted := by
  have hs := (hm.run c s).hoisted
  rw [hrun] at hs
  obtain ⟨more, hmore, -⟩ := hs
  rw [hmore]
  exact List.subset_append_left _ _

/-- The second state is in the function of the first one, in further scopes of these kinds, the
innermost first. -/
structure State.Opens (s t : State) (opened : List ScopeKind) : Prop where
  function : t.function = s.function
  scopes : ∀ around, s.scopes.Inside around → t.scopes.Inside (opened ++ around)

theorem State.Opens.refl (s : State) : s.Opens s [] := ⟨rfl, fun _ h => h⟩

theorem State.Opens.trans (h₁ : s.Opens t others) (h₂ : t.Opens u kinds) :
    s.Opens u (kinds ++ others) := by
  refine ⟨h₂.function.trans h₁.function, fun around h => ?_⟩
  rw [List.append_assoc]
  exact h₂.scopes _ (h₁.scopes around h)

theorem State.opens_push (s : State) (kind : ScopeKind) :
    s.Opens { s with scopes := s.scopes.push kind } [kind] :=
  ⟨rfl, fun _ h => h.push kind⟩

theorem opens_run {m : Lower α} {a : α} [Steady nesting m] [Steady extension m]
    (hrun : m c s = (.ok a, s')) : s.Opens s' [] :=
  ⟨(extends_run hrun).function, fun _ => inside_run hrun⟩

/-- A statement has been lowered in the scopes of a state and in others that have been opened in
them, of kinds that come innermost first. In the end the statements `left` are hoisted. -/
def LoweredIn (c : Context) (final : State) (id : NodeId) (s : State) (opened : List ScopeKind)
    (answer : Option HostId) (left : List HostId) : Prop :=
  ∃ depth t t', (walkWithin depth).statement id c t = (.ok answer, t') ∧ t'.LeadsTo final ∧
    t'.hoisted = left ∧ s.Opens t opened

theorem LoweredIn.of_run {id : NodeId}
    (hrun : (walkWithin depth).statement id c s = (.ok answer, s')) (hfinal : s'.LeadsTo final) :
    LoweredIn c final id s [] answer s'.hoisted :=
  ⟨depth, s, s', hrun, hfinal, rfl, .refl s⟩

theorem LoweredIn.outer (h : LoweredIn c final part t opened answer left) (ht : s.Opens t others) :
    LoweredIn c final part s (opened ++ others) answer left := by
  obtain ⟨depth, u, u', hrun, hfinal, hleft, hopens⟩ := h
  exact ⟨depth, u, u', hrun, hfinal, hleft, ht.trans hopens⟩

theorem LoweredIn.after {m : Lower α} {a : α} [Steady nesting m] [Steady extension m]
    (hrun : m c s = (.ok a, s')) (h : LoweredIn c final part s' opened answer left) :
    LoweredIn c final part s opened answer left := by
  have houter := h.outer (opens_run hrun)
  rwa [List.append_nil] at houter

theorem LoweredIn.push
    (h : LoweredIn c final part { s with scopes := s.scopes.push kind } opened answer left) :
    LoweredIn c final part s (opened ++ [kind]) answer left :=
  h.outer (s.opens_push kind)

/-- Each element has its turn, in the scopes that the whole is run in. -/
theorem mapM_mem {f : α → Lower β} [hback : ∀ a, Additive extension (f a)]
    [hnest : ∀ a, Steady nesting (f a)] {as : List α} {bs : List β} {a : α}
    (hrun : as.mapM f c s = (.ok bs, s')) (ha : a ∈ as) :
    ∃ b ∈ bs, ∃ t t', f a c t = (.ok b, t') ∧ t'.LeadsTo s' ∧ t'.hoisted ⊆ s'.hoisted ∧
      s.Opens t [] := by
  induction as generalizing s bs with
  | nil => cases ha
  | cons first rest ih =>
    rw [List.mapM_cons] at hrun
    obtain ⟨b, s₁, hfirst, hrun⟩ := bind_ok.mp hrun
    obtain ⟨others, s₂, hrest, hrun⟩ := bind_ok.mp hrun
    obtain ⟨rfl, rfl⟩ := pure_ok.mp hrun
    rcases List.mem_cons.mp ha with rfl | ha
    · exact ⟨b, List.mem_cons_self, s, s₁, hfirst, leadsTo_run hrest, hoisted_subset_run hrest,
        .refl s⟩
    · obtain ⟨found, hfound, t, t', ht, ht', hhoisted, hopens⟩ := ih hrest ha
      exact ⟨found, List.mem_cons_of_mem _ hfound, t, t', ht, ht', hhoisted,
        (opens_run hfirst).trans hopens⟩

/-! ## Statements of a body -/

theorem lowerStatement_loweredIn {statements : List HostId}
    (hrun : lowerStatement (walkWithin depth) part c s = (.ok statements, s'))
    (hfinal : s'.LeadsTo final) :
    ∃ answer left, LoweredIn c final part s [] answer left ∧
      left ++ answer.toList = statements := by
  obtain ⟨⟨hoisted, answer⟩, s₁, hhoisting, hlist⟩ := bind_ok.mp hrun
  obtain ⟨rfl, rfl⟩ := pure_ok.mp hlist
  obtain ⟨s₂, hstatement, rfl, rfl⟩ := hoisting_ok hhoisting
  have hs₂ : s₂.LeadsTo final := ⟨⟨hfinal.tree, hfinal.types⟩, hfinal.warnings⟩
  exact ⟨answer, _, ⟨depth, _, s₂, hstatement, hs₂, rfl, ⟨rfl, fun _ h => h⟩⟩, rfl⟩

theorem lowerStatements_loweredIn {ids : List NodeId} {statements : List HostId}
    (hrun : lowerStatements (walkWithin depth) ids c s = (.ok statements, s'))
    (hfinal : s'.LeadsTo final) (hpart : part ∈ ids) :
    ∃ answer left, LoweredIn c final part s [] answer left ∧
      left ++ answer.toList ⊆ statements := by
  obtain ⟨lists, s₁, hlists, hrun⟩ := bind_ok.mp hrun
  obtain ⟨rfl, rfl⟩ := pure_ok.mp hrun
  obtain ⟨list, hlist, t, t', hstatement, ht', -, hopens⟩ := mapM_mem hlists hpart
  obtain ⟨answer, left, hanswer, rfl⟩ := lowerStatement_loweredIn hstatement (ht'.trans hfinal)
  exact ⟨answer, left, hanswer.outer hopens,
    fun host hhost => List.mem_flatten.mpr ⟨_, hlist, hhost⟩⟩

theorem inScope_statements {ids : List NodeId} {statements : List HostId}
    (hrun : inScope kind (lowerStatements (walkWithin depth) ids) c s = (.ok statements, s'))
    (hfinal : s'.LeadsTo final) (hpart : part ∈ ids) :
    ∃ answer left, LoweredIn c final part s [kind] answer left ∧
      left ++ answer.toList ⊆ statements := by
  obtain ⟨s₁, hstatements, rfl⟩ := inScope_ok.mp hrun
  have hs₁ : s₁.LeadsTo final := ⟨⟨hfinal.tree, hfinal.types⟩, hfinal.warnings⟩
  obtain ⟨answer, left, hanswer, hsubset⟩ := lowerStatements_loweredIn hstatements hs₁ hpart
  have hpushed := hanswer.push
  exact ⟨answer, left, hpushed, hsubset⟩

theorem lowerBlockStatements_loweredIn {id : NodeId} {statements : List HostId}
    (hrun : lowerBlockStatements (walkWithin depth) id kind c s = (.ok statements, s'))
    (hfinal : s'.LeadsTo final) (hpart : part ∈ c.unit.bodyOf id) :
    ∃ answer left, LoweredIn c final part s [kind] answer left ∧
      left ++ answer.toList ⊆ statements :=
  inScope_statements hrun hfinal hpart

theorem lowerBlock_loweredIn {id : NodeId} {block : HostId}
    (hrun : lowerBlock (walkWithin depth) id kind c s = (.ok block, s'))
    (hfinal : s'.LeadsTo final) (hpart : part ∈ c.unit.bodyOf id) :
    ∃ answer left, LoweredIn c final part s [kind] answer left ∧
      ∀ host ∈ left ++ answer.toList, final.tree.Encloses block [] host := by
  obtain ⟨statements, s₁, hstatements, hblock⟩ := bind_ok.mp hrun
  obtain ⟨answer, left, hanswer, hsubset⟩ :=
    lowerBlockStatements_loweredIn hstatements ((leadsTo_run hblock).trans hfinal) hpart
  exact ⟨answer, left, hanswer, fun host hhost =>
    .of_block (kind_addNode hblock hfinal.toPrecedes) (hsubset hhost)⟩

/-- A statement that may be left out. -/
theorem optional_loweredIn {id : Option NodeId} {answers : Option (Option HostId)}
    (hrun : id.mapM (walkWithin depth).statement c s = (.ok answers, s'))
    (hfinal : s'.LeadsTo final) (hpart : part ∈ id) :
    LoweredIn c final part s [] answers.join s'.hoisted := by
  cases hpart
  rw [Option.mapM_some] at hrun
  obtain ⟨answer, hstatement, rfl⟩ := map_ok.mp hrun
  exact .of_run hstatement hfinal

/-! ## Parts of a statement -/

/-- A part of a statement has been lowered, and what it has become stands in `host`, inside of these
constructs. The scopes around it say about loop control what the constructs say. What it has hoisted
stands there, too, or outside. -/
def PutsPart (c : Context) (final : State) (s : State) (part : NodeId) (host : HostId)
    (constructs outside : List HostId) : Prop :=
  ∃ answer left opened, LoweredIn c final part s opened answer left ∧
    (∀ isContinue, opened.findSome? (Scopes.target? isContinue) =
      constructs.findSome? (final.tree.target? isContinue)) ∧
    (∀ inner ∈ answer, final.tree.Encloses host constructs inner) ∧
    ∀ inner ∈ left, inner ∈ outside ∨ final.tree.Encloses host constructs inner

section

variable {host : HostId} {constructs outside : List HostId}

theorem PutsPart.mono {more : List HostId} (h : PutsPart c final s part host constructs outside)
    (hmore : outside ⊆ more) : PutsPart c final s part host constructs more := by
  obtain ⟨answer, left, opened, hanswer, htarget, hinner, hleft⟩ := h
  exact ⟨answer, left, opened, hanswer, htarget, hinner,
    fun inner h => (hleft inner h).imp_left (@hmore inner)⟩

/-- What is put in a plain part of a statement stands in what the statement stands in. -/
theorem PutsPart.of_plain (hanswer : LoweredIn c final part s opened answer left)
    (htarget : ∀ isContinue, opened.findSome? (Scopes.target? isContinue) = none)
    (hinner : ∀ inner ∈ left ++ answer.toList, ∃ top ∈ final.tree.plainParts host,
      final.tree.Encloses top [] inner) : PutsPart c final s part host [] outside := by
  have hencloses : ∀ inner ∈ left ++ answer.toList, final.tree.Encloses host [] inner := by
    intro inner h
    obtain ⟨top, htop, hencloses⟩ := hinner inner h
    exact .plain htop hencloses
  exact ⟨answer, left, opened, hanswer, htarget,
    fun inner h => hencloses inner (List.mem_append_right _ (Option.mem_toList.mpr h)),
    fun inner h => .inr (hencloses inner (List.mem_append_left _ h))⟩

/-- What is put in the body of a construct stands in that construct. -/
theorem PutsPart.of_breakable (hanswer : LoweredIn c final part s opened answer left)
    (htarget : ∀ isContinue, opened.findSome? (Scopes.target? isContinue) =
      final.tree.target? isContinue host)
    (hinner : ∀ inner ∈ left ++ answer.toList, ∃ top ∈ final.tree.breakableParts host,
      final.tree.Encloses top [] inner) : PutsPart c final s part host [host] outside := by
  have hencloses : ∀ inner ∈ left ++ answer.toList, final.tree.Encloses host [host] inner := by
    intro inner h
    obtain ⟨top, htop, hencloses⟩ := hinner inner h
    exact .inner htop hencloses
  refine ⟨answer, left, opened, hanswer, fun isContinue => ?_,
    fun inner h => hencloses inner (List.mem_append_right _ (Option.mem_toList.mpr h)),
    fun inner h => .inr (hencloses inner (List.mem_append_left _ h))⟩
  rw [htarget, List.findSome?_cons]
  cases final.tree.target? isContinue host <;> rfl

/-- The first statement of a header hoists what the whole statement does. -/
theorem PutsPart.of_header (hanswer : LoweredIn c final part s opened answer left)
    (htarget : ∀ isContinue, opened.findSome? (Scopes.target? isContinue) = none)
    (hleft : left ⊆ outside) (hinner : answer.toList ⊆ final.tree.plainParts host) :
    PutsPart c final s part host [] outside :=
  ⟨answer, left, opened, hanswer, htarget,
    fun _ h => .of_plain (hinner (Option.mem_toList.mpr h)), fun _ h => .inl (hleft h)⟩

theorem PutsPart.of_plain_subset (hanswer : LoweredIn c final part s opened answer left)
    (htarget : ∀ isContinue, opened.findSome? (Scopes.target? isContinue) = none)
    (hinner : left ++ answer.toList ⊆ final.tree.plainParts host) :
    PutsPart c final s part host [] outside :=
  .of_plain hanswer htarget fun inner h => ⟨inner, hinner h, .here inner⟩

theorem PutsPart.of_breakable_subset (hanswer : LoweredIn c final part s opened answer left)
    (htarget : ∀ isContinue, opened.findSome? (Scopes.target? isContinue) =
      final.tree.target? isContinue host)
    (hinner : left ++ answer.toList ⊆ final.tree.breakableParts host) :
    PutsPart c final s part host [host] outside :=
  .of_breakable hanswer htarget fun inner h => ⟨inner, hinner h, .here inner⟩

theorem PutsPart.after {m : Lower α} {a : α} [Steady nesting m] [Steady extension m]
    (hrun : m c s = (.ok a, s')) (h : PutsPart c final s' part host constructs outside) :
    PutsPart c final s part host constructs outside := by
  obtain ⟨answer, left, opened, hanswer, hrest⟩ := h
  exact ⟨answer, left, opened, hanswer.after hrun, hrest⟩

end

theorem inScope_run {m : Lower α} {a : α} (hrun : inScope kind m c s = (.ok a, s'))
    (hfinal : s'.LeadsTo final) :
    ∃ s₁, m c { s with scopes := s.scopes.push kind } = (.ok a, s₁) ∧ s₁.LeadsTo final ∧
      s₁.hoisted = s'.hoisted := by
  obtain ⟨s₁, hpart, rfl⟩ := inScope_ok.mp hrun
  exact ⟨s₁, hpart, ⟨⟨hfinal.tree, hfinal.types⟩, hfinal.warnings⟩, rfl⟩

theorem lowerElse_places {branch : NodeId} {host : HostId}
    (hrun : lowerElse (walkWithin depth) branch c s = (.ok host, s')) (hfinal : s'.LeadsTo final)
    (hpart : part ∈ c.unit.bodyOf branch) :
    ∃ answer left opened, LoweredIn c final part s opened answer left ∧
      (∀ isContinue, opened.findSome? (Scopes.target? isContinue) = none) ∧
      ∀ inner ∈ left ++ answer.toList, final.tree.Encloses host [] inner := by
  have hbody (hbody : lowerBody (walkWithin depth) branch c s = (.ok host, s')) :
      ∃ answer left opened, LoweredIn c final part s opened answer left ∧
        (∀ isContinue, opened.findSome? (Scopes.target? isContinue) = none) ∧
        ∀ inner ∈ left ++ answer.toList, final.tree.Encloses host [] inner := by
    obtain ⟨answer, left, hanswer, hencloses⟩ := lowerBlock_loweredIn hbody hfinal hpart
    exact ⟨answer, left, [.block], hanswer, fun _ => rfl, hencloses⟩
  unfold lowerElse at hrun
  rw [run_read] at hrun
  rcases hstmt : c.unit.stmt? branch with _ | statement
  · rw [hstmt] at hrun
    exact hbody hrun
  · rw [hstmt] at hrun
    cases statement with
    | ifElse =>
      rw [SourceUnit.bodyOf, hstmt] at hpart
      obtain rfl := List.mem_singleton.mp hpart
      obtain ⟨statements, s₁, hstatement, hwhole⟩ := bind_ok.mp hrun
      split at hwhole
      · obtain ⟨rfl, rfl⟩ := pure_ok.mp hwhole
        obtain ⟨answer, left, hanswer, heq⟩ := lowerStatement_loweredIn hstatement hfinal
        refine ⟨answer, left, [], hanswer, fun _ => rfl, fun inner hinner => ?_⟩
        rw [heq] at hinner
        obtain rfl := List.mem_singleton.mp hinner
        exact .here inner
      · obtain ⟨answer, left, hanswer, rfl⟩ :=
          lowerStatement_loweredIn hstatement ((leadsTo_run hwhole).trans hfinal)
        exact ⟨answer, left, [], hanswer, fun _ => rfl, fun inner hinner =>
          .of_block (kind_addNode hwhole hfinal.toPrecedes) hinner⟩
    | _ => exact hbody hrun

theorem lowerIf_places {init elseBranch : Option NodeId} {condition thenBlock : NodeId}
    {span : Span} {host : HostId}
    (hrun : lowerIf (walkWithin depth) init condition thenBlock elseBranch span c s =
      (.ok host, s')) (hfinal : s'.LeadsTo final) :
    (∀ part ∈ init, PutsPart c final s part host [] s'.hoisted) ∧
      ∀ part ∈ c.unit.bodyOf thenBlock ++ elseBranch.toList.flatMap c.unit.bodyOf,
        PutsPart c final s part host [] [] := by
  obtain ⟨_, s₁, hscope, hplace⟩ := bind_ok.mp hrun
  obtain ⟨_, hinside, hend, hhoisted⟩ := inScope_run hscope ((leadsTo_run hplace).trans hfinal)
  obtain ⟨initAnswer, t₁, hinit, hinside⟩ := bind_ok.mp hinside
  obtain ⟨conditionId, t₂, hcondition, hinside⟩ := bind_ok.mp hinside
  obtain ⟨thenBranch, t₃, hthen, hinside⟩ := bind_ok.mp hinside
  obtain ⟨elseAnswer, t₄, helse, hinside⟩ := bind_ok.mp hinside
  obtain ⟨rfl, rfl⟩ := pure_ok.mp hinside
  have hkind := kind_addNode hplace hfinal.toPrecedes
  have ht₃ : t₃.LeadsTo final := (leadsTo_run helse).trans hend
  have ht₁ : t₁.LeadsTo final :=
    (leadsTo_run hcondition).trans ((leadsTo_run hthen).trans ht₃)
  refine ⟨fun part hpart => ?_, fun part hpart => ?_⟩
  · have hanswer := (optional_loweredIn hinit ht₁ hpart).push
    have hleft : t₁.hoisted ⊆ s'.hoisted :=
      List.Subset.trans (hoisted_subset_run hcondition) (List.Subset.trans
        (hoisted_subset_run hthen) (List.Subset.trans (hoisted_subset_run helse)
          (hhoisted ▸ hoisted_subset_run hplace)))
    refine .of_header hanswer (fun _ => rfl) hleft ?_
    rw [HostTree.plainParts, hkind]
    exact List.subset_append_left _ _
  rcases List.mem_append.mp hpart with hpart | hpart
  · obtain ⟨answer, left, hanswer, hencloses⟩ := lowerBlock_loweredIn hthen ht₃ hpart
    have houter := ((hanswer.after hcondition).after hinit).push
    refine .of_plain houter (fun _ => rfl) fun inner hinner =>
      ⟨thenBranch, ?_, hencloses inner hinner⟩
    simp [HostTree.plainParts, hkind]
  · obtain ⟨branch, hbranch, hbody⟩ := List.mem_flatMap.mp hpart
    obtain rfl := Option.mem_toList.mp hbranch
    rw [Option.mapM_some] at helse
    obtain ⟨elseHost, hlower, rfl⟩ := map_ok.mp helse
    obtain ⟨answer, left, opened, hanswer, htarget, hencloses⟩ :=
      lowerElse_places hlower hend hbody
    have houter := (((hanswer.after hthen).after hcondition).after hinit).push
    refine .of_plain houter (fun isContinue => ?_) fun inner hinner =>
      ⟨elseHost, ?_, hencloses inner hinner⟩
    · rw [List.findSome?_append, htarget]
      rfl
    · simp [HostTree.plainParts, hkind]

theorem lowerFor_places {init condition post : Option NodeId} {body : NodeId} {span : Span}
    {host : HostId}
    (hrun : lowerFor (walkWithin depth) init condition post body span c s = (.ok host, s'))
    (hfinal : s'.LeadsTo final) :
    (∀ isContinue, final.tree.target? isContinue host = some .statement) ∧
      ∀ part ∈ c.unit.bodyOf body, PutsPart c final s part host [host] [] := by
  obtain ⟨_, s₁, hscope, hplace⟩ := bind_ok.mp hrun
  obtain ⟨_, hinside, hend, -⟩ := inScope_run hscope ((leadsTo_run hplace).trans hfinal)
  obtain ⟨initAnswer, t₁, hinit, hinside⟩ := bind_ok.mp hinside
  obtain ⟨before, t₂, hbefore, hinside⟩ := bind_ok.mp hinside
  obtain ⟨conditionId, t₃, hcondition, hinside⟩ := bind_ok.mp hinside
  obtain ⟨postAnswer, t₄, hpost, hinside⟩ := bind_ok.mp hinside
  obtain ⟨after, t₅, hafter, hinside⟩ := bind_ok.mp hinside
  split at hinside
  · exact absurd hinside Fails.fails
  obtain ⟨bodyId, t₆, hbody, hinside⟩ := bind_ok.mp hinside
  obtain ⟨rfl, rfl⟩ := pure_ok.mp hinside
  have hkind := kind_addNode hplace hfinal.toPrecedes
  have htarget (isContinue : Bool) : final.tree.target? isContinue host = some .statement := by
    rw [HostTree.target?, hkind]
  refine ⟨htarget, fun part hpart => ?_⟩
  obtain ⟨answer, left, hanswer, hencloses⟩ := lowerBlock_loweredIn hbody hend hpart
  have houter := (((((hanswer.after hafter).after hpost).after hcondition).after hbefore).after
    hinit).push
  refine .of_breakable houter (fun isContinue => (htarget isContinue).symm) fun inner hinner =>
    ⟨bodyId, ?_, hencloses inner hinner⟩
  rw [HostTree.breakableParts, hkind]
  exact List.mem_singleton.mpr rfl

/-- What has been lowered in the scope of an iteration stands in its loop. -/
theorem emitRange_places {plan : RangePlan} {source host : HostId} {key value : Option String}
    {body : List HostId} {span : Span}
    (hrun : emitRange plan source key value body span c t = (.ok host, s'))
    (hfinal : s'.LeadsTo final)
    (hanswer : LoweredIn c final part { s with scopes := s.scopes.push plan.scopeKind } [.block]
      answer left)
    (hbody : ∀ inner ∈ left ++ answer.toList, ∃ top ∈ body, final.tree.Encloses top [] inner) :
    PutsPart c final s part host [host] [] := by
  have hiterates := emitRange_iterates hrun hfinal.toPrecedes
  have hencloses : ∀ inner ∈ left ++ answer.toList, final.tree.Encloses host [host] inner := by
    intro inner hinner
    obtain ⟨top, htop, hencloses⟩ := hbody inner hinner
    exact (hiterates.encloses htop).trans hencloses
  refine ⟨answer, left, _, hanswer.push, fun isContinue => ?_,
    fun inner h => hencloses inner (List.mem_append_right _ (Option.mem_toList.mpr h)),
    fun inner h => .inr (hencloses inner (List.mem_append_left _ h))⟩
  rw [List.findSome?_cons, hiterates.target?]
  rfl

theorem lowerRangeDefine_places {key value : Option NodeId} {source host : HostId}
    {plan : RangePlan} {body : NodeId} {span : Span}
    (hrun : lowerRangeDefine (walkWithin depth) key value source plan body span c s =
      (.ok host, s')) (hfinal : s'.LeadsTo final) :
    (∀ isContinue, final.tree.target? isContinue host =
        Scopes.target? isContinue plan.scopeKind) ∧
      ∀ part ∈ c.unit.bodyOf body, PutsPart c final s part host [host] [] := by
  obtain ⟨keyName, s₁, hkey, hrun⟩ := bind_ok.mp hrun
  obtain ⟨valueName, s₂, hvalue, hrun⟩ := bind_ok.mp hrun
  obtain ⟨statements, s₃, hscope, hloop⟩ := bind_ok.mp hrun
  obtain ⟨-, rfl⟩ := rangeNames_ok hkey
  obtain ⟨-, rfl⟩ := rangeNames_ok hvalue
  refine ⟨(emitRange_iterates hloop hfinal.toPrecedes).target?, fun part hpart => ?_⟩
  obtain ⟨s₄, hinside, hend, -⟩ := inScope_run hscope ((leadsTo_run hloop).trans hfinal)
  obtain ⟨⟨⟩, s₅, hbind, hbody⟩ := bind_ok.mp hinside
  obtain ⟨answer, left, hanswer, hsubset⟩ := lowerBlockStatements_loweredIn hbody hend hpart
  exact emitRange_places hloop hfinal (hanswer.after hbind) fun inner hinner =>
    ⟨inner, hsubset hinner, .here inner⟩

theorem lowerRangeAssign_places {key value : Option NodeId} {source host : HostId}
    {plan : RangePlan} {body : NodeId} {span : Span}
    (hrun : lowerRangeAssign (walkWithin depth) key value source plan body span c s =
      (.ok host, s')) (hfinal : s'.LeadsTo final) :
    (∀ isContinue, final.tree.target? isContinue host = some .statement) ∧
      ∀ part ∈ c.unit.bodyOf body, PutsPart c final s part host [host] [] := by
  unfold lowerRangeAssign at hrun
  split at hrun
  · exact absurd hrun Fails.fails
  obtain ⟨keyId, s₁, hkey, hrun⟩ := bind_ok.mp hrun
  obtain ⟨valueId, s₂, hvalue, hrun⟩ := bind_ok.mp hrun
  obtain ⟨bodyId, s₃, hbody, hplace⟩ := bind_ok.mp hrun
  have hkind := kind_addNode hplace hfinal.toPrecedes
  have htarget (isContinue : Bool) : final.tree.target? isContinue host = some .statement := by
    rw [HostTree.target?, hkind]
  refine ⟨htarget, fun part hpart => ?_⟩
  obtain ⟨answer, left, hanswer, hencloses⟩ :=
    lowerBlock_loweredIn hbody ((leadsTo_run hplace).trans hfinal) hpart
  refine .of_breakable ((hanswer.after hvalue).after hkey)
    (fun isContinue => (htarget isContinue).symm) fun inner hinner =>
      ⟨bodyId, ?_, hencloses inner hinner⟩
  rw [HostTree.breakableParts, hkind]
  exact List.mem_singleton.mpr rfl

theorem isSome_target?_scopeKind (plan : RangePlan) (isContinue : Bool) :
    (Scopes.target? isContinue plan.scopeKind).isSome = true := by
  cases plan <;> rfl

theorem lowerRange_places {key value : Option NodeId} {define : Bool} {source body : NodeId}
    {span : Span} {host : HostId}
    (hrun : lowerRange (walkWithin depth) key value define source body span c s = (.ok host, s'))
    (hfinal : s'.LeadsTo final) :
    (∀ isContinue, (final.tree.target? isContinue host).isSome = true) ∧
      ∀ part ∈ c.unit.bodyOf body, PutsPart c final s part host [host] [] := by
  obtain ⟨⟨sourceId, plan⟩, s₁, hsource, hrun⟩ := bind_ok.mp hrun
  dsimp only at hrun
  split at hrun
  · obtain ⟨htarget, hplaces⟩ := lowerRangeAssign_places hrun hfinal
    exact ⟨fun isContinue => by rw [htarget]; rfl,
      fun part hpart => (hplaces part hpart).after hsource⟩
  · obtain ⟨htarget, hplaces⟩ := lowerRangeDefine_places hrun hfinal
    refine ⟨fun isContinue => ?_, fun part hpart => (hplaces part hpart).after hsource⟩
    rw [htarget, isSome_target?_scopeKind]

theorem lowerPhraseBody_loweredIn {clause : ForClause} {body : NodeId} {statements : List HostId}
    (hrun : lowerPhraseBody (walkWithin depth) clause body c s = (.ok statements, s'))
    (hfinal : s'.LeadsTo final) (hpart : part ∈ c.unit.bodyOf body) :
    ∃ answer left, LoweredIn c final part s [.block] answer left ∧
      ∀ inner ∈ left ++ answer.toList, ∃ top ∈ statements, final.tree.Encloses top [] inner := by
  obtain ⟨⟨hoisted, init, guard⟩, s₁, hheader, hrun⟩ := bind_ok.mp hrun
  cases guard with
  | none =>
    obtain ⟨inside, s₂, hbody, hrest⟩ := bind_ok.mp hrun
    obtain ⟨rfl, rfl⟩ := pure_ok.mp hrest
    obtain ⟨answer, left, hanswer, hsubset⟩ := lowerBlockStatements_loweredIn hbody hfinal hpart
    exact ⟨answer, left, hanswer.after hheader, fun inner hinner =>
      ⟨inner, List.mem_append_right _ (hsubset hinner), .here inner⟩⟩
  | some condition =>
    obtain ⟨thenBranch, s₂, hbody, hrest⟩ := bind_ok.mp hrun
    obtain ⟨span, s₃, hspan, hrest⟩ := bind_ok.mp hrest
    obtain ⟨guarded, s₄, hplace, hrest⟩ := bind_ok.mp hrest
    obtain ⟨rfl, rfl⟩ := pure_ok.mp hrest
    have hs₂ := (leadsTo_run hspan).trans ((leadsTo_run hplace).trans hfinal)
    obtain ⟨answer, left, hanswer, hencloses⟩ := lowerBlock_loweredIn hbody hs₂ hpart
    refine ⟨answer, left, hanswer.after hheader, fun inner hinner => ⟨guarded, by simp, ?_⟩⟩
    refine .plain ?_ (hencloses inner hinner)
    rw [HostTree.plainParts, kind_addNode hplace hfinal.toPrecedes]
    simp

theorem lowerForPhrase_places {clause : ForClause} {body : NodeId} {span : Span} {host : HostId}
    (hrun : lowerForPhrase (walkWithin depth) clause body span c s = (.ok host, s'))
    (hfinal : s'.LeadsTo final) :
    (∀ isContinue, (final.tree.target? isContinue host).isSome = true) ∧
      ∀ part ∈ c.unit.bodyOf body, PutsPart c final s part host [host] [] := by
  obtain ⟨⟨sourceId, plan⟩, s₁, hsource, hrun⟩ := bind_ok.mp hrun
  obtain ⟨statements, s₂, hscope, hloop⟩ := bind_ok.mp hrun
  refine ⟨fun isContinue => ?_, fun part hpart => ?_⟩
  · rw [(emitRange_iterates hloop hfinal.toPrecedes).target?, isSome_target?_scopeKind]
  · obtain ⟨s₃, hinside, hend, -⟩ := inScope_run hscope ((leadsTo_run hloop).trans hfinal)
    obtain ⟨⟨⟩, s₄, hbind, hbody⟩ := bind_ok.mp hinside
    obtain ⟨answer, left, hanswer, hencloses⟩ := lowerPhraseBody_loweredIn hbody hend hpart
    exact (emitRange_places hloop hfinal (hanswer.after hbind) hencloses).after hsource

theorem lowerCase_loweredIn {tag : Option TypeId} {clause : CaseClause} {case : HostCase}
    (hrun : lowerCase (walkWithin depth) tag clause c s = (.ok case, s'))
    (hfinal : s'.LeadsTo final) (hpart : part ∈ clause.body) :
    ∃ answer left, LoweredIn c final part s [.switchCase] answer left ∧
      left ++ answer.toList ⊆ case.body := by
  have hbody {m : Lower (Option (List HostId))} [Steady nesting m] [Steady extension m]
      (hwhole : (do
        let values ← m
        let body ← inScope .switchCase (lowerStatements (walkWithin depth) clause.body)
        return HostCase.mk values body) c s = (.ok case, s')) :
      ∃ answer left, LoweredIn c final part s [.switchCase] answer left ∧
        left ++ answer.toList ⊆ case.body := by
    obtain ⟨values, s₁, hvalues, hrest⟩ := bind_ok.mp hwhole
    obtain ⟨body, s₂, hscope, hrest⟩ := bind_ok.mp hrest
    obtain ⟨rfl, rfl⟩ := pure_ok.mp hrest
    obtain ⟨answer, left, hanswer, hsubset⟩ := inScope_statements hscope hfinal hpart
    exact ⟨answer, left, hanswer.after hvalues, hsubset⟩
  unfold lowerCase at hrun
  split at hrun
  · exact hbody hrun
  · exact hbody hrun

theorem lowerTypeCase_loweredIn {binding : Option String} {subject : TypeId} {clause : CaseClause}
    {case : HostTypeCase}
    (hrun : lowerTypeCase (walkWithin depth) binding subject clause c s = (.ok case, s'))
    (hfinal : s'.LeadsTo final) (hpart : part ∈ clause.body) :
    ∃ answer left, LoweredIn c final part s [.typeSwitchCase] answer left ∧
      left ++ answer.toList ⊆ case.body := by
  have hbody {m : Lower (Option (List (Option TypeId)))} [Steady nesting m] [Steady extension m]
      (hwhole : (do
        let types ← m
        let body ← inScope .typeSwitchCase (do
          bindVariable binding (some (caseType subject types))
          lowerStatements (walkWithin depth) clause.body)
        return HostTypeCase.mk types body) c s = (.ok case, s')) :
      ∃ answer left, LoweredIn c final part s [.typeSwitchCase] answer left ∧
        left ++ answer.toList ⊆ case.body := by
    obtain ⟨types, s₁, htypes, hrest⟩ := bind_ok.mp hwhole
    obtain ⟨body, s₂, hscope, hrest⟩ := bind_ok.mp hrest
    obtain ⟨rfl, rfl⟩ := pure_ok.mp hrest
    obtain ⟨s₃, hinside, hend, -⟩ := inScope_run hscope hfinal
    obtain ⟨⟨⟩, s₄, hbind, hbody⟩ := bind_ok.mp hinside
    obtain ⟨answer, left, hanswer, hsubset⟩ := lowerStatements_loweredIn hbody hend hpart
    have hpushed := (hanswer.after hbind).push
    exact ⟨answer, left, hpushed.after htypes, hsubset⟩
  unfold lowerTypeCase at hrun
  split at hrun
  · exact hbody hrun
  · exact hbody hrun

theorem lowerSelectCase_loweredIn {clause : SelectClause} {case : HostSelectCase}
    (hrun : lowerSelectCase (walkWithin depth) clause c s = (.ok case, s'))
    (hfinal : s'.LeadsTo final) :
    (part ∈ clause.comm.toList → ∃ answer left, LoweredIn c final part s [.selectCase] answer left ∧
      answer.toList ⊆ case.comm.toList ++ case.body ∧ left ⊆ s'.hoisted) ∧
    (part ∈ clause.body → ∃ answer left, LoweredIn c final part s [.selectCase] answer left ∧
      left ++ answer.toList ⊆ case.comm.toList ++ case.body) := by
  obtain ⟨s₁, hinside, hend, hhoisted⟩ := inScope_run hrun hfinal
  obtain ⟨comm, s₂, hcomm, hinside⟩ := bind_ok.mp hinside
  obtain ⟨body, s₃, hbody, hrest⟩ := bind_ok.mp hinside
  obtain ⟨rfl, rfl⟩ := pure_ok.mp hrest
  refine ⟨fun hpart => ?_, fun hpart => ?_⟩
  · have hanswer := (optional_loweredIn hcomm ((leadsTo_run hbody).trans hend)
      (Option.mem_toList.mp hpart)).push
    exact ⟨_, _, hanswer, List.subset_append_left _ _, hhoisted ▸ hoisted_subset_run hbody⟩
  · obtain ⟨answer, left, hanswer, hsubset⟩ := lowerStatements_loweredIn hbody hend hpart
    have hpushed := (hanswer.after hcomm).push
    exact ⟨answer, left, hpushed, List.Subset.trans hsubset (List.subset_append_right _ _)⟩

/-- What is lowered in one of the clauses stands in what that clause has become. -/
theorem clauses_loweredIn {f : α → Lower β} [∀ a, Additive extension (f a)]
    [∀ a, Steady nesting (f a)] {clauses : List α} {cases : List β} {parts : α → List NodeId}
    {bodies : β → List HostId} (hrun : clauses.mapM f c s = (.ok cases, s'))
    (hfinal : s'.LeadsTo final) (hpart : part ∈ clauses.flatMap parts)
    (hclause : ∀ {clause case t t'}, f clause c t = (.ok case, t') → t'.LeadsTo final →
      part ∈ parts clause →
      ∃ answer left, LoweredIn c final part t opened answer left ∧
        left ++ answer.toList ⊆ bodies case) :
    ∃ answer left, LoweredIn c final part s opened answer left ∧
      left ++ answer.toList ⊆ cases.flatMap bodies := by
  obtain ⟨clause, hmem, hpart⟩ := List.mem_flatMap.mp hpart
  obtain ⟨case, hcase, t, t', hone, ht', -, hopens⟩ := mapM_mem hrun hmem
  obtain ⟨answer, left, hanswer, hsubset⟩ := hclause hone (ht'.trans hfinal) hpart
  have houter := hanswer.outer hopens
  rw [List.append_nil] at houter
  exact ⟨answer, left, houter,
    fun inner hinner => List.mem_flatMap.mpr ⟨case, hcase, hsubset hinner⟩⟩

theorem lowerSwitch_places {init tag : Option NodeId} {clauses : List CaseClause} {span : Span}
    {host : HostId}
    (hrun : lowerSwitch (walkWithin depth) init tag clauses span c s = (.ok host, s'))
    (hfinal : s'.LeadsTo final) :
    (∃ init tag cases, final.tree.kind host = .switch init tag cases) ∧
      (∀ part ∈ init, PutsPart c final s part host [] s'.hoisted) ∧
      ∀ part ∈ clauses.flatMap (·.body), PutsPart c final s part host [host] [] := by
  obtain ⟨_, s₁, hscope, hplace⟩ := bind_ok.mp hrun
  obtain ⟨_, hinside, hend, hhoisted⟩ := inScope_run hscope ((leadsTo_run hplace).trans hfinal)
  obtain ⟨initAnswer, t₁, hinit, hinside⟩ := bind_ok.mp hinside
  obtain ⟨tagId, t₂, htag, hinside⟩ := bind_ok.mp hinside
  obtain ⟨cases, t₃, hcases, hinside⟩ := bind_ok.mp hinside
  obtain ⟨rfl, rfl⟩ := pure_ok.mp hinside
  have hkind := kind_addNode hplace hfinal.toPrecedes
  have ht₁ : t₁.LeadsTo final := (leadsTo_run htag).trans ((leadsTo_run hcases).trans hend)
  have hout : t₃.hoisted ⊆ s'.hoisted := hhoisted ▸ hoisted_subset_run hplace
  refine ⟨⟨_, _, _, hkind⟩, fun part hpart => ?_, fun part hpart => ?_⟩
  · have hanswer := (optional_loweredIn hinit ht₁ hpart).push
    refine .of_header hanswer (fun _ => rfl)
      (List.Subset.trans (hoisted_subset_run htag)
        (List.Subset.trans (hoisted_subset_run hcases) hout)) ?_
    rw [HostTree.plainParts, hkind]
    exact List.Subset.refl _
  · obtain ⟨answer, left, hanswer, hsubset⟩ :=
      clauses_loweredIn hcases hend hpart lowerCase_loweredIn
    refine .of_breakable_subset ((hanswer.after htag).after hinit).push (fun isContinue => ?_) ?_
    · rw [HostTree.target?, hkind]
      cases isContinue <;> rfl
    · rwa [HostTree.breakableParts, hkind]

theorem lowerTypeSwitch_places {init : Option NodeId} {binding : Option String} {subject : NodeId}
    {clauses : List CaseClause} {span : Span} {host : HostId}
    (hrun : lowerTypeSwitch (walkWithin depth) init binding subject clauses span c s =
      (.ok host, s')) (hfinal : s'.LeadsTo final) :
    (∃ init binding subject cases,
        final.tree.kind host = .typeSwitch init binding subject cases) ∧
      (∀ part ∈ init, PutsPart c final s part host [] s'.hoisted) ∧
      ∀ part ∈ clauses.flatMap (·.body), PutsPart c final s part host [host] [] := by
  obtain ⟨_, s₁, hscope, hplace⟩ := bind_ok.mp hrun
  obtain ⟨_, hinside, hend, hhoisted⟩ := inScope_run hscope ((leadsTo_run hplace).trans hfinal)
  obtain ⟨initAnswer, t₁, hinit, hinside⟩ := bind_ok.mp hinside
  obtain ⟨⟨subjectId, type⟩, t₂, hsubject, hinside⟩ := bind_ok.mp hinside
  obtain ⟨cases, t₃, hcases, hinside⟩ := bind_ok.mp hinside
  obtain ⟨rfl, rfl⟩ := pure_ok.mp hinside
  have hkind := kind_addNode hplace hfinal.toPrecedes
  have ht₁ : t₁.LeadsTo final := (leadsTo_run hsubject).trans ((leadsTo_run hcases).trans hend)
  have hout : t₃.hoisted ⊆ s'.hoisted := hhoisted ▸ hoisted_subset_run hplace
  refine ⟨⟨_, _, _, _, hkind⟩, fun part hpart => ?_, fun part hpart => ?_⟩
  · have hanswer := (optional_loweredIn hinit ht₁ hpart).push
    refine .of_header hanswer (fun _ => rfl)
      (List.Subset.trans (hoisted_subset_run hsubject)
        (List.Subset.trans (hoisted_subset_run hcases) hout)) ?_
    rw [HostTree.plainParts, hkind]
    exact List.Subset.refl _
  · obtain ⟨answer, left, hanswer, hsubset⟩ :=
      clauses_loweredIn hcases hend hpart lowerTypeCase_loweredIn
    refine .of_breakable_subset ((hanswer.after hsubject).after hinit).push
      (fun isContinue => ?_) ?_
    · rw [HostTree.target?, hkind]
      cases isContinue <;> rfl
    · rwa [HostTree.breakableParts, hkind]

theorem lowerSelect_places {clauses : List SelectClause} {span : Span} {host : HostId}
    (hrun : lowerSelect (walkWithin depth) clauses span c s = (.ok host, s'))
    (hfinal : s'.LeadsTo final) :
    (∃ cases, final.tree.kind host = .select cases) ∧
      (∀ part ∈ clauses.flatMap (·.comm.toList), PutsPart c final s part host [host] s'.hoisted) ∧
      ∀ part ∈ clauses.flatMap (·.body), PutsPart c final s part host [host] [] := by
  obtain ⟨cases, s₁, hcases, hplace⟩ := bind_ok.mp hrun
  have hkind := kind_addNode hplace hfinal.toPrecedes
  have hs₁ := (leadsTo_run hplace).trans hfinal
  have hparts : final.tree.breakableParts host =
      cases.flatMap (fun clause => clause.comm.toList ++ clause.body) := by
    rw [HostTree.breakableParts, hkind]
  have htarget (isContinue : Bool) : [ScopeKind.selectCase].findSome? (Scopes.target? isContinue) =
      final.tree.target? isContinue host := by
    rw [HostTree.target?, hkind]
    cases isContinue <;> rfl
  refine ⟨⟨_, hkind⟩, fun part hpart => ?_, fun part hpart => ?_⟩
  · obtain ⟨clause, hmem, hpart⟩ := List.mem_flatMap.mp hpart
    obtain ⟨case, hcase, t, t', hone, ht', hhoisted, hopens⟩ := mapM_mem hcases hmem
    obtain ⟨answer, left, hanswer, hsubset, hleft⟩ :=
      (lowerSelectCase_loweredIn hone (ht'.trans hs₁)).1 hpart
    have houter := hanswer.outer hopens
    rw [List.append_nil] at houter
    refine ⟨answer, left, _, houter, fun isContinue => ?_, fun inner h => .of_breakable ?_,
      fun inner h => .inl (hoisted_subset_run hplace (hhoisted (hleft h)))⟩
    · rw [htarget, List.findSome?_cons]
      cases final.tree.target? isContinue host <;> rfl
    · rw [hparts]
      exact List.mem_flatMap.mpr ⟨case, hcase, hsubset (Option.mem_toList.mpr h)⟩
  · obtain ⟨answer, left, hanswer, hsubset⟩ := clauses_loweredIn hcases hs₁ hpart
      fun hone ht' => (lowerSelectCase_loweredIn hone ht').2
    exact .of_breakable_subset hanswer htarget (hparts ▸ hsubset)

/-! ## All statements -/

theorem statement_ok {id : NodeId} {statement : Stmt} (hstmt : c.unit.stmt? id = some statement)
    (hrun : (walkWithin depth).statement id c s = (.ok answer, s')) :
    ∃ depth, lowerStmtKind (walkWithin depth) statement (c.unit.span id) c s =
      (.ok answer, s') := by
  cases depth with
  | zero => cases hrun
  | succ depth =>
    refine ⟨depth, ?_⟩
    change lowerStmt (walkWithin depth) id c s = _ at hrun
    unfold lowerStmt at hrun
    rw [run_read, hstmt] at hrun
    exact hrun

/-- The host statement that is made of what a part of the lowering gives. -/
theorem some_ok {m : Lower HostId}
    (hrun : (do return some (← m) : Lower (Option HostId)) c s = (.ok answer, s')) :
    ∃ host, answer = some host ∧ m c s = (.ok host, s') := by
  obtain ⟨host, s₁, hm, hrest⟩ := bind_ok.mp hrun
  obtain ⟨rfl, rfl⟩ := pure_ok.mp hrest
  exact ⟨host, rfl, hm⟩

section

variable {id : NodeId} {host : HostId} {constructs : List HostId}

theorem PutsPart.first (h : PutsPart c final s part host constructs s'.hoisted)
    (hpart : part ∈ c.unit.firstParts id) :
    PutsPart c final s part host constructs (c.unit.passedOn id part s'.hoisted) := by
  rwa [SourceUnit.passedOn, if_pos hpart]

theorem PutsPart.listed (h : PutsPart c final s part host constructs []) :
    PutsPart c final s part host constructs (c.unit.passedOn id part s'.hoisted) :=
  h.mono (List.nil_subset _)

end

/-- A statement that lies in another one without being in the body of a construct. -/
theorem plain_places {id : NodeId} (hpart : part ∈ c.unit.plainParts id)
    (hrun : (walkWithin depth).statement id c s = (.ok answer, s')) (hfinal : s'.LeadsTo final) :
    ∃ host, answer = some host ∧
      PutsPart c final s part host [] (c.unit.passedOn id part s'.hoisted) := by
  rcases hstmt : c.unit.stmt? id with _ | statement
  · rw [SourceUnit.plainParts, hstmt] at hpart
    cases hpart
  obtain ⟨depth, hrun⟩ := statement_ok hstmt hrun
  rw [SourceUnit.plainParts, hstmt] at hpart
  cases statement with
  | block statements =>
    obtain ⟨ids, s₁, hscope, hrest⟩ := bind_ok.mp hrun
    obtain ⟨host, rfl, hplace⟩ := some_ok hrest
    obtain ⟨answer, left, hanswer, hsubset⟩ :=
      inScope_statements hscope ((leadsTo_run hplace).trans hfinal) hpart
    refine ⟨host, rfl, .listed (.of_plain_subset hanswer (fun _ => rfl) ?_)⟩
    rwa [HostTree.plainParts, kind_addNode hplace hfinal.toPrecedes]
  | ifElse init =>
    obtain ⟨host, rfl, hif⟩ := some_ok hrun
    obtain ⟨hinit, hbodies⟩ := lowerIf_places hif hfinal
    refine ⟨host, rfl, ?_⟩
    dsimp only at hpart
    rw [List.append_assoc] at hpart
    rcases List.mem_append.mp hpart with hpart | hpart
    · exact (hinit part (Option.mem_toList.mp hpart)).first (by rwa [SourceUnit.firstParts, hstmt])
    · exact (hbodies part hpart).listed
  | switch init =>
    obtain ⟨host, rfl, hswitch⟩ := some_ok hrun
    exact ⟨host, rfl, ((lowerSwitch_places hswitch hfinal).2.1 part
      (Option.mem_toList.mp hpart)).first (by rwa [SourceUnit.firstParts, hstmt])⟩
  | typeSwitch init =>
    obtain ⟨host, rfl, hswitch⟩ := some_ok hrun
    exact ⟨host, rfl, ((lowerTypeSwitch_places hswitch hfinal).2.1 part
      (Option.mem_toList.mp hpart)).first (by rwa [SourceUnit.firstParts, hstmt])⟩
  | labeled label body =>
    obtain rfl := List.mem_singleton.mp hpart
    obtain ⟨bodyAnswer, s₁, hbody, hrest⟩ := bind_ok.mp hrun
    obtain ⟨host, rfl, hplace⟩ := some_ok hrest
    have hanswer := LoweredIn.of_run hbody ((leadsTo_run hplace).trans hfinal)
    refine ⟨host, rfl, .first (.of_header hanswer (fun _ => rfl) (hoisted_subset_run hplace) ?_)
      (by rwa [SourceUnit.firstParts, hstmt])⟩
    rw [HostTree.plainParts, kind_addNode hplace hfinal.toPrecedes]
    exact List.Subset.refl _
  | _ => cases hpart

/-- A statement in the body of a loop, a switch or a select. -/
theorem breakable_places {id : NodeId} (hpart : part ∈ c.unit.breakableParts id)
    (hrun : (walkWithin depth).statement id c s = (.ok answer, s')) (hfinal : s'.LeadsTo final) :
    ∃ host, answer = some host ∧
      PutsPart c final s part host [host] (c.unit.passedOn id part s'.hoisted) ∧
      ∀ isContinue,
        (final.tree.target? isContinue host).isSome = c.unit.catches isContinue id := by
  rcases hstmt : c.unit.stmt? id with _ | statement
  · rw [SourceUnit.breakableParts, hstmt] at hpart
    cases hpart
  obtain ⟨depth, hrun⟩ := statement_ok hstmt hrun
  rw [SourceUnit.breakableParts, hstmt] at hpart
  simp only [SourceUnit.catches, hstmt]
  cases statement with
  | loop =>
    obtain ⟨host, rfl, hfor⟩ := some_ok hrun
    obtain ⟨htarget, hplaces⟩ := lowerFor_places hfor hfinal
    exact ⟨host, rfl, (hplaces part hpart).listed, fun isContinue => by rw [htarget]; rfl⟩
  | range =>
    obtain ⟨host, rfl, hrange⟩ := some_ok hrun
    obtain ⟨htarget, hplaces⟩ := lowerRange_places hrange hfinal
    exact ⟨host, rfl, (hplaces part hpart).listed, htarget⟩
  | forPhrase =>
    obtain ⟨host, rfl, hphrase⟩ := some_ok hrun
    obtain ⟨htarget, hplaces⟩ := lowerForPhrase_places hphrase hfinal
    exact ⟨host, rfl, (hplaces part hpart).listed, htarget⟩
  | switch =>
    obtain ⟨host, rfl, hswitch⟩ := some_ok hrun
    obtain ⟨⟨_, _, _, hkind⟩, -, hplaces⟩ := lowerSwitch_places hswitch hfinal
    refine ⟨host, rfl, (hplaces part hpart).listed, fun isContinue => ?_⟩
    rw [HostTree.target?, hkind]
    cases isContinue <;> rfl
  | typeSwitch =>
    obtain ⟨host, rfl, hswitch⟩ := some_ok hrun
    obtain ⟨⟨_, _, _, _, hkind⟩, -, hplaces⟩ := lowerTypeSwitch_places hswitch hfinal
    refine ⟨host, rfl, (hplaces part hpart).listed, fun isContinue => ?_⟩
    rw [HostTree.target?, hkind]
    cases isContinue <;> rfl
  | select clauses =>
    obtain ⟨host, rfl, hselect⟩ := some_ok hrun
    obtain ⟨⟨_, hkind⟩, hcomm, hbodies⟩ := lowerSelect_places hselect hfinal
    refine ⟨host, rfl, ?_, fun isContinue => ?_⟩
    · obtain ⟨clause, hclause, hpart⟩ := List.mem_flatMap.mp hpart
      rcases List.mem_append.mp hpart with hpart | hpart
      · have hfirst : part ∈ c.unit.firstParts id := by
          rw [SourceUnit.firstParts, hstmt]
          exact List.mem_flatMap.mpr ⟨clause, hclause, hpart⟩
        exact (hcomm part (List.mem_flatMap.mpr ⟨clause, hclause, hpart⟩)).first hfirst
      · exact (hbodies part (List.mem_flatMap.mpr ⟨clause, hclause, hpart⟩)).listed
    · rw [HostTree.target?, hkind]
      cases isContinue <;> rfl
  | _ => cases hpart

end Lowering

end GoLowering
