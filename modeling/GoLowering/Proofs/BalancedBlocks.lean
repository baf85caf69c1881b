import GoLowering.Proofs.BalancedCalls

/-!
# Balances of blocks and functions

What is hoisted for a statement stands before it in its list, and what is hoisted in a function
literal, in a lambda or in a comprehension stands in its body: all that is hoisted in one of them
has been used up when its body ends.
-/

namespace GoLowering.Lowering

open Surface Walk.Balanced

theorem Watch.entries_eq_values {w : Watch} {ids : List HostId} (h : w.values ids ≠ ⊤) :
    w.entries ids = w.values ids := by
  induction ids with
  | nil => rfl
  | cons id ids ih =>
    rw [values_cons] at h
    rw [entries_cons, values_cons, entry_eq_value (fun he => h (by rw [he, top_add])),
      ih (fun he => h (by rw [he, add_top]))]

theorem Watch.entries_flatten (w : Watch) (lists : List (List HostId)) :
    w.entries lists.flatten = (lists.map w.entries).sum := by
  induction lists with
  | nil => rfl
  | cons ids lists ih => rw [List.flatten_cons, entries_append, ih, List.map_cons, List.sum_cons]

variable (w : Watch) {walk : Walk} [walk.Balanced w]

/-! ## Blocks -/

theorem balances_lowerStatement (id : NodeId) :
    w.Balances 0 (lowerStatement walk id) w.entries := by
  unfold lowerStatement
  refine .wholly (.hoisting (balances_statement id)) (fun (hoisted, statement) => .pure (fun h => ?_))
  have hstatement : w.values statement.toList ≠ ⊤ := fun he => h (by rw [he, add_top])
  rw [Watch.entries_append, Watch.entries_eq_values hstatement]

theorem balances_lowerStatements (ids : List NodeId) :
    w.Balances 0 (lowerStatements walk ids) w.entries := by
  unfold lowerStatements
  exact .finish (.forEach (balances_lowerStatement w) _) (fun _ _ => w.entries_flatten _)

theorem balances_lowerBlockStatements (id : NodeId) (kind : ScopeKind) :
    w.Balances 0 (lowerBlockStatements walk id kind) w.entries := by
  unfold lowerBlockStatements
  exact .read (fun c => .inScope (balances_lowerStatements w _))

theorem balances_lowerBlock (id : NodeId) (kind : ScopeKind) :
    w.Balances 0 (lowerBlock walk id kind) w.value := by
  unfold lowerBlock
  exact .wholly (balances_lowerBlockStatements w _ _) (fun ids => .scaffolding (by simp))

theorem balances_lowerBody (id : NodeId) : w.Balances 0 (lowerBody walk id) w.value :=
  balances_lowerBlock w id .block

/-- An expression stands where a statement stands. -/
theorem balances_expressionStatement (operand : Operand) :
    w.Balances (w.operand operand) (expressionStatement walk operand) w.value := by
  have called : w.Balances (w.operand operand)
      (do place (.expression (← callOperand walk operand [] false operand.span .none).id)
            operand.span) w.value :=
    .wholly (balances_callOperand w _ _ _ _ _) (fun call => .opened (.placing (by simp)))
  have statement : w.Balances (w.operand operand)
      (place (.expression operand.id) operand.span) w.value :=
    .opened (.placing (by simp))
  unfold expressionStatement
  dsimp only
  refine .skip (fun kind => ?_)
  split
  · exact .opened (.pure (fun _ => rfl))
  · exact statement
  · exact statement
  · exact statement
  · exact called
  · refine .skip (fun types => ?_)
    split
    · exact called
    · exact statement
  · exact .skip (fun text => .failing)
  · exact .skip (fun text => .failing)

/-! ## Lambdas and function literals -/

theorem balances_lowerAllResults (value : NodeId) (results : List TypeId) (expect : Expectation) :
    w.Balances 0 (lowerAllResults walk value results expect) w.value := by
  unfold lowerAllResults
  refine .wholly (balances_expr _ _) (fun operand => .skip (fun types => ?_))
  dsimp only
  refine .skip (fun fits => ?_)
  split
  · exact .opened (.pure (fun _ => rfl))
  · exact .failing

theorem balances_lowerEachResult (values : List NodeId) (results : List TypeId) :
    w.Balances 0 (lowerEachResult walk values results) w.values := by
  unfold lowerEachResult
  exact .forEach (fun _ => balances_lowerInto w _ _) _

theorem balances_lowerLambdaStatement (value : NodeId) :
    w.Balances 0 (lowerLambdaStatement walk value) w.entries := by
  unfold lowerLambdaStatement
  refine .wholly (balances_expr _ _) (fun operand => ?_)
  refine .next .takeHoisted (fun hoisted => .swap (.bind (balances_expressionStatement w _)
    (fun statement => .listing (.pure (fun _ => ?_)))))
  simp [add_comm]

theorem balances_lowerLambdaValues (values : List NodeId) (results : List TypeId) (span : Span) :
    w.Balances 0 (lowerLambdaValues walk values results span) w.values := by
  unfold lowerLambdaValues
  split
  · exact .finish (balances_lowerAllResults w _ _ _) (fun _ _ => by simp)
  · split
    · exact balances_lowerEachResult w _ _
    · exact .failing

theorem balances_lowerLambdaExpressions (values : List NodeId) (results : List TypeId)
    (span : Span) :
    w.Balances 0 (lowerLambdaExpressions walk values results span) w.value := by
  unfold lowerLambdaExpressions
  split
  · refine .wholly (.forEach (balances_lowerLambdaStatement w) _) (fun lists => ?_)
    exact .scaffolding (by simp [w.entries_flatten])
  · refine .wholly (balances_lowerLambdaValues w _ _ _) (fun ids => ?_)
    refine .next .takeHoisted (fun hoisted => ?_)
    have block (span : Span) : w.Balances (w.entries hoisted + w.values ids)
        (do blockNode (hoisted ++ [← place (.ret ids) span])) w.value :=
      .swap (.bind (.placing (by simp)) (fun ret => .listing (.scaffolding (by simp [add_comm]))))
    dsimp only
    split
    · exact .skip (fun first => .skip (fun last => .returned (block _)))
    · exact .returned (block _)

theorem balances_lowerLambdaBody (body : LambdaBody) (results : List TypeId) (span : Span) :
    w.Balances 0 (lowerLambdaBody walk body results span) w.value := by
  cases body with
  | block body => exact balances_lowerBody w body
  | expressions values => exact balances_lowerLambdaExpressions w values results span

/-- All that is hoisted in a lambda has been used up when its body ends. -/
theorem lowerLambdaBody_hoisted {walk : Walk} [walk.Keeps recording] {body : LambdaBody} {results : List TypeId} {span : Span}
    (hresults : results.getLast? = some TypeTable.error) {c : Context} {s s' : State} {id : HostId}
    (hrun : lowerLambdaBody walk body results span c s = (.ok id, s')) (hs : s.hoisted = []) :
    s'.hoisted = [] := by
  cases body with
  | block body =>
    have hquiet : Quiet recording (lowerBody walk body) := inferInstance
    obtain ⟨pushed, h⟩ := hquiet.hoists hrun
    rw [h.hoisted, hs, List.append_nil]
  | expressions values =>
    have hsome : results.isEmpty = false := by
      cases results with
      | nil => cases hresults
      | cons => rfl
    change lowerLambdaExpressions walk values results span c s = _ at hrun
    unfold lowerLambdaExpressions at hrun
    rw [if_neg (by simp [hsome])] at hrun
    obtain ⟨ids, s₁, -, hrun⟩ := bind_ok.mp hrun
    obtain ⟨hoisted, s₂, htake, hrun⟩ := bind_ok.mp hrun
    obtain ⟨-, rfl⟩ := Prod.mk.inj htake
    refine (Still.settles (h := ?_) hrun).hoisted
    split <;> infer_instance

/-- What has been hoisted at a level since some state is held by what a part gives that is given
nothing. -/
theorem Watch.Books.held_since {w : Watch} {since : Moment} {held weight : ℕ∞} {s s' : State}
    {pushed : List HostId} (hw : w.level) (hb : w.Books since held s)
    (hb' : w.Books since (held + weight) s') (hoisted : s'.hoisted = s.hoisted)
    (hlog : s'.levelLog = s.levelLog ++ pushed) : weight = pushed.count w.statement := by
  have hbefore := hb.level hw
  have hafter := hb'.level hw
  have hfinite : held + w.entries s.hoisted + since.logged ≠ ⊤ :=
    WithTop.add_ne_top.mpr ⟨hb.finite, ENat.natCast_ne_top _⟩
  refine ENat.add_right_injective_of_ne_top hfinite ?_
  calc held + w.entries s.hoisted + since.logged + weight
      = held + weight + w.entries s'.hoisted + since.logged := by rw [hoisted]; abel
    _ = s'.levelLog.count w.statement + since.held := hafter.symm
    _ = s.levelLog.count w.statement + since.held + pushed.count w.statement := by
        rw [hlog, List.count_append, Nat.cast_add]; abel
    _ = held + w.entries s.hoisted + since.logged + pushed.count w.statement := by rw [hbefore]

omit [walk.Balanced w] in
/-- Below a function literal stands what has been hoisted in it. -/
theorem balances_putLiteral (hw : w.level) {signature : HostSignature} {part : Lower HostId}
    {span : Span} [Steady recording part]
    (h : w.Balances 0 (inFunction .closure (signature.results.map (·.type)) part) w.value) :
    w.Balances 0 (putLiteral signature part span) w.value := by
  have hput (body : HostId) : w.Balances (w.value body)
      (place (.functionLiteral signature body) span) w.value := .placing (by simp)
  have hquiet : Quiet recording (inFunction .closure (signature.results.map (·.type)) part) :=
    inferInstance
  refine ⟨fun c s id s' hrun ho => ?_, fun c s id s' hrun ho since held hb => ?_⟩
  all_goals
    obtain ⟨before, s₀, hget, hrun⟩ := bind_ok.mp hrun
    obtain ⟨hstate, rfl⟩ := Prod.mk.inj hget
    obtain rfl := Except.ok.inj hstate
    obtain ⟨body, s₁, hbody, hrun⟩ := bind_ok.mp hrun
    obtain ⟨node, s₂, hnode, hrun⟩ := bind_ok.mp hrun
    obtain ⟨after, s₃, hget, hrun⟩ := bind_ok.mp hrun
    obtain ⟨hstate, rfl⟩ := Prod.mk.inj hget
    obtain rfl := Except.ok.inj hstate
    obtain ⟨_, s₄, hnote, hrun⟩ := bind_ok.mp hrun
    obtain ⟨rfl, rfl⟩ := pure_ok.mp hrun
    obtain ⟨-, rfl⟩ := Prod.mk.inj hnote
    have ho₂ : s₂.Before w.final := ho.congr rfl rfl rfl
    have ho₁ : s₁.Before w.final := (hput body).before hnode ho₂
  · exact h.before hbody ho₁
  · have hb₁ := h.settled hbody ho₁ since held hb
    have hb₂ := (hput body).settled hnode ho₂ since held hb₁
    obtain ⟨pushed, hhoists⟩ := hquiet.hoists hbody
    obtain ⟨more, hmore⟩ := hhoists.level
    have hlevel : s₂.levelLog = s.levelLog ++ more :=
      (Still.settles hnode).levelLog.trans hmore.symm
    have hhoisted : s₂.hoisted = s.hoisted := by
      rw [(Still.settles hnode).hoisted, hhoists.hoisted, List.append_nil]
    have hweight := Watch.Books.held_since hw (hb.congr (add_zero held)) hb₂ hhoisted hlevel
    refine ⟨hb₂.logged, hb₂.count, hb₂.level, fun literal hliteral => ?_⟩
    rcases List.mem_append.mp hliteral with hliteral | hliteral
    · exact hb₂.literals literal hliteral
    · rw [List.mem_singleton.mp hliteral, hlevel, List.drop_left]
      have hkind := (ho₂.tree.kind_eq (made_place hnode).2).trans (addNode_ok hnode).kind
      exact ⟨⟨signature, body, hkind⟩, hweight⟩

theorem balances_lowerLambda (params : List String) (body : LambdaBody) (span : Span)
    (expect : Expectation) :
    w.Balances 0 (lowerLambda walk params body span expect) w.operand := by
  unfold lowerLambda
  split
  · exact .failing
  · refine .skip (fun types => ?_)
    split
    · exact .skip (fun name => .failing)
    · rename_i sig _
      split
      · exact .failing
      · extract_lets params
        have inside : w.Balances 0
            (do bindParams params
                lowerLambdaBody walk body sig.results span) w.value :=
          .skip (fun _ => balances_lowerLambdaBody w _ _ _)
        refine .finish (W := w.value) (balances_putLiteral w (level_of w walk) ?_) (fun _ _ => rfl)
        rw [List.map_map, show HostParam.type ∘ (⟨none, ·⟩ : TypeId → HostParam) = id from rfl,
          List.map_id]
        by_cases hresults : sig.results.getLast? = some TypeTable.error
        · refine inside.inFunction (fun c s id s' hrun hs _ => ?_)
          obtain ⟨_, s₁, hbind, hrun⟩ := bind_ok.mp hrun
          exact lowerLambdaBody_hoisted hresults hrun ((Still.settles hbind).hoisted.trans hs)
        · exact inside.inPlainFunction hresults

theorem balances_lowerFunctionLiteral (signature body : NodeId) (span : Span) :
    w.Balances 0 (lowerFunctionLiteral walk signature body span) w.operand := by
  unfold lowerFunctionLiteral
  refine .pass (balances_lowerSignature w _) (fun r => ?_)
  obtain ⟨signature, type⟩ := r
  have inside : w.Balances 0
      (do bindParams signature.params
          bindParams signature.results
          lowerBody walk body) w.value :=
    .skip (fun _ => .skip (fun _ => balances_lowerBody w _))
  exact .finish (balances_putLiteral w (level_of w walk) inside.inQuietFunction) (fun _ _ => rfl)

/-! ## Comprehensions -/

theorem balances_lowerYieldValue (value : NodeId) (type : Option TypeId) :
    w.Balances 0 (lowerYieldValue walk value type) (fun r => w.value r.1) := by
  unfold lowerYieldValue
  exact .wholly (balances_expr _ _) (fun operand => balances_coerceOrDefault _ _)

theorem balances_lowerYieldStatement (frame : ComprehensionFrame) :
    w.Balances 0 (lowerYieldStatement walk frame) (fun r => w.value r.1) := by
  unfold lowerYieldStatement
  refine .skip (fun types => ?_)
  dsimp only
  split
  · refine .wholly (balances_lowerYieldValue w _ _) (fun value => ?_)
    refine .next (.scaffolding (by simp)) (fun append => ?_)
    refine .next (.scaffolding (by simp)) (fun result => ?_)
    refine .wholly (.scaffolding (by simp; ac_rfl)) (fun call => ?_)
    refine .next (.scaffolding (by simp)) (fun target => ?_)
    exact .finish (.scaffolding (by simp)) (fun _ _ => rfl)
  · refine .wholly (balances_lowerYieldValue w _ _) (fun key => ?_)
    refine .next (balances_lowerYieldValue w _ _) (fun value => ?_)
    refine .next (.scaffolding (by simp)) (fun result => ?_)
    have slot : w.Balances (w.value result + w.value key.1) (scaffold (.index result key.1))
        w.value :=
      .scaffolding (by simp)
    refine slot.spend (E := w.value value.1) (by ac_rfl) (fun slot => ?_)
    exact .finish (.scaffolding (by simp)) (fun _ _ => rfl)
  · refine .wholly (.scaffolding (by simp)) (fun found => ?_)
    exact .finish (.scaffolding (by simp)) (fun _ _ => rfl)
  · refine .wholly (balances_lowerYieldValue w _ _) (fun value => ?_)
    split
    · refine .next (.scaffolding (by simp)) (fun found => .returned ?_)
      exact .finish (.scaffolding (by simp [add_comm])) (fun _ _ => rfl)
    · exact .returned (.finish (.scaffolding (by simp)) (fun _ _ => rfl))

theorem balances_lowerYield (frame : ComprehensionFrame) :
    w.Balances 0 (lowerYield walk frame) (fun r => w.entries r.1) := by
  unfold lowerYield
  refine .wholly (balances_lowerYieldStatement w _) (fun (statement, yielded) => ?_)
  exact .next .takeHoisted (fun hoisted => .swap (.listing (.pure (fun _ => by simp [add_comm]))))

/-- A statement before the other parts of a statement. -/
theorem balances_init (init : Option NodeId) :
    w.Balances 0 (init.mapM walk.statement) (fun r => w.values r.join.toList) := by
  refine (Watch.Balances.optionMapM balances_statement init).giving (fun r _ => ?_)
  cases r <;> simp

theorem balances_guard (guard : Option NodeId) :
    w.Balances 0 (guard.mapM (lowerCondition walk)) (fun r => w.values r.toList) :=
  .optionMapM (balances_lowerCondition w) guard

theorem balances_lowerClauseBody (clause : ForClause) {inner : Lower (List HostId × Yielded)}
    (h : w.Balances 0 inner (fun r => w.entries r.1)) :
    w.Balances 0 (lowerClauseBody walk clause inner) (fun r => w.entries r.1) := by
  unfold lowerClauseBody
  refine .wholly (balances_init w _) (fun init => .next (balances_guard w _) (fun guard => ?_))
  refine .next .takeHoisted (fun hoisted => .next h (fun (statements, yielded) => ?_))
  cases guard with
  | none =>
    refine .pure (fun h => ?_)
    have hinit : w.values init.join.toList ≠ ⊤ := fun he => h (by simp [he])
    rw [Watch.entries_append, Watch.entries_append, Watch.entries_eq_values hinit]
    simp only [Option.toList_none, Watch.values_nil]
    abel
  | some condition =>
    refine .bind (.scaffolding (by simp)) (fun thenBranch => ?_)
    have guarded : w.Balances
        (w.value thenBranch + (w.values [condition] + w.values init.join.toList))
        (scaffold (.ifElse init.join condition thenBranch none)) w.value :=
      .scaffolding (by simp; ac_rfl)
    refine guarded.spend (E := w.entries hoisted) (by simp only [Option.toList_some]; ac_rfl)
      (fun guarded => ?_)
    exact .listing (.pure (fun _ => by simp [add_comm]))

/-! ## Iteration -/

section

variable {w : Watch}

theorem balances_emitNative (source : HostId) (key value : Option String) (body : List HostId)
    (span : Span) :
    w.Balances (w.entries body + w.value source) (emitNative source key value body span)
      w.value := by
  have names (name : Option String) : w.Balances 0 (name.mapM identNode)
      (fun ids => w.values ids.toList) :=
    .optionMapM (fun name => .scaffolding (by simp)) name
  unfold emitNative
  refine .next (names _) (fun key => .next (names _) (fun value => ?_))
  have range (key : Option HostId) : w.Balances
      (w.values key.toList + w.values value.toList + (w.entries body + w.value source))
      (do let body ← blockNode body
          place (.range key value true source body) span) w.value := by
    have block : w.Balances (w.entries body) (blockNode body) w.value := .scaffolding (by simp)
    refine block.spend (E := w.values key.toList + w.values value.toList + w.value source)
      (by ac_rfl) (fun block => .placing (by simp; ac_rfl))
  dsimp only
  split
  · refine .next (.map (V := fun id => w.values id.toList) (.scaffolding (by simp))
      (fun _ _ => by simp)) (fun key => ?_)
    exact (range _).given (fun _ => by simp [add_assoc])
  · exact .returned ((range _).given (fun _ => by ac_rfl))

theorem balances_emitPush (source : HostId) (method : String) (params : List HostParam)
    (body : List HostId) (span : Span) :
    w.Balances (w.entries body + w.value source) (emitPush source method params body span)
      w.value := by
  unfold emitPush
  refine .bind (.scaffolding (by simp)) (fun body => .bind (.scaffolding (by simp)) (fun callback => ?_))
  refine .swap (.bind (.scaffolding (by simp)) (fun callee => ?_))
  exact .wholly (.scaffolding (by simp)) (fun call => .placing (by simp))

theorem balances_emitPull (source : HostId) (method : String) (names : List String)
    (body : List HostId) (span : Span) :
    w.Balances (w.entries body + w.value source) (emitPull source method names body span)
      w.value := by
  unfold emitPull
  refine .swap (.next (.scaffolding (by simp)) (fun iterator => ?_))
  refine .spend (E := w.value iterator + w.entries body) (.scaffold _) (by simp; ac_rfl)
    (fun callee => ?_)
  refine .bind (.scaffolding (by simp)) (fun start => ?_)
  refine .spend (E := w.entries body) (.scaffold _) (by simp; ac_rfl) (fun init => ?_)
  refine .next (.forEach (fun _ => .scaffolding (by simp)) _) (fun lhs => ?_)
  refine .next (.scaffolding (by simp)) (fun iterator => ?_)
  refine .bind (.scaffolding (by simp)) (fun next => ?_)
  refine .bind (.scaffolding (by simp)) (fun next => ?_)
  refine .spend (E := w.value init + w.entries body) (.place _ _)
    (by simp [Watch.values]; ac_rfl) (fun fetch => ?_)
  refine .next (.scaffolding (by simp)) (fun ok => ?_)
  refine .bind (.scaffolding (by simp)) (fun done => ?_)
  refine .next (.scaffolding (by simp)) (fun stop => .listing ?_)
  refine .bind (.scaffolding (by simp)) (fun stop => ?_)
  refine .spend (E := w.value fetch + (w.value init + w.entries body)) (.place _ _)
    (by simp; ac_rfl) (fun check => .listing ?_)
  refine .given (.listing ?_) (fun _ => add_left_comm _ _ _)
  refine .spend (E := w.value init) (.scaffold _) (by simp; ac_rfl) (fun body => ?_)
  exact .placing (by simp [add_comm])

theorem balances_emitRange (plan : RangePlan) (source : HostId) (key value : Option String)
    (body : List HostId) (span : Span) :
    w.Balances (w.entries body + w.value source) (emitRange plan source key value body span)
      w.value := by
  unfold emitRange
  dsimp only
  split
  · exact balances_emitNative _ _ _ _ _
  · exact balances_emitPush _ _ _ _ _
  · exact balances_emitPull _ _ _ _ _

end

theorem balances_lowerClauses (frame : ComprehensionFrame) (clauses : List ForClause) :
    w.Balances 0 (lowerClauses walk frame clauses) (fun r => w.entries r.1) := by
  induction clauses with
  | nil =>
    unfold lowerClauses
    exact balances_lowerYield w frame
  | cons clause rest ih =>
    unfold lowerClauses
    refine .wholly (balances_expr _ _) (fun source => ?_)
    refine .wholly (balances_defaultValue _) (fun (source, type) => .skip (fun plan => ?_))
    split
    · exact .failing
    · refine .next .takeHoisted (fun hoisted => ?_)
      have inside : w.Balances 0 (do
          bindRange plan clause.key clause.value
          lowerClauseBody walk clause (lowerClauses walk frame rest)) (fun r => w.entries r.1) :=
        .skip (fun _ => balances_lowerClauseBody w clause ih)
      refine .next inside.inScope (fun (body, yielded) => ?_)
      refine .spend (E := w.entries hoisted) (balances_emitRange _ _ _ _ _ _) (by ac_rfl)
        (fun loop => .listing (.pure (fun _ => by simp [add_comm])))

theorem balances_lowerEmptyResult (frame : ComprehensionFrame) (results : List HostParam) :
    w.Balances 0 (lowerEmptyResult frame results) w.entries := by
  unfold lowerEmptyResult
  split
  · refine .next (.scaffolding (by simp)) (fun target => .next (.scaffolding (by simp)) (fun empty => ?_))
    refine .spend (E := 0) (.scaffold _) (by simp; ac_rfl) (fun assign => ?_)
    exact .listing (.pure (fun _ => by simp))
  · exact .pure (fun _ => rfl)

theorem balances_lowerComprehension (yields : Yield) (clauses : List ForClause) (span : Span)
    (expect : Expectation) :
    w.Balances 0 (lowerComprehension walk yields clauses span expect) w.operand := by
  unfold lowerComprehension
  extract_lets frame
  refine .wholly ((balances_lowerClauses w _ _).inPlainFunction (by simp)) (fun (loops, yielded) => ?_)
  refine .skip (fun results => .next (balances_lowerEmptyResult w _ _) (fun start => ?_))
  refine .next (.scaffolding (by simp)) (fun done => .listing ?_)
  exact (balances_immediateCall _ _ _).given (fun _ => by simp; ac_rfl)

/-! ## Error wraps -/

theorem balances_lowerWrappedCall (inner : NodeId) :
    w.Balances 0 (lowerWrappedCall walk inner) w.operand := by
  unfold lowerWrappedCall
  refine .read (fun c => ?_)
  split
  · exact balances_expr _ _
  · refine .wholly (balances_expr _ _) (fun operand => .skip (fun types => ?_))
    split
    · refine .opened (.wholly (.placing (by simp)) (fun call => balances_resultOperand _ _ _))
    · exact .pure (fun _ => rfl)

section

variable {w : Watch}

theorem balances_declareError (span : Span) : w.Balances 0 (declareError span) w.value := by
  unfold declareError
  exact .placing (by simp)

theorem balances_assignResults (targets : List String) (call : HostId) (span : Span) :
    w.Balances (w.value call) (assignResults targets call span) w.value := by
  unfold assignResults
  refine .next (.forEach (fun _ => .scaffolding (by simp)) _) (fun lhs => ?_)
  exact .placing (by simp [Watch.values])

theorem balances_addFrame (text : String) (span : Span) :
    w.Balances 0 (addFrame text span) w.value := by
  unfold addFrame
  refine .read (fun c => ?_)
  dsimp only
  refine .next (.scaffolding (by simp)) (fun newFrame => ?_)
  refine .next (.scaffolding (by simp)) (fun error => .get (fun s => ?_))
  refine .next (.forEach (fun _ => .scaffolding (by simp)) _) (fun args => ?_)
  refine .wholly (.scaffolding (by simp [Watch.values]; ac_rfl)) (fun call => ?_)
  exact .next (.scaffolding (by simp)) (fun target => .placing (by simp))

theorem balances_onError (handler : List HostId) (span : Span) :
    w.Balances (w.entries handler) (onError handler span) w.value := by
  unfold onError
  refine .next (.scaffolding (by simp)) (fun error => .next (.scaffolding (by simp)) (fun nil => ?_))
  refine .spend (E := w.entries handler) (.scaffold _) (by simp; ac_rfl) (fun condition => ?_)
  refine .spend (E := w.value condition) (.scaffold _) (by simp; ac_rfl) (fun thenBranch => ?_)
  exact .placing (by simp [add_comm])

theorem balances_wrapRaise (call : HostId) (values : List TypeId) (text : String) (span : Span) :
    w.Balances (w.value call) (wrapRaise call values text span) w.operand := by
  unfold wrapRaise
  extract_lets results
  refine .next (balances_declareError _) (fun declare => .listing ?_)
  refine .swap (.bind (balances_assignResults _ _ _) (fun assign => .listing ?_))
  refine .next (balances_addFrame _ _) (fun frame => .listing ?_)
  refine .next (.scaffolding (by simp)) (fun panic => .next (.scaffolding (by simp)) (fun error => ?_))
  refine .spend (E := w.entry frame + (w.entry assign + w.entry declare)) (.scaffold _)
    (by simp; ac_rfl) (fun panic => ?_)
  refine .bind (.placing (by simp)) (fun panic => .listing ?_)
  refine .spend (E := w.entry assign + w.entry declare) (balances_onError _ _) (by simp; ac_rfl)
    (fun check => .listing ?_)
  refine .next (.placing (by simp)) (fun done => .listing ?_)
  exact (balances_immediateCall _ _ _).given (fun _ => by simp; ac_rfl)

end

theorem balances_wrapFallback (call : HostId) (values : List TypeId) (default : Option NodeId)
    (span : Span) :
    w.Balances (w.value call) (wrapFallback walk call values default span) w.operand := by
  unfold wrapFallback
  split
  · extract_lets rest
    have rest (fallback : HostId) :
        w.Balances (w.value fallback + w.value call) (rest fallback) w.operand := by
      refine .next (balances_declareError _) (fun declare => .listing ?_)
      refine .spend (E := w.entry declare + w.value fallback) (balances_assignResults _ _ _)
        (by ac_rfl) (fun assign => .listing ?_)
      refine .spend (E := w.entry assign + w.entry declare) (.place _ _) (by simp; ac_rfl)
        (fun fallback => .listing ?_)
      refine .spend (E := w.entry assign + w.entry declare) (balances_onError _ _) (by simp)
        (fun check => .listing ?_)
      refine .next (.placing (by simp)) (fun done => .listing ?_)
      exact (balances_immediateCall _ _ _).given (fun _ => by simp; ac_rfl)
    split
    · exact .next (balances_lowerInto w _ _) rest
    · exact .next (balances_zeroValue _) rest
  · exact .failing

section

variable {w : Watch}

theorem balances_hoistTemporary (type : TypeId) (span : Span) (name : String) :
    w.Balances 0 (hoistTemporary type span name) (fun _ => 0) :=
  (Watch.Balances.hoistPlaced _ _).given (fun _ => by simp)

/-- The statement that a call is made in is hoisted as soon as it is made. -/
theorem balances_propagateBlock (call : HostId) (targets : List String) (label text : String)
    (results : List TypeId) (span : Span) {α : Type} {f : HostId → Lower α} {W : α → ℕ∞}
    (hf : ∀ kind, w.Balances (w.kind kind) (place kind span >>= f) W) :
    w.Balances (w.value call) (propagateBlock call targets label text results span >>= f) W := by
  unfold propagateBlock
  simp only [bind_assoc]
  refine .next (balances_declareError _) (fun declare => .listing ?_)
  refine .swap (.bind (balances_assignResults _ _ _) (fun assign => .listing ?_))
  refine .next (balances_addFrame _ _) (fun frame => .listing ?_)
  refine .next (.forEach (fun type => balances_zeroValue type) _) (fun zeros => ?_)
  refine .next (.scaffolding (by simp)) (fun error => ?_)
  refine .spend (E := w.entry frame + (w.entry assign + w.entry declare)) (.place _ _)
    (by simp [Watch.values]; ac_rfl) (fun propagate => .listing ?_)
  refine .spend (E := w.entry assign + w.entry declare) (balances_onError _ _) (by simp; ac_rfl)
    (fun check => .listing ?_)
  refine .next (.placing (by simp)) (fun jump => .listing ?_)
  refine .next (.placing (by simp)) (fun landing => .listing ?_)
  exact (hf _).given (fun _ => by simp; ac_rfl)

theorem balances_wrapPropagate (call : HostId) (values : List TypeId) (text : String)
    (span : Span) :
    w.Balances (w.value call) (wrapPropagate call values text span) w.operand := by
  unfold wrapPropagate
  refine .skip (fun found => ?_)
  split
  · exact .failing
  · refine .skip (fun label => balances_propagateBlock _ _ _ _ _ _ (fun kind => ?_))
    exact .wholly (.place _ _) (fun block => .skip (fun _ => balances_resultOperand _ _ _))
  · refine .skip (fun temporary => ?_)
    refine .pass (balances_hoistTemporary _ _ _) (fun _ => .skip (fun label => ?_))
    refine balances_propagateBlock _ _ _ _ _ _ (fun kind => ?_)
    rw [← bind_assoc]
    refine .wholly (.hoistPlaced _ _) (fun _ => .skip (fun _ => ?_))
    exact .finish (.placing (by simp)) (fun _ _ => rfl)
  · exact .failing

end

theorem balances_lowerErrorWrap (inner : NodeId) (policy : WrapPolicy) (span : Span) :
    w.Balances 0 (lowerErrorWrap walk inner policy span) w.operand := by
  unfold lowerErrorWrap
  refine .wholly (balances_lowerWrappedCall w _) (fun call => ?_)
  refine .skip (fun text => .skip (fun types => .opened ?_))
  split
  · exact .failing
  · exact balances_wrapRaise _ _ _ _
  · exact balances_wrapFallback w _ _ _ _
  · exact balances_wrapPropagate _ _ _ _

/-! ## Expressions -/

theorem balances_lowerGrouping (inner : NodeId) (span : Span) (expect : Expectation) :
    w.Balances 0 (lowerGrouping walk inner span expect) w.operand := by
  unfold lowerGrouping
  refine .wholly (balances_expr _ _) (fun operand => .skip (fun invalid => ?_))
  split
  · exact .pure (fun _ => rfl)
  · -- The parentheses may be dropped if the operand may.
    have hkept (id : HostId) : ({ operand with id, span } : Operand).isInert = operand.isInert := rfl
    cases hinert : operand.isInert with
    | true =>
      rw [Watch.operand_inert hinert]
      refine .finish (.placeInert (by simp)) (fun id _ => ?_)
      rw [Watch.operand_inert (by rw [hkept, hinert])]
    | false =>
      rw [Watch.operand_live hinert]
      refine .finish (.placing (by simp)) (fun id _ => ?_)
      rw [Watch.operand_live (by rw [hkept, hinert])]

theorem balances_lowerExprKind (expression : Expr) (span : Span) (expect : Expectation) :
    w.Balances 0 (lowerExprKind walk expression span expect) w.operand := by
  unfold lowerExprKind
  cases expression with
  | identifier name => exact balances_lowerIdentifier w _ _
  | literal kind text => exact balances_lowerLiteral _ _ _
  | composite type elements => exact balances_lowerComposite w _ _ _ _
  | sliceLiteral elements => exact balances_lowerSliceLiteral w _ _ _
  | grouping inner => exact balances_lowerGrouping w _ _ _
  | member object name => exact balances_lowerMember w _ _ _ _
  | index object index => exact balances_lowerIndex w _ _ _
  | slice object low high max => exact balances_lowerSlice w _ _ _ _ _
  | typeAssertion object type => exact balances_lowerTypeAssertion w _ _ _
  | call callee args spread => exact balances_lowerCall w _ _ _ _ _
  | command head args => exact balances_lowerCall w _ _ _ _ _
  | ambiguousCommand head op operand => exact balances_lowerAmbiguousCommand w _ _ _ _ _
  | dereference inner => exact balances_lowerDereference w _ _
  | unary op operand => exact balances_lowerUnary w _ _ _ _
  | binary op left right =>
    refine .wholly (balances_expr _ _) (fun left => .next (balances_expr _ _) (fun right => ?_))
    exact .swap (balances_lowerBinary _ _ _ _)
  | functionLiteral signature body => exact balances_lowerFunctionLiteral w _ _ _
  | lambda params body => exact balances_lowerLambda w _ _ _ _
  | comprehension yields clauses => exact balances_lowerComprehension w _ _ _ _
  | errorWrap inner policy => exact balances_lowerErrorWrap w _ _ _

theorem balances_lowerExpr (id : NodeId) (expect : Expectation) :
    w.Balances 0 (lowerExpr walk id expect) w.operand := by
  unfold lowerExpr
  refine .skip (fun span => .read (fun c => ?_))
  split
  · exact balances_lowerExprKind w _ _ _
  · exact .pass (balances_type _) (fun type => balances_typeOperand _ _)

end GoLowering.Lowering
