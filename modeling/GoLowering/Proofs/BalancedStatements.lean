import GoLowering.Proofs.BalancedBlocks

/-!
# Balances of statements

Every part of the lowering of a statement gives a statement that weighs what is put into it, and
what is hoisted for it is still hoisted after it.
-/

namespace GoLowering.Lowering

open Surface Walk.Balanced

variable (w : Watch) {walk : Walk} [walk.Balanced w]

/-! ## Assignments -/

theorem balances_lowerSlotValue (value : NodeId) (type : Option TypeId) :
    w.Balances 0 (lowerSlotValue walk value type) (fun r => w.value r.1) := by
  unfold lowerSlotValue
  exact .wholly (balances_expr _ _) (fun operand => balances_coerceOrDefault _ _)

theorem Watch.values_unzip {α : Type} (pairs : List (HostId × α)) :
    w.values pairs.unzip.1 = (pairs.map (fun r => w.value r.1)).sum := by
  rw [List.unzip_fst, values, List.map_map]
  rfl

theorem balances_lowerValues (values : List NodeId) (count : Nat) (type : Option TypeId)
    (span : Span) :
    w.Balances 0 (lowerValues walk values count type span) (fun r => w.values r.1) := by
  unfold lowerValues
  split
  · exact .finish (.forEach (fun value => balances_lowerSlotValue w value type) _)
      (fun _ _ => w.values_unzip _)
  · split
    · refine .wholly (balances_expr _ _) (fun operand => .opened (.skip (fun types => ?_)))
      split
      · exact .pure (fun _ => by simp)
      · exact .skip (fun _ => .pure (fun _ => by simp))
    · exact .failing

theorem balances_nameNode (id : NodeId) (name : String) :
    w.Balances 0 (nameNode id name) w.value := by
  unfold nameNode
  exact .skip (fun span => .placing (by simp))

theorem balances_lowerDefine (lhs rhs : List NodeId) (span : Span) :
    w.Balances 0 (lowerDefine walk lhs rhs span) w.value := by
  unfold lowerDefine
  refine .skip (fun names => .wholly (balances_lowerValues w _ _ _ _) (fun (values, types) => ?_))
  refine .get (fun s => ?_)
  dsimp only
  split
  · refine .skip (fun _ => .next (.forEach (fun _ => balances_nameNode w _ _) _) (fun lhs => ?_))
    exact .placing (by simp [Watch.values])
  · exact .failing

theorem balances_lowerTarget (target : NodeId) :
    w.Balances 0 (lowerTarget walk target) (fun r => w.value r.1) := by
  unfold lowerTarget
  refine .read (fun c => ?_)
  split
  · exact .finish (balances_nameNode w _ _) (fun _ _ => rfl)
  · refine .wholly (balances_expr _ _) (fun operand => .skip (fun _ => .opened ?_))
    exact .pure (fun _ => rfl)

theorem balances_lowerSlots (values : List NodeId) (slots : List (Option TypeId)) (span : Span) :
    w.Balances 0 (lowerSlots walk values slots span) w.values := by
  unfold lowerSlots
  split
  · exact .forEach (fun _ => .finish (balances_lowerSlotValue w _ _) (fun _ _ => rfl)) _
  · split
    · refine .wholly (balances_expr _ _) (fun operand => .opened (.skip (fun types => ?_)))
      exact .skip (fun _ => .pure (fun _ => by simp))
    · exact .failing

theorem balances_lowerAssign (lhs rhs : List NodeId) (span : Span) :
    w.Balances 0 (lowerAssign walk lhs rhs span) w.value := by
  unfold lowerAssign
  refine .wholly (.forEach (balances_lowerTarget w) _) (fun targets => ?_)
  refine .next (balances_lowerSlots w _ _ _) (fun values => ?_)
  exact .placing (by simp [← w.values_unzip, add_comm])

theorem balances_lowerCompound (op : BinaryOp) (lhs rhs : List NodeId) (span : Span) :
    w.Balances 0 (lowerCompound walk op lhs rhs span) w.value := by
  unfold lowerCompound
  split
  · refine .wholly (balances_expr _ _) (fun target => .skip (fun _ => ?_))
    extract_lets expected
    refine .next (balances_expr _ _) (fun value => .read (fun c => ?_))
    split
    · exact .swap (balances_lowerRegisteredAssign _ _ _ _)
    · -- The operation is only checked; what is made for it is not kept.
      refine .skip (fun _ => .bind (balances_coerceOrDefault _ _) (fun value => ?_))
      exact .swap (.opening (.placing (by simp)))
  · exact .failing

theorem balances_lowerIncDec (target : NodeId) (increment : Bool) (span : Span) :
    w.Balances 0 (lowerIncDec walk target increment span) w.value := by
  unfold lowerIncDec
  refine .wholly (balances_expr _ _) (fun target => .skip (fun _ => .read (fun c => ?_)))
  split
  · exact balances_lowerRegisteredIncDec _ _ _
  · refine .skip (fun kind => .skip (fun invalid => ?_))
    split
    · exact .opened (.placing (by simp))
    · exact .failing

theorem balances_lowerSend (channel value : NodeId) (span : Span) :
    w.Balances 0 (lowerSend walk channel value span) w.value := by
  unfold lowerSend
  refine .wholly (balances_lowerByDefault w _) (fun (channel, type) => .skip (fun types => ?_))
  have send (element : TypeId) : w.Balances (w.value channel)
      (do let value ← lowerInto walk value element
          place (.send channel value) span) w.value :=
    .next (balances_lowerInto w _ _) (fun value => .placing (by simp [add_comm]))
  dsimp only
  split
  · exact .returned (send _)
  · split
    · exact .returned (send _)
    · exact .failing

/-! ## Declarations -/

theorem balances_lowerVariables (spec : ValueSpec) (type : Option TypeId) (span : Span) :
    w.Balances 0 (lowerVariables walk spec type span) (fun d => w.values d.node.toList) := by
  have declared (type : Option TypeId) (values : List HostId) (types : List TypeId) :
      w.Balances (w.values values)
        (do let node ← place (.varDecl ⟨spec.names, type, values, spec.doc⟩) span
            return (⟨some node, (spec.names.zip types).map
              (fun entry => (entry.1, .variable entry.2))⟩ : ValueDecl))
        (fun d => w.values d.node.toList) :=
    .finish (.placing (by simp)) (fun _ _ => by simp)
  unfold lowerVariables
  dsimp only
  split
  · exact .failing
  · exact .returned (declared _ [] _)
  · exact .wholly (balances_lowerValues w _ _ _ _) (fun r => declared _ r.1 r.2)

/-- The value of a constant may be dropped. -/
theorem balances_lowerConstant (type : Option TypeId) (value : NodeId) :
    w.Balances 0 (lowerConstant walk type value) (fun r => ⊤ * w.values r.1.toList) := by
  unfold lowerConstant
  refine .wholly (balances_expr _ _) (fun operand => ?_)
  have inert {constant : Constant} (h : operand.constant = some constant) : operand.isInert := by
    simp [Operand.isInert, h]
  split
  · exact .skip (fun _ => .failing)
  · rename_i hconstant
    have hfree (hne : w.operand operand ≠ ⊤) : w.operand operand = ⊤ * w.operand operand := by
      rw [Watch.operand_of_inert (inert hconstant) hne, mul_zero]
    exact .finish ((balances_coerce _ _).inert.given hfree) (fun _ _ => by simp)
  · rename_i hconstant
    refine .skip (fun big => ?_)
    cases big with
    | true => exact .dropped (inert hconstant) (.pure (fun _ => by simp))
    | false =>
      rw [Watch.operand_inert (inert hconstant)]
      exact .pure (fun _ => by simp)

/-- The values of constants that may be dropped weigh nothing. -/
theorem Watch.values_emitted {constants : List (Option HostId × Symbol)}
    (h : (constants.map (fun r => ⊤ * w.values r.1.toList)).sum ≠ ⊤) (names : List String) :
    (constants.map (fun r => ⊤ * w.values r.1.toList)).sum =
      w.values ((names.zip constants).filterMap
        (fun (name, id, _) => id.map (name, ·))).unzip.2 := by
  have hfree : ∀ r ∈ constants, w.values r.1.toList = 0 := by
    intro r hr
    obtain ⟨before, after, rfl⟩ := List.append_of_mem hr
    exact top_mul_of_ne_top (fun he => h (by simp [he]))
  have hleft : (constants.map (fun r => ⊤ * w.values r.1.toList)).sum = 0 := by
    refine List.sum_eq_zero (fun weight hweight => ?_)
    obtain ⟨r, hr, rfl⟩ := List.mem_map.mp hweight
    rw [hfree r hr, mul_zero]
  refine hleft.trans (List.sum_eq_zero (fun weight hweight => ?_)).symm
  obtain ⟨id, hid, rfl⟩ := List.mem_map.mp hweight
  rw [List.unzip_snd] at hid
  obtain ⟨⟨name, _⟩, hemitted, rfl⟩ := List.mem_map.mp hid
  obtain ⟨⟨_, value, symbol⟩, hr, hsome⟩ := List.mem_filterMap.mp hemitted
  obtain ⟨id, rfl, hpair⟩ := Option.map_eq_some_iff.mp hsome
  obtain ⟨rfl, rfl⟩ := Prod.mk.inj hpair
  simpa using hfree _ (List.of_mem_zip hr).2

theorem balances_lowerConstants (spec : ValueSpec) (type : Option TypeId) (span : Span) :
    w.Balances 0 (lowerConstants walk spec type span) (fun d => w.values d.node.toList) := by
  unfold lowerConstants
  split
  · exact .failing
  · refine .wholly (.forEach (balances_lowerConstant w _) _) (fun constants => ?_)
    extract_lets named emitted symbols
    refine (show w.Balances (w.values emitted.unzip.2) _ _ from ?_).given
      (fun hne => w.values_emitted hne spec.names)
    split
    · rename_i hnone
      rw [List.isEmpty_iff.mp hnone]
      exact .pure (fun _ => rfl)
    · exact .finish (.placing (by simp)) (fun _ _ => by simp)

theorem balances_lowerValueSpec (spec : ValueSpec) (isConstant : Bool) (span : Span) :
    w.Balances 0 (lowerValueSpec walk spec isConstant span)
      (fun d => w.values d.node.toList) := by
  unfold lowerValueSpec
  refine .pass (.giving (.optionMapM balances_type _) (fun _ _ => by simp)) (fun type => ?_)
  split
  · exact balances_lowerConstants w _ _ _
  · exact balances_lowerVariables w _ _ _

theorem balances_lowerLocalValues (spec : ValueSpec) (isConstant : Bool) (span : Span) :
    w.Balances 0 (lowerLocalValues walk spec isConstant span) (fun r => w.values r.toList) := by
  unfold lowerLocalValues
  exact .wholly (balances_lowerValueSpec w _ _ _) (fun decl => .skip (fun _ => .pure (fun _ => rfl)))

theorem balances_lowerLocalDefinition (name : String) (type : NodeId) (isAlias : Bool) :
    w.Balances 0 (lowerLocalDefinition walk name type isAlias) (fun _ => 0) := by
  unfold lowerLocalDefinition
  split
  · exact .pass (balances_type _) (fun target => .skip (fun _ => .pure (fun _ => rfl)))
  · refine .skip (fun named => .skip (fun _ => .pass (balances_type _) (fun definition => ?_)))
    exact .pass (.modifying (fun _ => ⟨⟨rfl, rfl, rfl, rfl, rfl, rfl⟩, rfl⟩)) (fun _ => .pure (fun _ => rfl))

theorem balances_lowerLocalType (name : String) (type : NodeId) (isAlias : Bool)
    (doc : Option String) (span : Span) :
    w.Balances 0 (lowerLocalType walk name type isAlias doc span) w.value := by
  unfold lowerLocalType
  exact .pass (balances_lowerLocalDefinition w _ _ _) (fun definition => .placing (by simp))

/-! ## Conditions and loops -/

/-- What follows `else` is one statement: an `if` that hoists something is put into a block. -/
theorem lowerElse_ok (w : Watch) {walk : Walk} [walk.Balanced w] {branch : NodeId} {c : Context} {s s' : State} {id : HostId}
    (hrun : lowerElse walk branch c s = (.ok id, s')) :
    (∃ hoisted statement s₁,
      hoisting (walk.statement branch) c s = (.ok (hoisted, some statement), s₁) ∧
        (if hoisted.isEmpty then pure statement else blockNode (hoisted ++ [statement]))
          c s₁ = (.ok id, s')) ∨
      lowerBody walk branch c s = (.ok id, s') := by
  unfold lowerElse at hrun
  rw [run_read] at hrun
  rcases hbranch : c.unit.stmt? branch with _ | statement
  · rw [hbranch] at hrun
    exact .inr hrun
  · rw [hbranch] at hrun
    cases statement with
    | ifElse =>
      obtain ⟨statements, s₁, hstatement, hrun⟩ := bind_ok.mp hrun
      obtain ⟨⟨hoisted, r⟩, s₂, hhoisting, hpure⟩ := bind_ok.mp hstatement
      obtain ⟨rfl, rfl⟩ := pure_ok.mp hpure
      obtain ⟨s₃, hwalk, -⟩ := hoisting_ok hhoisting
      obtain ⟨statement, rfl⟩ := Option.isSome_iff_exists.mp
        (branch_isSome w hwalk ⟨_, _, _, _, hbranch⟩)
      refine .inl ⟨hoisted, statement, _, hhoisting, ?_⟩
      cases hoisted with
      | nil => exact hrun
      | cons first rest => cases rest <;> exact hrun
    | _ => exact .inr hrun

theorem balances_lowerElse (branch : NodeId) :
    w.Balances 0 (lowerElse walk branch) w.value := by
  have hstatement : w.Balances 0 (walk.statement branch) (fun r => w.values r.toList) :=
    balances_statement branch
  have hwalk := hstatement.hoisting
  have single (hoisted : List HostId) (statement : HostId) :
      w.Balances (w.entries hoisted + w.values (some statement).toList)
        (if hoisted.isEmpty then pure statement else blockNode (hoisted ++ [statement]))
        w.value := by
    simp only [Option.toList_some, Watch.values_cons, Watch.values_nil, add_zero]
    split
    · rename_i hnone
      rw [List.isEmpty_iff.mp hnone]
      exact .pure (fun _ => by simp)
    · exact .swap (.listing (.scaffolding (by simp [add_comm])))
  refine ⟨fun c s id s' hrun ho => ?_, fun c s id s' hrun ho since held hb => ?_⟩
  · rcases lowerElse_ok w hrun with ⟨hoisted, statement, s₁, hhoisting, hrest⟩ | hbody
    · exact hwalk.before hhoisting ((single _ _).before hrest ho)
    · exact (balances_lowerBody w branch).before hbody ho
  · rcases lowerElse_ok w hrun with ⟨hoisted, statement, s₁, hhoisting, hrest⟩ | hbody
    · refine (single _ _).settled hrest ho since held ?_
      exact hwalk.settled hhoisting ((single _ _).before hrest ho) since held hb
    · exact (balances_lowerBody w branch).settled hbody ho since held hb

theorem balances_lowerIf (init : Option NodeId) (condition thenBlock : NodeId)
    (elseBranch : Option NodeId) (span : Span) :
    w.Balances 0 (lowerIf walk init condition thenBlock elseBranch span) w.value := by
  unfold lowerIf
  refine .wholly (W := w.kind) (.inScope ?_) (fun kind => .place _ _)
  refine .wholly (balances_init w _) (fun init => ?_)
  refine .next (balances_lowerCondition w _) (fun condition => ?_)
  refine .next (balances_lowerBody w _) (fun thenBranch => ?_)
  refine .next (.optionMapM (balances_lowerElse w) _) (fun elseBranch => .pure (fun _ => ?_))
  simp [Watch.values]
  ac_rfl

theorem balances_lowerFor (init condition post : Option NodeId) (body : NodeId) (span : Span) :
    w.Balances 0 (lowerFor walk init condition post body span) w.value := by
  unfold lowerFor
  refine .wholly (W := w.kind) (.inScope ?_) (fun kind => .place _ _)
  refine .wholly (balances_init w _) (fun init => .skip (fun before => ?_))
  refine .next (balances_guard w _) (fun condition => ?_)
  refine .next (balances_init w _) (fun post => .skip (fun after => ?_))
  have rest : w.Balances
      (w.values post.join.toList + (w.values condition.toList + w.values init.join.toList))
      (do let body ← lowerBody walk body
          return HostKind.loop init.join condition post.join body) w.kind :=
    .next (balances_lowerBody w _) (fun body => .pure (fun _ => by simp; ac_rfl))
  dsimp only
  split
  · exact .failing
  · exact .returned rest

/-! ## Ranges -/

theorem balances_lowerSource (source : NodeId) :
    w.Balances 0 (lowerSource walk source) (fun r => w.value r.1) := by
  unfold lowerSource
  refine .wholly (balances_expr _ _) (fun operand => ?_)
  refine .wholly (balances_defaultValue _) (fun (id, type) => .skip (fun plan => ?_))
  exact .pure (fun _ => rfl)

theorem balances_lowerRangeTarget (id : NodeId) :
    w.Balances 0 (lowerRangeTarget walk id) w.value := by
  unfold lowerRangeTarget
  refine .read (fun c => ?_)
  split
  · exact .skip (fun span => .placing (by simp))
  · exact .wholly (balances_expr _ _) (fun operand => .skip (fun _ => .opened (.pure (fun _ => rfl))))

theorem balances_lowerRangeAssign (key value : Option NodeId) (source : HostId)
    (plan : RangePlan) (body : NodeId) (span : Span) :
    w.Balances (w.value source) (lowerRangeAssign walk key value source plan body span)
      w.value := by
  have target (name : Option NodeId) : w.Balances 0 (name.mapM (lowerRangeTarget walk))
      (fun r => w.values r.toList) :=
    .optionMapM (balances_lowerRangeTarget w) name
  unfold lowerRangeAssign
  split
  · exact .failing
  · refine .next (target _) (fun key => .next (target _) (fun value => ?_))
    exact .next (balances_lowerBlock w _ _) (fun body => .placing (by simp; ac_rfl))

theorem balances_lowerRangeDefine (key value : Option NodeId) (source : HostId)
    (plan : RangePlan) (body : NodeId) (span : Span) :
    w.Balances (w.value source) (lowerRangeDefine walk key value source plan body span)
      w.value := by
  unfold lowerRangeDefine
  refine .skip (fun key => .skip (fun value => ?_))
  have statements : w.Balances 0 (do
      bindRange plan key value
      lowerBlockStatements walk body .block) w.entries :=
    .skip (fun _ => balances_lowerBlockStatements w _ _)
  exact .next statements.inScope (fun statements => balances_emitRange _ _ _ _ _ _)

theorem balances_lowerRange (key value : Option NodeId) (define : Bool) (source body : NodeId)
    (span : Span) : w.Balances 0 (lowerRange walk key value define source body span) w.value := by
  unfold lowerRange
  refine .wholly (balances_lowerSource w _) (fun (source, plan) => ?_)
  dsimp only
  split
  · exact balances_lowerRangeAssign w _ _ _ _ _ _
  · exact balances_lowerRangeDefine w _ _ _ _ _ _

theorem balances_lowerPhraseHeader (clause : ForClause) :
    w.Balances 0 (lowerPhraseHeader walk clause)
      (fun r => w.values r.1.toList + w.values r.2.toList) := by
  unfold lowerPhraseHeader
  refine .wholly (balances_init w _) (fun init => .next (balances_guard w _) (fun guard => ?_))
  exact .pure (fun _ => add_comm _ _)

theorem balances_lowerPhraseBody (clause : ForClause) (body : NodeId) :
    w.Balances 0 (lowerPhraseBody walk clause body) w.entries := by
  unfold lowerPhraseBody
  refine .wholly (.hoisting (balances_lowerPhraseHeader w _)) (fun (hoisted, init, guard) => ?_)
  cases guard with
  | none =>
    refine .next (balances_lowerBlockStatements w _ _) (fun statements => .pure (fun hne => ?_))
    have hinit : w.values init.toList ≠ ⊤ := fun he => hne (by simp [he])
    rw [Watch.entries_append, Watch.entries_append, Watch.entries_eq_values hinit]
    simp only [Option.toList_none, Watch.values_nil]
    abel
  | some condition =>
    refine .next (balances_lowerBody w _) (fun thenBranch => .skip (fun span => ?_))
    refine .spend (E := w.entries hoisted) (.place _ _) (by simp; ac_rfl) (fun guarded => ?_)
    exact .listing (.pure (fun _ => by simp [add_comm]))

theorem balances_lowerForPhrase (clause : ForClause) (body : NodeId) (span : Span) :
    w.Balances 0 (lowerForPhrase walk clause body span) w.value := by
  unfold lowerForPhrase
  refine .wholly (balances_lowerSource w _) (fun (source, plan) => ?_)
  have statements : w.Balances 0 (do
      bindRange plan clause.key clause.value
      lowerPhraseBody walk clause body) w.entries :=
    .skip (fun _ => balances_lowerPhraseBody w _ _)
  exact .next statements.inScope (fun statements => balances_emitRange _ _ _ _ _ _)

/-! ## Switches -/

theorem Watch.entries_flatMap {α : Type} (xs : List α) (f : α → List HostId) :
    w.entries (xs.flatMap f) = (xs.map (fun x => w.entries (f x))).sum := by
  induction xs with
  | nil => rfl
  | cons x xs ih => simp [ih]

theorem balances_lowerCaseValue (tag : Option TypeId) (value : NodeId) :
    w.Balances 0 (lowerCaseValue walk tag value) w.value := by
  unfold lowerCaseValue
  split
  · exact balances_lowerCondition w _
  · refine .wholly (balances_expr _ _) (fun operand => .skip (fun types => ?_))
    split
    · exact .finish (balances_defaultValue _) (fun _ _ => rfl)
    · exact balances_coerce _ _

theorem balances_lowerCase (tag : Option TypeId) (clause : CaseClause) :
    w.Balances 0 (lowerCase walk tag clause)
      (fun r => w.entries r.body + w.values (r.values.getD [])) := by
  unfold lowerCase
  have rest (values : Option (List HostId)) : w.Balances (w.values (values.getD []))
      (do let body ← inScope .switchCase (lowerStatements walk clause.body)
          return (⟨values, body⟩ : HostCase))
        (fun r => w.entries r.body + w.values (r.values.getD [])) :=
    .next (.inScope (balances_lowerStatements w _)) (fun body => .pure (fun _ => rfl))
  dsimp only
  split
  · exact .returned (rest none)
  · have values : w.Balances 0 (some <$> clause.values.mapM (lowerCaseValue walk tag))
        (fun r => w.values (r.getD [])) :=
      .map (.forEach (balances_lowerCaseValue w tag) _) (fun _ _ => rfl)
    exact .wholly values rest

theorem balances_lowerSwitch (init tag : Option NodeId) (clauses : List CaseClause)
    (span : Span) : w.Balances 0 (lowerSwitch walk init tag clauses span) w.value := by
  unfold lowerSwitch
  refine .wholly (W := w.kind) (.inScope ?_) (fun kind => .place _ _)
  refine .wholly (balances_init w _) (fun init => ?_)
  refine .next (.optionMapM (balances_lowerByDefault w) _) (fun tag => ?_)
  refine .next (.forEach (balances_lowerCase w _) _) (fun cases => .pure (fun _ => ?_))
  cases tag <;> simp [w.values_flatMap, w.entries_flatMap, List.sum_map_add] <;> ac_rfl

theorem balances_lowerCaseType (type : NodeId) :
    w.Balances 0 (lowerCaseType walk type) (fun _ => 0) := by
  unfold lowerCaseType
  refine .read (fun c => ?_)
  split
  · exact .pure (fun _ => rfl)
  · exact .pass (balances_type _) (fun type => .pure (fun _ => rfl))

theorem balances_lowerTypeCase (binding : Option String) (subject : TypeId)
    (clause : CaseClause) :
    w.Balances 0 (lowerTypeCase walk binding subject clause) (fun r => w.entries r.body) := by
  unfold lowerTypeCase
  have rest (types : Option (List (Option TypeId))) : w.Balances 0
      (do let body ← inScope .typeSwitchCase (do
            bindVariable binding (some (caseType subject types))
            lowerStatements walk clause.body)
          return (⟨types, body⟩ : HostTypeCase)) (fun r => w.entries r.body) :=
    .finish (.inScope (.skip (fun _ => balances_lowerStatements w _))) (fun _ _ => rfl)
  dsimp only
  split
  · exact .returned (rest none)
  · exact .pass (.map (.passEach (balances_lowerCaseType w) _) (fun _ _ => rfl)) rest

theorem balances_lowerSubject (subject : NodeId) :
    w.Balances 0 (lowerSubject walk subject) (fun r => w.value r.1) := by
  unfold lowerSubject
  refine .wholly (balances_lowerByDefault w _) (fun (id, type) => .skip (fun types => ?_))
  dsimp only
  split
  · exact .pure (fun _ => rfl)
  · exact .get (fun s => .failing)

theorem balances_lowerTypeSwitch (init : Option NodeId) (binding : Option String)
    (subject : NodeId) (clauses : List CaseClause) (span : Span) :
    w.Balances 0 (lowerTypeSwitch walk init binding subject clauses span) w.value := by
  unfold lowerTypeSwitch
  refine .wholly (W := w.kind) (.inScope ?_) (fun kind => .place _ _)
  refine .wholly (balances_init w _) (fun init => ?_)
  refine .next (balances_lowerSubject w _) (fun (subject, type) => ?_)
  refine .next (.forEach (balances_lowerTypeCase w _ _) _) (fun cases => .pure (fun _ => ?_))
  simp [w.entries_flatMap]
  ac_rfl

theorem balances_lowerSelectCase (clause : SelectClause) :
    w.Balances 0 (lowerSelectCase walk clause)
      (fun r => w.entries r.body + w.values r.comm.toList) := by
  unfold lowerSelectCase
  refine .inScope (.wholly (balances_init w _) (fun comm => ?_))
  exact .next (balances_lowerStatements w _) (fun body => .pure (fun _ => rfl))

theorem balances_lowerSelect (clauses : List SelectClause) (span : Span) :
    w.Balances 0 (lowerSelect walk clauses span) w.value := by
  unfold lowerSelect
  refine .wholly (.forEach (balances_lowerSelectCase w) _) (fun cases => .placing ?_)
  simp [w.values_flatMap, w.entries_flatMap, List.sum_map_add, add_comm]

/-! ## Leaving -/

theorem balances_lowerLaterCall (call : NodeId) (keyword : String) :
    w.Balances 0 (lowerLaterCall walk call keyword) w.value := by
  unfold lowerLaterCall
  refine .wholly (balances_expr _ _) (fun operand => .skip (fun kind => ?_))
  split
  · exact .opened (.pure (fun _ => rfl))
  · exact .skip (fun text => .failing)

theorem balances_lowerReturned (values : List NodeId) (results : List TypeId) (span : Span) :
    w.Balances 0 (lowerReturned walk values results span) w.values := by
  unfold lowerReturned
  split
  · exact .pure (fun _ => rfl)
  · split
    · exact balances_lowerEachResult w _ _
    · split
      · exact .finish (balances_lowerAllResults w _ _ _) (fun _ _ => by simp)
      · exact .failing

theorem balances_lowerReturn (values : List NodeId) (span : Span) :
    w.Balances 0 (lowerReturn walk values span) w.value := by
  unfold lowerReturn
  exact .get (fun s => .wholly (balances_lowerReturned w _ _ _) (fun values => .placing (by simp)))

theorem balances_lowerBranch (kind : BranchKind) (label : Option String) (span : Span) :
    w.Balances 0 (lowerBranch kind label span) w.value := by
  unfold lowerBranch
  dsimp only
  refine .get (fun s => ?_)
  split
  · exact .placing (by simp)
  · exact .skip (fun _ => .placing (by simp))
  · exact .failing

/-! ## Statements -/

theorem balances_lowerAssignment (lhs : List NodeId) (op : AssignOp) (rhs : List NodeId)
    (span : Span) : w.Balances 0 (lowerAssignment walk lhs op rhs span) w.value := by
  cases op with
  | define => exact balances_lowerDefine w _ _ _
  | plain => exact balances_lowerAssign w _ _ _
  | compound op => exact balances_lowerCompound w _ _ _ _

theorem balances_lowerStmtKind (statement : Stmt) (span : Span) :
    w.Balances 0 (lowerStmtKind walk statement span) (fun r => w.values r.toList) := by
  have one {m : Lower HostId} (h : w.Balances 0 m w.value) :
      w.Balances 0 (do return some (← m)) (fun r => w.values r.toList) :=
    .finish h (fun _ _ => by simp)
  unfold lowerStmtKind
  cases statement with
  | expression value =>
    refine .wholly (balances_expr _ _) (fun operand => ?_)
    have statement : w.Balances (w.operand operand)
        (expressionStatement walk { operand with span }) w.value :=
      (balances_expressionStatement w { operand with span }).given (fun _ => rfl)
    exact .finish statement (fun _ _ => by simp)
  | assign lhs op rhs => exact one (balances_lowerAssignment w _ _ _ _)
  | incDec target increment => exact one (balances_lowerIncDec w _ _ _)
  | send channel value => exact one (balances_lowerSend w _ _ _)
  | varDecl spec => exact balances_lowerLocalValues w _ _ _
  | constDecl spec => exact balances_lowerLocalValues w _ _ _
  | typeDecl name type isAlias doc => exact one (balances_lowerLocalType w _ _ _ _ _)
  | function decl => exact .failing
  | importPackage path name => exact .failing
  | block statements =>
    refine .wholly (.inScope (balances_lowerStatements w _)) (fun statements => ?_)
    exact .finish (.placing (by simp)) (fun _ _ => by simp)
  | ifElse init condition thenBlock elseBranch => exact one (balances_lowerIf w _ _ _ _ _)
  | loop init condition post body => exact one (balances_lowerFor w _ _ _ _ _)
  | range key value define source body => exact one (balances_lowerRange w _ _ _ _ _ _)
  | forPhrase clause body => exact one (balances_lowerForPhrase w _ _ _)
  | switch init tag clauses => exact one (balances_lowerSwitch w _ _ _ _)
  | typeSwitch init binding subject clauses => exact one (balances_lowerTypeSwitch w _ _ _ _ _)
  | select clauses => exact one (balances_lowerSelect w _ _)
  | go call =>
    refine .wholly (balances_lowerLaterCall w _ _) (fun call => ?_)
    exact .finish (.placing (by simp)) (fun _ _ => by simp)
  | defer call =>
    refine .wholly (balances_lowerLaterCall w _ _) (fun call => ?_)
    exact .finish (.placing (by simp)) (fun _ _ => by simp)
  | ret values => exact one (balances_lowerReturn w _ _)
  | branch kind label => exact one (balances_lowerBranch w _ _ _)
  | labeled label body =>
    refine .wholly (balances_statement _) (fun body => ?_)
    exact .finish (.placing (by simp)) (fun _ _ => by simp)

theorem balances_lowerStmt (id : NodeId) :
    w.Balances 0 (lowerStmt walk id) (fun r => w.values r.toList) := by
  unfold lowerStmt
  refine .read (fun c => ?_)
  split
  · exact .skip (fun span => balances_lowerStmtKind w _ _)
  · refine .wholly (balances_expr _ _) (fun operand => ?_)
    exact .finish (balances_expressionStatement w _) (fun _ _ => by simp)

end GoLowering.Lowering
