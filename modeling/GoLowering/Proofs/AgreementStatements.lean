import GoLowering.Proofs.AgreementExpressions

/-!
# Statements and walks that agree

Walks that agree at the nodes that the syntax of a statement refers to make the same of it.
-/

namespace GoLowering.Lowering

open Surface

variable {c : Context} {P : Standing → Prop} {A : NodeId → Prop} [Closed c A] {walk walk' : Walk}
  [walk.Agrees c P A walk']

/-! ## Assignments -/

instance agrees_lowerSlotValue (value : NodeId) [Above A value] (type : Option TypeId) :
    Agrees c P (lowerSlotValue walk value type) (lowerSlotValue walk' value type) := by
  unfold lowerSlotValue
  infer_instance

instance agrees_lowerValues (values : List NodeId) [h : Above A values] (count : Nat)
    (type : Option TypeId) (span : Span) :
    Agrees c P (lowerValues walk values count type span)
      (lowerValues walk' values count type span) := by
  have slots : Agrees c P (values.mapM (lowerSlotValue walk · type))
      (values.mapM (lowerSlotValue walk' · type)) :=
    agrees_each (fun _ _ => inferInstance)
  unfold lowerValues
  split
  · infer_instance
  · split
    · obtain ⟨_, _⟩ := above_cons h
      refine Agrees.before (fun operand => ?_)
      refine Agrees.before (fun types => ?_)
      split <;> infer_instance
    · infer_instance

instance agrees_lowerDefine (lhs rhs : List NodeId) [Above A rhs] (span : Span) :
    Agrees c P (lowerDefine walk lhs rhs span) (lowerDefine walk' lhs rhs span) := by
  unfold lowerDefine
  refine Agrees.before (fun names => ?_)
  dsimp only
  refine Agrees.before (fun slots => ?_)
  exact .get (fun s => inferInstance)

instance agrees_lowerTarget (target : NodeId) [Above A target] :
    Agrees c P (lowerTarget walk target) (lowerTarget walk' target) := by
  unfold lowerTarget
  exact .read inferInstance

omit [Closed c A] in
theorem agrees_lowerSlotValues (values : List NodeId) [Above A values]
    (slots : List (Option TypeId)) :
    Agrees c P
      ((values.zip slots).mapM (fun (value, slot) => return (← lowerSlotValue walk value slot).1))
      ((values.zip slots).mapM
        (fun (value, slot) => return (← lowerSlotValue walk' value slot).1)) := by
  refine agrees_mapM (fun (value, slot) hmem => ?_)
  have := above_mem (List.of_mem_zip hmem).1
  infer_instance

instance agrees_lowerSlots (values : List NodeId) [h : Above A values]
    (slots : List (Option TypeId)) (span : Span) :
    Agrees c P (lowerSlots walk values slots span) (lowerSlots walk' values slots span) := by
  unfold lowerSlots
  split
  · exact agrees_lowerSlotValues values slots
  · split
    · obtain ⟨_, _⟩ := above_cons h
      infer_instance
    · infer_instance

instance agrees_lowerAssign (lhs rhs : List NodeId) [Above A lhs] [Above A rhs] (span : Span) :
    Agrees c P (lowerAssign walk lhs rhs span) (lowerAssign walk' lhs rhs span) := by
  unfold lowerAssign
  exact (agrees_each (fun _ _ => inferInstance)).bind (fun _ => inferInstance)

instance agrees_lowerCompound (op : BinaryOp) (lhs rhs : List NodeId) [hl : Above A lhs]
    [hr : Above A rhs] (span : Span) :
    Agrees c P (lowerCompound walk op lhs rhs span) (lowerCompound walk' op lhs rhs span) := by
  unfold lowerCompound
  split
  · obtain ⟨_, _⟩ := above_cons hl
    obtain ⟨_, _⟩ := above_cons hr
    refine Agrees.before (fun target => ?_)
    refine Agrees.before (fun _ => ?_)
    dsimp only
    refine Agrees.before (fun value => ?_)
    exact .read inferInstance
  · infer_instance

instance agrees_lowerIncDec (target : NodeId) [Above A target] (increment : Bool) (span : Span) :
    Agrees c P (lowerIncDec walk target increment span)
      (lowerIncDec walk' target increment span) := by
  unfold lowerIncDec
  refine Agrees.before (fun target => ?_)
  refine Agrees.before (fun _ => ?_)
  exact .read inferInstance

instance agrees_lowerSend (channel value : NodeId) [Above A channel] [Above A value]
    (span : Span) :
    Agrees c P (lowerSend walk channel value span) (lowerSend walk' channel value span) := by
  unfold lowerSend
  refine Agrees.before (fun x => ?_)
  split
  · refine Agrees.before (fun types => ?_)
    dsimp only
    split <;> infer_instance

/-! ## Declarations of values and types -/

instance agrees_lowerVariables (spec : ValueSpec) [Above A spec] (type : Option TypeId)
    (span : Span) :
    Agrees c P (lowerVariables walk spec type span) (lowerVariables walk' spec type span) := by
  have hvalues : Above A spec.values := inferInstance
  unfold lowerVariables
  dsimp only
  generalize spec.values = values at hvalues
  split <;> infer_instance

instance agrees_lowerConstant (type : Option TypeId) (value : NodeId) [Above A value] :
    Agrees c P (lowerConstant walk type value) (lowerConstant walk' type value) := by
  unfold lowerConstant
  refine Agrees.before (fun operand => ?_)
  split <;> infer_instance

instance agrees_lowerConstants (spec : ValueSpec) [Above A spec] (type : Option TypeId)
    (span : Span) :
    Agrees c P (lowerConstants walk spec type span) (lowerConstants walk' spec type span) := by
  have constants : Agrees c P (spec.values.mapM (lowerConstant walk type))
      (spec.values.mapM (lowerConstant walk' type)) :=
    agrees_each (fun _ _ => inferInstance)
  unfold lowerConstants
  infer_instance

instance agrees_lowerValueSpec (spec : ValueSpec) [Above A spec] (isConstant : Bool)
    (span : Span) :
    Agrees c P (lowerValueSpec walk spec isConstant span)
      (lowerValueSpec walk' spec isConstant span) := by
  unfold lowerValueSpec
  exact (agrees_option (fun _ _ => inferInstance)).bind (fun _ => inferInstance)

instance agrees_lowerLocalValues (spec : ValueSpec) [Above A spec] (isConstant : Bool)
    (span : Span) :
    Agrees c P (lowerLocalValues walk spec isConstant span)
      (lowerLocalValues walk' spec isConstant span) := by
  unfold lowerLocalValues
  infer_instance

instance agrees_lowerLocalType (name : String) (type : NodeId) [Above A type] (isAlias : Bool)
    (doc : Option String) (span : Span) :
    Agrees c P (lowerLocalType walk name type isAlias doc span)
      (lowerLocalType walk' name type isAlias doc span) := by
  unfold lowerLocalType lowerLocalDefinition
  infer_instance

/-! ## Control flow -/

instance agrees_lowerElse (branch : NodeId) [Above A branch] :
    Agrees c P (lowerElse walk branch) (lowerElse walk' branch) := by
  unfold lowerElse
  refine .read ?_
  split
  · refine Agrees.before (fun x => ?_)
    split <;> infer_instance
  · infer_instance

/-- What stands before the other parts of a statement, if anything. -/
instance agrees_statements (init : Option NodeId) [Above A init] :
    Agrees c P (init.mapM walk.statement) (init.mapM walk'.statement) :=
  agrees_option (fun _ _ => inferInstance)

instance agrees_lowerIf (init : Option NodeId) (condition thenBlock : NodeId)
    (elseBranch : Option NodeId) [Above A init] [Above A condition] [Above A thenBlock]
    [Above A elseBranch] (span : Span) :
    Agrees c P (lowerIf walk init condition thenBlock elseBranch span)
      (lowerIf walk' init condition thenBlock elseBranch span) := by
  have : Agrees c P (elseBranch.mapM (lowerElse walk)) (elseBranch.mapM (lowerElse walk')) :=
    agrees_option (fun _ _ => inferInstance)
  unfold lowerIf
  infer_instance

instance agrees_conditions (condition : Option NodeId) [Above A condition] :
    Agrees c P (condition.mapM (lowerCondition walk)) (condition.mapM (lowerCondition walk')) :=
  agrees_option (fun _ _ => inferInstance)

instance agrees_lowerFor (init condition post : Option NodeId) (body : NodeId) [Above A init]
    [Above A condition] [Above A post] [Above A body] (span : Span) :
    Agrees c P (lowerFor walk init condition post body span)
      (lowerFor walk' init condition post body span) := by
  unfold lowerFor
  refine (agrees_inScope (h := ?_) _).bind (fun kind => inferInstance)
  refine Agrees.before (fun first => ?_)
  refine Agrees.before (fun before => ?_)
  refine Agrees.before (fun condition => ?_)
  exact Agrees.before (fun post => inferInstance)

instance agrees_lowerSource (source : NodeId) [Above A source] :
    Agrees c P (lowerSource walk source) (lowerSource walk' source) := by
  unfold lowerSource
  infer_instance

instance agrees_lowerRangeTarget (id : NodeId) [Above A id] :
    Agrees c P (lowerRangeTarget walk id) (lowerRangeTarget walk' id) := by
  unfold lowerRangeTarget
  exact .read inferInstance

instance agrees_lowerRangeAssign (key value : Option NodeId) [Above A key] [Above A value]
    (source : HostId) (plan : RangePlan) (body : NodeId) [Above A body] (span : Span) :
    Agrees c P (lowerRangeAssign walk key value source plan body span)
      (lowerRangeAssign walk' key value source plan body span) := by
  have target (id : Option NodeId) [Above A id] :
      Agrees c P (id.mapM (lowerRangeTarget walk)) (id.mapM (lowerRangeTarget walk')) :=
    agrees_option (fun _ _ => inferInstance)
  unfold lowerRangeAssign
  infer_instance

instance agrees_lowerRangeDefine (key value : Option NodeId) (source : HostId) (plan : RangePlan)
    (body : NodeId) [Above A body] (span : Span) :
    Agrees c P (lowerRangeDefine walk key value source plan body span)
      (lowerRangeDefine walk' key value source plan body span) := by
  unfold lowerRangeDefine
  infer_instance

instance agrees_lowerRange (key value : Option NodeId) (define : Bool) (source body : NodeId)
    [Above A key] [Above A value] [Above A source] [Above A body] (span : Span) :
    Agrees c P (lowerRange walk key value define source body span)
      (lowerRange walk' key value define source body span) := by
  unfold lowerRange
  infer_instance

instance agrees_lowerPhraseHeader (clause : ForClause) [Above A clause] :
    Agrees c P (lowerPhraseHeader walk clause) (lowerPhraseHeader walk' clause) := by
  unfold lowerPhraseHeader
  infer_instance

instance agrees_lowerPhraseBody (clause : ForClause) (body : NodeId) [Above A clause]
    [Above A body] :
    Agrees c P (lowerPhraseBody walk clause body) (lowerPhraseBody walk' clause body) := by
  unfold lowerPhraseBody
  refine Agrees.before (fun x => ?_)
  split
  · split <;> infer_instance

instance agrees_lowerForPhrase (clause : ForClause) (body : NodeId) [Above A clause]
    [Above A body] (span : Span) :
    Agrees c P (lowerForPhrase walk clause body span)
      (lowerForPhrase walk' clause body span) := by
  unfold lowerForPhrase
  infer_instance

instance agrees_lowerCaseValue (tag : Option TypeId) (value : NodeId) [Above A value] :
    Agrees c P (lowerCaseValue walk tag value) (lowerCaseValue walk' tag value) := by
  unfold lowerCaseValue
  split <;> infer_instance

instance agrees_lowerCase (tag : Option TypeId) (clause : CaseClause) [Above A clause] :
    Agrees c P (lowerCase walk tag clause) (lowerCase walk' tag clause) := by
  have : Agrees c P (clause.values.mapM (lowerCaseValue walk tag))
      (clause.values.mapM (lowerCaseValue walk' tag)) :=
    agrees_each (fun _ _ => inferInstance)
  unfold lowerCase
  infer_instance

instance agrees_lowerSwitch (init tag : Option NodeId) (clauses : List CaseClause)
    [Above A init] [Above A tag] [Above A clauses] (span : Span) :
    Agrees c P (lowerSwitch walk init tag clauses span)
      (lowerSwitch walk' init tag clauses span) := by
  have tags : Agrees c P (tag.mapM (lowerByDefault walk)) (tag.mapM (lowerByDefault walk')) :=
    agrees_option (fun _ _ => inferInstance)
  have cases (type : Option TypeId) :
      Agrees c P (clauses.mapM (lowerCase walk type)) (clauses.mapM (lowerCase walk' type)) :=
    agrees_each (fun _ _ => inferInstance)
  unfold lowerSwitch
  infer_instance

instance agrees_lowerCaseType (type : NodeId) [Above A type] :
    Agrees c P (lowerCaseType walk type) (lowerCaseType walk' type) := by
  unfold lowerCaseType
  exact .read inferInstance

instance agrees_lowerTypeCase (binding : Option String) (subject : TypeId) (clause : CaseClause)
    [Above A clause] :
    Agrees c P (lowerTypeCase walk binding subject clause)
      (lowerTypeCase walk' binding subject clause) := by
  have : Agrees c P (clause.values.mapM (lowerCaseType walk))
      (clause.values.mapM (lowerCaseType walk')) :=
    agrees_each (fun _ _ => inferInstance)
  unfold lowerTypeCase
  infer_instance

instance agrees_lowerSubject (subject : NodeId) [Above A subject] :
    Agrees c P (lowerSubject walk subject) (lowerSubject walk' subject) := by
  unfold lowerSubject
  refine Agrees.before (fun found => ?_)
  dsimp only
  refine Agrees.before (fun types => ?_)
  split
  · infer_instance
  · exact .get (fun s => inferInstance)

instance agrees_lowerTypeSwitch (init : Option NodeId) (binding : Option String)
    (subject : NodeId) (clauses : List CaseClause) [Above A init] [Above A subject]
    [Above A clauses] (span : Span) :
    Agrees c P (lowerTypeSwitch walk init binding subject clauses span)
      (lowerTypeSwitch walk' init binding subject clauses span) := by
  have cases (type : TypeId) :
      Agrees c P (clauses.mapM (lowerTypeCase walk binding type))
        (clauses.mapM (lowerTypeCase walk' binding type)) :=
    agrees_each (fun _ _ => inferInstance)
  unfold lowerTypeSwitch
  infer_instance

instance agrees_lowerSelectCase (clause : SelectClause) [Above A clause] :
    Agrees c P (lowerSelectCase walk clause) (lowerSelectCase walk' clause) := by
  unfold lowerSelectCase
  infer_instance

instance agrees_lowerSelect (clauses : List SelectClause) [Above A clauses] (span : Span) :
    Agrees c P (lowerSelect walk clauses span) (lowerSelect walk' clauses span) := by
  unfold lowerSelect
  exact (agrees_each (fun _ _ => inferInstance)).bind (fun _ => inferInstance)

instance agrees_lowerLaterCall (call : NodeId) [Above A call] (keyword : String) :
    Agrees c P (lowerLaterCall walk call keyword) (lowerLaterCall walk' call keyword) := by
  unfold lowerLaterCall
  refine Agrees.before (fun operand => ?_)
  refine Agrees.before (fun x => ?_)
  split <;> infer_instance

instance agrees_lowerReturned (values : List NodeId) [h : Above A values] (results : List TypeId)
    (span : Span) :
    Agrees c P (lowerReturned walk values results span)
      (lowerReturned walk' values results span) := by
  unfold lowerReturned
  split
  · infer_instance
  · split
    · infer_instance
    · split
      · obtain ⟨_, _⟩ := above_cons h
        infer_instance
      · infer_instance

instance agrees_lowerReturn (values : List NodeId) [Above A values] (span : Span) :
    Agrees c P (lowerReturn walk values span) (lowerReturn walk' values span) := by
  unfold lowerReturn
  exact .get (fun s => inferInstance)

/-! ## Statements -/

instance agrees_lowerAssignment (lhs : List NodeId) (op : AssignOp) (rhs : List NodeId)
    [Above A lhs] [Above A rhs] (span : Span) :
    Agrees c P (lowerAssignment walk lhs op rhs span)
      (lowerAssignment walk' lhs op rhs span) := by
  unfold lowerAssignment
  split <;> infer_instance

instance agrees_lowerStmtKind (statement : Stmt) [h : Above A statement] (span : Span) :
    Agrees c P (lowerStmtKind walk statement span) (lowerStmtKind walk' statement span) := by
  unfold lowerStmtKind
  cases statement with
  | importPackage path localName => infer_instance
  | function decl => infer_instance
  | branch kind label => infer_instance
  | expression value =>
    have : Above A value := ⟨h.holds⟩
    infer_instance
  | incDec target increment =>
    have : Above A target := ⟨h.holds⟩
    infer_instance
  | varDecl spec =>
    have : Above A spec := ⟨h.holds⟩
    infer_instance
  | constDecl spec =>
    have : Above A spec := ⟨h.holds⟩
    infer_instance
  | typeDecl name type isAlias doc =>
    have : Above A type := ⟨h.holds⟩
    infer_instance
  | block statements =>
    have : Above A statements := ⟨h.holds⟩
    infer_instance
  | select clauses =>
    have : Above A clauses := ⟨h.holds⟩
    infer_instance
  | go call =>
    have : Above A call := ⟨h.holds⟩
    infer_instance
  | defer call =>
    have : Above A call := ⟨h.holds⟩
    infer_instance
  | ret values =>
    have : Above A values := ⟨h.holds⟩
    infer_instance
  | labeled label body =>
    have : Above A body := ⟨h.holds⟩
    infer_instance
  | assign lhs op rhs =>
    obtain ⟨_, _⟩ := above_pair h.holds
    infer_instance
  | send channel value =>
    obtain ⟨_, _⟩ := above_pair h.holds
    infer_instance
  | ifElse init condition thenBlock elseBranch =>
    obtain ⟨_, hrest⟩ := above_pair h.holds
    obtain ⟨_, hrest⟩ := above_pair hrest.holds
    obtain ⟨_, _⟩ := above_pair hrest.holds
    infer_instance
  | loop init condition post body =>
    obtain ⟨_, hrest⟩ := above_pair h.holds
    obtain ⟨_, hrest⟩ := above_pair hrest.holds
    obtain ⟨_, _⟩ := above_pair hrest.holds
    infer_instance
  | range key value define source body =>
    obtain ⟨_, hrest⟩ := above_pair h.holds
    obtain ⟨_, hrest⟩ := above_pair hrest.holds
    obtain ⟨_, _⟩ := above_pair hrest.holds
    infer_instance
  | forPhrase clause body =>
    obtain ⟨_, _⟩ := above_pair h.holds
    infer_instance
  | switch init tag clauses =>
    obtain ⟨_, hrest⟩ := above_pair h.holds
    obtain ⟨_, _⟩ := above_pair hrest.holds
    infer_instance
  | typeSwitch init binding subject clauses =>
    obtain ⟨_, hrest⟩ := above_pair h.holds
    obtain ⟨_, _⟩ := above_pair hrest.holds
    infer_instance

/-- A node that is no statement is an expression. -/
theorem agrees_lowerStmt (id : NodeId) [Opens c A id]
    (expr : ∀ expect, Agrees c P (walk.expr id expect) (walk'.expr id expect)) :
    Agrees c P (lowerStmt walk id) (lowerStmt walk' id) := by
  unfold lowerStmt
  refine .read ?_
  split
  · rename_i statement hstmt
    have := above_stmt hstmt
    infer_instance
  · infer_instance

end GoLowering.Lowering
