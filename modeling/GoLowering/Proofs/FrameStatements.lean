import GoLowering.Proofs.FrameExpressions

/-!
# What statements give back

Every part of the lowering of a statement gives back what it borrows and keeps what has been
hoisted before it, provided that the walk does so.
-/

namespace GoLowering.Lowering

open Surface

variable {L : Regime} [Discipline L] {walk : Walk} [walk.Keeps L]

/-! ## Assignments -/

instance additive_lowerSlotValue (value : NodeId) (type : Option TypeId) :
    Additive L (lowerSlotValue walk value type) := by
  unfold lowerSlotValue
  infer_instance

instance additive_lowerValues (values : List NodeId) (count : Nat) (type : Option TypeId)
    (span : Span) : Additive L (lowerValues walk values count type span) := by
  unfold lowerValues
  split
  · infer_instance
  · split
    · refine Keeps.before (fun operand => ?_)
      refine Keeps.before (fun types => ?_)
      split <;> infer_instance
    · infer_instance

instance additive_lowerDefine (lhs rhs : List NodeId) (span : Span) :
    Additive L (lowerDefine walk lhs rhs span) := by
  unfold lowerDefine
  refine Keeps.before (fun names => ?_)
  dsimp only
  refine Keeps.before (fun slots => ?_)
  exact Keeps.get (fun _ => rfl) (fun _ => inferInstance)

instance additive_lowerTarget (target : NodeId) : Additive L (lowerTarget walk target) := by
  unfold lowerTarget
  exact Keeps.read (fun _ => rfl) (fun _ => inferInstance)

instance additive_lowerSlots (values : List NodeId) (slots : List (Option TypeId)) (span : Span) :
    Additive L (lowerSlots walk values slots span) := by
  unfold lowerSlots
  split
  · infer_instance
  · split <;> infer_instance

instance additive_lowerAssign (lhs rhs : List NodeId) (span : Span) :
    Additive L (lowerAssign walk lhs rhs span) := by
  unfold lowerAssign
  infer_instance

instance additive_lowerCompound (op : BinaryOp) (lhs rhs : List NodeId) (span : Span) :
    Additive L (lowerCompound walk op lhs rhs span) := by
  unfold lowerCompound
  split
  · refine Keeps.before (fun target => ?_)
    refine Keeps.before (fun _ => ?_)
    dsimp only
    refine Keeps.before (fun value => ?_)
    exact Keeps.read (fun _ => rfl) (fun _ => inferInstance)
  · infer_instance

instance additive_lowerIncDec (target : NodeId) (increment : Bool) (span : Span) :
    Additive L (lowerIncDec walk target increment span) := by
  unfold lowerIncDec
  refine Keeps.before (fun target => ?_)
  refine Keeps.before (fun _ => ?_)
  exact Keeps.read (fun _ => rfl) (fun _ => inferInstance)

instance additive_lowerSend (channel value : NodeId) (span : Span) :
    Additive L (lowerSend walk channel value span) := by
  unfold lowerSend
  refine Keeps.before (fun x => ?_)
  split
  · refine Keeps.before (fun types => ?_)
    dsimp only
    split <;> infer_instance

/-! ## Declarations of values and types -/

instance additive_lowerVariables (spec : ValueSpec) (type : Option TypeId) (span : Span) :
    Additive L (lowerVariables walk spec type span) := by
  unfold lowerVariables
  dsimp only
  split <;> infer_instance

instance additive_lowerConstant (type : Option TypeId) (value : NodeId) :
    Additive L (lowerConstant walk type value) := by
  unfold lowerConstant
  refine Keeps.before (fun operand => ?_)
  split <;> infer_instance

instance additive_lowerConstants (spec : ValueSpec) (type : Option TypeId) (span : Span) :
    Additive L (lowerConstants walk spec type span) := by
  unfold lowerConstants
  infer_instance

instance additive_lowerValueSpec (spec : ValueSpec) (isConstant : Bool) (span : Span) :
    Additive L (lowerValueSpec walk spec isConstant span) := by
  unfold lowerValueSpec
  infer_instance

instance additive_lowerLocalValues (spec : ValueSpec) (isConstant : Bool) (span : Span) :
    Additive L (lowerLocalValues walk spec isConstant span) := by
  unfold lowerLocalValues
  infer_instance

instance additive_lowerLocalType (name : String) (type : NodeId) (isAlias : Bool)
    (doc : Option String) (span : Span) :
    Additive L (lowerLocalType walk name type isAlias doc span) := by
  cases isAlias with
  | false => exact ⟨Discipline.localType type (Walk.Keeps.type type).holds name doc span⟩
  | true =>
    unfold lowerLocalType lowerLocalDefinition
    rw [if_pos rfl]
    infer_instance

/-! ## Control flow -/

instance quiet_lowerElse (branch : NodeId) : Quiet L (lowerElse walk branch) := by
  unfold lowerElse
  refine Keeps.read (fun _ => rfl) (fun c => ?_)
  split
  · refine Keeps.before (fun x => ?_)
    split <;> infer_instance
  · infer_instance

instance additive_lowerIf (init : Option NodeId) (condition thenBlock : NodeId)
    (elseBranch : Option NodeId) (span : Span) :
    Additive L (lowerIf walk init condition thenBlock elseBranch span) := by
  unfold lowerIf
  infer_instance

instance additive_lowerFor (init condition post : Option NodeId) (body : NodeId) (span : Span) :
    Additive L (lowerFor walk init condition post body span) := by
  unfold lowerFor
  refine (keeps_inScope (h := ?_) _).bind (fun kind => inferInstance)
  refine Keeps.before (fun first => ?_)
  refine Keeps.before (fun before => ?_)
  refine Keeps.before (fun condition => ?_)
  exact Keeps.before (fun post => inferInstance)

instance additive_lowerSource (source : NodeId) : Additive L (lowerSource walk source) := by
  unfold lowerSource
  infer_instance

instance additive_lowerRangeTarget (id : NodeId) : Additive L (lowerRangeTarget walk id) := by
  unfold lowerRangeTarget
  exact Keeps.read (fun _ => rfl) (fun _ => inferInstance)

instance additive_lowerRangeAssign (key value : Option NodeId) (source : HostId) (plan : RangePlan)
    (body : NodeId) (span : Span) :
    Additive L (lowerRangeAssign walk key value source plan body span) := by
  unfold lowerRangeAssign
  infer_instance

instance additive_lowerRangeDefine (key value : Option NodeId) (source : HostId) (plan : RangePlan)
    (body : NodeId) (span : Span) :
    Additive L (lowerRangeDefine walk key value source plan body span) := by
  unfold lowerRangeDefine
  infer_instance

instance additive_lowerRange (key value : Option NodeId) (define : Bool) (source body : NodeId)
    (span : Span) : Additive L (lowerRange walk key value define source body span) := by
  unfold lowerRange
  infer_instance

instance additive_lowerPhraseHeader (clause : ForClause) :
    Additive L (lowerPhraseHeader walk clause) := by
  unfold lowerPhraseHeader
  infer_instance

instance additive_lowerPhraseBody (clause : ForClause) (body : NodeId) :
    Additive L (lowerPhraseBody walk clause body) := by
  unfold lowerPhraseBody
  refine Keeps.before (fun x => ?_)
  split
  · split <;> infer_instance

instance additive_lowerForPhrase (clause : ForClause) (body : NodeId) (span : Span) :
    Additive L (lowerForPhrase walk clause body span) := by
  unfold lowerForPhrase
  infer_instance

instance additive_lowerCaseValue (tag : Option TypeId) (value : NodeId) :
    Additive L (lowerCaseValue walk tag value) := by
  unfold lowerCaseValue
  split <;> infer_instance

instance additive_lowerCase (tag : Option TypeId) (clause : CaseClause) :
    Additive L (lowerCase walk tag clause) := by
  unfold lowerCase
  infer_instance

instance additive_lowerSwitch (init tag : Option NodeId) (clauses : List CaseClause) (span : Span)
    : Additive L (lowerSwitch walk init tag clauses span) := by
  unfold lowerSwitch
  infer_instance

instance additive_lowerCaseType (type : NodeId) : Additive L (lowerCaseType walk type) := by
  unfold lowerCaseType
  exact Keeps.read (fun _ => rfl) (fun _ => inferInstance)

instance additive_lowerTypeCase (binding : Option String) (subject : TypeId) (clause : CaseClause)
    : Additive L (lowerTypeCase walk binding subject clause) := by
  unfold lowerTypeCase
  infer_instance

instance additive_lowerSubject (subject : NodeId) : Additive L (lowerSubject walk subject) := by
  unfold lowerSubject
  refine Keeps.before (fun found => ?_)
  dsimp only
  refine Keeps.before (fun types => ?_)
  split
  · infer_instance
  · exact Keeps.get (fun _ => rfl) (fun _ => inferInstance)

instance additive_lowerTypeSwitch (init : Option NodeId) (binding : Option String)
    (subject : NodeId) (clauses : List CaseClause) (span : Span) :
    Additive L (lowerTypeSwitch walk init binding subject clauses span) := by
  unfold lowerTypeSwitch
  infer_instance

instance additive_lowerSelectCase (clause : SelectClause) :
    Additive L (lowerSelectCase walk clause) := by
  unfold lowerSelectCase
  infer_instance

instance additive_lowerSelect (clauses : List SelectClause) (span : Span) :
    Additive L (lowerSelect walk clauses span) := by
  unfold lowerSelect
  infer_instance

instance additive_lowerLaterCall (call : NodeId) (keyword : String) :
    Additive L (lowerLaterCall walk call keyword) := by
  unfold lowerLaterCall
  refine Keeps.before (fun operand => ?_)
  refine Keeps.before (fun x => ?_)
  split <;> infer_instance

instance additive_lowerReturned (values : List NodeId) (results : List TypeId) (span : Span) :
    Additive L (lowerReturned walk values results span) := by
  unfold lowerReturned
  split
  · infer_instance
  · split
    · infer_instance
    · split <;> infer_instance

instance additive_lowerReturn (values : List NodeId) (span : Span) :
    Additive L (lowerReturn walk values span) := by
  unfold lowerReturn
  exact Keeps.get (fun _ => rfl) (fun _ => inferInstance)

/-! ## Statements -/

instance additive_lowerAssignment (lhs : List NodeId) (op : AssignOp) (rhs : List NodeId)
    (span : Span) : Additive L (lowerAssignment walk lhs op rhs span) := by
  unfold lowerAssignment
  split <;> infer_instance

instance additive_lowerStmtKind (statement : Stmt) (span : Span) :
    Additive L (lowerStmtKind walk statement span) := by
  unfold lowerStmtKind
  split <;> infer_instance

instance additive_lowerStmt (id : NodeId) : Additive L (lowerStmt walk id) := by
  unfold lowerStmt
  refine Keeps.read (fun _ => rfl) (fun c => ?_)
  split <;> infer_instance

end GoLowering.Lowering
