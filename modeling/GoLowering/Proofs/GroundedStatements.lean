import GoLowering.Proofs.FormedStatements
import GoLowering.Proofs.GroundedBodies

/-!
# Statements within the table

The names that a statement introduces have types that are in the table: those of its values, or the
one that they are written with. A function returns what it is declared to return.
-/

namespace GoLowering.Lowering

open Surface

set_option synthInstance.maxSize 1000

variable {c : Context} {Γ : Fact} {walk : Walk} [walk.Grounds c] {α β : Type} {span : Span}

/-! ## Values for places -/

instance inTables_ite {p : Prop} [Decidable p] {type other : Option TypeId}
    [h : Yields Γ (.inTables type.toList)] [hother : Yields Γ (.inTables other.toList)] :
    Yields Γ (.inTables (if p then type else other).toList) := by
  split
  · exact h
  · exact hother

instance yields_unzip_snd {P : β → Fact} {pairs : List (α × β)}
    [h : Yields Γ (.each (fun p => P p.2) pairs)] : Yields Γ (.each P pairs.unzip.2) := by
  rw [List.unzip_snd]
  exact yields_map

instance typeless_failCount (left right : Nat) (span : Span) :
    Typeless (failCount left right span : Lower α) := by
  unfold failCount
  infer_instance

instance brings_spreadTypes {operand : Operand} {count : Nat} [Yields Γ (.inTable operand.type)] :
    Brings c Γ (spreadTypes operand count) .inTables := by
  constructor
  unfold spreadTypes
  refine brings_getTypes.grounds.bind (fun types => ?_)
  dsimp only
  split
  · rename_i elements helements
    exact .parts elements helements (fun _ => id) inferInstance
  · split
    · infer_instance
    · split <;> infer_instance

instance typeless_unassignable? (pairs : List (TypeId × TypeId)) :
    Typeless (unassignable? pairs) := by
  induction pairs with
  | nil => exact typeless_reads (m := pure none)
  | cons pair pairs ih =>
    unfold unassignable?
    infer_instance

instance typeless_checkAssignable (operand : Operand) (pairs : List (TypeId × TypeId)) :
    Typeless (checkAssignable operand pairs) := by
  unfold checkAssignable
  refine .before (fun found => ?_)
  split <;> infer_instance

section

variable {type : Option TypeId} [h : Yields Γ (.inTables type.toList)]

instance brings_lowerSlotValue {value : NodeId} :
    Brings c Γ (lowerSlotValue walk value type) (fun r => .inTable r.2) := by
  constructor
  unfold lowerSlotValue
  infer_instance

instance brings_lowerValues {values : List NodeId} {count : Nat} :
    Brings c Γ (lowerValues walk values count type span) (fun r => .inTables r.2) := by
  constructor
  unfold lowerValues
  split
  · infer_instance
  · split
    · refine (Walk.Grounds.expr Γ _ _).grounds.bind (fun operand => ?_)
      refine brings_spreadTypes.grounds.bind (fun types => ?_)
      split
      · infer_instance
      · rename_i type
        refine .skip (fun _ => .pure ⟨fun hs id hid => ?_⟩)
        obtain rfl := List.eq_of_mem_replicate hid
        exact (inTable_of_some (h := h)).of hs.1.1
    · infer_instance

end

/-! ## Assignments -/

instance typeless_definedName (id : NodeId) : Typeless (definedName id) := by
  unfold definedName
  refine .before (fun c => ?_)
  split <;> infer_instance

instance typeless_nameNode (id : NodeId) (name : String) : Typeless (nameNode id name) := by
  unfold nameNode
  infer_instance

/-- Names are bound as variables of types of the table, one each. -/
theorem grounds_bindVariables {names : List String} {types : List TypeId}
    [h : Yields Γ (.inTables types)] :
    Grounds c Γ ((names.zip types).forM (fun (name, type) => bind name (.variable type)))
      (fun _ => .nothing) := by
  have : Yields Γ (.each (fun p => .inTable p.2) (names.zip types)) :=
    ⟨fun hs p hp => h.of hs p.2 (List.of_mem_zip hp).2⟩
  exact .forM (fun p => .inTable p.2) (fun p _ Δ => inferInstance)

instance brings_lowerDefine {lhs rhs : List NodeId} :
    Brings c Γ (lowerDefine walk lhs rhs span) (fun _ => .nothing) := by
  constructor
  unfold lowerDefine
  refine .skip (fun names => brings_lowerValues.grounds.bind (fun values => .skip (fun s => ?_)))
  dsimp only
  split
  · exact grounds_bindVariables.bind (fun _ => inferInstance)
  · infer_instance

instance brings_lowerTarget {target : NodeId} :
    Brings c Γ (lowerTarget walk target) (fun r => .inTables r.2.toList) := by
  constructor
  unfold lowerTarget
  infer_instance

instance brings_lowerSlots {values : List NodeId} {slots : List (Option TypeId)}
    [h : Yields Γ (.each (fun slot => .inTables slot.toList) slots)] :
    Brings c Γ (lowerSlots walk values slots span) (fun _ => .nothing) := by
  constructor
  unfold lowerSlots
  split
  · have : Yields Γ (.each (fun p => .inTables p.2.toList) (values.zip slots)) :=
      ⟨fun hs p hp => h.of hs p.2 (List.of_mem_zip hp).2⟩
    exact (Grounds.mapM (P := fun _ => .nothing) (fun p => .inTables p.2.toList)
      (fun p _ Δ => inferInstance)).weaken (fun _ => inferInstance)
  · split <;> infer_instance

instance brings_lowerAssign {lhs rhs : List NodeId} :
    Brings c Γ (lowerAssign walk lhs rhs span) (fun _ => .nothing) := by
  constructor
  unfold lowerAssign
  infer_instance

instance brings_lowerCompound {op : BinaryOp} {lhs rhs : List NodeId} :
    Brings c Γ (lowerCompound walk op lhs rhs span) (fun _ => .nothing) := by
  constructor
  unfold lowerCompound
  split
  · dsimp only
    infer_instance
  · infer_instance

instance brings_lowerIncDec {target : NodeId} {increment : Bool} :
    Brings c Γ (lowerIncDec walk target increment span) (fun _ => .nothing) := by
  constructor
  unfold lowerIncDec
  infer_instance

instance brings_lowerSend {channel value : NodeId} :
    Brings c Γ (lowerSend walk channel value span) (fun _ => .nothing) := by
  constructor
  unfold lowerSend
  refine brings_lowerByDefault.grounds.bind (fun channel => ?_)
  refine brings_getTypes.grounds.bind (fun types => ?_)
  dsimp only
  split
  · rename_i hshape
    exact .part hshape List.mem_cons_self inferInstance
  · split <;> infer_instance

instance brings_lowerAssignment {lhs rhs : List NodeId} {op : AssignOp} :
    Brings c Γ (lowerAssignment walk lhs op rhs span) (fun _ => .nothing) := by
  constructor
  unfold lowerAssignment
  split <;> infer_instance

/-! ## Declarations of values and types -/

/-- The names of a declaration have types that are in the table. -/
abbrev Fact.symbols (symbols : List (String × Symbol)) : Fact :=
  each (fun entry => .inTable entry.2.type) symbols

section

variable {type : Option TypeId} [h : Yields Γ (.inTables type.toList)] {spec : ValueSpec}

instance brings_lowerVariables :
    Brings c Γ (lowerVariables walk spec type span) (fun decl => .symbols decl.symbols) := by
  have symbols {Δ : Fact} {names : List String} {types : List TypeId}
      [htypes : Yields Δ (.inTables types)] :
      Yields Δ (.symbols ((names.zip types).map (fun (name, type) => (name, .variable type)))) := by
    refine ⟨fun hs entry hentry => ?_⟩
    obtain ⟨⟨name, type⟩, hpair, rfl⟩ := List.mem_map.mp hentry
    exact htypes.of hs type (List.of_mem_zip hpair).2
  constructor
  unfold lowerVariables
  split
  · infer_instance
  · rename_i type _
    have : Yields Γ (.inTables (List.replicate spec.names.length type)) := by
      refine ⟨fun hs id hid => ?_⟩
      obtain rfl := List.eq_of_mem_replicate hid
      exact (inTable_of_some (h := h)).of hs
    infer_instance
  · infer_instance

instance brings_lowerConstant {value : NodeId} :
    Brings c Γ (lowerConstant walk type value) (fun r => .inTable r.2.type) := by
  constructor
  unfold lowerConstant
  refine (Walk.Grounds.expr Γ _ _).grounds.bind (fun operand => ?_)
  split
  · infer_instance
  · rename_i type _
    have : Yields (Γ.and (.inTable operand.type)) (.inTable type) :=
      ⟨fun hs => (inTable_of_some (h := h)).of hs.1⟩
    infer_instance
  · infer_instance

instance brings_lowerConstants :
    Brings c Γ (lowerConstants walk spec type span) (fun decl => .symbols decl.symbols) := by
  constructor
  unfold lowerConstants
  split
  · infer_instance
  · refine brings_mapM.grounds.bind (fun constants => ?_)
    dsimp only
    refine .given (φ := .symbols ((spec.names.zip constants).map (fun e => (e.1, e.2.2))))
      ⟨fun hs entry hentry => ?_⟩ ?_
    · obtain ⟨⟨name, constant⟩, hpair, rfl⟩ := List.mem_map.mp hentry
      exact hs.2 constant (List.of_mem_zip hpair).2
    · split <;> infer_instance

end

instance brings_lowerValueSpec {spec : ValueSpec} {isConstant : Bool} :
    Brings c Γ (lowerValueSpec walk spec isConstant span)
      (fun decl => .symbols decl.symbols) := by
  constructor
  unfold lowerValueSpec
  infer_instance

/-- A name is bound anew to a symbol of a type that is in the table. -/
instance brings_bindNew {name : String} {symbol : Symbol} [h : Yields Γ (.inTable symbol.type)] :
    Brings c Γ (bindNew span name symbol) (fun _ => .nothing) := by
  constructor
  unfold bindNew
  refine brings_get.grounds.bind (fun s => ?_)
  split
  · rename_i scopes hdefine
    refine ⟨fun {t} ht hΓ => ⟨⟨.refl _, .refl _⟩, ht.setScopes (fun id hid => .inr ?_),
      fun _ _ => trivial⟩⟩
    rcases Scopes.mem_types_define hdefine hid with hold | rfl
    · exact Nat.lt_of_lt_of_le (hΓ.2.2 id (State.Grounded.mem_namedTypes.mpr (.inl hold)))
        hΓ.2.1.2
    · exact ht.index_lt (h.of hΓ.1)
  · infer_instance

instance brings_lowerLocalValues {spec : ValueSpec} {isConstant : Bool} :
    Brings c Γ (lowerLocalValues walk spec isConstant span) (fun _ => .nothing) := by
  constructor
  unfold lowerLocalValues
  refine brings_lowerValueSpec.grounds.bind (fun decl => ?_)
  refine (Grounds.forM (fun entry => .inTable entry.2.type) (fun entry _ Δ => ?_)).bind
    (fun _ => ?_)
  · infer_instance
  · infer_instance

instance brings_lowerLocalDefinition {name : String} {type : NodeId} {isAlias : Bool} :
    Brings c Γ (lowerLocalDefinition walk name type isAlias) .inTable := by
  constructor
  unfold lowerLocalDefinition
  infer_instance

instance brings_lowerLocalType {name : String} {type : NodeId} {isAlias : Bool}
    {doc : Option String} :
    Brings c Γ (lowerLocalType walk name type isAlias doc span) (fun _ => .nothing) := by
  constructor
  unfold lowerLocalType
  infer_instance

/-! ## Conditions and loops -/

instance brings_lowerElse {branch : NodeId} :
    Brings c Γ (lowerElse walk branch) (fun _ => .nothing) := by
  constructor
  unfold lowerElse
  refine .read ?_
  split
  · refine brings_lowerStatement.grounds.bind (fun statements => ?_)
    split <;> infer_instance
  · infer_instance

instance brings_lowerIf {init : Option NodeId} {condition thenBlock : NodeId}
    {elseBranch : Option NodeId} :
    Brings c Γ (lowerIf walk init condition thenBlock elseBranch span) (fun _ => .nothing) := by
  constructor
  unfold lowerIf
  refine Grounds.bind (P := fun _ => .nothing) (.inScope ?_) (fun kind => inferInstance)
  infer_instance

instance typeless_hoistedCount : Typeless hoistedCount := by
  unfold hoistedCount
  infer_instance

instance brings_lowerFor {init condition post : Option NodeId} {body : NodeId} :
    Brings c Γ (lowerFor walk init condition post body span) (fun _ => .nothing) := by
  constructor
  unfold lowerFor
  refine Grounds.bind (P := fun _ => .nothing) (.inScope ?_) (fun kind => inferInstance)
  infer_instance

/-! ## Ranges -/

instance brings_lowerSource {source : NodeId} :
    Brings c Γ (lowerSource walk source) (fun r => .rangePlan r.2) := by
  constructor
  unfold lowerSource
  infer_instance

instance typeless_rangeName (id : NodeId) : Typeless (rangeName id) := by
  unfold rangeName
  refine .before (fun c => ?_)
  split <;> infer_instance

instance brings_lowerRangeTarget {id : NodeId} :
    Brings c Γ (lowerRangeTarget walk id) (fun _ => .nothing) := by
  constructor
  unfold lowerRangeTarget
  infer_instance

section

variable {key value : Option NodeId} {source : HostId} {plan : RangePlan} {body : NodeId}

instance brings_lowerRangeAssign :
    Brings c Γ (lowerRangeAssign walk key value source plan body span) (fun _ => .nothing) := by
  constructor
  unfold lowerRangeAssign
  infer_instance

instance brings_lowerRangeDefine [Yields Γ (.rangePlan plan)] :
    Brings c Γ (lowerRangeDefine walk key value source plan body span) (fun _ => .nothing) := by
  constructor
  unfold lowerRangeDefine
  refine .skip (fun key => .skip (fun value => ?_))
  refine Grounds.bind (P := fun _ => .nothing) (.inScope ?_) (fun statements => inferInstance)
  exact brings_bindRange.grounds.bind (fun _ => inferInstance)

end

instance brings_lowerRange {key value : Option NodeId} {define : Bool} {source body : NodeId} :
    Brings c Γ (lowerRange walk key value define source body span) (fun _ => .nothing) := by
  constructor
  unfold lowerRange
  infer_instance

instance brings_lowerPhraseHeader {clause : ForClause} :
    Brings c Γ (lowerPhraseHeader walk clause) (fun _ => .nothing) := by
  constructor
  unfold lowerPhraseHeader
  infer_instance

instance brings_lowerPhraseBody {clause : ForClause} {body : NodeId} :
    Brings c Γ (lowerPhraseBody walk clause body) (fun _ => .nothing) := by
  constructor
  unfold lowerPhraseBody
  refine brings_hoisting.grounds.bind (fun header => ?_)
  dsimp only
  split <;> infer_instance

instance brings_lowerForPhrase {clause : ForClause} {body : NodeId} :
    Brings c Γ (lowerForPhrase walk clause body span) (fun _ => .nothing) := by
  constructor
  unfold lowerForPhrase
  refine brings_lowerSource.grounds.bind (fun source => ?_)
  refine Grounds.bind (P := fun _ => .nothing) (.inScope ?_) (fun statements => inferInstance)
  exact brings_bindRange.grounds.bind (fun _ => inferInstance)

/-! ## Switches -/

instance brings_lowerCaseValue {tag : Option TypeId} {value : NodeId}
    [h : Yields Γ (.inTables tag.toList)] :
    Brings c Γ (lowerCaseValue walk tag value) (fun _ => .nothing) := by
  constructor
  unfold lowerCaseValue
  split
  · infer_instance
  · rename_i type
    have : Yields Γ (.inTable type) := inTable_of_some
    infer_instance

instance brings_lowerCase {tag : Option TypeId} {clause : CaseClause}
    [Yields Γ (.inTables tag.toList)] :
    Brings c Γ (lowerCase walk tag clause) (fun _ => .nothing) := by
  constructor
  unfold lowerCase
  infer_instance

instance brings_lowerSwitch {init tag : Option NodeId} {clauses : List CaseClause} :
    Brings c Γ (lowerSwitch walk init tag clauses span) (fun _ => .nothing) := by
  constructor
  unfold lowerSwitch
  refine Grounds.bind (P := fun _ => .nothing) (.inScope ?_) (fun kind => inferInstance)
  infer_instance

instance brings_lowerCaseType {type : NodeId} :
    Brings c Γ (lowerCaseType walk type) (fun r => .inTables r.toList) := by
  constructor
  unfold lowerCaseType
  infer_instance

/-- The types of a case, but for those that are `nil`. -/
abbrev Fact.caseTypes (types : Option (List (Option TypeId))) : Fact :=
  each (each (fun type => .inTables type.toList)) types.toList

instance inTable_caseType {subject : TypeId} {types : Option (List (Option TypeId))}
    [hsubject : Yields Γ (.inTable subject)] [h : Yields Γ (.caseTypes types)] :
    Yields Γ (.inTable (caseType subject types)) := by
  unfold caseType
  split
  · exact ⟨fun hs => h.of hs _ List.mem_cons_self _ List.mem_cons_self _ List.mem_cons_self⟩
  · exact hsubject

instance brings_lowerTypeCase {binding : Option String} {subject : TypeId} {clause : CaseClause}
    [Yields Γ (.inTable subject)] :
    Brings c Γ (lowerTypeCase walk binding subject clause) (fun _ => .nothing) := by
  have body {Δ : Fact} {types : Option (List (Option TypeId))} [Yields Δ (.inTable subject)]
      [Yields Δ (.caseTypes types)] :
      Brings c Δ (inScope .typeSwitchCase (do
        bindVariable binding (some (caseType subject types))
        lowerStatements walk clause.body)) (fun _ => .nothing) :=
    ⟨.inScope inferInstance⟩
  constructor
  unfold lowerTypeCase
  dsimp only
  infer_instance

instance brings_lowerSubject {subject : NodeId} :
    Brings c Γ (lowerSubject walk subject) (fun r => .inTable r.2) := by
  constructor
  unfold lowerSubject
  infer_instance

instance brings_lowerTypeSwitch {init : Option NodeId} {binding : Option String}
    {subject : NodeId} {clauses : List CaseClause} :
    Brings c Γ (lowerTypeSwitch walk init binding subject clauses span) (fun _ => .nothing) := by
  constructor
  unfold lowerTypeSwitch
  refine Grounds.bind (P := fun _ => .nothing) (.inScope ?_) (fun kind => inferInstance)
  infer_instance

instance brings_lowerSelectCase {clause : SelectClause} :
    Brings c Γ (lowerSelectCase walk clause) (fun _ => .nothing) := by
  constructor
  unfold lowerSelectCase
  exact .inScope inferInstance

instance brings_lowerSelect {clauses : List SelectClause} :
    Brings c Γ (lowerSelect walk clauses span) (fun _ => .nothing) := by
  constructor
  unfold lowerSelect
  infer_instance

/-! ## Leaving -/

instance brings_lowerLaterCall {call : NodeId} {keyword : String} :
    Brings c Γ (lowerLaterCall walk call keyword) (fun _ => .nothing) := by
  constructor
  unfold lowerLaterCall
  refine (Walk.Grounds.expr Γ call .none).grounds.bind (fun operand => .skip (fun kind => ?_))
  split <;> infer_instance

instance brings_lowerReturned {values : List NodeId} {results : List TypeId}
    [Yields Γ (.inTables results)] :
    Brings c Γ (lowerReturned walk values results span) (fun _ => .nothing) := by
  constructor
  unfold lowerReturned
  split
  · infer_instance
  · split
    · infer_instance
    · split <;> infer_instance

instance brings_lowerReturn {values : List NodeId} :
    Brings c Γ (lowerReturn walk values span) (fun _ => .nothing) := by
  constructor
  unfold lowerReturn
  dsimp only
  infer_instance

instance typeless_lowerBranch (kind : BranchKind) (label : Option String) (span : Span) :
    Typeless (lowerBranch kind label span) := by
  unfold lowerBranch
  refine .before (fun s => ?_)
  dsimp only
  split <;> infer_instance

/-! ## Statements -/

instance brings_lowerStmtKind {statement : Stmt} :
    Brings c Γ (lowerStmtKind walk statement span) (fun _ => .nothing) := by
  constructor
  unfold lowerStmtKind
  split <;> infer_instance

instance brings_lowerStmt {id : NodeId} :
    Brings c Γ (lowerStmt walk id) (fun _ => .nothing) := by
  constructor
  unfold lowerStmt
  refine .read ?_
  split <;> infer_instance

end GoLowering.Lowering
