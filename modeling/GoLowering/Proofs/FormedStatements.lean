import GoLowering.Proofs.FormedBodies

/-!
# Statements and nodes

The values of an assignment or of a declaration are expressions, unless they are for no places at
all. What becomes of a statement that can stand in a header is a simple statement, or the block of a
`?` whose call has no values. What a statement declares are names of the source.
-/

namespace GoLowering.Lowering

open Surface

set_option synthInstance.maxSize 1000

variable {c : Context} {Γ : Fact} {walk : Walk} [walk.Forms c] {α : Type} {span : Span}

/-! ## Values for places -/

instance idle_failCount (left right : Nat) (span : Span) :
    Idle (failCount left right span : Lower α) := by
  unfold failCount
  infer_instance

/-- The types of an operand that is the block of a call without values are none. -/
theorem forms_spreadTypes {operand : Operand} {count : Nat} [h : Yields Γ (.operand c operand)] :
    Forms c Γ (spreadTypes operand count)
      (fun _ => .when (count ≠ 0) (.inline operand.id)) := by
  unfold spreadTypes
  refine .types (o := operand) (fun types => ?_)
  dsimp only
  have hvalue (hne : count ≠ 0 → types.get operand.type ≠ .tuple []) :
      Yields (Γ.and (.when (types.get operand.type ≠ .tuple []) (.inline operand.id)))
        (.when (count ≠ 0) (.inline operand.id)) :=
    ⟨fun hs hcount => hs.2 (hne hcount)⟩
  split
  · rename_i elements helements
    split
    · rename_i hlength
      have := hvalue (fun hcount hempty => hcount (by
        obtain rfl := Ty.tuple.inj (helements.symm.trans hempty)
        exact (beq_iff_eq.mp hlength).symm))
      infer_instance
    · infer_instance
  · rename_i hne
    have := hvalue (fun _ => hne [])
    infer_instance

instance provides_spreadTypes {operand : Operand} {count : Nat}
    [h : Yields Γ (.operand c operand)] :
    Provides c Γ (spreadTypes operand count)
      (fun _ => .when (count ≠ 0) (.inline operand.id)) :=
  ⟨forms_spreadTypes⟩

instance idle_unassignable? (pairs : List (TypeId × TypeId)) : Idle (unassignable? pairs) := by
  induction pairs with
  | nil => exact idle_reads (m := pure none)
  | cons pair pairs ih =>
    unfold unassignable?
    infer_instance

instance idle_checkAssignable (operand : Operand) (pairs : List (TypeId × TypeId)) :
    Idle (checkAssignable operand pairs) := by
  unfold checkAssignable
  refine .before (fun found => ?_)
  split <;> infer_instance

instance provides_lowerSlotValue {value : NodeId} {type : Option TypeId} :
    Provides c Γ (lowerSlotValue walk value type) (fun r => .inline r.1) := by
  constructor
  unfold lowerSlotValue
  infer_instance

/-- Values that are expressions, unless they are for no places. -/
abbrev placed (c : Context) (count : Nat) (ids : List HostId) : Fact :=
  (Fact.each (.loose c) ids).and (.when (count ≠ 0) (.each .inline ids))

theorem yields_placed {count : Nat} {ids : List HostId} [h : Yields Γ (.each .inline ids)] :
    Yields Γ (placed c count ids) :=
  ⟨fun hs => ⟨fun id hid => ⟨(h.of hs id hid).1, .inl (h.of hs id hid).2⟩, fun _ => h.of hs⟩⟩

theorem yields_placed_operand {count : Nat} {operand : Operand} [h : Yields Γ (.operand c operand)]
    [hvalue : Yields Γ (.when (count ≠ 0) (.inline operand.id))] :
    Yields Γ (placed c count [operand.id]) :=
  ⟨fun hs => ⟨List.forall_mem_singleton.mpr (yields_loose_operand.of (h.of hs)), fun hcount =>
    List.forall_mem_singleton.mpr (hvalue.of hs hcount)⟩⟩

instance provides_lowerValues {values : List NodeId} {count : Nat} {type : Option TypeId} :
    Provides c Γ (lowerValues walk values count type span) (fun r => placed c count r.1) := by
  constructor
  unfold lowerValues
  split
  · exact provides_mapM.forms.bind (fun pairs => .pure yields_placed)
  · split
    · refine (Walk.Forms.expr Γ _ _).forms.bind (fun operand => ?_)
      refine provides_spreadTypes.forms.bind (fun types => ?_)
      split
      · exact .pure yields_placed_operand
      · exact .skip (fun _ => .pure yields_placed_operand)
    · infer_instance

/-! ## Assignments -/

theorem forms_definedName {id : NodeId} (hnames : ∀ name ∈ c.unit.identifier? id, c.Declares name) :
    Forms c Γ (definedName id) (fun name => .known (c.Declares name)) := by
  unfold definedName
  refine .read ?_
  split
  · rename_i name hname
    exact .pure ⟨fun _ => hnames name hname⟩
  · infer_instance

theorem forms_nameNode {id : NodeId} {name : String} (hname : c.Declares name) :
    Forms c Γ (nameNode id name) (.declarable c) := by
  unfold nameNode
  exact .skip (fun span => forms_declarable.weaken (fun _ => inferInstance))

instance provides_nameNode {id : NodeId} {name : String} :
    Provides c Γ (nameNode id name) .inline := by
  constructor
  unfold nameNode
  infer_instance

theorem forms_lowerDefine {lhs rhs : List NodeId}
    (hlhs : ∀ id ∈ lhs, ∀ name ∈ c.unit.identifier? id, c.Declares name) :
    Forms c Γ (lowerDefine walk lhs rhs span) .inline := by
  unfold lowerDefine
  have : Yields Γ (.each (fun _ => .nothing) lhs) := ⟨fun _ _ _ => trivial⟩
  refine (Forms.mapM (fun _ => .nothing) (fun id hid Δ => forms_definedName (hlhs id hid))).bind
    (fun names => ?_)
  refine .knowing (p := ∀ name ∈ names, c.Declares name) (fun hnames => ?_)
  refine provides_lowerValues.forms.bind (fun values => .skip (fun s => ?_))
  dsimp only
  split
  · rename_i hany
    have hcount : names.length ≠ 0 := by
      rintro hnone
      rw [List.length_eq_zero_iff.mp hnone] at hany
      cases hany
    have : Yields ((Γ.and (.each (fun name => .known (c.Declares name)) names)).and
        (placed c names.length values.1)) (.each .inline values.1) :=
      ⟨fun hs => hs.2.2 hcount⟩
    refine .skip (fun _ => ?_)
    have hpairs : Yields ((Γ.and (.each (fun name => .known (c.Declares name)) names)).and
        (placed c names.length values.1)) (.each (fun _ => .nothing) (lhs.zip names)) :=
      ⟨fun _ _ _ => trivial⟩
    refine (Forms.mapM (fun _ => .nothing) (fun pair hpair Δ =>
      forms_nameNode (hnames pair.2 (List.of_mem_zip hpair).2))).bind (fun lhs => ?_)
    infer_instance
  · infer_instance

instance provides_lowerTarget {target : NodeId} :
    Provides c Γ (lowerTarget walk target) (fun r => .inline r.1) := by
  constructor
  unfold lowerTarget
  infer_instance

instance provides_lowerSlots {values : List NodeId} {slots : List (Option TypeId)} :
    Provides c Γ (lowerSlots walk values slots span) (placed c slots.length) := by
  constructor
  unfold lowerSlots
  split
  · have {Δ : Fact} {pair : NodeId × Option TypeId} : Provides c Δ
        (do return (← lowerSlotValue walk pair.1 pair.2).1 : Lower HostId) .inline :=
      ⟨inferInstance⟩
    exact provides_mapM.forms.weaken (fun _ => ⟨fun hs => yields_placed.of hs.2⟩)
  · split
    · refine (Walk.Forms.expr Γ _ _).forms.bind (fun operand => ?_)
      refine provides_spreadTypes.forms.bind (fun types => ?_)
      exact .skip (fun _ => .pure yields_placed_operand)
    · infer_instance

/-- Values are assigned to targets, or to nothing if there are no places for them. -/
theorem yields_assign_placed {count : Nat} {targets values : List HostId}
    [Yields Γ (.each .inline targets)] [h : Yields Γ (placed c count values)]
    (hcount : count = 0 → targets = []) : Yields Γ (.fits c (.assign targets .plain values)) := by
  by_cases hzero : count = 0
  · obtain rfl := hcount hzero
    have : Yields Γ (.each (.loose c) values) := ⟨fun hs => (h.of hs).1⟩
    exact yields_assign_nil
  · have : Yields Γ (.each .inline values) := ⟨fun hs => (h.of hs).2 hzero⟩
    infer_instance

instance provides_lowerAssign {lhs rhs : List NodeId} :
    Provides c Γ (lowerAssign walk lhs rhs span) .inline := by
  constructor
  unfold lowerAssign
  refine provides_mapM.forms.bind (fun pairs => ?_)
  dsimp only
  refine provides_lowerSlots.forms.bind (fun values => ?_)
  have : Yields ((Γ.and (.each (fun r => .inline r.1) pairs)).and
      (placed c pairs.unzip.2.length values)) (.fits c (.assign pairs.unzip.1 .plain values)) :=
    yields_assign_placed (h := yields_last) (fun hcount => by
      rw [List.unzip_snd, List.length_map] at hcount
      rw [List.length_eq_zero_iff.mp hcount]
      rfl)
  infer_instance

instance provides_lowerCompound {op : BinaryOp} {lhs rhs : List NodeId} :
    Provides c Γ (lowerCompound walk op lhs rhs span) .inline := by
  constructor
  unfold lowerCompound
  split
  · dsimp only
    refine (Walk.Forms.expr Γ _ _).forms.bind (fun target => ?_)
    refine provides_checkValue.forms.bind (fun _ => ?_)
    refine (Walk.Forms.expr _ _ _).forms.bind (fun value => .read ?_)
    split <;> infer_instance
  · infer_instance

instance provides_lowerIncDec {target : NodeId} {increment : Bool} :
    Provides c Γ (lowerIncDec walk target increment span) .inline := by
  constructor
  unfold lowerIncDec
  infer_instance

instance provides_lowerSend {channel value : NodeId} :
    Provides c Γ (lowerSend walk channel value span) .inline := by
  constructor
  unfold lowerSend
  refine provides_lowerByDefault.forms.bind (fun channel => .skip (fun types => ?_))
  dsimp only
  split
  · infer_instance
  · split <;> infer_instance

theorem forms_lowerAssignment {lhs rhs : List NodeId} {op : AssignOp}
    (hlhs : op = .define → ∀ id ∈ lhs, ∀ name ∈ c.unit.identifier? id, c.Declares name) :
    Forms c Γ (lowerAssignment walk lhs op rhs span) .inline := by
  unfold lowerAssignment
  split
  · exact forms_lowerDefine (hlhs rfl)
  · infer_instance
  · infer_instance

/-! ## Declarations of values and types -/

theorem forms_lowerVariables {spec : ValueSpec} {type : Option TypeId}
    (hnames : ∀ name ∈ spec.names, c.Declares name) :
    Forms c Γ (lowerVariables walk spec type span)
      (fun decl => .each .inline decl.node.toList) := by
  have hplace {Γ : Fact} {values : List HostId} [h : Yields Γ (placed c spec.names.length values)] :
      Yields Γ (.fits c (.varDecl ⟨spec.names, type, values, spec.doc⟩)) := by
    by_cases hnone : spec.names = []
    · rw [hnone]
      have : Yields Γ (.each (.loose c) values) := ⟨fun hs => (h.of hs).1⟩
      exact yields_varDecl_nil
    · have : Yields Γ (.each .inline values) :=
        ⟨fun hs => (h.of hs).2 (mt List.length_eq_zero_iff.mp hnone)⟩
      exact yields_varDecl hnames
  unfold lowerVariables
  split
  · infer_instance
  · have : Yields Γ (placed c spec.names.length []) := yields_placed
    infer_instance
  · infer_instance

instance provides_lowerConstant {type : Option TypeId} {value : NodeId} :
    Provides c Γ (lowerConstant walk type value) (fun r => .each .inline r.1.toList) := by
  constructor
  unfold lowerConstant
  refine (Walk.Forms.expr Γ _ _).forms.bind (fun operand => ?_)
  split
  · infer_instance
  · infer_instance
  · rename_i hconstant
    have := inline_of_constant (c := c) (Γ := Γ.and (.operand c operand)) (o := operand)
      (hconstant ▸ rfl)
    refine .skip (fun isBig => ?_)
    dsimp only
    split <;> infer_instance

theorem forms_lowerConstants {spec : ValueSpec} {type : Option TypeId}
    (hnames : ∀ name ∈ spec.names, c.Declares name) :
    Forms c Γ (lowerConstants walk spec type span)
      (fun decl => .each .inline decl.node.toList) := by
  unfold lowerConstants
  split
  · infer_instance
  · refine provides_mapM.forms.bind (fun constants => ?_)
    dsimp only
    split
    · infer_instance
    · generalize hemitted : List.filterMap _ (spec.names.zip constants) = emitted
      have hmem {name : String} {id : HostId} (h : (name, id) ∈ emitted) :
          ∃ constant ∈ constants, name ∈ spec.names ∧ id ∈ constant.1 := by
        rw [← hemitted] at h
        obtain ⟨⟨found, constant⟩, hpair, hsome⟩ := List.mem_filterMap.mp h
        obtain ⟨hname, hconstant⟩ := List.of_mem_zip hpair
        obtain ⟨id', hid, heq⟩ := Option.map_eq_some_iff.mp hsome
        obtain ⟨rfl, rfl⟩ := Prod.mk.inj heq
        exact ⟨constant, hconstant, hname, hid⟩
      have hvalues : Yields (Γ.and (.each (fun r : Option HostId × Symbol =>
          .each .inline r.1.toList) constants)) (.each .inline emitted.unzip.2) := by
        refine ⟨fun hs id hid => ?_⟩
        rw [List.unzip_snd] at hid
        obtain ⟨⟨name, id⟩, hpair, rfl⟩ := List.mem_map.mp hid
        obtain ⟨constant, hconstant, -, hid⟩ := hmem hpair
        exact hs.2 constant hconstant id (Option.mem_toList.mpr hid)
      have : Yields (Γ.and (.each (fun r : Option HostId × Symbol =>
          .each .inline r.1.toList) constants))
          (.fits c (.constDecl ⟨emitted.unzip.1, type, emitted.unzip.2, spec.doc⟩)) := by
        refine yields_constDecl (fun name hname => ?_)
        rw [List.unzip_fst] at hname
        obtain ⟨⟨name, id⟩, hpair, rfl⟩ := List.mem_map.mp hname
        obtain ⟨-, -, hname, -⟩ := hmem hpair
        exact hnames name hname
      infer_instance

theorem forms_lowerValueSpec {spec : ValueSpec} {isConstant : Bool}
    (hnames : ∀ name ∈ spec.names, c.Declares name) :
    Forms c Γ (lowerValueSpec walk spec isConstant span)
      (fun decl => .each .inline decl.node.toList) := by
  unfold lowerValueSpec
  refine provides_optionMapM.forms.bind (fun type => ?_)
  split
  · exact forms_lowerConstants hnames
  · exact forms_lowerVariables hnames

theorem forms_lowerLocalValues {spec : ValueSpec} {isConstant : Bool}
    (hnames : ∀ name ∈ spec.names, c.Declares name) :
    Forms c Γ (lowerLocalValues walk spec isConstant span)
      (fun node => .each .inline node.toList) := by
  unfold lowerLocalValues
  exact (forms_lowerValueSpec hnames).bind (fun decl => inferInstance)

instance provides_lowerLocalDefinition {name : String} {type : NodeId} {isAlias : Bool} :
    Provides c Γ (lowerLocalDefinition walk name type isAlias) (fun _ => .nothing) := by
  constructor
  unfold lowerLocalDefinition
  infer_instance

theorem forms_lowerLocalType {name : String} {type : NodeId} {isAlias : Bool}
    {doc : Option String} (hname : c.Declares name) :
    Forms c Γ (lowerLocalType walk name type isAlias doc span) .node := by
  have {Γ : Fact} {type : TypeId} : Yields Γ (.fits c (.typeDecl name type isAlias doc)) :=
    yields_typeDecl hname
  unfold lowerLocalType
  infer_instance

/-! ## Conditions and loops -/

instance provides_lowerElse {branch : NodeId} : Provides c Γ (lowerElse walk branch) .node := by
  constructor
  unfold lowerElse
  refine .read ?_
  split
  · refine provides_lowerStatement.forms.bind (fun statements => ?_)
    split
    · exact .pure ⟨fun hs => hs.2 _ List.mem_cons_self⟩
    · infer_instance
  · infer_instance

instance idle_hoistedCount : Idle hoistedCount := by
  unfold hoistedCount
  infer_instance

section

variable {init : Option NodeId}
  (hinit : c.unit.ShortHeaders → ∀ id ∈ init.toList, c.unit.isShort id = true)
include hinit

theorem forms_lowerIf {condition thenBlock : NodeId} {elseBranch : Option NodeId} :
    Forms c Γ (lowerIf walk init condition thenBlock elseBranch span) .node := by
  unfold lowerIf
  refine Forms.bind (P := .fits c) (.inScope ?_) (fun kind => forms_place)
  refine (forms_headers hinit).bind (fun init => ?_)
  refine provides_lowerCondition.forms.bind (fun condition => ?_)
  refine provides_lowerBody.forms.bind (fun thenBranch => ?_)
  refine provides_optionMapM.forms.bind (fun elseBranch => ?_)
  infer_instance

theorem forms_lowerFor {condition post : Option NodeId} {body : NodeId}
    (hpost : c.unit.ShortHeaders → ∀ id ∈ post.toList, c.unit.isShort id = true) :
    Forms c Γ (lowerFor walk init condition post body span) .node := by
  unfold lowerFor
  refine Forms.bind (P := .fits c) (.inScope ?_) (fun kind => forms_place)
  refine (forms_headers hinit).bind (fun init => .skip (fun before => ?_))
  refine provides_optionMapM.forms.bind (fun condition => ?_)
  refine (forms_headers hpost).bind (fun post => .skip (fun count => ?_))
  infer_instance

end

/-! ## Ranges -/

instance provides_lowerSource {source : NodeId} :
    Provides c Γ (lowerSource walk source) (fun r => .inline r.1) := by
  constructor
  unfold lowerSource
  infer_instance

theorem forms_rangeName {id : NodeId} (hnames : ∀ name ∈ c.unit.identifier? id, c.Declares name) :
    Forms c Γ (rangeName id) (fun name => .known (c.Declares name)) := by
  unfold rangeName
  refine .read ?_
  split
  · rename_i name hname
    exact .pure ⟨fun _ => hnames name hname⟩
  · infer_instance

theorem forms_rangeNames {id : Option NodeId}
    (hnames : ∀ i ∈ id, ∀ name ∈ c.unit.identifier? i, c.Declares name) :
    Forms c Γ (id.mapM rangeName) (fun name => .known (∀ n ∈ name, c.Declares n)) := by
  cases id with
  | none => exact .pure ⟨fun _ => nofun⟩
  | some id =>
    exact forms_map (h := (forms_rangeName (hnames id rfl)).bind (fun name =>
      .pure ⟨fun hs n hn => Option.some.inj hn ▸ hs.2⟩))

instance provides_lowerRangeTarget {id : NodeId} :
    Provides c Γ (lowerRangeTarget walk id) .inline := by
  constructor
  unfold lowerRangeTarget
  infer_instance

instance provides_lowerRangeAssign {key value : Option NodeId} {source : HostId}
    {plan : RangePlan} {body : NodeId} [Yields Γ (.inline source)] :
    Provides c Γ (lowerRangeAssign walk key value source plan body span) .node := by
  constructor
  unfold lowerRangeAssign
  infer_instance

theorem forms_lowerRangeDefine {key value : Option NodeId} {source : HostId} {plan : RangePlan}
    {body : NodeId} [Yields Γ (.inline source)]
    (hkey : ∀ id ∈ key, ∀ name ∈ c.unit.identifier? id, c.Declares name)
    (hvalue : ∀ id ∈ value, ∀ name ∈ c.unit.identifier? id, c.Declares name) :
    Forms c Γ (lowerRangeDefine walk key value source plan body span) .node := by
  unfold lowerRangeDefine
  refine (forms_rangeNames hkey).bind (fun key => ?_)
  refine .knowing (p := ∀ name ∈ key, c.Declares name) (fun hkey => ?_)
  refine (forms_rangeNames hvalue).bind (fun value => ?_)
  refine .knowing (p := ∀ name ∈ value, c.Declares name) (fun hvalue => ?_)
  refine Forms.bind (.inScope (.skip (fun _ => provides_lowerBlockStatements.forms)))
    (fun statements => ?_)
  exact forms_emitRange hkey hvalue

theorem forms_lowerRange {key value : Option NodeId} {define : Bool} {source body : NodeId}
    (hnames : define = true → ∀ id ∈ key.toList ++ value.toList,
      ∀ name ∈ c.unit.identifier? id, c.Declares name) :
    Forms c Γ (lowerRange walk key value define source body span) .node := by
  unfold lowerRange
  refine provides_lowerSource.forms.bind (fun source => ?_)
  dsimp only
  split
  · infer_instance
  · rename_i hdefine
    have hvariables : ∀ id ∈ key.toList ++ value.toList,
        ∀ name ∈ c.unit.identifier? id, c.Declares name := by
      cases define with
      | true => exact hnames rfl
      | false =>
        rw [Bool.not_false, Bool.true_and, Bool.or_eq_true, not_or, Option.not_isSome_iff_eq_none,
          Option.not_isSome_iff_eq_none] at hdefine
        rw [hdefine.1, hdefine.2]
        nofun
    obtain ⟨hkey, hvalue⟩ := List.forall_mem_append.mp hvariables
    exact forms_lowerRangeDefine (fun id hid => hkey id (Option.mem_toList.mpr hid))
      (fun id hid => hvalue id (Option.mem_toList.mpr hid))

theorem forms_lowerPhraseBody {clause : ForClause} {body : NodeId}
    (hshort : c.unit.ShortHeaders → ∀ id ∈ clause.init.toList, c.unit.isShort id = true) :
    Forms c Γ (lowerPhraseBody walk clause body) (.each .node) := by
  have {Γ : Fact} : Provides c Γ (lowerPhraseHeader walk clause)
      (fun r => ((Fact.each .node r.1.toList).and (.each (.loose c) r.1.toList)).and
        (.each .inline r.2.toList)) := by
    constructor
    unfold lowerPhraseHeader
    refine (forms_headers hshort).bind (fun init => ?_)
    infer_instance
  unfold lowerPhraseBody
  refine provides_hoisting.forms.bind (fun (hoisted, init, guard) => ?_)
  cases guard <;> infer_instance

theorem forms_lowerForPhrase {clause : ForClause} {body : NodeId}
    (hnames : ∀ name ∈ clause.names, c.Declares name)
    (hshort : c.unit.ShortHeaders → ∀ id ∈ clause.init.toList, c.unit.isShort id = true) :
    Forms c Γ (lowerForPhrase walk clause body span) .node := by
  obtain ⟨hkey, hvalue⟩ := List.forall_mem_append.mp hnames
  unfold lowerForPhrase
  refine provides_lowerSource.forms.bind (fun source => ?_)
  dsimp only
  refine Forms.bind (.inScope (.skip (fun _ => forms_lowerPhraseBody hshort)))
    (fun statements => ?_)
  exact forms_emitRange (fun name hname => hkey name (Option.mem_toList.mpr hname))
    (fun name hname => hvalue name (Option.mem_toList.mpr hname))

/-! ## Switches -/

instance provides_lowerCaseValue {tag : Option TypeId} {value : NodeId} :
    Provides c Γ (lowerCaseValue walk tag value) .inline := by
  constructor
  unfold lowerCaseValue
  split <;> infer_instance

instance provides_lowerCase {tag : Option TypeId} {clause : CaseClause} :
    Provides c Γ (lowerCase walk tag clause) .hostCase := by
  constructor
  unfold lowerCase
  dsimp only
  split <;> infer_instance

theorem forms_lowerSwitch {init tag : Option NodeId} {clauses : List CaseClause}
    (hinit : c.unit.ShortHeaders → ∀ id ∈ init.toList, c.unit.isShort id = true) :
    Forms c Γ (lowerSwitch walk init tag clauses span) .node := by
  unfold lowerSwitch
  refine Forms.bind (P := .fits c) (.inScope ?_) (fun kind => forms_place)
  refine (forms_headers hinit).bind (fun init => ?_)
  refine provides_optionMapM.forms.bind (fun tag => ?_)
  refine provides_mapM.forms.bind (fun cases => ?_)
  infer_instance

instance provides_lowerTypeCase {binding : Option String} {subject : TypeId}
    {clause : CaseClause} : Provides c Γ (lowerTypeCase walk binding subject clause) .typeCase := by
  have {Γ : Fact} {type : NodeId} : Provides c Γ (lowerCaseType walk type) (fun _ => .nothing) := by
    constructor
    unfold lowerCaseType
    infer_instance
  have {Γ : Fact} {types : Option (List (Option TypeId))} :
      Provides c Γ (inScope .typeSwitchCase (do
        bindVariable binding (some (caseType subject types))
        lowerStatements walk clause.body)) (.each .node) :=
    ⟨.inScope (.skip (fun _ => provides_lowerStatements.forms))⟩
  constructor
  unfold lowerTypeCase
  dsimp only
  split <;> infer_instance

instance provides_lowerSubject {subject : NodeId} :
    Provides c Γ (lowerSubject walk subject) (fun r => .inline r.1) := by
  constructor
  unfold lowerSubject
  infer_instance

theorem forms_lowerTypeSwitch {init : Option NodeId} {binding : Option String} {subject : NodeId}
    {clauses : List CaseClause} (hbinding : ∀ name ∈ binding.toList, c.Declares name)
    (hinit : c.unit.ShortHeaders → ∀ id ∈ init.toList, c.unit.isShort id = true) :
    Forms c Γ (lowerTypeSwitch walk init binding subject clauses span) .node := by
  have {Γ : Fact} {init : Option HostId} {subject : HostId} {cases : List HostTypeCase}
      [Yields Γ (.each (.loose c) init.toList)] [Yields Γ (.inline subject)]
      [Yields Γ (.each .typeCase cases)] :
      Yields Γ (.fits c (.typeSwitch init binding subject cases)) :=
    yields_typeSwitch hbinding
  unfold lowerTypeSwitch
  refine Forms.bind (P := .fits c) (.inScope ?_) (fun kind => forms_place)
  refine (forms_headers hinit).bind (fun init => ?_)
  refine provides_lowerSubject.forms.bind (fun subject => ?_)
  refine provides_mapM.forms.bind (fun cases => ?_)
  infer_instance

theorem forms_lowerSelectCase {clause : SelectClause}
    (hcomm : c.unit.ShortHeaders → ∀ id ∈ clause.comm.toList, c.unit.isShort id = true) :
    Forms c Γ (lowerSelectCase walk clause) (.selectCase c) := by
  unfold lowerSelectCase
  exact .inScope ((forms_headers hcomm).bind (fun comm => inferInstance))

theorem forms_lowerSelect {clauses : List SelectClause}
    (hcomm : c.unit.ShortHeaders → ∀ clause ∈ clauses, ∀ id ∈ clause.comm.toList,
      c.unit.isShort id = true) :
    Forms c Γ (lowerSelect walk clauses span) .node := by
  have : Yields Γ (.each (fun _ => .nothing) clauses) := ⟨fun _ _ _ => trivial⟩
  unfold lowerSelect
  refine (Forms.mapM (fun _ => .nothing) (fun clause hclause Δ => forms_lowerSelectCase
    (fun h => hcomm h clause hclause))).bind (fun cases => ?_)
  infer_instance

/-! ## Leaving -/

/-- A call that is made later is a call. -/
instance provides_lowerLaterCall {call : NodeId} {keyword : String} :
    Provides c Γ (lowerLaterCall walk call keyword) .inline := by
  constructor
  unfold lowerLaterCall
  refine (Walk.Forms.expr Γ _ _).forms.bind (fun operand => ?_)
  refine .kindOf (o := operand) (fun kind => ?_)
  split
  · exact .pure ⟨fun hs => hs.2 nofun⟩
  · infer_instance

instance provides_lowerReturned {values : List NodeId} {results : List TypeId} :
    Provides c Γ (lowerReturned walk values results span) (.each .inline) := by
  constructor
  unfold lowerReturned
  split
  · infer_instance
  · split
    · infer_instance
    · split
      · rename_i hresults _ _
        refine (forms_lowerAllResults (of_decide_eq_true hresults)).bind (fun id => ?_)
        infer_instance
      · infer_instance

instance provides_lowerReturn {values : List NodeId} :
    Provides c Γ (lowerReturn walk values span) .inline := by
  constructor
  unfold lowerReturn
  infer_instance

instance provides_lowerBranch {kind : BranchKind} {label : Option String} :
    Provides c Γ (lowerBranch kind label span) .inline := by
  constructor
  unfold lowerBranch
  refine .skip (fun s => ?_)
  dsimp only
  split <;> infer_instance

/-! ## Statements -/

section

variable {id : NodeId} {node : HostId}

instance yields_stated [h : Yields Γ (.simple c node)] : Yields Γ (.statement c id node) :=
  ⟨fun hs _ => h.of hs⟩

/-- Of what becomes of a statement that stands in no header nothing is asked. -/
theorem yields_stated_long (h : c.unit.isShort id = false) : Yields Γ (.statement c id node) :=
  ⟨fun _ hshort => absurd hshort (h ▸ Bool.false_ne_true)⟩

/-- What becomes of a statement that stands in no header is there. -/
theorem forms_long {part : Lower HostId} (h : c.unit.isShort id = false)
    (hpart : Forms c Γ part .node) :
    Forms c Γ (do return some (← part))
      (fun r => (Fact.each .node r.toList).and (.each (.statement c id) r.toList)) := by
  have {Γ : Fact} {node : HostId} : Yields Γ (.statement c id node) := yields_stated_long h
  exact hpart.bind (fun _ => inferInstance)

theorem forms_short {part : Lower HostId} (hpart : Forms c Γ part .inline) :
    Forms c Γ (do return some (← part))
      (fun r => (Fact.each .node r.toList).and (.each (.statement c id) r.toList)) :=
  hpart.bind (fun _ => inferInstance)

theorem forms_lowerStmtKind {statement : Stmt} (hstmt : c.unit.stmt? id = some statement) :
    Forms c Γ (lowerStmtKind walk statement span)
      (fun r => (Fact.each .node r.toList).and (.each (.statement c id) r.toList)) := by
  have hnames : ∀ name ∈ c.unit.stmtNames statement, c.Declares name := fun name hname =>
    .of_stmt hstmt hname
  have hheaders : c.unit.ShortHeaders → ∀ part ∈ SourceUnit.headersOf statement,
      c.unit.isShort part = true := fun h part hpart =>
    h id part ((SourceUnit.namesAt_stmt hstmt).2.symm ▸ hpart)
  have hidentifiers {ids : List NodeId} (h : ∀ name ∈ ids.filterMap c.unit.identifier?,
      c.Declares name) : ∀ id ∈ ids, ∀ name ∈ c.unit.identifier? id, c.Declares name :=
    fun id hid name hname => h name (List.mem_filterMap.mpr ⟨id, hid, hname⟩)
  have hshort : c.unit.isShort id = statement.isShort := by
    rw [SourceUnit.isShort, hstmt, Option.all_some]
  have hvalues {spec : ValueSpec} {isConstant : Bool} (h : ∀ name ∈ spec.names, c.Declares name) :
      Forms c Γ (lowerLocalValues walk spec isConstant span)
        (fun r => (Fact.each .node r.toList).and (.each (.statement c id) r.toList)) :=
    (forms_lowerLocalValues h).weaken (fun node => by cases node <;> infer_instance)
  cases statement with
  | expression value =>
    refine (Walk.Forms.expr Γ _ _).forms.bind (fun operand => ?_)
    have : Yields (Γ.and (.operand c operand)) (.operand c { operand with span }) :=
      ⟨fun hs => hs.2⟩
    exact provides_expressionStatement.forms.bind (fun node => inferInstance)
  | assign lhs op rhs =>
    exact forms_short (forms_lowerAssignment (fun hop => hidentifiers (by subst hop; exact hnames)))
  | incDec target increment => exact forms_short provides_lowerIncDec.forms
  | send channel value => exact forms_short provides_lowerSend.forms
  | varDecl spec => exact hvalues hnames
  | constDecl spec => exact hvalues hnames
  | typeDecl name type isAlias doc =>
    exact forms_long hshort (forms_lowerLocalType (hnames name List.mem_cons_self))
  | function decl =>
    unfold lowerStmtKind
    infer_instance
  | importPackage path localName =>
    unfold lowerStmtKind
    infer_instance
  | block statements =>
    unfold lowerStmtKind
    refine provides_inScope.forms.bind (fun ids => ?_)
    exact forms_long hshort provides_place.forms
  | ifElse init condition thenBlock elseBranch =>
    exact forms_long hshort (forms_lowerIf hheaders)
  | loop init condition post body =>
    exact forms_long hshort (forms_lowerFor
      (fun h part hpart => hheaders h part (List.mem_append_left _ hpart))
      (fun h part hpart => hheaders h part (List.mem_append_right _ hpart)))
  | range key value define source body =>
    exact forms_long hshort (forms_lowerRange
      (fun hdefine => hidentifiers (by subst hdefine; exact hnames)))
  | forPhrase clause body => exact forms_long hshort (forms_lowerForPhrase hnames hheaders)
  | switch init tag clauses => exact forms_long hshort (forms_lowerSwitch hheaders)
  | typeSwitch init binding subject clauses =>
    exact forms_long hshort (forms_lowerTypeSwitch hnames hheaders)
  | select clauses =>
    exact forms_long hshort (forms_lowerSelect (fun h clause hclause part hpart =>
      hheaders h part (List.mem_flatMap.mpr ⟨clause, hclause, hpart⟩)))
  | go call =>
    unfold lowerStmtKind
    infer_instance
  | defer call =>
    unfold lowerStmtKind
    infer_instance
  | ret values => exact forms_short provides_lowerReturn.forms
  | branch kind label => exact forms_short provides_lowerBranch.forms
  | labeled label body =>
    refine (Walk.Forms.statement Γ body).forms.bind (fun node => ?_)
    exact forms_long hshort provides_place.forms

instance provides_lowerStmt :
    Provides c Γ (lowerStmt walk id)
      (fun r => (Fact.each .node r.toList).and (.each (.statement c id) r.toList)) := by
  constructor
  unfold lowerStmt
  refine .read ?_
  split
  · rename_i hstmt
    exact .skip (fun span => forms_lowerStmtKind hstmt)
  · infer_instance

end

end GoLowering.Lowering
