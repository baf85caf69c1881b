import Mathlib.Data.List.Lex
import GoLowering.Proofs.Comprehensions
import GoLowering.Proofs.HostComparisons

/-!
# Promoted fields

The fields of embedded types are found through paths of embedded fields (`TypeTable.Path`). The
search goes down one embedded field before it looks at the next one: it finds the field at the
first path in the order of lists (`fieldType?_eq_some`), which need not be the shortest one.
-/

namespace GoLowering

namespace TypeTable

variable {t : TypeTable} {type inner : TypeId} {fields : List Field}
  {structs : TypeId → List Field → Prop}

/-! ## Structs -/

/-- A struct with these fields, or a pointer to one, however many definitions lead to it. -/
inductive StructOf (t : TypeTable) : TypeId → List Field → Prop
  | direct {type base : TypeId} {n : Nat} {fields : List Field} (h : t.Leads type n base)
      (hbase : t.get base = .struct fields) : StructOf t type fields
  | pointer {type base target inner : TypeId} {n m : Nat} {fields : List Field}
      (h : t.Leads type n base) (hbase : t.get base = .pointer target)
      (htarget : t.Leads target m inner)
      (hinner : t.get inner = .struct fields) : StructOf t type fields

theorem StructOf.unique {others : List Field} (h : t.StructOf type fields)
    (h' : t.StructOf type others) : fields = others := by
  cases h with
  | direct h hbase =>
    cases h' with
    | direct h' hbase' =>
      obtain ⟨-, rfl⟩ := h.unique h'
      exact Ty.struct.inj (hbase.symm.trans hbase')
    | pointer h' hbase' =>
      obtain ⟨-, rfl⟩ := h.unique h'
      cases hbase.symm.trans hbase'
  | pointer h hbase htarget hinner =>
    cases h' with
    | direct h' hbase' =>
      obtain ⟨-, rfl⟩ := h.unique h'
      cases hbase.symm.trans hbase'
    | pointer h' hbase' htarget' hinner' =>
      obtain ⟨-, rfl⟩ := h.unique h'
      cases hbase.symm.trans hbase'
      obtain ⟨-, rfl⟩ := htarget.unique htarget'
      exact Ty.struct.inj (hinner.symm.trans hinner')

/-- The fields that a search looks through, which are those of a struct that few definitions
lead to. -/
def fields? (t : TypeTable) (type : TypeId) : Option (List Field) :=
  match t.shape type with
  | .struct fields => some fields
  | .pointer target =>
    match t.shape target with
    | .struct fields => some fields
    | _ => none
  | _ => none

theorem HasInvalid.structOf (ht : t.HasInvalid) (h : t.fields? type = some fields) :
    t.StructOf type fields := by
  unfold fields? at h
  split at h
  · rename_i hshape
    cases h
    obtain ⟨n, -, hleads⟩ := ht.leads_of_shape (by rw [hshape]; exact Ty.noConfusion)
    exact .direct hleads hshape
  · rename_i hshape
    split at h
    · rename_i hinner
      cases h
      obtain ⟨n, -, hleads⟩ := ht.leads_of_shape (by rw [hshape]; exact Ty.noConfusion)
      obtain ⟨m, -, htarget⟩ := ht.leads_of_shape (by rw [hinner]; exact Ty.noConfusion)
      exact .pointer hleads hshape htarget hinner
    · cases h
  · cases h

/-! ## Paths -/

/-- A path through embedded fields, of which it has the positions among all embedded fields of
their struct. -/
inductive Path (structs : TypeId → List Field → Prop) : TypeId → List Nat → TypeId → Prop
  | here {type : TypeId} : Path structs type [] type
  | through {type inner : TypeId} {fields : List Field} {i : Nat} {field : Field} {path : List Nat}
      (h : structs type fields) (hfield : (fields.filter (·.embedded))[i]? = some field)
      (rest : Path structs field.type path inner) : Path structs type (i :: path) inner

theorem Path.mono {others : TypeId → List Field → Prop} {path : List Nat}
    (h : ∀ type fields, structs type fields → others type fields)
    (hpath : Path structs type path inner) : Path others type path inner := by
  induction hpath with
  | here => exact .here
  | through hfields hfield _ ih => exact .through (h _ _ hfields) hfield ih

theorem Path.unique {path : List Nat} {other : TypeId}
    (hstructs : ∀ type fields others, structs type fields → structs type others → fields = others)
    (h : Path structs type path inner) (h' : Path structs type path other) : inner = other := by
  induction h with
  | here =>
    cases h'
    rfl
  | through hfields hfield _ ih =>
    cases h' with
    | through hfields' hfield' rest' =>
      cases hstructs _ _ _ hfields hfields'
      cases hfield.symm.trans hfield'
      exact ih rest'

end TypeTable

namespace Lowering

open TypeTable

variable {types : TypeTable} {name : String} {depth : Nat} {type found : TypeId}
  {fields : List Field} {path : List Nat}

/-- The struct at the end of a path has a field of this name, of this type. -/
def FieldAt (types : TypeTable) (name : String) (type : TypeId) (path : List Nat)
    (found : TypeId) : Prop :=
  ∃ inner fields field, Path (fun type fields => types.fields? type = some fields) type path inner ∧
    types.fields? inner = some fields ∧ fields.find? (·.name == name) = some field ∧
    found = field.type

/-- Of all fields of this name on paths of fewer than `depth` embedded fields, the one whose path
comes first in the order of lists. -/
structure FirstField (types : TypeTable) (name : String) (depth : Nat) (type : TypeId)
    (path : List Nat) (found : TypeId) : Prop where
  at_path : FieldAt types name type path found
  within : path.length < depth
  first : ∀ other t, FieldAt types name type other t → other.length < depth → ¬ other < path

theorem FieldAt.unique {other : TypeId} (h : FieldAt types name type path found)
    (h' : FieldAt types name type path other) : found = other := by
  obtain ⟨inner, fields, field, hpath, hfields, hfield, rfl⟩ := h
  obtain ⟨inner', fields', field', hpath', hfields', hfield', rfl⟩ := h'
  cases hpath.unique (fun _ _ _ h h' => Option.some.inj (h.symm.trans h')) hpath'
  cases hfields.symm.trans hfields'
  cases hfield.symm.trans hfield'
  rfl

theorem FirstField.unique {otherPath : List Nat} {other : TypeId}
    (h : FirstField types name depth type path found)
    (h' : FirstField types name depth type otherPath other) : found = other := by
  have hpaths : path = otherPath := by
    rcases lt_trichotomy path otherPath with hlt | heq | hlt
    · exact absurd hlt (h'.first _ _ h.at_path h.within)
    · exact heq
    · exact absurd hlt (h.first _ _ h'.at_path h'.within)
  subst hpaths
  exact h.at_path.unique h'.at_path

theorem FieldAt.exists_fields (h : FieldAt types name type path found) :
    ∃ fields, types.fields? type = some fields := by
  obtain ⟨inner, fields, field, hpath, hfields, -⟩ := h
  cases hpath with
  | here => exact ⟨fields, hfields⟩
  | through hfields' => exact ⟨_, hfields'⟩

theorem fieldAt_nil_iff (hfields : types.fields? type = some fields) :
    FieldAt types name type [] found ↔
      (fields.find? (·.name == name)).map (·.type) = some found := by
  constructor
  · rintro ⟨inner, others, field, hpath, hothers, hfield, rfl⟩
    cases hpath
    cases hfields.symm.trans hothers
    rw [hfield]
    rfl
  · intro h
    obtain ⟨field, hfield, rfl⟩ := Option.map_eq_some_iff.mp h
    exact ⟨type, fields, field, .here, hfields, hfield, rfl⟩

theorem fieldAt_cons_iff {i : Nat} (hfields : types.fields? type = some fields) :
    FieldAt types name type (i :: path) found ↔
      ∃ field, (fields.filter (·.embedded))[i]? = some field ∧
        FieldAt types name field.type path found := by
  constructor
  · rintro ⟨inner, others, field, hpath, hothers, hfield, rfl⟩
    cases hpath with
    | through hfields' hembedded rest =>
      cases hfields.symm.trans hfields'
      exact ⟨_, hembedded, inner, others, field, rest, hothers, hfield, rfl⟩
  · rintro ⟨embedded, hembedded, inner, others, field, hpath, hothers, hfield, rfl⟩
    exact ⟨inner, others, field, .through hfields hembedded hpath, hothers, hfield, rfl⟩

/-! ## The search -/

/-- One level of the search. -/
theorem fieldType?_succ :
    fieldType? types name (depth + 1) type =
      (types.fields? type).bind fun fields =>
        ((fields.find? (·.name == name)).map (·.type)).or
          ((fields.filter (·.embedded)).findSome? fun field =>
            fieldType? types name depth field.type) := by
  rw [fieldType?, fields?]
  cases types.shape type with
  | struct fields =>
    dsimp only [Option.bind_some]
    cases fields.find? (·.name == name) <;> rfl
  | pointer target =>
    dsimp only
    cases types.shape target with
    | struct fields =>
      dsimp only [Option.bind_some]
      cases fields.find? (·.name == name) <;> rfl
    | _ => rfl
  | _ => rfl

/-- What the search does not find is not there. -/
theorem fieldType?_eq_none (h : fieldType? types name depth type = none)
    (hat : FieldAt types name type path found) : depth ≤ path.length := by
  induction depth generalizing type path with
  | zero => exact Nat.zero_le _
  | succ depth ih =>
    obtain ⟨fields, hfields⟩ := hat.exists_fields
    rw [fieldType?_succ, hfields, Option.bind_some, Option.or_eq_none_iff] at h
    cases path with
    | nil => cases h.1.symm.trans ((fieldAt_nil_iff hfields).mp hat)
    | cons i path =>
      obtain ⟨field, hfield, hrest⟩ := (fieldAt_cons_iff hfields).mp hat
      have hnone := List.findSome?_eq_none_iff.mp h.2 field (List.mem_of_getElem? hfield)
      exact Nat.succ_le_succ (ih hnone hrest)

theorem fieldType?_eq_some (h : fieldType? types name depth type = some found) :
    ∃ path, FirstField types name depth type path found := by
  induction depth generalizing type found with
  | zero => cases h
  | succ depth ih =>
    rw [fieldType?_succ] at h
    obtain ⟨fields, hfields, h⟩ := Option.bind_eq_some_iff.mp h
    rcases Option.or_eq_some_iff.mp h with hown | ⟨hown, h⟩
    · exact ⟨[], (fieldAt_nil_iff hfields).mpr hown, Nat.succ_pos _,
        fun other _ _ _ => List.not_lt_nil other⟩
    · obtain ⟨before, embedded, after, hembedded, hfound, hbefore⟩ :=
        List.findSome?_eq_some_iff.mp h
      obtain ⟨path, hfirst⟩ := ih hfound
      have hat : (fields.filter (·.embedded))[before.length]? = some embedded := by
        rw [hembedded, List.getElem?_append_right (Nat.le_refl _), Nat.sub_self]
        rfl
      refine ⟨before.length :: path, (fieldAt_cons_iff hfields).mpr ⟨embedded, hat, hfirst.at_path⟩,
        Nat.succ_lt_succ hfirst.within, ?_⟩
      intro other t hother hlength hlt
      cases other with
      | nil => cases hown.symm.trans ((fieldAt_nil_iff hfields).mp hother)
      | cons i other =>
        obtain ⟨field, hfield, hrest⟩ := (fieldAt_cons_iff hfields).mp hother
        have hother' : other.length < depth := Nat.lt_of_succ_lt_succ hlength
        rcases List.cons_lt_cons_iff.mp hlt with hbefore' | ⟨rfl, hrestlt⟩
        · -- An earlier embedded field has been searched without success.
          rw [hembedded, List.getElem?_append_left hbefore'] at hfield
          have hnone := hbefore field (List.mem_of_getElem? hfield)
          exact absurd (fieldType?_eq_none hnone hrest) (Nat.not_le_of_lt hother')
        · cases hat.symm.trans hfield
          exact hfirst.first other t hrest hother' hrestlt

/-! ## The rule of the host -/

variable {c : Context} {s s₁ s' final : State}

/-- A type has a field or a method of its own of this name. Methods are declared for a type, or else
those of an interface. -/
inductive HasMember (env : Environment) (s : State) (type : TypeId) (name : String) : TypeId → Prop
  | field {fields : List Field} {field : Field} (h : s.types.StructOf type fields)
      (hfield : field ∈ fields) (hname : field.name = name) : HasMember env s type name field.type
  | method {method : Method} (h : s.method? env type name = some method) :
      HasMember env s type name method.sig
  | interface {n : Nat} {base : TypeId} {methods : List InterfaceMethod}
      {method : InterfaceMethod}
      (h : s.types.Leads type n base) (hbase : s.types.get base = .interface methods)
      (hmethod : method ∈ methods) (hname : method.name = name) :
      HasMember env s type name method.sig

/-- The host selects the member at the end of the path: there is none of this name at the end of a
shorter path, and no other one at the end of a path of the same length. -/
structure HostSelects (env : Environment) (s : State) (type : TypeId) (name : String)
    (path : List Nat) (member : TypeId) : Prop where
  at_path : ∃ inner, Path s.types.StructOf type path inner ∧ HasMember env s inner name member
  shallowest : ∀ other inner t, Path s.types.StructOf type other inner →
    HasMember env s inner name t → path.length ≤ other.length
  only : ∀ other inner t, Path s.types.StructOf type other inner → HasMember env s inner name t →
    other.length = path.length → other = path ∧ t = member

theorem FieldAt.hasMember (env : Environment) (ht : s.types.HasInvalid)
    (h : FieldAt s.types name type path found) :
    ∃ inner, Path s.types.StructOf type path inner ∧ HasMember env s inner name found := by
  obtain ⟨inner, fields, field, hpath, hfields, hfield, rfl⟩ := h
  refine ⟨inner, hpath.mono fun _ _ h => ht.structOf h, .field (ht.structOf hfields)
    (List.mem_of_find?_eq_some hfield) ?_⟩
  simpa using List.find?_some hfield

/-! ## Selectors -/

/-- A value is the member of an object, or what it gives if it is called without arguments. -/
inductive SelectsAs (s s' : State) (object : HostId) (operand : Operand) (emitted : String)
    (type : TypeId) : Prop
  | selector (h : s'.tree.kind operand.id = .selector object emitted) (htype : operand.type = type)
  | called {selector : HostId} {sig : Signature}
      (hcall : s'.tree.kind operand.id = .call selector [] false)
      (hselector : s'.tree.kind selector = .selector object emitted)
      (hsig : s.types.signature? type = some sig) (hparams : sig.params = [])
      (hresults : sig.results = [operand.type] ∨ s'.types.shape operand.type = .tuple sig.results)

theorem StructOf.get_ne (h : s.types.StructOf type fields) :
    s.types.get type ≠ .invalid ∧ ∀ kind, s.types.get type ≠ .basic kind := by
  have hleads : ∀ {n base}, s.types.Leads type n base → s.types.get base ≠ .invalid →
      (∀ kind, s.types.get base ≠ .basic kind) →
      s.types.get type ≠ .invalid ∧ ∀ kind, s.types.get type ≠ .basic kind := by
    intro n base hleads hinvalid hbasic
    cases hleads with
    | here => exact ⟨hinvalid, hbasic⟩
    | step hget => 
      rw [hget]
      exact ⟨Ty.noConfusion, fun _ => Ty.noConfusion⟩
  cases h with
  | direct h hbase =>
    exact hleads h (by rw [hbase]; exact Ty.noConfusion)
      (by rw [hbase]; exact fun _ => Ty.noConfusion)
  | pointer h hbase =>
    exact hleads h (by rw [hbase]; exact Ty.noConfusion)
      (by rw [hbase]; exact fun _ => Ty.noConfusion)

theorem defaultValue_struct {object : Operand} {value : HostId × TypeId}
    (hstruct : s.types.StructOf object.type fields)
    (hrun : defaultValue object c s = (.ok value, s')) :
    value = (object.id, object.type) ∧ s' = s := by
  obtain ⟨-, hbasic⟩ := StructOf.get_ne hstruct
  have hbig : s.types.isBig object.type = false := by
    unfold TypeTable.isBig
    cases hget : s.types.get object.type with
    | basic kind => exact absurd hget (hbasic kind)
    | _ => rfl
  have huntyped : s.types.isUntyped object.type = false := by
    unfold TypeTable.isUntyped
    cases hget : s.types.get object.type with
    | basic kind => exact absurd hget (hbasic kind)
    | _ => rfl
  unfold defaultValue at hrun
  obtain ⟨_, s₁, hcheck, hrest⟩ := bind_ok.mp hrun
  obtain rfl := Reads.ok hcheck
  split at hrest
  · exact absurd hrest Fails.fails
  · rw [run_isUntypedBig_bind, hbig, if_neg Bool.false_ne_true, run_bind, run_getTypes] at hrest
    dsimp only at hrest
    rw [huntyped, if_neg Bool.false_ne_true] at hrest
    obtain ⟨rfl, rfl⟩ := pure_ok.mp hrest
    exact ⟨rfl, rfl⟩

theorem State.method?_name {env : Environment} {method : Method}
    (h : s.method? env type name = some method) : method.name = name := by
  unfold State.method? at h
  dsimp only at h
  split at h
  · rename_i hfound
    cases h
    have hname := List.find?_some hfound
    exact beq_iff_eq.mp (Bool.and_eq_true_iff.mp hname).2
  · unfold Environment.method? at h
    dsimp only at h
    split at h
    · rename_i hfound
      cases h
      have hname := List.find?_some hfound
      exact beq_iff_eq.mp (Bool.and_eq_true_iff.mp hname).2
    · split at h
      · obtain ⟨method, hfound, rfl⟩ := Option.map_eq_some_iff.mp h
        have hname := List.find?_some hfound
        exact beq_iff_eq.mp hname
      · cases h

theorem lookupMethod_ok {found : Option Method}
    (hrun : lookupMethod type name c s = (.ok found, s')) :
    s.method? c.env type name = found ∧ s = s' := by
  obtain ⟨hfound, rfl⟩ := Prod.mk.inj hrun
  exact ⟨Except.ok.inj hfound, rfl⟩

theorem firstMethod?_ok {names : List String} {answer : Option Method}
    (hrun : firstMethod? type names c s = (.ok answer, s')) :
    s' = s ∧ ∀ method, answer = some method →
      ∃ name ∈ names, s.method? c.env type name = some method := by
  induction names with
  | nil =>
    obtain ⟨rfl, rfl⟩ := pure_ok.mp hrun
    refine ⟨rfl, fun _ h => ?_⟩
    cases h
  | cons name names ih =>
    obtain ⟨found, s₁, hlookup, hrest⟩ := bind_ok.mp hrun
    obtain ⟨hfound, rfl⟩ := lookupMethod_ok hlookup
    cases found with
    | some method =>
      obtain ⟨rfl, rfl⟩ := pure_ok.mp hrest
      refine ⟨rfl, fun _ h => ?_⟩
      cases h
      exact ⟨name, List.mem_cons_self, hfound⟩
    | none =>
      obtain ⟨rfl, h⟩ := ih hrest
      refine ⟨rfl, fun method hanswer => ?_⟩
      obtain ⟨other, hother, hmethod⟩ := h method hanswer
      exact ⟨other, List.mem_cons_of_mem _ hother, hmethod⟩

theorem resultOperand_type {call : HostId} {results : List TypeId} {span : Span} {r : Operand}
    (hrun : resultOperand call results span c s = (.ok r, s')) :
    results = [r.type] ∨ s'.types.shape r.type = .tuple results := by
  unfold resultOperand at hrun
  split at hrun
  · obtain ⟨rfl, -⟩ := pure_ok.mp hrun
    exact .inl rfl
  · obtain ⟨type, s₁, htuple, hrest⟩ := bind_ok.mp hrun
    obtain ⟨rfl, rfl⟩ := pure_ok.mp hrest
    exact .inr (shape_intern htuple (.refl _) Ty.noConfusion rfl)

theorem lowerProperty_selects {object : HostId} {method : Method} {span : Span}
    {expect : Expectation} {operand : Operand}
    (hrun : lowerProperty object method span expect c s = (.ok operand, s')) :
    SelectsAs s s' object operand method.name method.sig := by
  obtain ⟨selector, s₁, hselector, hrest⟩ := bind_ok.mp hrun
  rw [run_bind, run_getTypes] at hrest
  dsimp only at hrest
  have htypes : s₁.types = s.types := by
    obtain ⟨-, rfl⟩ := Prod.mk.inj hselector
    rfl
  have hplain : ∀ u, (pure (Operand.value selector method.sig span) : Lower Operand) c s₁ =
      (.ok operand, u) → SelectsAs s u object operand method.name method.sig := by
    intro u hpure
    obtain ⟨rfl, rfl⟩ := pure_ok.mp hpure
    exact .selector (kind_addNode hselector (.refl _)) rfl
  cases hsig : s₁.types.signature? method.sig with
  | none =>
    rw [hsig] at hrest
    exact hplain s' hrest
  | some sig =>
    obtain ⟨params, results, variadic⟩ := sig
    rw [hsig] at hrest
    cases params with
    | cons param params => exact hplain s' hrest
    | nil =>
      cases hcallee : expect.callee with
      | true =>
        rw [hcallee] at hrest
        exact hplain s' hrest
      | false =>
        rw [hcallee] at hrest
        obtain ⟨call, s₂, hcall, hresult⟩ := bind_ok.mp hrest
        have hid := resultOperand_id hresult
        have h₂ := precedes_run hresult
        exact .called (hid ▸ kind_addNode hcall h₂)
          (kind_addNode hselector ((precedes_run hcall).trans h₂)) (htypes ▸ hsig) rfl
          (resultOperand_type hresult)

/-- What is selected is a field that the search finds, or else a method that the type has itself. -/
theorem lowerValueMember_ok {object operand : Operand} {span : Span} {expect : Expectation}
    (hstruct : s.types.StructOf object.type fields)
    (hrun : lowerValueMember object name span expect c s = (.ok operand, s')) :
    ∃ emitted type, SelectsAs s s' object.id operand emitted type ∧
      emitted ∈ name :: propertyNames name ∧
      ((emitted = name ∧ fieldType? s.types name embeddingDepth object.type = some type) ∨
        fieldType? s.types name embeddingDepth object.type = none ∧
          ∃ method, s.method? c.env object.type emitted = some method ∧ type = method.sig) := by
  obtain ⟨hvalid, -⟩ := StructOf.get_ne hstruct
  obtain ⟨value, s₁, hdefault, hrest⟩ := bind_ok.mp hrun
  obtain ⟨rfl, rfl⟩ := defaultValue_struct hstruct hdefault
  dsimp only at hrest
  rw [run_bind, run_getTypes] at hrest
  dsimp only at hrest
  have hinvalid : s₁.types.isInvalid object.type = false := beq_eq_false_iff_ne.mpr hvalid
  rw [hinvalid, if_neg Bool.false_ne_true] at hrest
  have hselect : ∀ {u : State} {emitted : String} {type : TypeId}, u = s₁ →
      (do
        return Operand.value (← place (.selector object.id emitted) span) type span :
          Lower Operand) c u = (.ok operand, s') →
        SelectsAs s₁ s' object.id operand emitted type := by
    intro u emitted type hu hrun
    obtain ⟨selector, s₂, hselector, hpure⟩ := bind_ok.mp hrun
    obtain ⟨rfl, rfl⟩ := pure_ok.mp hpure
    exact .selector (kind_addNode hselector (.refl _)) rfl
  cases hfield : fieldType? s₁.types name embeddingDepth object.type with
  | some field =>
    rw [hfield] at hrest
    exact ⟨name, field, hselect rfl hrest, List.mem_cons_self, .inl ⟨rfl, rfl⟩⟩
  | none =>
    rw [hfield] at hrest
    obtain ⟨found, s₂, hlookup, hrest⟩ := bind_ok.mp hrest
    obtain ⟨hfound, rfl⟩ := lookupMethod_ok hlookup
    cases found with
    | some method =>
      obtain rfl := State.method?_name hfound
      exact ⟨method.name, method.sig, hselect rfl hrest, List.mem_cons_self,
        .inr ⟨rfl, method, hfound, rfl⟩⟩
    | none =>
      obtain ⟨found, s₂, hfirst, hrest⟩ := bind_ok.mp hrest
      obtain ⟨rfl, hproperty⟩ := firstMethod?_ok hfirst
      cases found with
      | none => exact absurd hrest Fails.fails
      | some method =>
        obtain ⟨other, hother, hmethod⟩ := hproperty method rfl
        obtain rfl := State.method?_name hmethod
        exact ⟨method.name, method.sig, lowerProperty_selects hrest, List.mem_cons_of_mem _ hother,
          .inr ⟨rfl, method, hmethod, rfl⟩⟩

/-- The field that is found first lies deeper than the member that the host selects, and is of
another type. -/
def Overtakes (types : TypeTable) (name : String) (type : TypeId) (path : List Nat)
    (member : TypeId) : Prop :=
  ∃ deeper field, FirstField types name embeddingDepth type deeper field ∧
    path.length < deeper.length ∧ field ≠ member

/-- A selector is given the type of the member that the host selects for it, unless a field that
lies deeper in another embedded type is found before that member. -/
theorem selector_type_iff {object operand : Operand} {span : Span} {expect : Expectation}
    (ht : s.types.HasInvalid) (hstruct : s.types.StructOf object.type fields)
    (hrun : lowerValueMember object name span expect c s = (.ok operand, s')) :
    ∃ emitted type, SelectsAs s s' object.id operand emitted type ∧
      emitted ∈ name :: propertyNames name ∧
      ∀ path member, HostSelects c.env s object.type emitted path member →
        (type = member ↔ ¬ Overtakes s.types name object.type path member) := by
  obtain ⟨emitted, type, hselects, hemitted, hfound⟩ := lowerValueMember_ok hstruct hrun
  refine ⟨emitted, type, hselects, hemitted, fun path member hhost => ?_⟩
  rcases hfound with ⟨rfl, hfield⟩ | ⟨hnone, method, hmethod, rfl⟩
  · obtain ⟨found, hfirst⟩ := fieldType?_eq_some hfield
    obtain ⟨inner, hpath, hmember⟩ := hfirst.at_path.hasMember c.env ht
    constructor
    · rintro rfl ⟨deeper, field, hdeeper, -, hne⟩
      exact hne (hdeeper.unique hfirst)
    · intro hnot
      by_contra hne
      have hle := hhost.shallowest found inner type hpath hmember
      rcases Nat.lt_or_eq_of_le hle with hlt | heq
      · exact hnot ⟨found, type, hfirst, hlt, hne⟩
      · exact hne (hhost.only found inner type hpath hmember heq.symm).2
  · have hown : HasMember c.env s object.type emitted method.sig := .method hmethod
    have hlength : path.length = 0 :=
      Nat.le_zero.mp (hhost.shallowest [] _ _ .here hown)
    refine iff_of_true (hhost.only [] _ _ .here hown hlength.symm).2 ?_
    rintro ⟨deeper, field, hdeeper, -, -⟩
    exact absurd (fieldType?_eq_none hnone hdeeper.at_path) (Nat.not_le_of_lt hdeeper.within)

/-! ### A field of one embedded type and a field deeper in the other -/

/-- `type X struct{ name string }`, `type A struct{ X }`, `type B struct{ name int }` and
`type T struct{ A; B }`. -/
def embeddingTypes : TypeTable where
  entries := TypeTable.initial.entries ++
    #[.named none "X" (some ⟨33⟩), .struct [⟨"name", TypeTable.string, false, none⟩],
      .named none "A" (some ⟨35⟩), .struct [⟨"X", ⟨32⟩, true, none⟩],
      .named none "B" (some ⟨37⟩), .struct [⟨"name", TypeTable.basic .int, false, none⟩],
      .named none "T" (some ⟨39⟩), .struct [⟨"A", ⟨34⟩, true, none⟩, ⟨"B", ⟨36⟩, true, none⟩]]

def embeddingState : State := .inside embeddingTypes [] []

theorem hasInvalid_embeddingTypes : embeddingTypes.HasInvalid := ⟨by decide, rfl⟩

/-- A type of the sample with its struct next to it. -/
theorem structOf_next {index : Nat} {name : String} {fields : List Field}
    (hget : embeddingTypes.get ⟨index⟩ = .named none name (some ⟨index + 1⟩))
    (hnext : embeddingTypes.get ⟨index + 1⟩ = .struct fields) :
    embeddingTypes.StructOf ⟨index⟩ fields :=
  .direct (.step hget (.here (by rw [TypeTable.isNamed, hnext]; rfl))) hnext

/-- A struct without methods has its fields only. -/
theorem HasMember.mem_fields {env : Environment} {member : TypeId}
    (h : HasMember env s type name member) (hstruct : s.types.StructOf type fields)
    (hmethod : s.method? env type name = none) :
    member ∈ (fields.filter (·.name == name)).map (·.type) := by
  cases h with
  | field hfields hfield hname =>
    cases hstruct.unique hfields
    exact List.mem_map_of_mem (List.mem_filter.mpr ⟨hfield, beq_iff_eq.mpr hname⟩)
  | method h => cases hmethod.symm.trans h
  | interface h hbase =>
    cases hstruct with
    | direct h' hbase' =>
      obtain ⟨-, rfl⟩ := h.unique h'
      cases hbase.symm.trans hbase'
    | pointer h' hbase' =>
      obtain ⟨-, rfl⟩ := h.unique h'
      cases hbase.symm.trans hbase'

theorem structOf_t : embeddingTypes.StructOf ⟨38⟩
    [⟨"A", ⟨34⟩, true, none⟩, ⟨"B", ⟨36⟩, true, none⟩] := structOf_next rfl rfl

theorem structOf_a : embeddingTypes.StructOf ⟨34⟩ [⟨"X", ⟨32⟩, true, none⟩] :=
  structOf_next rfl rfl

/-- The field `name` of a `T` is that of its `B`. -/
theorem hostSelects_t :
    HostSelects .empty embeddingState ⟨38⟩ "name" [1] (TypeTable.basic .int) := by
  have hb : embeddingTypes.StructOf ⟨36⟩ [⟨"name", TypeTable.basic .int, false, none⟩] :=
    structOf_next rfl rfl
  refine ⟨⟨⟨36⟩, .through structOf_t rfl .here, ?_⟩, ?_, ?_⟩
  · exact @HasMember.field _ _ _ _ _ ⟨"name", TypeTable.basic .int, false, none⟩ hb
      List.mem_cons_self rfl
  · intro other inner t hpath hmember
    cases hpath with
    | here => exact absurd (hmember.mem_fields structOf_t rfl) List.not_mem_nil
    | through => exact Nat.succ_le_succ (Nat.zero_le _)
  · intro other inner t hpath hmember hlength
    cases hpath with
    | here => cases hlength
    | @through _ _ _ i _ path hfields hfield rest =>
      cases hfields.unique structOf_t
      obtain rfl := List.eq_nil_of_length_eq_zero (Nat.succ.inj hlength)
      cases rest
      rcases i with _ | _ | i
      · cases hfield
        exact absurd (hmember.mem_fields structOf_a rfl) List.not_mem_nil
      · cases hfield
        exact ⟨rfl, List.mem_singleton.mp (hmember.mem_fields hb rfl)⟩
      · cases hfield

/-- The field `name` of an `A` is that of its `X`. -/
theorem hostSelects_a :
    HostSelects .empty embeddingState ⟨34⟩ "name" [0] TypeTable.string := by
  have hx : embeddingTypes.StructOf ⟨32⟩ [⟨"name", TypeTable.string, false, none⟩] :=
    structOf_next rfl rfl
  refine ⟨⟨⟨32⟩, .through structOf_a rfl .here, ?_⟩, ?_, ?_⟩
  · exact @HasMember.field _ _ _ _ _ ⟨"name", TypeTable.string, false, none⟩ hx
      List.mem_cons_self rfl
  · intro other inner t hpath hmember
    cases hpath with
    | here => exact absurd (hmember.mem_fields structOf_a rfl) List.not_mem_nil
    | through => exact Nat.succ_le_succ (Nat.zero_le _)
  · intro other inner t hpath hmember hlength
    cases hpath with
    | here => cases hlength
    | @through _ _ _ i _ path hfields hfield rest =>
      cases hfields.unique structOf_a
      obtain rfl := List.eq_nil_of_length_eq_zero (Nat.succ.inj hlength)
      cases rest
      rcases i with _ | i
      · cases hfield
        exact ⟨rfl, List.mem_singleton.mp (hmember.mem_fields hx rfl)⟩
      · cases hfield

/-- The selector for the field `name` of an object of a type of the sample. -/
def selected (type : TypeId) : Except Failure Operand × State :=
  lowerValueMember (.value ⟨0⟩ type .synthetic) "name" .synthetic .none (.bare []) embeddingState

theorem selector_type_iff_a : ∃ operand s', selected ⟨34⟩ = (.ok operand, s') ∧
    HostSelects .empty embeddingState ⟨34⟩ "name" [0] TypeTable.string ∧
    ∃ emitted type, SelectsAs embeddingState s' ⟨0⟩ operand emitted type ∧
      emitted ∈ "name" :: propertyNames "name" ∧
      ∀ path member, HostSelects .empty embeddingState ⟨34⟩ emitted path member →
        (type = member ↔ ¬ Overtakes embeddingTypes "name" ⟨34⟩ path member) :=
  have hrun : selected ⟨34⟩ =
      (.ok (.value ⟨0⟩ TypeTable.string .synthetic), (selected ⟨34⟩).2) :=
    Prod.ext rfl rfl
  ⟨_, _, hrun, hostSelects_a, selector_type_iff hasInvalid_embeddingTypes structOf_a hrun⟩

/-- The selector for the field of the `B` in a `T` is given the type of the field in its `A`. -/
theorem selector_type_ne : ∃ operand s', selected ⟨38⟩ = (.ok operand, s') ∧
    ∀ emitted type, SelectsAs embeddingState s' ⟨0⟩ operand emitted type →
      ∃ path member, HostSelects .empty embeddingState ⟨38⟩ emitted path member ∧
        type ≠ member := by
  have hrun : selected ⟨38⟩ =
      (.ok (.value ⟨0⟩ TypeTable.string .synthetic), (selected ⟨38⟩).2) :=
    Prod.ext rfl rfl
  refine ⟨_, _, hrun, fun emitted type hselects => ?_⟩
  have hkind : (selected ⟨38⟩).2.tree.kind ⟨0⟩ = .selector ⟨0⟩ "name" := by decide +kernel
  cases hselects with
  | selector h htype =>
    cases hkind.symm.trans h
    cases htype
    exact ⟨[1], _, hostSelects_t, by decide⟩
  | called h => cases hkind.symm.trans h

end Lowering

end GoLowering
