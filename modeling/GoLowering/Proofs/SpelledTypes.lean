import GoLowering.Proofs.PrintedImports
import GoLowering.Proofs.TypeIdentity
import GoLowering.Proofs.Outcomes

/-!
# Types spelled out

The text of a type is put together from the texts of its parts, down to named and basic types. That
ends where the parts of every type come before it and every method of an interface is of a function
type (`Ordered`): a type at position `n` is spelled within `n + 1` levels, and a greater depth adds
nothing (`Ordered.textWithin_eq_format`). Without the second condition a method could lead through
the definition of a named type to any type, and so back to the interface.

Tables that are built by requests are ordered, and so are the tables that grow into an ordered one
(`Ordered.of_grows`).
-/

namespace GoLowering

namespace TypeTable

variable {t u : TypeTable}

/-- The parts of a type come before it, and the methods of interfaces are of function types. -/
structure Ordered (t : TypeTable) : Prop where
  parts : ∀ id, ∀ part ∈ mentioned (t.get id), part.index < id.index
  functions : t.MethodsAreFunctions

theorem get_of_size_le {id : TypeId} (h : t.size ≤ id.index) : t.get id = .invalid := by
  by_contra hne
  exact absurd (index_lt_size hne) (Nat.not_lt.mpr h)

theorem Canonical.ordered (h : t.Canonical) (hm : t.MethodsAreFunctions) : t.Ordered where
  parts id part hpart := by
    by_cases hid : id.index < t.size
    · exact h.parts id hid part hpart
    · rw [get_of_size_le (Nat.not_lt.mp hid)] at hpart
      cases hpart
  functions := hm

/-! ## Tables that grow into ordered ones -/

theorem Grows.size_le (h : t.Grows u) : t.size ≤ u.size := by
  by_contra hlt
  have hlast := (h ⟨u.size⟩ (Nat.not_le.mp hlt)).1
  exact Nat.lt_irrefl _ hlast

/-- A type goes on to mention the same types, as a definition is not mentioned. -/
theorem Grows.mentioned_eq (h : t.Grows u) {id : TypeId} (hid : id.index < t.size) :
    mentioned (u.get id) = mentioned (t.get id) := by
  rcases (h id hid).2 with he | ⟨hn, hn'⟩
  · rw [he]
  · cases ht : t.get id <;> rw [ht] at hn <;> cases hn
    cases hu : u.get id <;> rw [hu] at hn' <;> cases hn'
    rfl

theorem Ordered.of_grows (h : u.Ordered) (hgrows : t.Grows u) : t.Ordered where
  parts id part hpart := by
    by_cases hid : id.index < t.size
    · rw [← hgrows.mentioned_eq hid] at hpart
      exact h.parts id part hpart
    · rw [get_of_size_le (Nat.not_lt.mp hid)] at hpart
      cases hpart
  functions entry hentry method hmethod := by
    obtain ⟨id, hid, rfl⟩ := exists_of_mem (Array.mem_toList_iff.mpr hentry)
    obtain ⟨methods, he⟩ : ∃ methods, t.get id = .interface methods := by
      cases he : t.get id <;> rw [he] at hmethod <;> first | exact ⟨_, rfl⟩ | cases hmethod
    have hu : u.get id = .interface methods := by
      rw [hgrows.get_eq (by rw [he]; nofun) (by rw [he]; rfl), he]
    rw [he] at hmethod
    obtain ⟨sig, hsig⟩ := h.functions.exists_signature hu hmethod
    have hbefore : method.sig.index < id.index :=
      h.parts id method.sig (by rw [hu]; exact List.mem_map.mpr ⟨method, hmethod, rfl⟩)
    rcases (hgrows method.sig (Nat.lt_trans hbefore hid)).2 with heq | ⟨-, hnamed⟩
    · rw [← heq, hsig]
      rfl
    · rw [hsig] at hnamed
      cases hnamed

theorem Grows.isFunction (h : t.Grows u) {id : TypeId} (hid : isFunction (t.get id)) :
    isFunction (u.get id) := by
  cases he : t.get id <;> rw [he] at hid <;> cases hid
  rw [h.get_eq (by rw [he]; nofun) (by rw [he]; rfl), he]
  rfl

/-- The methods of the types that a table gets anew are all that has to be looked at. -/
theorem MethodsAreFunctions.grows (h : t.MethodsAreFunctions) (hgrows : t.Grows u)
    (hnew : ∀ id, t.size ≤ id.index → ∀ method ∈ methodsOf (u.get id),
      isFunction (u.get method.sig)) : u.MethodsAreFunctions := by
  intro entry hentry method hmethod
  obtain ⟨id, hid, rfl⟩ := exists_of_mem (Array.mem_toList_iff.mpr hentry)
  by_cases hold : id.index < t.size
  · rcases (hgrows id hold).2 with heq | ⟨-, hnamed⟩
    · rw [heq] at hmethod
      exact hgrows.isFunction (h _ (get_mem hold) method hmethod)
    · cases he : u.get id <;> rw [he] at hnamed hmethod <;> cases hnamed
      cases hmethod
  · exact hnew id (Nat.not_lt.mp hold) method hmethod

/-- Behind the end of a table there is but the entry that is pushed. -/
theorem get_push_of_size_le {entry : Ty} {id : TypeId} (h : t.size ≤ id.index) :
    (t.push entry).2.get id = entry ∨ (t.push entry).2.get id = .invalid := by
  rcases Nat.eq_or_lt_of_le h with heq | hlt
  · obtain rfl : id = ⟨t.size⟩ := by cases id; exact congrArg TypeId.mk heq.symm
    exact .inl (t.get_push_self entry)
  · exact .inr (get_of_size_le (by rw [size_push]; exact hlt))

theorem MethodsAreFunctions.intern (h : t.MethodsAreFunctions) {entry : Ty}
    (hmethods : ∀ method ∈ methodsOf entry, isFunction (t.get method.sig)) :
    (t.intern entry).2.MethodsAreFunctions := by
  have hgrows := (t.begins_intern entry).grows
  refine h.grows hgrows (fun id hid method hmethod => ?_)
  unfold TypeTable.intern at hmethod
  split at hmethod
  · rw [get_of_size_le hid] at hmethod
    cases hmethod
  · rcases get_push_of_size_le hid with he | he
    · rw [he] at hmethod
      exact hgrows.isFunction (hmethods method hmethod)
    · rw [he] at hmethod
      cases hmethod

theorem MethodsAreFunctions.declareNamed (h : t.MethodsAreFunctions) (package : Option String)
    (name : String) : (t.declareNamed package name).2.MethodsAreFunctions := by
  refine h.grows (t.begins_declareNamed package name).grows (fun id hid method hmethod => ?_)
  unfold TypeTable.declareNamed at hmethod
  split at hmethod
  · rw [get_of_size_le hid] at hmethod
    cases hmethod
  · rcases get_push_of_size_le hid with he | he
    · rw [he] at hmethod
      cases hmethod
    · rw [he] at hmethod
      cases hmethod

theorem index_declareNamed_lt (t : TypeTable) (package : Option String) (name : String) :
    (t.declareNamed package name).1.index < (t.declareNamed package name).2.size := by
  unfold TypeTable.declareNamed
  split
  · rename_i id hsome
    obtain ⟨i, hi, rfl⟩ := Option.map_eq_some_iff.mp hsome
    exact (Array.findIdx?_eq_some_iff_getElem.mp hi).1
  · rw [size_push]
    exact Nat.lt_succ_self _

theorem MethodsAreFunctions.define (h : t.MethodsAreFunctions) (named definition : TypeId) :
    (t.define named definition).MethodsAreFunctions := by
  refine h.grows (t.grows_define named definition) (fun id hid method hmethod => ?_)
  rw [get_of_size_le (by rwa [size_define])] at hmethod
  cases hmethod

/-! ## Texts -/

theorem mem_writtenParams {variadic : Bool} {params : List TypeId} {id : TypeId}
    (h : id ∈ t.writtenParams variadic params) : ∃ param ∈ params, id = param ∨
      t.get param = .slice id := by
  rcases List.mem_append.mp h with h | h
  · exact ⟨id, List.dropLast_subset params h, .inl rfl⟩
  · obtain ⟨param, hparam, rfl⟩ := List.mem_map.mp h
    exact ⟨param, List.mem_of_getLast? (Option.mem_toList.mp hparam), t.lastWritten_cases variadic param⟩

/-- The text of a signature depends on the texts of the types that it shows. -/
theorem signatureText_congr {text text' : TypeId → String} {sig : Signature}
    (h : ∀ id ∈ t.writtenSignature sig, text id = text' id) :
    t.signatureText text sig = t.signatureText text' sig := by
  have hparams (id : TypeId) (hid : id ∈ t.writtenParams sig.variadic sig.params) :
      text id = text' id :=
    h id (List.mem_append_left _ hid)
  have hinit : sig.params.dropLast.map text = sig.params.dropLast.map text' :=
    List.map_congr_left (fun id hid => hparams id (List.mem_append_left _ hid))
  have hresult (id : TypeId) (hid : id ∈ sig.results) : text id = text' id :=
    h id (List.mem_append_right _ hid)
  unfold signatureText
  dsimp only
  rw [hinit]
  congr 1
  · congr 2
    refine congrArg _ (congrArg _ (List.map_congr_left (fun id hid => ?_)))
    have hlast := hparams (t.lastWritten sig.variadic id)
      (List.mem_append_right _ (List.mem_map.mpr ⟨id, hid, rfl⟩))
    unfold lastWritten at hlast
    cases hget : t.get id with
    | slice element =>
      rw [hget] at hlast
      cases hvariadic : sig.variadic with
      | true =>
        rw [hvariadic] at hlast
        exact congrArg ("..." ++ ·) hlast
      | false =>
        rw [hvariadic] at hlast
        exact hlast
    | _ =>
      rw [hget] at hlast
      exact hlast
  · cases hresults : sig.results with
    | nil => rfl
    | cons first rest =>
      rw [hresults] at hresult
      cases rest with
      | nil => exact congrArg (" " ++ ·) (hresult first List.mem_cons_self)
      | cons second rest =>
        exact congrArg (fun texts => " (" ++ String.intercalate ", " texts ++ ")")
          (List.map_congr_left hresult)

theorem fieldText_congr {text text' : TypeId → String} {field : Field}
    (h : text field.type = text' field.type) : fieldText text field = fieldText text' field := by
  unfold fieldText
  rw [h]

/-- The text of an entry depends on the texts of the types that it shows. -/
theorem entryText_congr {text text' : TypeId → String} {entry : Ty}
    (h : ∀ id ∈ t.written entry, text id = text' id) :
    t.entryText text entry = t.entryText text' entry := by
  cases entry with
  | basic _ | named _ _ _ | invalid => rfl
  | pointer part | slice part | array part _ | chan part _ =>
    have hpart : text part = text' part := h part List.mem_cons_self
    simp only [entryText, hpart]
  | map key value =>
    have hkey : text key = text' key := h key List.mem_cons_self
    have hvalue : text value = text' value := h value (List.mem_cons_of_mem _ List.mem_cons_self)
    simp only [entryText, hkey, hvalue]
  | func sig =>
    simp only [entryText, signatureText_congr h]
  | struct fields =>
    have hfields : fields.map (fieldText text) = fields.map (fieldText text') :=
      List.map_congr_left (fun field hfield =>
        fieldText_congr (h field.type (List.mem_map.mpr ⟨field, hfield, rfl⟩)))
    cases fields with
    | nil => rfl
    | cons field fields => simp only [entryText, hfields]
  | interface methods =>
    have hmethod (method : InterfaceMethod) (hmethod : method ∈ methods) :
        (t.signature? method.sig).map (t.signatureText text) =
          (t.signature? method.sig).map (t.signatureText text') := by
      cases hsig : t.signature? method.sig with
      | none => rfl
      | some sig =>
        refine congrArg some (signatureText_congr (fun id hid => h id ?_))
        exact List.mem_flatMap.mpr ⟨method, hmethod, by simpa [hsig] using hid⟩
    cases methods with
    | nil => rfl
    | cons method methods =>
      simp only [entryText]
      rw [List.map_congr_left (fun m hm => by rw [hmethod m hm])]
  | tuple elements =>
    have helements : elements.map text = elements.map text' := List.map_congr_left h
    simp only [entryText, helements]

/-- The types that a type shows come before it. -/
theorem Ordered.written_lt (h : t.Ordered) {id part : TypeId} (hpart : part ∈ t.written (t.get id)) :
    part.index < id.index := by
  have hsignature {id : TypeId} {sig : Signature} (hget : t.get id = .func sig) {part : TypeId}
      (hpart : part ∈ t.writtenSignature sig) : part.index < id.index := by
    have hparts : ∀ part ∈ sig.params ++ sig.results, part.index < id.index := by
      simpa [hget, mentioned] using h.parts id
    rcases List.mem_append.mp hpart with hpart | hpart
    · obtain ⟨param, hparam, rfl | hslice⟩ := mem_writtenParams hpart
      · exact hparts part (List.mem_append_left _ hparam)
      · have helement : part.index < param.index :=
          h.parts param part (by rw [hslice]; exact List.mem_cons_self)
        exact Nat.lt_trans helement (hparts param (List.mem_append_left _ hparam))
    · exact hparts part (List.mem_append_right _ hpart)
  cases hget : t.get id with
  | func sig =>
    rw [hget] at hpart
    exact hsignature hget hpart
  | interface methods =>
    rw [hget] at hpart
    obtain ⟨method, hmethod, hpart⟩ := List.mem_flatMap.mp hpart
    obtain ⟨sig, hsig⟩ := h.functions.exists_signature hget hmethod
    rw [signature?_of_get hsig] at hpart
    have hbefore : method.sig.index < id.index :=
      h.parts id method.sig (by rw [hget]; exact List.mem_map.mpr ⟨method, hmethod, rfl⟩)
    exact Nat.lt_trans (hsignature hsig (by simpa using hpart)) hbefore
  | _ =>
    refine h.parts id part ?_
    rw [hget] at hpart ⊢
    exact hpart

/-- The induction is on the depth: what a type shows needs one level less. -/
theorem Ordered.textWithin_eq (h : t.Ordered) {depth depth' : Nat} {id : TypeId}
    (hdepth : id.index < depth) (hdepth' : id.index < depth') :
    t.textWithin depth id = t.textWithin depth' id := by
  induction depth generalizing depth' id with
  | zero => exact absurd hdepth (Nat.not_lt_zero _)
  | succ depth ih =>
    obtain ⟨depth', rfl⟩ := Nat.exists_eq_add_one_of_ne_zero (n := depth') (by omega)
    refine entryText_congr (fun part hpart => ?_)
    have hlt := h.written_lt hpart
    exact ih (by omega) (by omega)

/-- The text of a type is complete: no text that may go on to a greater depth is another one. -/
theorem Ordered.textWithin_eq_format (h : t.Ordered) {depth : Nat} (hdepth : t.depthBound ≤ depth)
    (id : TypeId) : t.textWithin depth id = t.format id := by
  unfold format depthBound at *
  by_cases hid : id.index < t.size
  · exact h.textWithin_eq (by omega) (by omega)
  · obtain ⟨depth, rfl⟩ := Nat.exists_eq_add_one_of_ne_zero (n := depth) (by omega)
    unfold textWithin
    rw [get_of_size_le (Nat.not_lt.mp hid)]
    rfl

/-- The target of a pointer comes before it, so that a chain of pointers has an end. -/
theorem Ordered.embeddedName_eq (h : t.Ordered) {steps steps' : Nat} {id : TypeId}
    (hsteps : id.index < steps) (hsteps' : id.index < steps') :
    Lowering.embeddedName t steps id = Lowering.embeddedName t steps' id := by
  induction steps generalizing steps' id with
  | zero => exact absurd hsteps (Nat.not_lt_zero _)
  | succ steps ih =>
    obtain ⟨steps', rfl⟩ := Nat.exists_eq_add_one_of_ne_zero (n := steps') (by omega)
    unfold Lowering.embeddedName
    split
    · rfl
    · rename_i target hget
      have hlt : target.index < id.index :=
        h.parts id target (by rw [hget]; exact List.mem_cons_self)
      exact ih (by omega) (by omega)
    · rfl

/-- The name of an embedded type is complete, too. -/
theorem Ordered.embeddedName_of_size_le (h : t.Ordered) {steps : Nat} (hsteps : t.size ≤ steps)
    (id : TypeId) : Lowering.embeddedName t steps id = Lowering.embeddedName t t.size id := by
  by_cases hid : id.index < t.size
  · exact h.embeddedName_eq (by omega) hid
  · have hany (steps : Nat) : Lowering.embeddedName t steps id = t.format id := by
      cases steps with
      | zero => rfl
      | succ steps =>
        unfold Lowering.embeddedName
        rw [get_of_size_le (Nat.not_lt.mp hid)]
    rw [hany, hany]

end TypeTable

end GoLowering
