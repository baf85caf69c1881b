import Mathlib.Data.List.Basic
import Mathlib.Data.List.Induction
import GoLowering.Source.Path

/-!
# Ways from one path to another

The way from a base to a path climbs out of the rest of the base that the two do not have in common,
one step up for each of its steps, and goes down to the path from there. It leads to the path just in
case the rest of the base has names only: a step up in it is no place to climb out of, but one more
step up is taken for it all the same. In normal paths that is so just in case the base has no more
steps up than the path (`Path.normalize_join_relativeTo?_iff`).

The same is proved of the texts of paths, with the text of the way behind that of the base. Where the
way does not lead to the path, no other one does (`Path.parse_joinText_of_exists`): steps up that are
left of a path are never undone.
-/

/-!
## Normal paths

The steps that are left of a path when names are cancelled (`cancel`) are some steps up and then
names, and what a further step does to them depends on their last name only. Steps that have been
cancelled can be put in the place of those they are left of.
-/

namespace GoLowering.Source.Path

variable {steps : List Step} {ups : Nat} {names : List String}

/-- What is left of some steps when every name that is followed by a step up is cancelled. -/
def cancel (steps : List Step) : List Step := (steps.foldl pushReversed []).reverse

/-- Steps up, and then into names. -/
def normalSteps (ups : Nat) (names : List String) : List Step :=
  List.replicate ups .up ++ names.map .into

theorem normalize_eq (p : Path) : p.normalize = ⟨p.absolute, cancel p.steps⟩ := rfl

theorem cancel_append (a b : List Step) :
    cancel (a ++ b) = (b.foldl pushReversed (cancel a).reverse).reverse := by
  simp [cancel, List.foldl_append]

/-! ## One more step -/

theorem cancel_concat (steps : List Step) (s : Step) :
    cancel (steps ++ [s]) = (pushReversed (cancel steps).reverse s).reverse := cancel_append _ _

theorem cancel_concat_into (h : cancel steps = normalSteps ups names) (name : String) :
    cancel (steps ++ [.into name]) = normalSteps ups (names ++ [name]) := by
  simp [cancel_concat, h, pushReversed, normalSteps]

/-- A step up cancels the name before it. -/
theorem cancel_concat_up {name : String} (h : cancel steps = normalSteps ups (names ++ [name])) :
    cancel (steps ++ [.up]) = normalSteps ups names := by
  simp [cancel_concat, h, pushReversed, normalSteps]

/-- A step up is kept where no name is before it. -/
theorem cancel_concat_up_of_nil (h : cancel steps = normalSteps ups []) :
    cancel (steps ++ [.up]) = normalSteps (ups + 1) [] := by
  have hkept : pushReversed (List.replicate ups .up) .up = .up :: List.replicate ups .up := by
    cases ups <;> rfl
  simp only [cancel_concat, h, normalSteps, List.map_nil, List.append_nil, List.reverse_replicate,
    hkept, List.reverse_cons]
  exact List.replicate_succ'.symm

theorem exists_normalSteps (steps : List Step) :
    ∃ ups names, cancel steps = normalSteps ups names := by
  induction steps using List.reverseRecOn with
  | nil => exact ⟨0, [], rfl⟩
  | append_singleton steps s ih =>
    obtain ⟨ups, names, h⟩ := ih
    cases s with
    | into name => exact ⟨_, _, cancel_concat_into h name⟩
    | up =>
      rcases List.eq_nil_or_concat' names with rfl | ⟨names, name, rfl⟩
      · exact ⟨_, _, cancel_concat_up_of_nil h⟩
      · exact ⟨_, _, cancel_concat_up h⟩

/-! ## Several steps -/

theorem cancel_append_into (h : cancel steps = normalSteps ups names) (more : List String) :
    cancel (steps ++ more.map .into) = normalSteps ups (names ++ more) := by
  induction more generalizing steps names with
  | nil => simpa using h
  | cons name more ih =>
    have hnext := ih (cancel_concat_into h name)
    simpa using hnext

/-- Steps up cancel as many names, and those that find none are kept. -/
theorem cancel_append_ups (h : cancel steps = normalSteps ups names) (count : Nat) :
    cancel (steps ++ List.replicate count .up) =
      normalSteps (ups + (count - names.length)) (names.take (names.length - count)) := by
  induction count generalizing steps ups names with
  | zero => simpa using h
  | succ count ih =>
    rw [List.replicate_succ, ← List.singleton_append, ← List.append_assoc]
    rcases List.eq_nil_or_concat' names with rfl | ⟨names, name, rfl⟩
    · rw [ih (cancel_concat_up_of_nil h)]
      simp [Nat.add_comm, Nat.add_left_comm]
    · rw [ih (cancel_concat_up h), List.length_append, List.length_singleton,
        Nat.add_sub_add_right, Nat.add_sub_add_right,
        List.take_append_of_le_length (Nat.sub_le _ _)]

theorem cancel_normalSteps (ups : Nat) (names : List String) :
    cancel (normalSteps ups names) = normalSteps ups names := by
  have hnil : cancel [] = normalSteps 0 [] := rfl
  have hups : cancel (List.replicate ups .up) = normalSteps ups [] := by
    simpa [normalSteps] using cancel_append_ups hnil ups
  exact cancel_append_into hups names

theorem cancel_cancel (steps : List Step) : cancel (cancel steps) = cancel steps := by
  obtain ⟨ups, names, h⟩ := exists_normalSteps steps
  rw [h, cancel_normalSteps]

/-- What is left of the first steps can stand for them. -/
theorem cancel_cancel_append (a b : List Step) : cancel (cancel a ++ b) = cancel (a ++ b) := by
  rw [cancel_append, cancel_cancel, ← cancel_append]

theorem normalize_normalize (p : Path) : p.normalize.normalize = p.normalize := by
  rw [normalize_eq, normalize_eq, cancel_cancel]

theorem mem_pushReversed {reversed : List Step} {s step : Step}
    (h : s ∈ pushReversed reversed step) : s = step ∨ s ∈ reversed := by
  unfold pushReversed at h
  split at h
  · exact List.mem_cons.mp h
  · split at h
    · exact .inr (List.mem_cons_of_mem _ h)
    · exact List.mem_cons.mp h

/-- Nothing is left but steps that were there. -/
theorem mem_of_mem_cancel {s : Step} (h : s ∈ cancel steps) : s ∈ steps := by
  induction steps using List.reverseRecOn with
  | nil => exact h
  | append_singleton steps step ih =>
    rw [cancel_concat, List.mem_reverse] at h
    rw [List.mem_append, List.mem_singleton]
    rcases mem_pushReversed h with rfl | h
    · exact .inr rfl
    · exact .inl (ih (List.mem_reverse.mp h))

end GoLowering.Source.Path

namespace GoLowering.Source.Path

variable {steps common rest : List Step} {p base way : Path} {ups : Nat} {names : List String}

/-! ## Steps up -/

theorem count_up_le_pushReversed (reversed : List Step) (step : Step) :
    reversed.count .up ≤ (pushReversed reversed step).count .up := by
  cases step with
  | into name => exact (List.sublist_cons_self _ _).count_le _
  | up =>
    unfold pushReversed
    dsimp only
    split
    · simp
    · exact (List.sublist_cons_self _ _).count_le _

/-- Steps up that are left of a path are never undone by what follows. -/
theorem count_up_le_cancel_append (a b : List Step) :
    (cancel a).count .up ≤ (cancel (a ++ b)).count .up := by
  induction b using List.reverseRecOn with
  | nil => simp
  | append_singleton b step ih =>
    refine Nat.le_trans ih ?_
    rw [← List.append_assoc, cancel_concat, List.count_reverse]
    have hpush := count_up_le_pushReversed (cancel (a ++ b)).reverse step
    rwa [List.count_reverse] at hpush

theorem up_notMem_names (names : List String) : Step.up ∉ names.map .into := by simp

/-- What follows a part of a normal path starts with a step up if it has any. -/
theorem head?_eq_up (h : common ++ rest = normalSteps ups names) (hup : .up ∈ rest) :
    rest.head? = some .up := by
  rcases List.append_eq_append_iff.mp h with ⟨more, hups, rfl⟩ | ⟨more, -, hnames⟩
  · -- The steps up of the rest are among those that the path begins with.
    have hmore : .up ∈ more := (List.mem_append.mp hup).resolve_right (up_notMem_names names)
    cases more with
    | nil => cases hmore
    | cons step more =>
      have hstep : step ∈ List.replicate ups .up := by
        rw [hups]
        exact List.mem_append_right _ List.mem_cons_self
      rw [List.eq_of_mem_replicate hstep]
      rfl
  · exact absurd (hnames ▸ List.mem_append_right _ hup) (up_notMem_names names)

theorem exists_names (h : .up ∉ steps) : ∃ names : List String, steps = names.map .into := by
  induction steps with
  | nil => exact ⟨[], rfl⟩
  | cons step steps ih =>
    obtain ⟨hstep, hsteps⟩ := not_or.mp (mt List.mem_cons.mpr h)
    obtain ⟨names, rfl⟩ := ih hsteps
    cases step with
    | up => exact absurd rfl hstep
    | into name => exact ⟨name :: names, rfl⟩

/-- Names are climbed out of by as many steps up. -/
theorem cancel_there_and_back (steps : List Step) (names : List String) :
    cancel (steps ++ names.map .into ++ List.replicate names.length .up) = cancel steps := by
  obtain ⟨ups, left, h⟩ := exists_normalSteps steps
  rw [cancel_append_ups (cancel_append_into h names), h]
  simp

/-! ## The way -/

/-- Two paths run together up to where they part or one of them ends. -/
theorem exists_common (a b : List Step) :
    ∃ common a' b', a = common ++ a' ∧ b = common ++ b' ∧ commonLength a b = common.length ∧
      ∀ step, a'.head? = some step → b'.head? ≠ some step := by
  fun_induction commonLength a b with
  | case1 a as bs ih =>
    obtain ⟨common, a', b', rfl, rfl, hlength, hpart⟩ := ih
    exact ⟨_ :: common, a', b', rfl, rfl, by rw [hlength, List.length_cons], hpart⟩
  | case2 a as b bs hne =>
    refine ⟨[], a :: as, b :: bs, rfl, rfl, rfl, fun step ha hb => hne ?_⟩
    exact (Option.some.inj ha).trans (Option.some.inj hb).symm
  | case3 a b hend =>
    refine ⟨[], a, b, rfl, rfl, rfl, fun step ha hb => ?_⟩
    obtain ⟨as, rfl⟩ := List.head?_eq_some_iff.mp ha
    obtain ⟨bs, rfl⟩ := List.head?_eq_some_iff.mp hb
    exact hend step as step bs rfl rfl

/-- The way leads to the path just in case the base has no more steps up than the path. -/
theorem cancel_way_iff {a b common a' b' : List Step} (ha : cancel a = common ++ a')
    (hb : cancel b = common ++ b') (hpart : ∀ step, a'.head? = some step → b'.head? ≠ some step) :
    cancel (b ++ (List.replicate b'.length .up ++ a')) = cancel a ↔
      (cancel b).count .up ≤ (cancel a).count .up := by
  constructor
  · intro h
    rw [← h]
    exact count_up_le_cancel_append _ _
  · intro hle
    have hnames : .up ∉ b' := by
      intro hup
      obtain ⟨ups, names, hnormal⟩ := exists_normalSteps b
      obtain ⟨ups', names', hnormal'⟩ := exists_normalSteps a
      have hhead := head?_eq_up (hb.symm.trans hnormal) hup
      have hpath : .up ∉ a' := fun hup' =>
        hpart _ (head?_eq_up (ha.symm.trans hnormal') hup') hhead
      have hcount := List.count_pos_iff.mpr hup
      rw [ha, hb, List.count_append, List.count_append, List.count_eq_zero.mpr hpath] at hle
      omega
    obtain ⟨names, rfl⟩ := exists_names hnames
    calc cancel (b ++ (List.replicate (names.map Step.into).length .up ++ a'))
        = cancel (cancel (common ++ names.map .into ++ List.replicate names.length .up) ++ a') := by
          rw [← cancel_cancel_append, hb, cancel_cancel_append, List.length_map]
          simp only [List.append_assoc]
      _ = cancel (common ++ a') := by rw [cancel_there_and_back, cancel_cancel_append]
      _ = cancel a := by rw [← ha, cancel_cancel]

/-- A path followed by another one, which stands alone if it is absolute. -/
def join (base way : Path) : Path :=
  if way.absolute then way else ⟨base.absolute, base.steps ++ way.steps⟩

theorem relativeTo?_eq_none_iff (p base : Path) :
    p.relativeTo? base = none ↔ p.absolute ≠ base.absolute := by
  simp [relativeTo?, normalize_eq]

/-- A way climbs out of the rest of the base and goes down the rest of the path. -/
theorem exists_rests (h : p.relativeTo? base = some way) :
    p.absolute = base.absolute ∧ ∃ common a' b',
      cancel p.steps = common ++ a' ∧ cancel base.steps = common ++ b' ∧
      (∀ step, a'.head? = some step → b'.head? ≠ some step) ∧
      way = ⟨false, List.replicate b'.length .up ++ a'⟩ := by
  obtain ⟨common, a', b', ha, hb, hlength, hpart⟩ :=
    exists_common (cancel p.steps) (cancel base.steps)
  have habsolute : p.absolute = base.absolute := by
    by_contra hne
    rw [(relativeTo?_eq_none_iff p base).mpr hne] at h
    cases h
  refine ⟨habsolute, common, a', b', ha, hb, hpart, ?_⟩
  simp only [relativeTo?, normalize_eq, habsolute, bne_self_eq_false, Bool.false_eq_true, if_false,
    hlength, Option.some.injEq] at h
  rw [← h, ha, hb]
  simp

theorem normalize_join_relativeTo?_iff (h : p.relativeTo? base = some way) :
    (base.join way).normalize = p.normalize ↔
      base.normalize.steps.count .up ≤ p.normalize.steps.count .up := by
  obtain ⟨habsolute, common, a', b', ha, hb, hpart, rfl⟩ := exists_rests h
  rw [normalize_eq p, normalize_eq base, ← cancel_way_iff ha hb hpart]
  simp [normalize_eq, join, habsolute]

/-! ## Texts of paths -/

theorem exists_fields (separator : Char) (cs : List Char) :
    ∃ first more, fields separator cs = first :: more := by
  fun_cases fields separator cs <;> exact ⟨_, _, rfl⟩

theorem fields_append (separator : Char) (a b : List Char) :
    fields separator (a ++ separator :: b) = fields separator a ++ fields separator b := by
  induction a with
  | nil => simp [fields]
  | cons c a ih =>
    obtain ⟨first, more, hfields⟩ := exists_fields separator a
    rw [List.cons_append, fields, fields, ih, hfields]
    split <;> rfl

theorem fields_of_notMem {separator : Char} {cs : List Char} (h : separator ∉ cs) :
    fields separator cs = [cs] := by
  induction cs with
  | nil => rfl
  | cons c cs ih =>
    obtain ⟨hc, hcs⟩ := not_or.mp (mt List.mem_cons.mpr h)
    rw [fields, if_neg (by simpa using Ne.symm hc), ih hcs]

theorem notMem_of_mem_fields {separator : Char} {cs part : List Char}
    (h : part ∈ fields separator cs) : separator ∉ part := by
  induction cs generalizing part with
  | nil =>
    rw [List.mem_singleton.mp h]
    exact List.not_mem_nil
  | cons c cs ih =>
    obtain ⟨first, more, hfields⟩ := exists_fields separator cs
    rw [fields, hfields] at h
    have hmore (hin : part ∈ more) : separator ∉ part :=
      ih (hfields ▸ List.mem_cons_of_mem _ hin)
    have hfirst : separator ∉ first := ih (hfields ▸ List.mem_cons_self)
    split at h
    · rcases List.mem_cons.mp h with rfl | hin
      · exact List.not_mem_nil
      · rcases List.mem_cons.mp hin with rfl | hin
        · exact hfirst
        · exact hmore hin
    · rename_i hc
      rcases List.mem_cons.mp h with rfl | hin
      · exact fun hmem => (List.mem_cons.mp hmem).elim (fun he => hc (by simp [he])) hfirst
      · exact hmore hin

/-- What the steps of a text are read from: a part between slashes that counts. -/
structure IsSegment (segment : String) : Prop where
  ne_empty : segment ≠ ""
  ne_dot : segment ≠ "."
  unbroken : '/' ∉ segment.toList

theorem isSegment_of_mem {text segment : String} (h : segment ∈ segments text) :
    IsSegment segment := by
  obtain ⟨hpart, hcounts⟩ := List.mem_filter.mp h
  obtain ⟨part, hin, rfl⟩ := List.mem_map.mp hpart
  simp only [bne_iff_ne, ne_eq, Bool.and_eq_true] at hcounts
  exact ⟨hcounts.1, hcounts.2, by rw [String.toList_ofList]; exact notMem_of_mem_fields hin⟩

theorem segments_append (a b : String) : segments (a ++ "/" ++ b) = segments a ++ segments b := by
  have hlist : (a ++ "/" ++ b).toList = a.toList ++ '/' :: b.toList := by
    simp [String.toList_append]
  rw [segments, hlist, fields_append, List.map_append, List.filter_append]
  rfl

theorem IsSegment.segments_eq {segment : String} (h : IsSegment segment) :
    segments segment = [segment] := by
  rw [segments, fields_of_notMem h.unbroken]
  simp [h.ne_empty, h.ne_dot]

theorem segments_intercalate {parts : List String} (h : ∀ part ∈ parts, IsSegment part) :
    segments (String.intercalate "/" parts) = parts := by
  induction parts with
  | nil => rfl
  | cons part parts ih =>
    have hpart := (h part List.mem_cons_self).segments_eq
    have hparts := ih (fun part hin => h part (List.mem_cons_of_mem _ hin))
    cases parts with
    | nil => simpa using hpart
    | cons next parts => rw [String.intercalate_cons_cons, segments_append, hpart, hparts]; rfl

theorem text_stepOf (segment : String) : (stepOf segment).text = segment := by
  rw [stepOf]
  split
  · rename_i hup
    exact (beq_iff_eq.mp hup).symm
  · rfl

/-- A text of a path with that of a way behind it, as the two are put together. -/
def joinText (base way : String) : String :=
  if way.toList.head? = some '/' then way
  else if base = "" ∨ base.toList.getLast? = some '/' then base ++ way
  else base ++ "/" ++ way

theorem ofString_append {base more way : String} (hbase : base ≠ "")
    (hsegments : segments (base ++ more) = segments base ++ segments way) :
    ofString (base ++ more) =
      ⟨(ofString base).absolute, (ofString base).steps ++ (ofString way).steps⟩ := by
  have hhead : (base ++ more).toList.head? = base.toList.head? := by
    rw [String.toList_append, List.head?_append_of_ne_nil]
    exact fun hnil => hbase (String.toList_eq_nil_iff.mp hnil)
  rw [ofString, hhead, hsegments, List.map_append]
  rfl

theorem ofString_joinText (base way : String) :
    ofString (joinText base way) = (ofString base).join (ofString way) := by
  unfold joinText join
  by_cases habsolute : way.toList.head? = some '/'
  · simp [habsolute, ofString]
  have hrelative : (ofString way).absolute = false := by simpa [ofString] using habsolute
  rw [if_neg habsolute, hrelative, if_neg Bool.false_ne_true]
  by_cases hbase : base = ""
  · subst hbase
    rw [if_pos (.inl rfl), String.empty_append]
    exact congrArg (Path.mk · (ofString way).steps) hrelative
  by_cases hslash : base.toList.getLast? = some '/'
  · rw [if_pos (.inr hslash)]
    obtain ⟨before, hbefore⟩ : ∃ before : String, base = before ++ "/" := by
      obtain ⟨before, hbefore⟩ := List.getLast?_eq_some_iff.mp hslash
      exact ⟨String.ofList before, by rw [← String.toList_inj]; simp [hbefore]⟩
    refine ofString_append hbase ?_
    have hends : segments (before ++ "/") = segments before := by
      have hempty := segments_append before ""
      rwa [String.append_empty, show segments "" = [] from rfl, List.append_nil] at hempty
    rw [hbefore, segments_append, hends]
  · rw [if_neg (not_or.mpr ⟨hbase, hslash⟩), String.append_assoc]
    exact ofString_append hbase (by rw [← String.append_assoc, segments_append])

theorem head?_intercalate {parts : List String} (h : ∀ part ∈ parts, IsSegment part) :
    (String.intercalate "/" parts).toList.head? ≠ some '/' := by
  cases parts with
  | nil => exact nofun
  | cons part parts =>
    have hpart := h part List.mem_cons_self
    obtain ⟨c, cs, hcs⟩ : ∃ c cs, part.toList = c :: cs :=
      List.exists_cons_of_ne_nil (fun hnil => hpart.ne_empty (String.toList_eq_nil_iff.mp hnil))
    have hc : c ≠ '/' := fun he => hpart.unbroken (by simp [hcs, he])
    cases parts with
    | nil => simpa [hcs] using hc
    | cons next parts => simpa [String.intercalate_cons_cons, String.toList_append, hcs] using hc

theorem text_eq (absolute : Bool) (parts : List String) :
    text ⟨absolute, parts.map stepOf⟩ =
      (if absolute then "/" else "") ++ String.intercalate "/" parts := by
  simp [text, text_stepOf, Function.comp_def]

/-- The text of a path is read as this path. -/
theorem ofString_text {parts : List String} (h : ∀ part ∈ parts, IsSegment part)
    (absolute : Bool) :
    ofString (text ⟨absolute, parts.map stepOf⟩) = ⟨absolute, parts.map stepOf⟩ := by
  rw [text_eq]
  cases absolute with
  | true =>
    have hsegments : segments ("/" ++ String.intercalate "/" parts) = parts := by
      have hroot := segments_append "" (String.intercalate "/" parts)
      rwa [String.empty_append, segments_intercalate h, show segments "" = [] from rfl,
        List.nil_append] at hroot
    rw [if_pos rfl, ofString, hsegments]
    simp [String.toList_append]
  | false =>
    rw [if_neg Bool.false_ne_true, String.empty_append, ofString, segments_intercalate h]
    simpa using head?_intercalate h

/-- The text of a way is read as this way. -/
theorem ofString_wayText {parts : List String} (h : ∀ part ∈ parts, IsSegment part) :
    ofString (wayText ⟨false, parts.map stepOf⟩) = ⟨false, parts.map stepOf⟩ := by
  cases parts with
  | nil => rfl
  | cons part parts => exact ofString_text h false

theorem exists_parts {steps : List Step} {text : String}
    (h : ∀ step ∈ steps, step = .up ∨ step ∈ (ofString text).steps) :
    ∃ parts : List String, (∀ part ∈ parts, IsSegment part) ∧ parts.map stepOf = steps := by
  induction steps with
  | nil => exact ⟨[], nofun, rfl⟩
  | cons step steps ih =>
    obtain ⟨parts, hparts, rfl⟩ := ih (fun step hin => h step (List.mem_cons_of_mem _ hin))
    obtain ⟨part, hpart, rfl⟩ : ∃ part, IsSegment part ∧ stepOf part = step := by
      rcases h step List.mem_cons_self with rfl | hin
      · exact ⟨"..", ⟨by decide, by decide, by decide⟩, rfl⟩
      · obtain ⟨part, hpart, rfl⟩ := List.mem_map.mp hin
        exact ⟨part, isSegment_of_mem hpart, rfl⟩
    exact ⟨part :: parts, List.forall_mem_cons.mpr ⟨hpart, hparts⟩, rfl⟩

/-- The way from the text of a base to that of a path is read as this way. -/
theorem ofString_wayText_relativeTo? {path base : String}
    (h : (ofString path).relativeTo? (ofString base) = some way) : ofString way.wayText = way := by
  obtain ⟨-, common, a', b', ha, -, -, rfl⟩ := exists_rests h
  have hsteps : ∀ step ∈ List.replicate b'.length .up ++ a',
      step = .up ∨ step ∈ (ofString path).steps := by
    intro step hin
    rcases List.mem_append.mp hin with hin | hin
    · exact .inl (List.eq_of_mem_replicate hin)
    · exact .inr (mem_of_mem_cancel (ha ▸ List.mem_append_right _ hin))
  obtain ⟨parts, hparts, hmap⟩ := exists_parts hsteps
  rw [← hmap, ofString_wayText hparts]

/-- If any relative path leads from the base to the path, the way does. -/
theorem parse_joinText_of_exists {path base other : String}
    (h : (ofString path).relativeTo? (ofString base) = some way)
    (hrelative : (ofString other).absolute = false)
    (hleads : parse (joinText base other) = parse path) :
    parse (joinText base way.wayText) = parse path := by
  rw [parse, ofString_joinText, ofString_wayText_relativeTo? h]
  refine (normalize_join_relativeTo?_iff h).mpr ?_
  rw [parse, ofString_joinText, join, hrelative, if_neg Bool.false_ne_true] at hleads
  rw [show (ofString path).normalize = parse path from rfl, ← hleads]
  exact count_up_le_cancel_append _ _

/-- Between the texts of two paths there is no way just in case one of them is absolute and the other
is not. A way, put behind the base, leads to the path just in case the base has no more steps up than
the path when both are normal. -/
theorem relative_ways (path base : String) :
    ((ofString path).relativeTo? (ofString base) = none ↔
        ¬(path.toList.head? = some '/' ↔ base.toList.head? = some '/')) ∧
      ∀ way, (ofString path).relativeTo? (ofString base) = some way →
        (parse (joinText base way.wayText) = parse path ↔
          (parse base).steps.count .up ≤ (parse path).steps.count .up) := by
  constructor
  · rw [relativeTo?_eq_none_iff, ne_eq, not_iff_not, Bool.eq_iff_iff]
    simp [ofString]
  · intro way h
    rw [parse, ofString_joinText, ofString_wayText_relativeTo? h]
    exact normalize_join_relativeTo?_iff h

/-- The way from one path beside another, with steps of all kinds in both. -/
theorem relative_ways_sample :
    (ofString "../src/./main").relativeTo? (ofString "../a/../lib") =
        some ⟨false, [.up, .into "src", .into "main"]⟩ ∧
      parse (joinText "../a/../lib" "../src/main") = parse "../src/./main" := by
  have hway : (ofString "../src/./main").relativeTo? (ofString "../a/../lib") =
      some ⟨false, [.up, .into "src", .into "main"]⟩ := by decide +kernel
  have h := ((relative_ways "../src/./main" "../a/../lib").2 _ hway).mpr (by decide +kernel)
  exact ⟨hway, h⟩

/-- There is no way out of a step up: `../../b` does not lead from `/../a` to `/b`, as `/b` does. -/
theorem not_relative_ways :
    (¬∀ (path base : String) (way : Path),
      (ofString path).relativeTo? (ofString base) = some way →
        parse (joinText base way.wayText) = parse path) ∧
      parse (joinText "/../a" "/b") = parse "/b" := by
  refine ⟨fun h => ?_, by decide +kernel⟩
  have hjoined := h "/b" "/../a" ⟨false, [.up, .up, .into "b"]⟩ (by decide +kernel)
  revert hjoined
  decide +kernel

end GoLowering.Source.Path
