import Mathlib.Logic.Relation
import GoLowering.Proofs.RelativePaths
import GoLowering.Source.Basic

/-!
# Spellings of a path

Empty parts of the text of a path and dots can be left out, and so can a name with a step up behind
it (`Path.Shortens`). Two texts name the same place if they are equal up to such parts, in whatever
order these are left out or put in (`Path.SamePlace`). What is left of the steps of a path is not
changed by any of this, and every text is shortened to that of its normal path; so two texts name
the same place just in case their normal paths are equal (`Path.parse_eq_iff`).

Files are kept by their normal paths. A file is found under all spellings of its path, and under no
others, whatever has been added before and since, and none is added a second time
(`Sources.path_spellings`).
-/

namespace GoLowering

namespace Source.Path

variable {a b : List String} {path path' : String}

/-! ## The same place -/

/-- The parts of a text between its slashes, with the empty ones and dots. -/
def parts (text : String) : List String := (fields '/' text.toList).map String.ofList

/-- A part is left out that a path goes nowhere by, or a name that it goes back from. -/
inductive Shortens : List String → List String → Prop
  | empty (before after : List String) : Shortens (before ++ "" :: after) (before ++ after)
  | dot (before after : List String) : Shortens (before ++ "." :: after) (before ++ after)
  | back (before after : List String) {name : String} (h : name ∉ ["", ".", ".."]) :
    Shortens (before ++ name :: ".." :: after) (before ++ after)

/-- Whether two texts of paths name the same place, from the root or from where one is. -/
def SamePlace (path path' : String) : Prop :=
  (path.toList.head? = some '/' ↔ path'.toList.head? = some '/') ∧
    Relation.EqvGen Shortens (parts path) (parts path')

theorem Shortens.append (h : Shortens a b) (more : List String) :
    Shortens (a ++ more) (b ++ more) := by
  cases h with
  | empty before after => simpa using Shortens.empty before (after ++ more)
  | dot before after => simpa using Shortens.dot before (after ++ more)
  | back before after hname => simpa using Shortens.back before (after ++ more) hname

theorem eqvGen_append (h : Relation.EqvGen Shortens a b) (more : List String) :
    Relation.EqvGen Shortens (a ++ more) (b ++ more) := by
  induction h with
  | rel _ _ h => exact .rel _ _ (h.append more)
  | refl _ => exact .refl _
  | symm _ _ _ ih => exact .symm _ _ ih
  | trans _ _ _ _ _ ih₁ ih₂ => exact .trans _ _ _ ih₁ ih₂

/-! ## Steps of parts -/

/-- The steps that some parts stand for. -/
def stepsOf (parts : List String) : List Step :=
  (parts.filter (fun s => s != "" && s != ".")).map stepOf

theorem steps_ofString (text : String) : (ofString text).steps = stepsOf (parts text) := rfl

theorem stepsOf_append (a b : List String) : stepsOf (a ++ b) = stepsOf a ++ stepsOf b := by
  rw [stepsOf, List.filter_append, List.map_append]
  rfl

theorem stepsOf_up : stepsOf [".."] = [.up] := rfl

theorem stepsOf_name {name : String} (h : name ∉ ["", ".", ".."]) :
    stepsOf [name] = [.into name] := by
  simp only [List.mem_cons, List.not_mem_nil, or_false, not_or] at h
  simp [stepsOf, stepOf, h]

/-- What is left of the steps is left of them without such parts. -/
theorem Shortens.cancel_eq (h : Shortens a b) : cancel (stepsOf a) = cancel (stepsOf b) := by
  cases h with
  | empty before after | dot before after =>
    rw [stepsOf_append, stepsOf_append]
    rfl
  | @back before after name hname =>
    have hback : stepsOf (before ++ name :: ".." :: after) =
        stepsOf before ++ [name].map .into ++ List.replicate [name].length .up ++
          stepsOf after := by
      rw [← List.singleton_append, ← List.singleton_append (l := after), stepsOf_append,
        stepsOf_append, stepsOf_append, stepsOf_name hname, stepsOf_up]
      simp
    rw [hback, ← cancel_cancel_append, cancel_there_and_back, cancel_cancel_append,
      ← stepsOf_append]

theorem stepOf_eq_into_iff {part name : String} :
    stepOf part = .into name ↔ part ≠ ".." ∧ part = name := by
  rw [stepOf]
  split
  · rename_i hup
    simp [beq_iff_eq.mp hup]
  · rename_i hup
    simpa using fun _ => mt beq_iff_eq.mpr hup

/-- The names among the steps of some parts are no steps up. -/
theorem name_notMem {name : String} (h : .into name ∈ stepsOf a) : name ∉ ["", ".", ".."] := by
  obtain ⟨part, hin, hpart⟩ := List.mem_map.mp h
  obtain ⟨hup, rfl⟩ := stepOf_eq_into_iff.mp hpart
  simpa [hup] using (List.mem_filter.mp hin).2

theorem map_text_normalSteps (ups : Nat) (names : List String) :
    (normalSteps ups names).map Step.text = List.replicate ups ".." ++ names := by
  simp [normalSteps, Step.text, Function.comp_def]

/-- Parts are shortened to what is left of their steps. -/
theorem eqvGen_cancel (parts : List String) :
    Relation.EqvGen Shortens parts ((cancel (stepsOf parts)).map Step.text) := by
  induction parts using List.reverseRecOn with
  | nil => exact .refl _
  | append_singleton parts part ih =>
    obtain ⟨ups, names, hnormal⟩ := exists_normalSteps (stepsOf parts)
    rw [hnormal, map_text_normalSteps] at ih
    have hparts := eqvGen_append ih [part]
    rw [stepsOf_append]
    by_cases hpart : part ∈ ["", ".", ".."]
    · simp only [List.mem_cons, List.not_mem_nil, or_false] at hpart
      rcases hpart with rfl | rfl | rfl
      · rw [show stepsOf [""] = [] from rfl, List.append_nil, hnormal, map_text_normalSteps]
        refine .trans _ _ _ hparts (.rel _ _ ?_)
        simpa using Shortens.empty (List.replicate ups ".." ++ names) []
      · rw [show stepsOf ["."] = [] from rfl, List.append_nil, hnormal, map_text_normalSteps]
        refine .trans _ _ _ hparts (.rel _ _ ?_)
        simpa using Shortens.dot (List.replicate ups ".." ++ names) []
      · rw [stepsOf_up]
        rcases List.eq_nil_or_concat' names with rfl | ⟨names, name, rfl⟩
        · rw [cancel_concat_up_of_nil hnormal, map_text_normalSteps, List.replicate_succ']
          simpa using hparts
        · have hleft : .into name ∈ cancel (stepsOf parts) := by
            rw [hnormal]
            simp [normalSteps]
          have hback := Shortens.back (List.replicate ups ".." ++ names) []
            (name_notMem (mem_of_mem_cancel hleft))
          rw [cancel_concat_up hnormal, map_text_normalSteps]
          refine .trans _ _ _ hparts (.rel _ _ ?_)
          simpa using hback
    · rw [stepsOf_name hpart, cancel_concat_into hnormal, map_text_normalSteps]
      simpa using hparts

theorem eqvGen_shortens_iff :
    Relation.EqvGen Shortens a b ↔ cancel (stepsOf a) = cancel (stepsOf b) := by
  constructor
  · intro h
    induction h with
    | rel _ _ h => exact h.cancel_eq
    | refl _ => rfl
    | symm _ _ _ ih => exact ih.symm
    | trans _ _ _ _ _ ih₁ ih₂ => exact ih₁.trans ih₂
  · intro h
    exact .trans _ _ _ (eqvGen_cancel a) (h ▸ .symm _ _ (eqvGen_cancel b))

/-- Two texts name the same place just in case their normal paths are equal. -/
theorem parse_eq_iff : parse path = parse path' ↔ SamePlace path path' := by
  rw [parse, parse, normalize_eq, normalize_eq, Path.mk.injEq, SamePlace, eqvGen_shortens_iff,
    steps_ofString, steps_ofString]
  refine and_congr_left' ?_
  rw [Bool.eq_iff_iff]
  simp [ofString]

/-! ## The text of a normal path -/

theorem isSegment_of_into {name : String} (h : .into name ∈ (ofString path).steps) :
    IsSegment name := by
  obtain ⟨part, hin, hpart⟩ := List.mem_map.mp h
  obtain ⟨-, rfl⟩ := stepOf_eq_into_iff.mp hpart
  exact isSegment_of_mem hin

/-- The steps of a normal path are read from steps up and names behind them. -/
theorem exists_parse_eq (path : String) :
    ∃ ups names, (∀ name ∈ names, IsSegment name ∧ name ≠ "..") ∧
      parse path = ⟨(ofString path).absolute, (List.replicate ups ".." ++ names).map stepOf⟩ := by
  obtain ⟨ups, names, hnormal⟩ := exists_normalSteps (ofString path).steps
  have hnames : ∀ name ∈ names, IsSegment name ∧ name ≠ ".." := by
    intro name hname
    have hleft : .into name ∈ cancel (ofString path).steps := by
      rw [hnormal]
      simp [normalSteps, hname]
    have hstep := mem_of_mem_cancel hleft
    exact ⟨isSegment_of_into hstep, fun hup => name_notMem (a := parts path) hstep (by simp [hup])⟩
  refine ⟨ups, names, hnames, ?_⟩
  have hsteps : names.map stepOf = names.map .into :=
    List.map_congr_left fun name hname => stepOf_eq_into_iff.mpr ⟨(hnames name hname).2, rfl⟩
  rw [parse, normalize_eq, hnormal, List.map_append, hsteps, List.map_replicate]
  rfl

theorem isSegment_up : IsSegment ".." := ⟨by decide, by decide, by decide⟩

theorem isSegment_of_mem_append {ups : Nat} {names : List String} {part : String}
    (hnames : ∀ name ∈ names, IsSegment name ∧ name ≠ "..")
    (h : part ∈ List.replicate ups ".." ++ names) : IsSegment part := by
  rcases List.mem_append.mp h with hup | hname
  · rw [List.eq_of_mem_replicate hup]
    exact isSegment_up
  · exact (hnames part hname).1

/-- The text of a normal path is read as this path. -/
theorem ofString_text_parse (path : String) : ofString (parse path).text = parse path := by
  obtain ⟨ups, names, hnames, hparse⟩ := exists_parse_eq path
  rw [hparse, ofString_text fun part hpart => isSegment_of_mem_append hnames hpart]

theorem parse_text_parse (path : String) : parse (parse path).text = parse path := by
  rw [parse, ofString_text_parse, parse, normalize_normalize]

theorem parts_append (a b : String) : parts (a ++ "/" ++ b) = parts a ++ parts b := by
  have hlist : (a ++ "/" ++ b).toList = a.toList ++ '/' :: b.toList := by
    simp [String.toList_append]
  rw [parts, hlist, fields_append, List.map_append]
  rfl

theorem mem_parts_intercalate {list : List String} {part : String}
    (hlist : ∀ part ∈ list, '/' ∉ part.toList) (h : part ∈ parts (String.intercalate "/" list)) :
    part ∈ list ∨ part = "" := by
  induction list with
  | nil => exact .inr (List.mem_singleton.mp h)
  | cons first rest ih =>
    have hfirst : parts first = [first] := by
      rw [parts, fields_of_notMem (hlist first List.mem_cons_self)]
      simp
    cases rest with
    | nil =>
      rw [String.intercalate_singleton, hfirst] at h
      exact .inl h
    | cons next rest =>
      rw [String.intercalate_cons_cons, parts_append, hfirst] at h
      rcases List.mem_append.mp h with h | h
      · exact .inl (List.mem_cons.mpr (.inl (List.mem_singleton.mp h)))
      · rcases ih (fun part hin => hlist part (List.mem_cons_of_mem _ hin)) h with h | h
        · exact .inl (List.mem_cons_of_mem _ h)
        · exact .inr h

/-- A normal path is steps up and names behind them, with the root before them or not. -/
theorem exists_text_parse (path : String) :
    ∃ ups names, (∀ name ∈ names, IsSegment name ∧ name ≠ "..") ∧
      (parse path).text = (if path.toList.head? = some '/' then "/" else "") ++
        String.intercalate "/" (List.replicate ups ".." ++ names) := by
  obtain ⟨ups, names, hnames, hparse⟩ := exists_parse_eq path
  refine ⟨ups, names, hnames, ?_⟩
  rw [hparse, text_eq]
  simp [ofString]

theorem dot_notMem_parts (path : String) : "." ∉ parts (parse path).text := by
  obtain ⟨ups, names, hnames, htext⟩ := exists_text_parse path
  have hlist : "." ∉ parts (String.intercalate "/" (List.replicate ups ".." ++ names)) := by
    intro hdot
    have hsegment {part : String} (hpart : part ∈ List.replicate ups ".." ++ names) :
        IsSegment part := isSegment_of_mem_append hnames hpart
    rcases mem_parts_intercalate (fun _ hpart => (hsegment hpart).unbroken) hdot with hin | hempty
    · exact (hsegment hin).ne_dot rfl
    · exact absurd hempty (by decide)
  rw [htext]
  split
  · rw [← String.empty_append (s := "/"), parts_append]
    exact fun h => (List.mem_append.mp h).elim (by decide) hlist
  · rwa [String.empty_append]

theorem head?_text_parse (path : String) :
    (parse path).text.toList.head? = some '/' ↔ path.toList.head? = some '/' := by
  have hread := congrArg Path.absolute (ofString_text_parse path)
  rw [parse, normalize_eq, Bool.eq_iff_iff] at hread
  simpa [ofString, parse, normalize_eq] using hread

end Source.Path

/-! ## Files -/

/-- An addition to the sources. -/
inductive SourceRequest where
  | file (path text : String)
  | virtual (label text : String)

namespace Sources

open Source Source.Path

variable {s : Sources} {id : FileId} {f : SourceFile} {path : String}

def perform (s : Sources) : SourceRequest → Sources
  | .file path text => (s.add path text).2
  | .virtual label text => (s.addVirtual label text).2

def performAll (s : Sources) (requests : List SourceRequest) : Sources :=
  requests.foldl perform s

/-- No two files are kept under one path. -/
def OncePlaced (s : Sources) : Prop :=
  ∀ {id id' f f' place}, s.get? id = some f → s.get? id' = some f' → f.place = some place →
    f'.place = some place → id = id'

theorem get?_lookup? (h : s.lookup? path = some id) :
    ∃ f, s.get? id = some f ∧ f.place = some (parse path) := by
  obtain ⟨i, hfind, rfl⟩ := Option.map_eq_some_iff.mp h
  obtain ⟨hi, hplace, -⟩ := Array.findIdx?_eq_some_iff_getElem.mp hfind
  exact ⟨s.files[i], Array.getElem?_eq_getElem hi, beq_iff_eq.mp hplace⟩

theorem place_ne (h : s.lookup? path = none) (hf : s.get? id = some f) :
    f.place ≠ some (parse path) := by
  have hall := Array.findIdx?_eq_none_iff.mp (Option.map_eq_none_iff.mp h)
  simpa using hall f (Array.mem_of_getElem? hf)

/-- The files that there are stay as they are, and at most one is put behind them. -/
theorem get?_push (hf : s.get? id = some f) (file : SourceFile) :
    get? ⟨s.files.push file⟩ id = some f := by
  rw [get?, Array.getElem?_push_lt (Array.getElem?_eq_some_iff.mp hf).1]
  exact congrArg some (Array.getElem?_eq_some_iff.mp hf).2

theorem get?_perform (hf : s.get? id = some f) (request : SourceRequest) :
    (s.perform request).get? id = some f := by
  cases request with
  | file path text =>
    rw [perform, add]
    split
    · exact hf
    · exact get?_push hf _
  | «virtual» label text => exact get?_push hf _

theorem get?_performAll (hf : s.get? id = some f) (requests : List SourceRequest) :
    (s.performAll requests).get? id = some f := by
  induction requests generalizing s with
  | nil => exact hf
  | cons request requests ih => exact ih (get?_perform hf request)

theorem performAll_append (s : Sources) (before more : List SourceRequest) :
    s.performAll (before ++ more) = (s.performAll before).performAll more :=
  List.foldl_append

/-- A file that is added is there. -/
theorem get?_add (s : Sources) (path text : String) :
    ∃ f, (s.add path text).2.get? (s.add path text).1 = some f ∧ f.place = some (parse path) := by
  rw [add]
  split
  · rename_i id hlookup
    exact get?_lookup? hlookup
  · exact ⟨_, Array.getElem?_push_size, rfl⟩

/-! ## No file twice -/

theorem oncePlaced_empty : empty.OncePlaced := by
  intro id id' f f' place hf
  cases hf

theorem eq_or_of_get?_push {file : SourceFile} (hf : get? ⟨s.files.push file⟩ id = some f) :
    s.get? id = some f ∨ id = ⟨s.files.size⟩ ∧ f = file := by
  rw [get?, Array.getElem?_push] at hf
  split at hf
  · rename_i hid
    refine .inr ⟨?_, (Option.some.inj hf).symm⟩
    rw [← hid]
  · exact .inl hf

theorem OncePlaced.push (h : s.OncePlaced) {file : SourceFile}
    (hnew : ∀ {id f place}, s.get? id = some f → f.place = some place → file.place ≠ some place) :
    OncePlaced ⟨s.files.push file⟩ := by
  intro id id' f f' place hf hf' hplace hplace'
  rcases eq_or_of_get?_push hf with hold | ⟨rfl, rfl⟩ <;>
    rcases eq_or_of_get?_push hf' with hold' | ⟨rfl, rfl⟩
  · exact h hold hold' hplace hplace'
  · exact absurd hplace' (hnew hold hplace)
  · exact absurd hplace (hnew hold' hplace')
  · rfl

theorem OncePlaced.perform (h : s.OncePlaced) (request : SourceRequest) :
    (s.perform request).OncePlaced := by
  cases request with
  | file path text =>
    rw [Sources.perform, add]
    split
    · exact h
    · rename_i hlookup
      exact h.push fun hf hplace hsame => place_ne hlookup hf (hplace.trans hsame.symm)
  | «virtual» label text =>
    refine h.push fun _ _ hsame => ?_
    cases hsame

theorem OncePlaced.performAll (h : s.OncePlaced) (requests : List SourceRequest) :
    (s.performAll requests).OncePlaced := by
  induction requests generalizing s with
  | nil => exact h
  | cons request requests ih => exact ih (h.perform request)

/-- A file is found under the paths that have its normal path. -/
theorem OncePlaced.lookup?_eq_some_iff (h : s.OncePlaced) :
    s.lookup? path = some id ↔ ∃ f, s.get? id = some f ∧ f.place = some (parse path) := by
  constructor
  · exact get?_lookup?
  · rintro ⟨f, hf, hplace⟩
    cases hlookup : s.lookup? path with
    | none => exact absurd hplace (place_ne hlookup hf)
    | some id' =>
      obtain ⟨f', hf', hplace'⟩ := get?_lookup? hlookup
      rw [h hf' hf hplace' hplace]

/-- The text of a normal path has no dots, and steps up only in front of all names; it is absolute
if the path is, and read as the normal path again. Two texts have one normal path just in case they
name the same place. A file that has been added is found and added again under the texts that name
the same place as its path, whatever was added before and since, and no file is there twice. -/
theorem path_spellings (path : String) :
    (∃ ups names, (∀ name ∈ names, IsSegment name ∧ name ≠ "..") ∧
      (parse path).text = (if path.toList.head? = some '/' then "/" else "") ++
        String.intercalate "/" (List.replicate ups ".." ++ names)) ∧
    "." ∉ parts (parse path).text ∧
    ((parse path).text.toList.head? = some '/' ↔ path.toList.head? = some '/') ∧
    parse (parse path).text = parse path ∧
    (∀ path', parse path = parse path' ↔ SamePlace path path') ∧
    ∀ (before more : List SourceRequest) (text : String),
      let id := ((empty.performAll before).add path text).1
      let s := empty.performAll (before ++ .file path text :: more)
      s.OncePlaced ∧ (∀ path', s.lookup? path' = some id ↔ SamePlace path path') ∧
        ∀ path' text', SamePlace path path' → s.add path' text' = (id, s) := by
  refine ⟨exists_text_parse path, dot_notMem_parts path, head?_text_parse path,
    parse_text_parse path, fun _ => parse_eq_iff, fun before more text => ?_⟩
  intro id s
  have honce : s.OncePlaced := oncePlaced_empty.performAll _
  obtain ⟨f, hf, hplace⟩ : ∃ f, s.get? id = some f ∧ f.place = some (parse path) := by
    obtain ⟨f, hf, hplace⟩ := get?_add (empty.performAll before) path text
    refine ⟨f, ?_, hplace⟩
    have hs : s = ((empty.performAll before).add path text).2.performAll more :=
      performAll_append _ _ _
    rw [hs]
    exact get?_performAll hf more
  have hlookup (path' : String) : s.lookup? path' = some id ↔ SamePlace path path' := by
    rw [honce.lookup?_eq_some_iff, ← parse_eq_iff]
    constructor
    · rintro ⟨f', hf', hplace'⟩
      obtain rfl := Option.some.inj (hf'.symm.trans hf)
      exact Option.some.inj (hplace.symm.trans hplace')
    · intro hsame
      exact ⟨f, hf, hsame ▸ hplace⟩
  refine ⟨honce, hlookup, fun path' text' hsame => ?_⟩
  rw [add, (hlookup path').mpr hsame]

/-- A file under two spellings of its path, with steps up in all positions. -/
theorem path_spellings_sample :
    SamePlace "/../src/./lib/../main" "//../src/x/../main/" ∧
      (empty.performAll [.virtual "x" "", .file "/../src/./lib/../main" "a", .virtual "y" ""]).add
        "//../src/x/../main/" "b" = (⟨1⟩,
          empty.performAll [.virtual "x" "", .file "/../src/./lib/../main" "a", .virtual "y" ""]) := by
  obtain ⟨-, -, -, -, hplace, hfiles⟩ := path_spellings "/../src/./lib/../main"
  have hsame := (hplace "//../src/x/../main/").mp (by decide +kernel)
  have hadd := (hfiles [.virtual "x" ""] [.virtual "y" ""] "a").2.2 _ "b" hsame
  have hid : ((empty.performAll [.virtual "x" ""]).add "/../src/./lib/../main" "a").1 = ⟨1⟩ := by
    decide +kernel
  rw [hid] at hadd
  exact ⟨hsame, hadd⟩

end Sources

end GoLowering
