import Mathlib.Data.List.Pairwise
import GoLowering.Proofs.DeclarationNames

/-!
# Redeclarations

What sets the declarations of the output apart: their names, and for methods the types they are
declared for (`HostFile.slots`). Blank names and `init` functions may come any number of times.

Conflicts are looked for before types are known, by the text of the receiver, and not at all for
the entry that is made. So no two declarations of the output are alike just in case the entry is
named like no type and no value, and methods of one name whose receivers are written differently
belong to different types (`slots_nodup_iff`). A variable named `main` beside the entry is not
reported (`slots_entry_clash`).
-/

namespace GoLowering

/-- What sets a function of the output apart, unless it may come any number of times. -/
def HostFile.functionSlots (tree : HostTree) (types : TypeTable) (id : HostId) :
    List (Option TypeId × String) :=
  match tree.kind id with
  | .function decl =>
    match decl.receiver with
    | some receiver =>
      if decl.name = "_" then [] else [(some (Environment.methodBase types receiver.type), decl.name)]
    | none => if decl.name = "_" ∨ decl.name = "init" then [] else [(none, decl.name)]
  | _ => []

/-- What sets the declarations of the output apart: the type that a method is declared for, and
the name. -/
def HostFile.slots (file : HostFile) : List (Option TypeId × String) :=
  ((file.tree.names (file.typeDecls ++ file.valueDecls)).filter (· ≠ "_")).map (none, ·) ++
    file.functionDecls.flatMap (functionSlots file.tree file.types)

namespace Lowering

open Surface

/-- The type that the method declared at a statement is put out for. -/
def State.methodBase? (s : State) (root : NodeId) : Option TypeId :=
  match (s.outline.functions.filled root).map s.tree.kind with
  | [.function decl] =>
    decl.receiver.map (fun receiver => Environment.methodBase s.types receiver.type)
  | _ => none

/-- What sets a declaration of a statement apart in the output. -/
def slotOf (s : State) (root : NodeId) (d : Declaration) : Option TypeId × String :=
  (if d.receiver.isSome then s.methodBase? root else none, d.name)

/-- What sets the declarations of a statement that are put out apart. -/
def slotsAt (c : Context) (s : State) (spelled : NodeId → List Bool) (root : NodeId) :
    List (Option TypeId × String) :=
  ((spelledDeclarations c spelled root).filter (!·.isRepeatable)).map (slotOf s root)

/-- Methods of one name whose receivers are written differently belong to different types. -/
def MethodsApart (c : Context) (s : State) (roots : List NodeId) : Prop :=
  ∀ r₁ ∈ roots, ∀ r₂ ∈ roots, ∀ d₁ ∈ declarationsOf c r₁, ∀ d₂ ∈ declarationsOf c r₂,
    d₁.kind = .method → d₂.kind = .method → d₁.name = d₂.name → d₁.name ≠ "_" →
    d₁.receiver ≠ d₂.receiver → s.methodBase? r₁ ≠ s.methodBase? r₂

/-- The entry is an `init` function, or named like no type and no value that is put out. -/
def EntryApart (c : Context) (roots : List NodeId) (spelled : NodeId → List Bool)
    (entry : Option Declaration) : Prop :=
  ∀ e ∈ entry, e.name = "init" ∨ ∀ root ∈ roots, ∀ d ∈ spelledDeclarations c spelled root,
    d.kind = .type ∨ d.kind = .var ∨ d.kind = .const → d.name ≠ e.name

section

variable {c : Context} {roots : List NodeId} {s s' : State} {spelled : NodeId → List Bool}

/-! ## The slots of a statement -/

theorem spelledDeclarations_sublist (root : NodeId) :
    (spelledDeclarations c spelled root).Sublist (declarationsOf c root) := by
  have hzip (xs : List Declaration) (bs : List Bool) :
      ((xs.zip bs).filterMap (fun entry => if entry.2 then some entry.1 else none)).Sublist xs := by
    induction xs generalizing bs with
    | nil => simp
    | cons x xs ih =>
      cases bs with
      | nil => simp
      | cons b bs =>
        cases b with
        | true => simpa using ih bs
        | false => simpa using (ih bs).cons x
  unfold spelledDeclarations
  split
  · exact hzip _ _
  · exact List.Sublist.refl _

/-- Only methods have a receiver, and a method is all that its statement declares. -/
theorem receiver_iff {root : NodeId} {d : Declaration} (h : d ∈ declarationsOf c root) :
    d.receiver.isSome ↔ d.kind = .method := by
  unfold declarationsOf at h
  split at h
  · rw [List.mem_singleton.mp h]
    simp [Declaration.plain]
  · obtain ⟨name, -, rfl⟩ := List.mem_map.mp h
    simp [Declaration.plain]
  · obtain ⟨name, -, rfl⟩ := List.mem_map.mp h
    simp [Declaration.plain]
  · split at h <;> rw [List.mem_singleton.mp h] <;> simp [Declaration.plain, Declaration.method]
  · exact absurd h List.not_mem_nil

theorem kind_cases {root : NodeId} {d : Declaration} (h : d ∈ declarationsOf c root) :
    d.kind = .type ∨ d.kind = .var ∨ d.kind = .const ∨ d.kind = .method ∨
      ∃ decl, c.unit.stmt? root = some (.function decl) ∧ decl.receiver = none ∧
        d.name = decl.name := by
  unfold declarationsOf at h
  split at h
  · rw [List.mem_singleton.mp h]
    exact .inl rfl
  · obtain ⟨name, -, rfl⟩ := List.mem_map.mp h
    exact .inr (.inl rfl)
  · obtain ⟨name, -, rfl⟩ := List.mem_map.mp h
    exact .inr (.inr (.inl rfl))
  · rename_i decl hstmt
    split at h
    · rw [List.mem_singleton.mp h]
      exact .inr (.inr (.inr (.inl rfl)))
    · rename_i hreceiver
      rw [List.mem_singleton.mp h]
      exact .inr (.inr (.inr (.inr ⟨decl, hstmt, hreceiver, rfl⟩)))
  · exact absurd h List.not_mem_nil

theorem method_stmt {root : NodeId} {d : Declaration} (h : d ∈ declarationsOf c root)
    (hkind : d.kind = .method) : ∃ decl receiver,
      c.unit.stmt? root = some (.function decl) ∧ decl.receiver = some receiver := by
  unfold declarationsOf at h
  split at h
  · rw [List.mem_singleton.mp h] at hkind
    cases hkind
  · obtain ⟨name, -, rfl⟩ := List.mem_map.mp h
    cases hkind
  · obtain ⟨name, -, rfl⟩ := List.mem_map.mp h
    cases hkind
  · rename_i decl hstmt
    split at h
    · rename_i receiver hreceiver
      exact ⟨decl, receiver, hstmt, hreceiver⟩
    · rw [List.mem_singleton.mp h] at hkind
      cases hkind
  · exact absurd h List.not_mem_nil

theorem methodBase?_isSome (hs : Lowered c roots roots roots roots s) {root : NodeId}
    {d : Declaration} (hroot : root ∈ roots) (h : d ∈ declarationsOf c root)
    (hkind : d.kind = .method) : (s.methodBase? root).isSome := by
  obtain ⟨decl, receiver, hstmt, hreceiver⟩ := method_stmt h hkind
  obtain ⟨id, hfilled, -, function, hfunction, -, hsome⟩ := hs.functions root hroot decl hstmt
  rw [hreceiver] at hsome
  simp [State.methodBase?, hfilled, hfunction, hsome]

/-- The slots of a statement that declares no function are its names. -/
theorem slotsAt_names {root : NodeId}
    (h : ∀ d ∈ declarationsOf c root, d.kind ≠ .func ∧ d.kind ≠ .method) :
    slotsAt c s spelled root =
      (((spelledDeclarations c spelled root).map (·.name)).filter (· ≠ "_")).map (none, ·) := by
  unfold slotsAt
  rw [List.filter_map, List.map_map]
  have hmem (d : Declaration) (hd : d ∈ spelledDeclarations c spelled root) :=
    spelledDeclarations_subset hd
  have hfilter : (spelledDeclarations c spelled root).filter (!·.isRepeatable) =
      (spelledDeclarations c spelled root).filter ((· ≠ "_") ∘ (·.name)) := by
    refine List.filter_congr (fun d hd => ?_)
    have hkind : (d.kind == .func) = false := beq_false_of_ne (h d (hmem d hd)).1
    by_cases hname : d.name = "_" <;> simp [Declaration.isRepeatable, hkind, hname]
  rw [hfilter]
  refine List.map_congr_left (fun d hd => ?_)
  have hd := hmem d (List.mem_of_mem_filter hd)
  have hreceiver : d.receiver.isSome = false := by
    simpa using fun hr => (h d hd).2 ((receiver_iff hd).mp hr)
  simp [slotOf, hreceiver]

/-- What is put out for the types or the values of a unit. -/
theorem plain_slots {rank : Nat} (hrank : rank < 2) {names : NodeId → List String}
    (hnames : ∀ root ∈ ranked c rank roots, (names root).filter (· ≠ "_") =
      ((spelledDeclarations c spelled root).map (·.name)).filter (· ≠ "_")) :
    (((ranked c rank roots).flatMap names).filter (· ≠ "_")).map ((none : Option TypeId), ·) =
      (ranked c rank roots).flatMap (slotsAt c s spelled) := by
  rw [List.filter_flatMap, List.map_flatMap]
  refine List.flatMap_congr (fun root hroot => ?_)
  rw [hnames root hroot]
  refine (slotsAt_names (fun d hd => ?_)).symm
  have h₁ := rank_declarationsOf hd
  have h₂ : rankOf? c root = some rank := by simpa using (List.mem_filter.mp hroot).2
  have hkind : d.kind.rank = rank := Option.some.inj (h₁.symm.trans h₂)
  constructor <;> intro he <;> rw [he] at hkind <;> simp [DeclKind.rank] at hkind <;> omega

/-- A type whose name does not stand for it is blank. -/
theorem type_slots (hs : Lowered c roots roots roots roots s) {root : NodeId}
    (hroot : root ∈ ranked c 0 roots) :
    (if isOwner c roots root then (spelledDeclarations c spelled root).map (·.name) else []).filter
        (· ≠ "_") =
      ((spelledDeclarations c spelled root).map (·.name)).filter (· ≠ "_") := by
  obtain ⟨hmem, name, type, isAlias, doc, hstmt⟩ := mem_ranked_types hroot
  have hnames : (spelledDeclarations c spelled root).map (·.name) = [name] := by
    simp [spelledDeclarations, declarationsOf, hstmt, Declaration.plain]
  rw [hnames]
  by_cases hname : name = "_"
  · split <;> simp [hname]
  · rw [if_pos (isOwner_of_length_le hmem hstmt (typesNamed_length_le hs.underway hname))]

/-- What is put out for a function. -/
theorem function_slots (hs : Lowered c roots roots roots roots s) {root : NodeId}
    (hroot : root ∈ ranked c 2 roots) :
    (s.outline.functions.filled root).flatMap (HostFile.functionSlots s.tree s.types) =
      slotsAt c s spelled root := by
  obtain ⟨hmem, hrank⟩ := List.mem_filter.mp hroot
  unfold rankOf? at hrank
  split at hrank
  · simp at hrank
  · simp at hrank
  · simp at hrank
  · rename_i decl hstmt
    obtain ⟨id, hfilled, -, function, hkind, hname, hsome⟩ := hs.functions root hmem decl hstmt
    rw [hfilled]
    simp only [List.flatMap_cons, List.flatMap_nil, List.append_nil, HostFile.functionSlots, hkind,
      slotsAt, spelledDeclarations, declarationsOf, hstmt]
    cases hreceiver : decl.receiver with
    | none =>
      have hnone : function.receiver = none := by simpa [hreceiver] using hsome
      by_cases he : decl.name = "_" ∨ decl.name = "init"
      · rcases he with he | he <;>
          simp [hnone, hname, he, Declaration.isRepeatable, Declaration.plain]
      · have : decl.name ≠ "_" ∧ decl.name ≠ "init" := not_or.mp he
        simp [hnone, hname, this, Declaration.isRepeatable, Declaration.plain, slotOf]
    | some receiver =>
      obtain ⟨param, hparam⟩ : ∃ param, function.receiver = some param := by
        rw [hreceiver] at hsome
        exact Option.isSome_iff_exists.mp hsome
      by_cases he : decl.name = "_"
      · simp [hparam, hname, he, Declaration.isRepeatable, Declaration.method]
      · simp [hparam, hname, he, Declaration.isRepeatable, Declaration.method, slotOf,
          State.methodBase?, hfilled, hkind]
  · simp at hrank

/-! ## All slots -/

/-- Statements rank by rank are the statements that have a rank, in another order. -/
theorem ranked_perm {α : Type} {f : NodeId → List α}
    (h : ∀ root, rankOf? c root = none → f root = []) :
    ((ranked c 0 roots).flatMap f ++ (ranked c 1 roots).flatMap f ++
      (ranked c 2 roots).flatMap f).Perm (roots.flatMap f) := by
  induction roots with
  | nil => exact .refl _
  | cons root rest ih =>
    have hcons (rank : Nat) : (ranked c rank (root :: rest)).flatMap f =
        (if rankOf? c root = some rank then f root else []) ++ (ranked c rank rest).flatMap f := by
      unfold ranked
      by_cases hrank : rankOf? c root = some rank <;> simp [hrank]
    rw [List.flatMap_cons, hcons, hcons, hcons]
    cases hrank : rankOf? c root with
    | none => simpa [h root hrank] using ih
    | some rank =>
      have hpush (xs ys : List α) : (xs ++ (f root ++ ys)).Perm (f root ++ (xs ++ ys)) :=
        List.perm_append_comm_assoc ..
      obtain rfl | rfl | rfl : rank = 0 ∨ rank = 1 ∨ rank = 2 := by
        have := rankOf?_lt hrank
        omega
      · simpa using ih.append_left (f root)
      · have := ((hpush _ _).append_right _).trans
          ((List.append_assoc ..).symm ▸ ih.append_left (f root))
        simpa using this
      · simpa using (hpush _ _).trans (ih.append_left (f root))

theorem slotsAt_eq_nil {root : NodeId} (h : rankOf? c root = none) :
    slotsAt c s spelled root = [] := by
  have hnone : declarationsOf c root = [] := by
    refine List.eq_nil_iff_forall_not_mem.mpr (fun d hd => ?_)
    rw [rank_declarationsOf hd] at h
    cases h
  simp [slotsAt, List.sublist_nil.mp (hnone ▸ spelledDeclarations_sublist root)]

/-- The slots of what has been put out before the entry are those of the statements. -/
theorem slots_perm (hroots : roots.Nodup) (hs : Lowered c roots roots roots roots s)
    (htypes : s.tree.names s.outline.typeOutput = (ranked c 0 roots).flatMap (fun root =>
      if isOwner c roots root then (spelledDeclarations c spelled root).map (·.name) else []))
    (hvalues : s.tree.names s.outline.constantOutput = (ranked c 1 roots).flatMap (fun root =>
      (spelledDeclarations c spelled root).map (·.name))) :
    (((s.tree.names (s.outline.typeOutput ++ s.outline.constantOutput)).filter (· ≠ "_")).map
        (none, ·) ++
      s.outline.functions.values.flatMap (HostFile.functionSlots s.tree s.types)).Perm
      (roots.flatMap (slotsAt c s spelled)) := by
  have hfunctions : s.outline.functions.values.flatMap (HostFile.functionSlots s.tree s.types) =
      (ranked c 2 roots).flatMap (slotsAt c s spelled) := by
    rw [Places.values_eq (hs.underway.functions ▸ ranked_nodup 2 hroots), hs.underway.functions,
      List.flatMap_assoc]
    exact List.flatMap_congr (fun root hroot => function_slots hs hroot)
  rw [names_append, List.filter_append, List.map_append, htypes, hvalues, hfunctions,
    plain_slots (by decide) (fun root hroot => type_slots hs hroot),
    plain_slots (by decide) (fun _ _ => rfl)]
  exact ranked_perm (fun root hroot => slotsAt_eq_nil hroot)

/-! ## When slots are distinct -/

/-- The declarations that have slots, with their statements. -/
def slotted (c : Context) (spelled : NodeId → List Bool) (roots : List NodeId) :
    List (NodeId × Declaration) :=
  roots.flatMap (fun root =>
    ((spelledDeclarations c spelled root).filter (!·.isRepeatable)).map (root, ·))

theorem map_slotted (s : State) :
    (slotted c spelled roots).map (fun p => slotOf s p.1 p.2) =
      roots.flatMap (slotsAt c s spelled) := by
  simp only [slotted, List.map_flatMap, List.map_map]
  rfl

theorem mem_slotted {root : NodeId} {d : Declaration} :
    (root, d) ∈ slotted c spelled roots ↔
      root ∈ roots ∧ d ∈ spelledDeclarations c spelled root ∧ d.isRepeatable = false := by
  simp only [slotted, List.mem_flatMap, List.mem_map, List.mem_filter, Prod.mk.injEq]
  constructor
  · rintro ⟨_, hroot, _, ⟨hd, hrep⟩, rfl, rfl⟩
    exact ⟨hroot, hd, by simpa using hrep⟩
  · rintro ⟨hroot, hd, hrep⟩
    exact ⟨root, hroot, d, ⟨hd, by simpa using hrep⟩, rfl, rfl⟩

/-- No two declarations that have slots have the same name and the same text of a receiver. -/
theorem slotted_pairwise (hs : Underway c roots s) :
    (slotted c spelled roots).Pairwise
      (fun p q => ¬(p.2.receiver = q.2.receiver ∧ p.2.name = q.2.name)) := by
  have hdistinct := hs.sound.distinct
  rw [hs.sound.taken, hs.declared] at hdistinct
  have hsublist : ((slotted c spelled roots).map Prod.snd).Sublist
      ((roots.flatMap (declarationsOf c)).filter (!·.isRepeatable)) := by
    clear hdistinct hs
    induction roots with
    | nil => exact List.Sublist.refl _
    | cons root rest ih =>
      simp only [slotted, List.flatMap_cons, List.map_append, List.filter_append] at ih ⊢
      refine List.Sublist.append ?_ ih
      rw [List.map_map]
      simpa [Function.comp_def] using (spelledDeclarations_sublist root).filter _
  exact List.pairwise_map.mp (hdistinct.sublist hsublist)

theorem mem_slotted_method {root : NodeId} {d : Declaration} (hroot : root ∈ roots)
    (hd : d ∈ declarationsOf c root) (hkind : d.kind = .method) (hname : d.name ≠ "_") :
    (root, d) ∈ slotted c spelled roots := by
  obtain ⟨decl, receiver, hstmt, -⟩ := method_stmt hd hkind
  refine mem_slotted.mpr ⟨hroot, by simpa [spelledDeclarations, hstmt] using hd, ?_⟩
  simp [Declaration.isRepeatable, hname, hkind]

/-- Slots are distinct just in case methods whose receivers are written differently belong to
different types. -/
theorem slots_nodup (hs : Lowered c roots roots roots roots s) :
    (roots.flatMap (slotsAt c s spelled)).Nodup ↔ MethodsApart c s roots := by
  rw [← map_slotted s, List.Nodup, List.pairwise_map]
  constructor
  · intro h r₁ hr₁ r₂ hr₂ d₁ hd₁ d₂ hd₂ hk₁ hk₂ hname hblank hreceiver hbase
    have hsymm : Std.Symm (fun p q : NodeId × Declaration => slotOf s p.1 p.2 ≠ slotOf s q.1 q.2) :=
      ⟨fun _ _ h => h.symm⟩
    refine h.forall (mem_slotted_method hr₁ hd₁ hk₁ hblank)
      (mem_slotted_method hr₂ hd₂ hk₂ (hname ▸ hblank)) ?_ ?_
    · rintro he
      exact hreceiver (congrArg (fun p : NodeId × Declaration => p.2.receiver) he)
    · simp [slotOf, (receiver_iff hd₁).mpr hk₁, (receiver_iff hd₂).mpr hk₂, hbase, hname]
  · intro h
    refine (slotted_pairwise hs.underway).imp_of_mem (fun {p q} hp hq hne he => ?_)
    obtain ⟨r₁, d₁⟩ := p
    obtain ⟨r₂, d₂⟩ := q
    obtain ⟨hr₁, hd₁, hrep₁⟩ := mem_slotted.mp hp
    obtain ⟨hr₂, hd₂, -⟩ := mem_slotted.mp hq
    have hd₁ := spelledDeclarations_subset hd₁
    have hd₂ := spelledDeclarations_subset hd₂
    obtain ⟨hbase, hname⟩ := Prod.mk.inj he
    have hreceiver : d₁.receiver ≠ d₂.receiver := fun hsame => hne ⟨hsame, hname⟩
    by_cases h₁ : d₁.receiver.isSome <;> by_cases h₂ : d₂.receiver.isSome
    · have hblank : d₁.name ≠ "_" := by
        intro hblank
        simp [Declaration.isRepeatable, hblank] at hrep₁
      rw [if_pos h₁, if_pos h₂] at hbase
      exact h r₁ hr₁ r₂ hr₂ d₁ hd₁ d₂ hd₂ ((receiver_iff hd₁).mp h₁) ((receiver_iff hd₂).mp h₂)
        hname hblank hreceiver hbase
    · have hsome := methodBase?_isSome hs hr₁ hd₁ ((receiver_iff hd₁).mp h₁)
      rw [if_pos h₁, if_neg h₂] at hbase
      simp [hbase] at hsome
    · have hsome := methodBase?_isSome hs hr₂ hd₂ ((receiver_iff hd₂).mp h₂)
      rw [if_neg h₁, if_pos h₂] at hbase
      simp [← hbase] at hsome
    · refine hreceiver ?_
      rw [Option.not_isSome_iff_eq_none.mp h₁, Option.not_isSome_iff_eq_none.mp h₂]

/-! ## The entry -/

/-- What a type or a value of the unit has for a slot is its name, and so has no function when the
unit declares no entry itself. -/
theorem entry_slot_iff (hs : Lowered c roots roots roots roots s) (he : s.explicitEntry = false) :
    (none, c.settings.entryRole.functionName) ∈ roots.flatMap (slotsAt c s spelled) ↔
      ∃ root ∈ roots, ∃ d ∈ spelledDeclarations c spelled root,
        (d.kind = .type ∨ d.kind = .var ∨ d.kind = .const) ∧
          d.name = c.settings.entryRole.functionName := by
  have hblank : c.settings.entryRole.functionName ≠ "_" := by
    cases c.settings.entryRole <;> decide
  rw [← map_slotted s, List.mem_map]
  constructor
  · rintro ⟨⟨root, d⟩, hmem, hslot⟩
    obtain ⟨hroot, hd, -⟩ := mem_slotted.mp hmem
    obtain ⟨hbase, hd_name⟩ := Prod.mk.inj hslot
    refine ⟨root, hroot, d, hd, ?_, hd_name⟩
    have hd := spelledDeclarations_subset hd
    rcases kind_cases hd with h | h | h | hmethod | ⟨decl, hstmt, hreceiver, hdecl⟩
    · exact .inl h
    · exact .inr (.inl h)
    · exact .inr (.inr h)
    · have hsome := methodBase?_isSome hs hroot hd hmethod
      rw [if_pos ((receiver_iff hd).mpr hmethod)] at hbase
      simp [hbase] at hsome
    · have hentry : roots.any (isEntryFunction c) := by
        refine List.any_eq_true.mpr ⟨root, hroot, ?_⟩
        simpa [isEntryFunction, hstmt, hreceiver, ← hdecl] using hd_name
      rw [← hs.underway.explicitEntry, he] at hentry
      cases hentry
  · rintro ⟨root, hroot, d, hd, hkind, hd_name⟩
    have hnone : ¬d.receiver.isSome := by
      rw [receiver_iff (spelledDeclarations_subset hd)]
      rcases hkind with h | h | h <;> simp [h]
    refine ⟨(root, d), mem_slotted.mpr ⟨hroot, hd, ?_⟩, ?_⟩
    · rcases hkind with h | h | h <;> simp [Declaration.isRepeatable, h, hd_name, hblank]
    · simp [slotOf, hnone, hd_name]

theorem slots_ofState (c : Context) (s : State) :
    (LoweredUnit.ofState c s).file.slots =
      ((s.tree.names (s.outline.typeOutput ++ s.outline.constantOutput)).filter (· ≠ "_")).map
          (none, ·) ++
        s.outline.functionOutput.flatMap (HostFile.functionSlots s.tree s.types) := by
  unfold LoweredUnit.ofState
  dsimp only
  split <;> rfl

end

/-- No two declarations of the output are alike just in case the entry is named like no type and
no value, and methods of one name whose receivers are written differently belong to different
types. -/
theorem slots_nodup_iff {c : Context} {types : TypeTable} {out : LoweredUnit}
    (hroots : c.unit.roots.Nodup)
    (h : lowerUnitWith c.unit c.sources ⟨types, c.env⟩ c.settings c.registry = .ok out) :
    ∃ (entry : Option Declaration) (spelled : NodeId → List Bool),
      (∀ d ∈ entry, d.kind = .entry) ∧
      UnitSpelling c (.final c types) c.unit.roots spelled ∧
      out.declarations =
        byRank (·.kind.rank) 4 (c.unit.roots.flatMap (declarationsOf c) ++ entry.toList) ∧
      (out.file.slots.Nodup ↔ EntryApart c c.unit.roots spelled entry ∧
        MethodsApart c (.final c types) c.unit.roots) := by
  obtain ⟨s, hs, hmade⟩ := finished_final hroots h
  obtain rfl := (lowerUnitWith_ok.mp h).2
  obtain ⟨spelled, hspelled, htypes, hvalues, -⟩ := names_output hroots hs
  have hperm := slots_perm hroots hs htypes hvalues
  have hapart : (c.unit.roots.flatMap (slotsAt c s spelled)).Nodup ↔
      MethodsApart c s c.unit.roots := slots_nodup hs
  have hdeclarations : (LoweredUnit.ofState c (.final c types)).declarations =
      byRank (·.kind.rank) 4 (State.final c types).outline.declared := declarations_ofState c _
  rw [slots_ofState, hdeclarations]
  rcases hmade with hmade | ⟨he, origin, id, body, hmade, -, hkind⟩
  · rw [hmade]
    refine ⟨none, spelled, by simp, hspelled, by simp [hs.underway.declared], ?_⟩
    have hnone : s.outline.functionOutput = s.outline.functions.values := by
      simp [Outline.functionOutput, hs.underway.entry]
    rw [hnone, hperm.nodup_iff, hapart]
    simp [EntryApart]
  · rw [hmade]
    have hlater : Later s { s with outline := s.outline.setEntry (entryDeclaration c origin) id } :=
      .of_globals_eq (.refl _) (.refl _) rfl
    refine ⟨some (entryDeclaration c origin), spelled, by simp [entryDeclaration],
      fun root hroot spec hstmt hne => (hspelled root hroot spec hstmt hne).mono hlater,
      by simp [Outline.setEntry, hs.underway.declared], ?_⟩
    have houtput : (s.outline.setEntry (entryDeclaration c origin) id).functionOutput.flatMap
        (HostFile.functionSlots s.tree s.types) =
        s.outline.functions.values.flatMap (HostFile.functionSlots s.tree s.types) ++
          HostFile.functionSlots s.tree s.types id := by
      simp [Outline.functionOutput, Outline.setEntry]
    have hslots : HostFile.functionSlots s.tree s.types id =
        if c.settings.entryRole.functionName = "init" then []
        else [(none, c.settings.entryRole.functionName)] := by
      unfold HostFile.functionSlots
      rw [hkind]
      cases c.settings.entryRole <;> rfl
    have hentry : EntryApart c c.unit.roots spelled (some (entryDeclaration c origin)) ↔
        c.settings.entryRole.functionName = "init" ∨
          (none, c.settings.entryRole.functionName) ∉
            c.unit.roots.flatMap (slotsAt c s spelled) := by
      rw [entry_slot_iff hs he]
      simp [EntryApart, entryDeclaration]
    change (((s.tree.names (s.outline.typeOutput ++ s.outline.constantOutput)).filter
        (· ≠ "_")).map (none, ·) ++
      (s.outline.setEntry (entryDeclaration c origin) id).functionOutput.flatMap
        (HostFile.functionSlots s.tree s.types)).Nodup ↔ _ ∧ MethodsApart c s c.unit.roots
    rw [houtput, hslots, ← List.append_assoc, hentry, ← hapart,
      (hperm.append_right _).nodup_iff]
    by_cases hinit : c.settings.entryRole.functionName = "init"
    · simp [hinit]
    · rw [if_neg hinit, ← List.concat_eq_append, List.nodup_concat]
      simp [hinit]

/-- `type T struct{}`, `func (t T) m() {}` and `func f() {}`. -/
def methodSample : Context :=
  .sample
    [.type (.struct []), .stmt (.typeDecl "T" ⟨0⟩ false none), .type (.named none "T"),
      .type (.func [] [] false), .stmt (.block []),
      .stmt (.function ⟨some ⟨some "t", ⟨2⟩, false⟩, "m", ⟨3⟩, some ⟨4⟩, none⟩),
      .stmt (.function ⟨none, "f", ⟨3⟩, some ⟨4⟩, none⟩)]
    [⟨1⟩, ⟨5⟩, ⟨6⟩]

theorem slots_nodup_iff_sample :
    methodSample.unit.roots.Nodup ∧ ∃ out,
      lowerUnitWith methodSample.unit methodSample.sources ⟨.initial, methodSample.env⟩
        methodSample.settings methodSample.registry = .ok out ∧
      out.file.slots.map (·.2) = ["T", "m", "f", "main"] ∧
      ∃ (entry : Option Declaration) (spelled : NodeId → List Bool),
        (∀ d ∈ entry, d.kind = .entry) ∧
        UnitSpelling methodSample (.final methodSample .initial) methodSample.unit.roots spelled ∧
        out.declarations = byRank (·.kind.rank) 4
          (methodSample.unit.roots.flatMap (declarationsOf methodSample) ++ entry.toList) ∧
        (out.file.slots.Nodup ↔ EntryApart methodSample methodSample.unit.roots spelled entry ∧
          MethodsApart methodSample (.final methodSample .initial) methodSample.unit.roots) :=
  have hroots : methodSample.unit.roots.Nodup := by decide
  have h := lowerUnitWith_ok.mpr ⟨by decide +kernel, rfl⟩
  ⟨hroots, _, h, by decide +kernel, slots_nodup_iff hroots h⟩

/-- `var main int`. -/
def mainSample : Context :=
  .sample [.type (.named none "int"), .stmt (.varDecl ⟨["main"], some ⟨0⟩, [], none⟩)] [⟨1⟩]

/-- The entry is put out beside a variable of its name, and nothing is reported. -/
theorem slots_entry_clash : ∃ out,
    lowerUnitWith mainSample.unit mainSample.sources ⟨.initial, mainSample.env⟩
      mainSample.settings mainSample.registry = .ok out ∧
    out.file.slots = [(none, "main"), (none, "main")] :=
  ⟨_, lowerUnitWith_ok.mpr ⟨by decide +kernel, rfl⟩, by decide +kernel⟩

end Lowering

end GoLowering
