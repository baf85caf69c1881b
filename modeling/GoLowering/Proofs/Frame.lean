import Mathlib.Order.Defs.Unbundled
import GoLowering.Proofs.StillParts

/-!
# Parts that give back what they borrow

What a part of a lowering leaves behind, whether it fails or not, is a relation between the state
before it and the state after it. A `Frame` is such a relation for each level of care that the
steps of a lowering satisfy, and then all parts of the walk satisfy it (`Regime.ofFrame`).

The first frame is that parts give back what they borrow: nodes are only added to the tree,
reports are only added to the lists of reports, and the current scope, the function around, the
frame name and the aliases that are open come back.

* `Steady` parts do all of this (`Extends`).
* `Additive` parts also leave what had been hoisted before them and put new statements, which
  they have made themselves, at the end (`Advances`).
* `Quiet` parts hoist nothing (`Rests`), and `Still` ones leave everything about the declarations
  of the unit alone (`Stays`).
-/

namespace GoLowering.Lowering

open Surface

/-- What is known about the declarations of a unit. -/
structure Ledger where
  outline : Outline NodeId HostId
  imports : Keyed String String
  globals : Keyed String Global
  progress : Keyed NodeId Progress
  methods : List (TypeId × Method)
  explicitEntry : Bool
  diagnostics : List Diagnostic
  halted : Bool

def State.ledger (s : State) : Ledger :=
  ⟨s.outline, s.imports, s.globals, s.progress, s.methods, s.explicitEntry, s.diagnostics, s.halted⟩

/-! ## What a run keeps -/

/-- The second state comes after the first one, with everything given back that was borrowed. -/
structure Extends (s s' : State) : Prop where
  tree : s.tree.Grows s'.tree
  types : s.types.Grows s'.types
  current : s'.scopes.current = s.scopes.current
  function : s'.function = s.function
  frameName : s'.frameName = s.frameName
  openAliases : s'.openAliases = s.openAliases
  diagnostics : s.diagnostics <+: s'.diagnostics
  warnings : s.warnings <+: s'.warnings

/-- Statements were hoisted between two states after those that had been hoisted before. -/
def HoistsMore (s s' : State) : Prop :=
  ∃ more, s'.hoisted = s.hoisted ++ more ∧ ∀ id ∈ more, MadeBetween s s' id

/-- The second state comes after the first one, and more is hoisted in it. -/
structure Advances (s s' : State) : Prop extends Extends s s' where
  hoisted : HoistsMore s s'

/-- The second state comes after the first one, and nothing is hoisted in it. -/
structure Rests (s s' : State) : Prop extends Extends s s' where
  hoisted : s'.hoisted = s.hoisted

/-- The second state comes after the first one, and nothing has happened to the declarations of
the unit in between. -/
structure Stays (s s' : State) : Prop extends Rests s s' where
  ledger : s'.ledger = s.ledger

/-- The second state comes after the first one by steps that hoist nothing and define no types. -/
structure Settles (s s' : State) : Prop extends Stays s s' where
  begins : s.types.Begins s'.types
  scopes : s.scopes.Grows s'.scopes
  hoistLog : s'.hoistLog = s.hoistLog
  levelLog : s'.levelLog = s.levelLog
  literals : s'.literals = s.literals
  history : s'.history = s.history

theorem Extends.refl (s : State) : Extends s s :=
  ⟨.refl _, .refl _, rfl, rfl, rfl, rfl, List.prefix_rfl, List.prefix_rfl⟩

theorem Extends.trans {s₁ s₂ s₃ : State} (h₁ : Extends s₁ s₂) (h₂ : Extends s₂ s₃) :
    Extends s₁ s₃ where
  tree := h₁.tree.trans h₂.tree
  types := h₁.types.trans h₂.types
  current := h₂.current.trans h₁.current
  function := h₂.function.trans h₁.function
  frameName := h₂.frameName.trans h₁.frameName
  openAliases := h₂.openAliases.trans h₁.openAliases
  diagnostics := h₁.diagnostics.trans h₂.diagnostics
  warnings := h₁.warnings.trans h₂.warnings

theorem Advances.of_hoisted_eq {s s' : State} (h : Extends s s') (he : s'.hoisted = s.hoisted) :
    Advances s s' :=
  ⟨h, [], by simp [he], by simp⟩

theorem Advances.refl (s : State) : Advances s s := .of_hoisted_eq (.refl s) rfl

theorem Advances.trans {s₁ s₂ s₃ : State} (h₁ : Advances s₁ s₂) (h₂ : Advances s₂ s₃) :
    Advances s₁ s₃ := by
  refine ⟨h₁.toExtends.trans h₂.toExtends, ?_⟩
  obtain ⟨more₁, he₁, hm₁⟩ := h₁.hoisted
  obtain ⟨more₂, he₂, hm₂⟩ := h₂.hoisted
  refine ⟨more₁ ++ more₂, by rw [he₂, he₁, List.append_assoc], fun id hid => ?_⟩
  rcases List.mem_append.mp hid with hid | hid
  · exact (hm₁ id hid).mono (.refl _) h₂.tree
  · exact (hm₂ id hid).mono h₁.tree (.refl _)

theorem Rests.advances {s s' : State} (h : Rests s s') : Advances s s' :=
  .of_hoisted_eq h.toExtends h.hoisted

theorem Stays.of_eq {s s' : State} (ht : s.tree.Grows s'.tree) (hty : s.types.Grows s'.types)
    (hc : s'.scopes.current = s.scopes.current) (hf : s'.function = s.function)
    (hn : s'.frameName = s.frameName) (ha : s'.openAliases = s.openAliases)
    (hw : s.warnings <+: s'.warnings) (hh : s'.hoisted = s.hoisted) (hl : s'.ledger = s.ledger) :
    Stays s s' :=
  ⟨⟨⟨ht, hty, hc, hf, hn, ha,
    have he : s'.diagnostics = s.diagnostics := congrArg Ledger.diagnostics hl
    he ▸ List.prefix_rfl, hw⟩, hh⟩, hl⟩

theorem Settles.of_eq {s s' : State} (ht : s.tree.Grows s'.tree) (hty : s.types.Begins s'.types)
    (hs : s.scopes.Grows s'.scopes) (hc : s'.scopes.current = s.scopes.current)
    (hf : s'.function = s.function)
    (hn : s'.frameName = s.frameName) (ha : s'.openAliases = s.openAliases)
    (hw : s.warnings <+: s'.warnings) (hh : s'.hoisted = s.hoisted)
    (hg : s'.hoistLog = s.hoistLog) (hv : s'.levelLog = s.levelLog)
    (hi : s'.literals = s.literals) (he : s'.history = s.history) (hl : s'.ledger = s.ledger) :
    Settles s s' :=
  ⟨.of_eq ht hty.grows hc hf hn ha hw hh hl, hty, hs, hg, hv, hi, he⟩

instance : IsPreorder State Extends where
  refl := .refl
  trans _ _ _ := .trans

instance : IsPreorder State Advances where
  refl := .refl
  trans _ _ _ := .trans

instance : IsPreorder State Rests where
  refl s := ⟨.refl s, rfl⟩
  trans _ _ _ h₁ h₂ := ⟨h₁.toExtends.trans h₂.toExtends, h₂.hoisted.trans h₁.hoisted⟩

instance : IsPreorder State Stays where
  refl s := ⟨refl_of Rests s, rfl⟩
  trans _ _ _ h₁ h₂ := ⟨trans_of Rests h₁.toRests h₂.toRests, h₂.ledger.trans h₁.ledger⟩

instance : IsPreorder State Settles where
  refl s := ⟨refl_of Stays s, .refl _, .refl _, rfl, rfl, rfl, rfl⟩
  trans _ _ _ h₁ h₂ :=
    ⟨trans_of Stays h₁.toStays h₂.toStays, h₁.begins.trans h₂.begins, h₁.scopes.trans h₂.scopes,
      h₂.hoistLog.trans h₁.hoistLog, h₂.levelLog.trans h₁.levelLog,
      h₂.literals.trans h₁.literals, h₂.history.trans h₁.history⟩

/-! ## Frames -/

/-- Whether the function around returns an error. -/
def State.ReturnsError (s : State) : Prop :=
  ∃ results, s.function = some results ∧ results.getLast? = some TypeTable.error

/-- A relation between the states before and after a part, for each level of care, that holds of
the steps of a lowering. -/
class Frame (R : Care → Context → State → State → Prop) : Prop where
  refl (care : Care) (c : Context) (s : State) : R care c s s
  trans {care : Care} {c : Context} {s₁ s₂ s₃ : State} (h₁ : R care c s₁ s₂)
    (h₂ : R care c s₂ s₃) : R care c s₁ s₃
  still {c : Context} {s s' : State} (h : Settles s s') : R .still c s s'
  quiet {c : Context} {s s' : State} (h : R .still c s s') : R .quiet c s s'
  additive {c : Context} {s s' : State} (h : R .quiet c s s') : R .additive c s s'
  steady {c : Context} {s s' : State} (h : R .additive c s s') : R .steady c s s'
  inScope {care : Care} {c : Context} {s s' : State} (kind : ScopeKind)
    (h : R care c { s with scopes := s.scopes.push kind } s') :
    R care c s { s' with scopes := s'.scopes.setCurrent s.scopes.current }
  inFunction {c : Context} {s s' : State} (kind : ScopeKind) (results : List TypeId)
    (h : R .steady c { s with
      scopes := s.scopes.push kind, function := some results, hoisted := [] } s') :
    R .quiet c s { s' with
      scopes := s'.scopes.setCurrent s.scopes.current
      function := s.function
      hoisted := s.hoisted }
  inFrame {c : Context} {s s' : State} (name : String)
    (h : R .quiet c { s with frameName := name } s') :
    R .quiet c s { s' with frameName := s.frameName }
  atPackageLevel {c : Context} {s s' : State}
    (h : R .steady c { s with
      scopes := s.scopes.setCurrent Scopes.package
      function := none
      hoisted := []
      levelLog := []
      frameName := packageFrame c.unit } s') :
    R .quiet c s { s' with
      scopes := s'.scopes.setCurrent s.scopes.current
      function := s.function
      hoisted := s.hoisted
      levelLog := s.levelLog
      frameName := s.frameName }
  hoisting {c : Context} {s s' : State} (h : R .steady c { s with hoisted := [] } s') :
    R .quiet c s { s' with hoisted := s.hoisted }
  takeHoisted (c : Context) (s : State) : R .steady c s { s with hoisted := [] }
  /-- What is hoisted has been made just before, in a function that returns an error. -/
  hoist {c : Context} {s s' : State} {id : HostId} (h : R .still c s s')
    (made : MadeBetween s s' id) (inside : s.ReturnsError) :
    R .additive c s { s' with
      hoisted := s'.hoisted ++ [id], hoistLog := s'.hoistLog ++ [id]
      levelLog := s'.levelLog ++ [id] }
  /-- A type is defined where its declaration is put out. -/
  declareType {c : Context} {s s' : State} {name : String} {named definition : TypeId}
    {doc : Option String} {origin : Option Span}
    (found : s.types.lookupNamed? none name = some named) (h : R .additive c s s') :
    R .additive c s { s' with
      types := s'.types.define named definition
      tree := (s'.tree.add (.typeDecl name definition false doc) origin).2 }
  /-- What is hoisted in a function literal is noted. -/
  noteLiteral (c : Context) (s : State) (id : HostId) (statements : List HostId) :
    R .quiet c s { s with literals := s.literals ++ [(id, statements)] }
  /-- That an alias is needed is noted. -/
  needAlias (c : Context) (s : State) (name : String) (span : Span) (isOpen : Bool) :
    R .additive c s (s.noting (.aliasNeeded name span isOpen))
  openAlias {c : Context} {s s' : State} (name : String)
    (h : R .additive c { s with openAliases := name :: s.openAliases } s') :
    R .additive c s { s' with openAliases := s.openAliases }
  /-- The target of an alias is noted where the alias has been found. -/
  setAlias {c : Context} {s s' : State} {name : String} {root : NodeId} {before : Option TypeId}
    (type : TypeId) (found : s.globals.lookup name = some (.type root before))
    (h : R .additive c s s') :
    R .additive c s { s' with globals := s'.globals.set name (.type root (some type)) }

/-- Parts are asked to satisfy a frame, failing or not. -/
def Regime.ofFrame (R : Care → Context → State → State → Prop) : Regime :=
  ⟨fun care _ m => ∀ c s, R care c s (m c s).2⟩

section

variable {R : Care → Context → State → State → Prop} {care : Care} {α β : Type}

theorem Keeps.run {m : Lower α} (h : Keeps (.ofFrame R) care m) (c : Context) (s : State) :
    R care c s (m c s).2 :=
  h.holds c s

theorem leads_ofFrame {m : Lower α} [h : Keeps (.ofFrame R) care m] (c : Context) (s : State) :
    Leads (R care c) c s m :=
  h.run c s

theorem keeps_ofFrame {m : Lower α} (h : ∀ c s, Leads (R care c) c s m) :
    Keeps (.ofFrame R) care m := ⟨h⟩

instance : Pointwise (.ofFrame R) where
  reading hf := fun c s => hf c c s
  getting hf := fun c s => hf s c s

/-- What is tried may fail, which makes no difference to a frame. -/
instance keeps_attempt {m : Lower α} [h : Keeps (.ofFrame R) care m] :
    Keeps (.ofFrame R) care (attempt m) := by
  refine keeps_ofFrame (fun c s => ?_)
  unfold Leads
  rw [run_attempt]
  exact h.run c s

/-! ## Steps that settle -/

theorem settles_addNode (kind : HostKind) (origin : Option Span) (c : Context) (s : State) :
    Settles s (addNode kind origin c s).2 :=
  .of_eq (HostTree.grows_add _ _ _) (.refl _) (.refl _) rfl rfl rfl rfl List.prefix_rfl rfl rfl rfl
    rfl rfl rfl

theorem settles_onTypes {f : TypeTable → α × TypeTable} (h : TypeTable.Adds f) (c : Context)
    (s : State) : Settles s (onTypes f c s).2 :=
  .of_eq (.refl _) (h.begins s.types) (.refl _) rfl rfl rfl rfl List.prefix_rfl rfl rfl rfl rfl rfl
    rfl

theorem settles_freshName (c : Context) (s : State) : Settles s (freshName c s).2 :=
  .of_eq (.refl _) (.refl _) (.refl _) rfl rfl rfl rfl List.prefix_rfl rfl rfl rfl rfl rfl rfl

theorem settles_warn (problem : Problem) (span : Span) (c : Context) (s : State) :
    Settles s (warn problem span c s).2 :=
  .of_eq (.refl _) (.refl _) (.refl _) rfl rfl rfl rfl (List.prefix_append _ _) rfl rfl rfl rfl rfl
    rfl

theorem settles_scopes (s : State) {scopes : Scopes} (h : s.scopes.Grows scopes)
    (hcurrent : scopes.current = s.scopes.current) : Settles s { s with scopes } :=
  .of_eq (.refl _) (.refl _) h hcurrent rfl rfl rfl List.prefix_rfl rfl rfl rfl rfl rfl rfl

theorem settles_define {s : State} {scopes : Scopes} {name : String} {symbol : Symbol}
    (h : s.scopes.define name symbol = .ok scopes) : Settles s { s with scopes } :=
  settles_scopes s (Scopes.grows_define h) (current_define h)

theorem settles_bindName (name : String) (symbol : Symbol) (c : Context) (s : State) :
    Settles s (Lowering.bind name symbol c s).2 := by
  unfold Lowering.bind
  refine settles_scopes s ?_ ?_
  all_goals dsimp only
  all_goals cases h : s.scopes.define name symbol
  · exact .refl _
  · exact Scopes.grows_define h
  · rfl
  · exact current_define h

theorem settles_bindNew (span : Span) (name : String) (symbol : Symbol) (c : Context) (s : State) :
    Settles s (bindNew span name symbol c s).2 := by
  unfold bindNew
  refine Leads.get ?_
  cases h : s.scopes.define name symbol with
  | ok scopes => exact settles_define h
  | error taken => exact refl_of Settles s

theorem settles_packagePath (name : String) (span : Span) (c : Context) (s : State) :
    Settles s (packagePath name span c s).2 := by
  unfold packagePath
  refine Leads.get ?_
  cases s.imports.lookup name with
  | some path => exact refl_of Settles s
  | none =>
    refine Leads.read ?_
    cases c.env.resolve? name with
    | none => exact refl_of Settles s
    | some resolution => cases resolution <;> exact refl_of Settles s

/-! ## Parts that satisfy a frame -/

variable [Frame R]

theorem holds_still {m : Lower α} (h : ∀ c s, Settles s (m c s).2) :
    (Regime.ofFrame R).Holds .still m := fun c s => Frame.still (h c s)

theorem leads_bind {m : Lower α} {f : α → Lower β} {c : Context} {s : State}
    (hm : Leads (R care c) c s m)
    (hf : ∀ a s', m c s = (.ok a, s') → Leads (R care c) c s' (f a)) :
    Leads (R care c) c s (m >>= f) := by
  unfold Leads at hm ⊢
  rw [run_bind]
  rcases h : m c s with ⟨r, s'⟩
  rw [h] at hm
  cases r with
  | error e => exact hm
  | ok a => exact Frame.trans hm (hf a s' h)

theorem ofFrame_bind {m : Lower α} {f : α → Lower β} (hm : (Regime.ofFrame R).Holds care m)
    (hf : ∀ a, (Regime.ofFrame R).Holds care (f a)) :
    (Regime.ofFrame R).Holds care (m >>= f) :=
  fun c s => leads_bind (hm c s) (fun a s' _ => hf a c s')

instance footing_ofFrame : Footing (.ofFrame R) where
  pure a := fun c s => Frame.refl _ c s
  throw failure := fun c s => Frame.refl _ c s
  bind := ofFrame_bind
  read _ hf := fun c s => hf c c s
  get _ hf := fun c s => hf s c s
  quiet hm := fun c s => Frame.quiet (hm c s)
  additive hm := fun c s => Frame.additive (hm c s)
  steady hm := fun c s => Frame.steady (hm c s)
  addNode kind origin := holds_still (settles_addNode kind origin)
  onTypes h := holds_still (settles_onTypes h)
  freshName := holds_still settles_freshName
  warn problem span := holds_still (settles_warn problem span)
  bindName name symbol := holds_still (settles_bindName name symbol)
  bindNew span name symbol := holds_still (settles_bindNew span name symbol)
  packagePath name span := holds_still (settles_packagePath name span)
  inScope {_ _} kind {part} h := by
    intro c s
    unfold inScope
    rw [run_within]
    exact Frame.inScope kind (h c _)
  inFunction {_} kind results {part} h := by
    intro c s
    unfold inFunction
    rw [run_within]
    exact Frame.inFunction kind results (h c _)
  inFrame {_} name {part} h := by
    intro c s
    unfold inFrame
    rw [run_within]
    exact Frame.inFrame name (h c _)
  atPackageLevel {_} {part} h := by
    intro c s
    change Leads (R .quiet c) c s (atPackageLevel part)
    unfold atPackageLevel
    refine .read ?_
    dsimp only
    unfold Leads
    rw [run_within]
    exact Frame.atPackageLevel (h c _)
  hoisting {_ part} h := by
    intro c s
    unfold hoisting
    rw [run_within]
    refine Frame.hoisting (ofFrame_bind h (fun a => ofFrame_bind ?_ (fun _ => ?_)) c _)
    · exact fun c s => Frame.takeHoisted c s
    · exact fun c s => Frame.refl _ c s
  takeHoisted := fun c s => Frame.takeHoisted c s
  noteLiteral id statements := fun c s => Frame.noteLiteral c s id statements

end

/-! ## Giving back -/

/-- Parts give back what they borrow. -/
def GivesBack (care : Care) (_ : Context) (s s' : State) : Prop :=
  match care with
  | .still => Stays s s'
  | .quiet => Rests s s'
  | .additive => Advances s s'
  | .steady => Extends s s'

instance : Frame GivesBack where
  refl
    | .still, _, s => refl_of Stays s
    | .quiet, _, s => refl_of Rests s
    | .additive, _, s => Advances.refl s
    | .steady, _, s => Extends.refl s
  trans {care} _ _ _ _ h₁ h₂ := by
    cases care with
    | still => exact trans_of Stays h₁ h₂
    | quiet => exact trans_of Rests h₁ h₂
    | additive => exact Advances.trans h₁ h₂
    | steady => exact Extends.trans h₁ h₂
  still h := h.toStays
  quiet h := Stays.toRests h
  additive h := Rests.advances h
  steady h := Advances.toExtends h
  inScope {care} _ s s' kind h := by
    have hs (h : Extends { s with scopes := s.scopes.push kind } s') :
        Extends s { s' with scopes := s'.scopes.setCurrent s.scopes.current } :=
      ⟨h.tree, h.types, rfl, h.function, h.frameName, h.openAliases, h.diagnostics, h.warnings⟩
    cases care with
    | still => exact ⟨⟨hs h.toExtends, h.hoisted⟩, h.ledger⟩
    | quiet => exact ⟨hs h.toExtends, h.hoisted⟩
    | additive => exact ⟨hs h.toExtends, h.hoisted⟩
    | steady => exact hs h
  inFunction kind results h :=
    ⟨⟨h.tree, h.types, rfl, rfl, h.frameName, h.openAliases, h.diagnostics, h.warnings⟩, rfl⟩
  inFrame name h :=
    ⟨⟨h.tree, h.types, h.current, h.function, rfl, h.openAliases, h.diagnostics, h.warnings⟩,
      h.hoisted⟩
  atPackageLevel h :=
    ⟨⟨h.tree, h.types, rfl, rfl, rfl, h.openAliases, h.diagnostics, h.warnings⟩, rfl⟩
  hoisting h :=
    ⟨⟨h.tree, h.types, h.current, h.function, h.frameName, h.openAliases, h.diagnostics,
      h.warnings⟩, rfl⟩
  takeHoisted _ s := ⟨.refl _, .refl _, rfl, rfl, rfl, rfl, List.prefix_rfl, List.prefix_rfl⟩
  hoist {_ s s' id} h made _ := by
    have hs : Stays s s' := h
    refine ⟨⟨hs.tree, hs.types, hs.current, hs.function, hs.frameName, hs.openAliases,
      hs.diagnostics, hs.warnings⟩, [id], ?_, fun other hid => ?_⟩
    · exact congrArg (· ++ [id]) hs.hoisted
    · rw [List.mem_singleton.mp hid]
      exact made
  declareType {_ s s' _ _ _ _ _} _ h := by
    have hs : Advances s s' := h
    have htree := HostTree.grows_add s'.tree
    refine ⟨⟨hs.tree.trans (htree _ _), hs.types.trans (TypeTable.grows_define _ _ _), hs.current,
      hs.function, hs.frameName, hs.openAliases, hs.diagnostics, hs.warnings⟩, ?_⟩
    obtain ⟨more, he, hmore⟩ := hs.hoisted
    exact ⟨more, he, fun id hid => (hmore id hid).mono (.refl _) (htree _ _)⟩
  noteLiteral _ s _ _ :=
    ⟨⟨.refl _, .refl _, rfl, rfl, rfl, rfl, List.prefix_rfl, List.prefix_rfl⟩, rfl⟩
  needAlias _ s _ _ _ := .of_hoisted_eq
    ⟨.refl _, .refl _, rfl, rfl, rfl, rfl, List.prefix_rfl, List.prefix_rfl⟩ rfl
  openAlias name h :=
    ⟨⟨h.tree, h.types, h.current, h.function, h.frameName, rfl, h.diagnostics, h.warnings⟩,
      h.hoisted⟩
  setAlias type _ h :=
    ⟨⟨h.tree, h.types, h.current, h.function, h.frameName, h.openAliases, h.diagnostics,
      h.warnings⟩, h.hoisted⟩

/-- That parts give back what they borrow. -/
abbrev extension : Regime := .ofFrame GivesBack

variable {α : Type}

theorem Steady.run {m : Lower α} (h : Steady extension m) (c : Context) (s : State) :
    Extends s (m c s).2 :=
  Keeps.run h c s

theorem Additive.run {m : Lower α} (h : Additive extension m) (c : Context) (s : State) :
    Advances s (m c s).2 :=
  Keeps.run h c s

theorem Quiet.run {m : Lower α} (h : Quiet extension m) (c : Context) (s : State) :
    Rests s (m c s).2 :=
  Keeps.run h c s

theorem Still.run {m : Lower α} (h : Still extension m) (c : Context) (s : State) :
    Stays s (m c s).2 :=
  Keeps.run h c s

theorem extends_run {m : Lower α} {c : Context} {s s' : State} {a : α} [hm : Steady extension m]
    (hrun : m c s = (.ok a, s')) : Extends s s' := by
  have hs := hm.run c s
  rwa [hrun] at hs

/-- What is made last has been made by the whole part. -/
theorem made_bind {m : Lower α} {f : α → Lower HostId} [hm : Steady extension m]
    (hf : ∀ a c s id s', f a c s = (.ok id, s') → MadeBetween s s' id) {c : Context}
    {s s' : State} {id : HostId} (h : (m >>= f) c s = (.ok id, s')) : MadeBetween s s' id := by
  rw [run_bind] at h
  have hs := Steady.run hm c s
  rcases hr : m c s with ⟨r, s₁⟩
  rw [hr] at h hs
  cases r with
  | error e => cases h
  | ok a => exact (hf a c s₁ id s' h).mono hs.tree (.refl _)

/-! ## Hoisting and local types -/

theorem made_propagateBlock {call : HostId} {targets : List String} {label text : String}
    {results : List TypeId} {span : Span} {c : Context} {s s' : State} {id : HostId}
    (h : propagateBlock call targets label text results span c s = (.ok id, s')) :
    MadeBetween s s' id := by
  unfold propagateBlock at h
  refine made_bind (fun _ _ _ _ _ h => ?_) h
  refine made_bind (fun _ _ _ _ _ h => ?_) h
  refine made_bind (fun _ _ _ _ _ h => ?_) h
  refine made_bind (fun _ _ _ _ _ h => ?_) h
  refine made_bind (fun _ _ _ _ _ h => ?_) h
  refine made_bind (fun _ _ _ _ _ h => ?_) h
  refine made_bind (fun _ _ _ _ _ h => ?_) h
  refine made_bind (fun _ _ _ _ _ h => ?_) h
  refine made_bind (fun _ _ _ _ _ h => ?_) h
  exact made_place h

theorem State.ReturnsError.extends {s s' : State} (h : s.ReturnsError) (hs : Extends s s') :
    s'.ReturnsError := by
  obtain ⟨results, hfunction, hlast⟩ := h
  exact ⟨results, hs.function.trans hfunction, hlast⟩

theorem errorResults?_run {c : Context} {s s' : State} {found : Option (List TypeId)}
    (h : errorResults? c s = (.ok found, s')) : s' = s ∧ (found.isSome → s.ReturnsError) := by
  unfold errorResults? at h
  obtain ⟨_, _, hget, h⟩ := bind_ok.mp h
  obtain ⟨hs, rfl⟩ := Prod.mk.inj hget
  obtain rfl := Except.ok.inj hs
  cases hfunction : s.function with
  | none =>
    rw [hfunction] at h
    obtain ⟨rfl, rfl⟩ := pure_ok.mp h
    exact ⟨rfl, fun hsome => Bool.noConfusion hsome⟩
  | some results =>
    rw [hfunction] at h
    obtain ⟨hfound, rfl⟩ := pure_ok.mp h
    refine ⟨rfl, fun hsome => ⟨results, hfunction, ?_⟩⟩
    by_contra hlast
    rw [if_neg (by simpa using hlast)] at hfound
    rw [← hfound] at hsome
    cases hsome

section

variable {R : Care → Context → State → State → Prop} [Frame R] {c : Context} {s : State}

/-- A statement is hoisted by the part that has made it. -/
theorem leads_hoist {m : Lower HostId} [hm : Still (.ofFrame R) m]
    (made : ∀ c s id s', m c s = (.ok id, s') → MadeBetween s s' id) (inside : s.ReturnsError) :
    Leads (R .additive c) c s (m >>= hoist) := by
  unfold Leads
  rw [run_bind]
  have hs := Keeps.run hm c s
  rcases h : m c s with ⟨r, s'⟩
  rw [h] at hs
  cases r with
  | error e => exact Frame.additive (Frame.quiet hs)
  | ok id => exact Frame.hoist hs (made c s id s' h) inside

theorem leads_hoistTemporary {type : TypeId} {span : Span} {name : String}
    (inside : s.ReturnsError) : Leads (R .additive c) c s (hoistTemporary type span name) :=
  leads_hoist (fun _ _ _ _ => made_place) inside

instance still_notePropagation (call : HostId) (names : List String) :
    Still (.ofFrame R) (notePropagation call names) :=
  ⟨holds_still (fun _ _ => .of_eq (.refl _) (.refl _) (.refl _) rfl rfl rfl rfl List.prefix_rfl rfl
    rfl rfl rfl rfl rfl)⟩

theorem leads_wrapPropagate {call : HostId} {values : List TypeId} {text : String} {span : Span} :
    Leads (R .additive c) c s (wrapPropagate call values text span) := by
  have herror : Still (.ofFrame R) errorResults? := inferInstance
  unfold wrapPropagate
  refine leads_bind (Frame.additive (Frame.quiet (Keeps.run herror c s))) (fun found s₀ hfound => ?_)
  obtain ⟨rfl, hinside⟩ := errorResults?_run hfound
  split
  · exact leads_ofFrame c s₀
  · exact leads_ofFrame c s₀
  · rename_i value
    refine leads_bind (leads_ofFrame c s₀) (fun temporary s₁ htemporary => ?_)
    have hname : Steady extension freshName := inferInstance
    have h₁ := hname.run c s₀
    rw [htemporary] at h₁
    have inside₁ := (hinside rfl).extends h₁
    refine leads_bind (leads_hoistTemporary inside₁) (fun _ s₂ hhoist => ?_)
    have h₂ : Leads (GivesBack .additive c) c s₁ (hoistTemporary value span temporary) :=
      leads_hoistTemporary inside₁
    unfold Leads at h₂
    rw [hhoist] at h₂
    refine leads_bind (leads_ofFrame c s₂) (fun label s₃ hlabel => ?_)
    have h₃ := hname.run c s₂
    rw [hlabel] at h₃
    rw [← bind_assoc]
    exact leads_bind (leads_hoist (fun _ _ _ _ => made_propagateBlock)
      ((inside₁.extends (Advances.toExtends h₂)).extends h₃)) (fun _ s₄ _ => leads_ofFrame c s₄)
  · exact leads_ofFrame c s₀

theorem lookupNamed?_declareNamed (t : TypeTable) (package : Option String) (name : String) :
    (t.declareNamed package name).2.lookupNamed? package name =
      some (t.declareNamed package name).1 := by
  unfold TypeTable.declareNamed
  cases h : t.lookupNamed? package name with
  | some id => exact h
  | none =>
    have hnone : t.entries.findIdx? (Ty.isNamedAs package name) = none := by
      simpa [TypeTable.lookupNamed?] using h
    simp [TypeTable.lookupNamed?, TypeTable.push, Array.findIdx?_push, hnone, Ty.isNamedAs]

theorem leads_localType {walk : Walk} (type : NodeId) (h : Additive (.ofFrame R) (walk.type type))
    {name : String} {doc : Option String} {span : Span} :
    Leads (R .additive c) c s (lowerLocalType walk name type false doc span) := by
  unfold lowerLocalType lowerLocalDefinition
  rw [if_neg (by simp)]
  simp only [bind_assoc]
  refine leads_bind (leads_ofFrame c s) (fun named s₁ hnamed => ?_)
  refine leads_bind (leads_ofFrame c s₁) (fun _ s₂ hbind => ?_)
  have found : s₂.types.lookupNamed? none name = some named := by
    obtain ⟨-, rfl⟩ := Prod.mk.inj hbind
    obtain ⟨hid, rfl⟩ := Prod.mk.inj hnamed
    rw [← Except.ok.inj hid]
    exact lookupNamed?_declareNamed s.types none name
  have hs := Keeps.run h c s₂
  unfold Leads
  rw [run_bind]
  rcases hrun : walk.type type c s₂ with ⟨r, s₃⟩
  rw [hrun] at hs
  cases r with
  | error e => exact hs
  | ok definition => exact Frame.declareType found hs

instance discipline_ofFrame : Discipline (.ofFrame R) where
  propagate _ _ _ _ := fun _ _ => leads_wrapPropagate
  localType type h _ _ _ := fun _ _ => leads_localType type ⟨h⟩

end

end GoLowering.Lowering
