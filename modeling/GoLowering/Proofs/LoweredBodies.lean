import GoLowering.Proofs.EntryFunction
import GoLowering.Proofs.NestedStatements

/-!
# Bodies of functions

The statements of a unit stand in bodies: of the functions and methods that it declares, of function
literals and lambdas with a block, and of the entry function, which has the bare statements. Each of
them is lowered in a scope of its own, in one of three ways (`FunctionForm.lower`). Where a unit is
lowered, the bodies of all functions that it declares have been lowered, and its bare statements
have, each to the block of a function of the output (`emittedBody_final`).
-/

namespace GoLowering.Lowering

open Surface

variable {c : Context} {s s' : State} {depth : Nat} {walk : Walk}

/-- The body of a function with names for its parameters. -/
def lowerNamedBody (walk : Walk) (params : List HostParam) (body : NodeId) : Lower HostId := do
  bindParams params
  lowerBody walk body

/-- A function whose body consists of statements of the source. -/
inductive FunctionForm where
  /-- A function or a method of the unit, with the types of its results and all of its receiver,
  parameters and results. -/
  | declared (results : List TypeId) (params : List HostParam) (body : NodeId)
  /-- A function literal, or a lambda with a block. -/
  | literal (results : List TypeId) (params : List HostParam) (body : NodeId)
  /-- The entry function of the statements outside of any function. -/
  | entry (statements : List NodeId)

namespace FunctionForm

/-- The statements of the body. -/
def statements (unit : SourceUnit) : FunctionForm → List NodeId
  | declared _ _ body | literal _ _ body => unit.bodyOf body
  | entry statements => statements

/-- The types of the results. -/
def results : FunctionForm → List TypeId
  | declared results _ _ | literal results _ _ => results
  | entry _ => []

/-- The block of the function of the host. -/
def lower (walk : Walk) : FunctionForm → Lower HostId
  | declared results params body => inFunction .function results (lowerNamedBody walk params body)
  | literal results params body => inFunction .closure results (lowerNamedBody walk params body)
  | entry statements => do
    blockNode (← inFunction .function [] (lowerStatements walk statements))

end FunctionForm

theorem lowerNamedBody_append (params more : List HostParam) (body : NodeId) :
    lowerNamedBody walk (params ++ more) body = (do
      bindParams params
      lowerNamedBody walk more body) := by
  have hbind : bindParams (params ++ more) = (do bindParams params; bindParams more) :=
    List.forM_append
  rw [lowerNamedBody, hbind, bind_assoc]
  rfl

theorem lowerFunctionBody_eq {decl : FunctionDecl} {body : NodeId} (hbody : decl.body = some body)
    (head : FunctionHead) (span : Span) :
    lowerFunctionBody walk decl head span = inFrame head.frameName
      ((FunctionForm.declared (head.signature.results.map (·.type))
        (head.receiver.toList ++ (head.signature.params ++ head.signature.results)) body).lower
        walk) := by
  unfold lowerFunctionBody
  rw [hbody, FunctionForm.lower, lowerNamedBody_append, lowerNamedBody_append]
  rfl

/-- What a function literal is put of. -/
theorem lower_functionLiteral (signature : HostSignature) (body : NodeId) :
    (FunctionForm.literal (signature.results.map (·.type)) (signature.params ++ signature.results)
      body).lower walk = inFunction .closure (signature.results.map (·.type)) (do
        bindParams signature.params
        bindParams signature.results
        lowerBody walk body) := by
  rw [FunctionForm.lower, lowerNamedBody_append]
  rfl

/-- What a lambda with a block is put of. -/
theorem lower_lambda (results : List TypeId) (params : List HostParam) (block : NodeId)
    (span : Span) :
    (FunctionForm.literal results params block).lower walk = inFunction .closure results (do
      bindParams params
      lowerLambdaBody walk (.block block) results span) :=
  rfl

/-- The block of the entry function is made by a function, too, whatever the frame is called. -/
theorem inFrame_lower_entry (name : String) (statements : List NodeId) :
    inFrame name ((FunctionForm.entry statements).lower walk) c s =
      (do
        let body ← inFrame name (inFunction .function [] (lowerStatements walk statements))
        blockNode body) c s := by
  rw [run_bind, inFrame, inFrame, run_within, run_within, FunctionForm.lower, run_bind]
  rcases inFunction .function [] (lowerStatements walk statements) c { s with frameName := name }
    with ⟨r, s₁⟩
  cases r <;> rfl

/-! ## Lowered units -/

/-- The statements of a body have been lowered to the block of a function of the output, which has
the results that they were lowered for. -/
structure EmittedBody (c : Context) (s : State) (statements : List NodeId) (id : HostId)
    (function : HostFunction) : Prop where
  lowered : ∃ (form : FunctionForm) (depth : Nat) (t t' : State),
    form.statements c.unit = statements ∧
    form.results = function.signature.results.map (·.type) ∧
    form.lower (walkWithin depth) c t = (.ok function.body, t') ∧ t'.LeadsTo s
  output : id ∈ s.outline.functionOutput
  kind : ∀ final, s.Precedes final → final.tree.kind id = .function function

/-- What comes later has all functions that have been put out. -/
structure KeepsOutput (s s' : State) : Prop extends s.LeadsTo s' where
  functions : s.outline.functionOutput ⊆ s'.outline.functionOutput

variable {statements roots : List NodeId} {root : NodeId} {id : HostId} {function : HostFunction}

theorem EmittedBody.later (h : EmittedBody c s statements id function) (hs : KeepsOutput s s') :
    EmittedBody c s' statements id function := by
  obtain ⟨form, depth, t, t', hform, hresults, hrun, ht'⟩ := h.lowered
  exact ⟨⟨form, depth, t, t', hform, hresults, hrun, ht'.trans hs.toLeadsTo⟩,
    hs.functions h.output,
    fun final hfinal => h.kind final (hs.toPrecedes.trans hfinal)⟩

theorem EmittedBody.of_place (form : FunctionForm) {t t' s₁ s₂ : State} {span : Span}
    (hform : form.statements c.unit = statements)
    (hresults : form.results = function.signature.results.map (·.type))
    (hid : place (.function function) span c s₁ = (.ok id, s₂))
    (hrun : form.lower (walkWithin depth) c t = (.ok function.body, t')) (hs₁ : t'.LeadsTo s₁)
    (hs₂ : s₂.LeadsTo s') (houtput : id ∈ s'.outline.functionOutput) :
    EmittedBody c s' statements id function :=
  ⟨⟨form, depth, t, t', hform, hresults, hrun, (hs₁.trans (leadsTo_run hid)).trans hs₂⟩, houtput,
    fun _ hfinal => kind_addNode hid (hs₂.toPrecedes.trans hfinal)⟩

theorem mem_functionOutput_fill {kind : DeclKind} {added : HostId}
    (hkind : kind = .func ∨ kind = .method) :
    id ∈ (s.outline.fill kind root added).functionOutput ↔
      id = added ∨ id ∈ s.outline.functionOutput := by
  rcases hkind with rfl | rfl <;>
    simp [Outline.fill, Outline.fillAll, Outline.functionOutput, Places.mem_values_fill,
      or_assoc]

theorem Filled.functionOutput (h : Filled c s s') :
    s'.outline.functionOutput = s.outline.functionOutput := by
  rw [h.outline_eq]
  rfl

/-- A function root whose head is known is lowered to a function of the output. -/
theorem emittedBody_functionRoot {heads : FunctionHeads}
    (h : lowerFunctionRoot (walkWithin depth) heads root c s = (.ok (), s'))
    (hd : s'.diagnostics = []) :
    s.outline.functionOutput ⊆ s'.outline.functionOutput ∧
      ∀ decl body head, c.unit.stmt? root = some (.function decl) → decl.body = some body →
        heads.lookup root = some head →
        ∃ id function, EmittedBody c s' (c.unit.bodyOf body) id function := by
  obtain ⟨_, _, hread, h⟩ := bind_ok.mp h
  obtain ⟨hc, rfl⟩ := Prod.mk.inj hread
  obtain rfl := Except.ok.inj hc
  have hskip (h : (pure () : Lower Unit) c s = (.ok (), s')) :
      s.outline.functionOutput ⊆ s'.outline.functionOutput :=
    (pure_ok.mp h).2 ▸ List.Subset.refl _
  revert h
  cases hstmt : c.unit.stmt? root with
  | none => exact fun h => ⟨hskip h, by simp⟩
  | some statement =>
    cases statement with
    | function decl =>
      cases hlookup : heads.lookup root with
      | none => exact fun h => ⟨hskip h, by simp⟩
      | some head =>
        intro h
        obtain ⟨span, s₁, hspan, h⟩ := bind_ok.mp (reporting_ok h hd)
        obtain ⟨-, rfl⟩ := Prod.mk.inj hspan
        obtain ⟨block, s₂, hblock, h⟩ := bind_ok.mp h
        obtain ⟨id, s₃, hid, h⟩ := bind_ok.mp h
        obtain ⟨-, rfl⟩ := Prod.mk.inj h
        have hfill (other : HostId) :
            other ∈ (s₃.outline.fill (if decl.receiver.isSome then DeclKind.method else .func) root
              id).functionOutput ↔ other = id ∨ other ∈ s₃.outline.functionOutput :=
          mem_functionOutput_fill (by cases decl.receiver.isSome <;> simp)
        have hkept : s₃.outline.functionOutput = s.outline.functionOutput :=
          (filled_of_ok hid hd).functionOutput.trans
            (filled_of_ok hblock (diagnostics_nil hid hd)).functionOutput
        refine ⟨fun other hother => (hfill other).mpr (.inr (hkept ▸ hother)), ?_⟩
        rintro _ body head ⟨⟩ hbody ⟨⟩
        rw [lowerFunctionBody_eq hbody] at hblock
        obtain ⟨t, hform, rfl⟩ := within_ok.mp hblock
        exact ⟨id, _, .of_place _ rfl rfl hid hform ⟨⟨.refl _, .refl _⟩, List.prefix_rfl⟩
          ⟨⟨.refl _, .refl _⟩, List.prefix_rfl⟩ ((hfill id).mpr (.inl rfl))⟩
    | _ => exact fun h => ⟨hskip h, by simp⟩

/-- The bare statements are lowered to the entry function. -/
theorem emittedBody_entryPhase (hs : Waiting c roots s)
    (h : lowerEntryPhase (walkWithin depth) c s = (.ok (), s')) (hd : s'.diagnostics = []) :
    s.outline.functionOutput ⊆ s'.outline.functionOutput ∧
      (roots.filter (isBare c) ≠ [] →
        ∃ id function, EmittedBody c s' (roots.filter (isBare c)) id function) := by
  obtain ⟨_, _, hget, h⟩ := bind_ok.mp h
  obtain ⟨hc, rfl⟩ := Prod.mk.inj hget
  obtain rfl := Except.ok.inj hc
  obtain ⟨_, _, hread, h⟩ := bind_ok.mp h
  obtain ⟨hc, rfl⟩ := Prod.mk.inj hread
  obtain rfl := Except.ok.inj hc
  rw [hs.statements, hs.explicitEntry] at h
  split at h
  · obtain ⟨origin, id, s₁, hmake, rfl⟩ := putsEntry_lowerEntry (reporting_ok h hd)
    have hkept : s₁.outline.functionOutput = s.outline.functionOutput :=
      (filled_of_ok hmake hd).functionOutput
    have hentry : s₁.outline.entry = none := (hs.filled (filled_of_ok hmake hd)).entry
    refine ⟨fun other hother => ?_, fun _ => ?_⟩
    · rw [← hkept] at hother
      simp only [Outline.functionOutput, hentry, Option.toList_none, List.append_nil] at hother
      exact List.mem_append_left _ hother
    · obtain ⟨nodes, s₂, hnodes, hmake⟩ := bind_ok.mp hmake
      obtain ⟨body, s₃, hbody, hid⟩ := bind_ok.mp hmake
      have hframe := (inFrame_lower_entry _ _).trans (bind_ok.mpr ⟨nodes, s₂, hnodes, hbody⟩)
      obtain ⟨t, hform, rfl⟩ := within_ok.mp hframe
      exact ⟨id, _, .of_place (.entry _) rfl rfl hid hform ⟨⟨.refl _, .refl _⟩, List.prefix_rfl⟩
        ⟨⟨.refl _, .refl _⟩, List.prefix_rfl⟩ (by simp [Outline.functionOutput, Outline.setEntry])⟩
  · rename_i hwants
    obtain ⟨-, rfl⟩ := pure_ok.mp h
    refine ⟨List.Subset.refl _, fun hbare => absurd ?_ hwants⟩
    have hentry : roots.any (isEntryFunction c) = false := by
      refine Bool.eq_false_iff.mpr fun hany => hbare (List.filter_eq_nil_iff.mpr ?_)
      exact List.any_eq_false.mp (hs.either hany)
    rw [wantsEntry, hentry]
    simp [hbare, -List.filter_eq_nil_iff]

/-- The bodies of the functions among these statements have been lowered. -/
def BodiesEmitted (c : Context) (roots : List NodeId) (s : State) : Prop :=
  ∀ root ∈ roots, ∀ decl body, c.unit.stmt? root = some (.function decl) → decl.body = some body →
    ∃ id function, EmittedBody c s (c.unit.bodyOf body) id function

theorem BodiesEmitted.later (h : BodiesEmitted c roots s) (hs : KeepsOutput s s') :
    BodiesEmitted c roots s' := by
  intro root hroot decl body hstmt hbody
  obtain ⟨id, function, hemitted⟩ := h root hroot decl body hstmt hbody
  exact ⟨id, function, hemitted.later hs⟩

theorem bodiesEmitted_lowerBeforeEntry {types : TypeTable}
    (h : lowerBeforeEntry (walkWithin depth) roots c (.initial c.unit types) = (.ok (), s'))
    (hd : s'.diagnostics = []) : BodiesEmitted c roots s' := by
  obtain ⟨heads, s, hs, hheads, hrun⟩ := functions_lowerBeforeEntry h hd
  have hnone : BodiesEmitted c [] s := fun _ hroot => absurd hroot List.not_mem_nil
  refine (forEachRoot_ok (P := fun done s => Waiting c roots s ∧ BodiesEmitted c done s)
    (fun hs => hs.1.halted) ?_ ⟨hs, hnone⟩ hrun hd).2
  rintro done root rest s s' hsplit ⟨hs, hdone⟩ hstep hd
  obtain ⟨hfunctions, hnew⟩ := emittedBody_functionRoot hstep hd
  refine ⟨waiting_functionRoot (by simp [hsplit]) hheads hs hstep hd, ?_⟩
  intro other hother decl body hstmt hbody
  rcases List.mem_append.mp hother with hother | hother
  · exact hdone.later ⟨leadsTo_run hstep, hfunctions⟩ other hother decl body hstmt hbody
  · obtain rfl := List.mem_singleton.mp hother
    obtain ⟨head, hhead, -⟩ := hheads other (by simp [hsplit]) decl hstmt
    exact hnew decl body head hstmt hbody hhead

/-- The statements of a body outside of any other: that of a function or a method of the unit, or
the bare ones. -/
inductive OuterBody (c : Context) : List NodeId → Prop
  | function {root body : NodeId} {decl : FunctionDecl} (hroot : root ∈ c.unit.roots)
    (hstmt : c.unit.stmt? root = some (.function decl)) (hbody : decl.body = some body) :
    OuterBody c (c.unit.bodyOf body)
  | entry : OuterBody c (c.unit.roots.filter (isBare c))

/-- In a unit that is lowered the statements of each body have been lowered to the block of a
function of the output. -/
theorem emittedBody_final {types : TypeTable} {out : LoweredUnit}
    (h : lowerUnitWith c.unit c.sources ⟨types, c.env⟩ c.settings c.registry = .ok out)
    (hbody : OuterBody c statements) (hstatements : statements ≠ []) :
    ∃ id function, EmittedBody c (.final c types) statements id function := by
  obtain ⟨hbefore, hwaiting, hentry⟩ := run_final h
  have hd := (lowerUnitWith_ok.mp h).1
  obtain ⟨houtput, hbare⟩ := emittedBody_entryPhase hwaiting hentry hd
  cases hbody with
  | entry => exact hbare hstatements
  | @function root body decl hroot hstmt hdecl =>
    have hall := bodiesEmitted_lowerBeforeEntry hbefore (diagnostics_nil hentry hd)
    exact hall.later ⟨leadsTo_run hentry, houtput⟩ root hroot decl body hstmt hdecl

end GoLowering.Lowering
