import TemplateCompiler.Proofs.FoundConstructs
import TemplateCompiler.Proofs.IdlePasses

/-!
# Output modes

The mode of a compile decides how output statements are written, and nothing else that a pass
does with its text: run in either mode on one text, a pass replaces the same pieces, leaves the
same context, and succeeds or fails with the same error. What a pass writes is read again by the
passes after it, though, and these may read the statement of a call differently in the two modes.
As long as the same blocks and components are found in both, a template compiles in both or fails
in both for one cause.
-/
namespace TemplateCompiler

def Environment.withMode (environment : Environment) (mode : OutputMode) : Environment :=
  { environment with options := { environment.options with mode := mode } }

/-- Two results are errors and the same, or values that are related. -/
inductive Agree {α β : Type} (related : α → β → Prop) :
    Except CompileError α → Except CompileError β → Prop
  | ok {value : α} {value' : β} (h : related value value') : Agree related (.ok value) (.ok value')
  | error (error : CompileError) : Agree related (.error error) (.error error)

theorem Agree.mapError {α β : Type} {related : α → β → Prop} {result : Except CompileError α}
    {result' : Except CompileError β} (h : Agree related result result')
    (f : CompileError → CompileError) : Agree related (result.mapError f) (result'.mapError f) := by
  cases h with
  | ok h => exact .ok h
  | error error => exact .error (f error)

theorem Agree.failure?_eq {related : Text → Text → Prop} {result result' : Except CompileError Text}
    (h : Agree related result result') : failure? result = failure? result' := by
  cases h <;> rfl

/-- Two moves keep the same characters; what they put in place of others may differ. -/
inductive Move.SamePlaces : Move → Move → Prop
  | keep (more : Nat) : SamePlaces (.keep more) (.keep more)
  | replace (claimed more : Nat) (new new' : Text) :
    SamePlaces (.replace claimed more new) (.replace claimed more new')

namespace Pass

/-- Two passes, begun in one context, end in one context, and their results agree. -/
def Alike {α β : Type} (related : α → β → Prop) (pass : Pass α) (pass' : Pass β) : Prop :=
  ∀ context, (pass.run context).2 = (pass'.run context).2 ∧
    Agree related (pass.run context).1 (pass'.run context).1

/-- Two passes fail with one error or both succeed, and leave one context. -/
def SameOutcome {α β : Type} (pass : Pass α) (pass' : Pass β) : Prop :=
  Alike (fun _ _ => True) pass pass'

variable {α β γ δ : Type} {related : α → β → Prop} {related' : γ → δ → Prop}

theorem alike_pure {value : α} {value' : β} (h : related value value') :
    Alike related (pure value) (pure value') :=
  fun _ => ⟨rfl, .ok h⟩

theorem alike_ofContext {step : Context → Except CompileError α}
    {step' : Context → Except CompileError β}
    (h : ∀ context, Agree related (step context) (step' context)) :
    Alike related (ofContext step) (ofContext step') :=
  fun context => ⟨rfl, h context⟩

theorem alike_refl (pass : Pass α) : Alike Eq pass pass := by
  intro context
  refine ⟨rfl, ?_⟩
  cases (pass.run context).1 with
  | error error => exact .error error
  | ok value => exact .ok rfl

theorem sameOutcome_refl (pass : Pass α) : SameOutcome pass pass := by
  intro context
  refine ⟨rfl, ?_⟩
  cases (pass.run context).1 with
  | error error => exact .error error
  | ok value => exact .ok trivial

theorem Alike.bind {pass : Pass α} {pass' : Pass β} {next : α → Pass γ} {next' : β → Pass δ}
    (hpass : Alike related pass pass')
    (hnext : ∀ value value', related value value' → Alike related' (next value) (next' value')) :
    Alike related' (pass >>= next) (pass' >>= next') := by
  intro context
  obtain ⟨hafter, hresult⟩ := hpass context
  rw [run_bind, run_bind]
  rcases hrun : pass.run context with ⟨result, after⟩
  rcases hrun' : pass'.run context with ⟨result', after'⟩
  rw [hrun, hrun'] at hafter hresult
  cases hafter
  cases hresult with
  | error error => exact ⟨rfl, .error error⟩
  | ok hvalue => exact hnext _ _ hvalue after

theorem Alike.mapError {pass : Pass α} {pass' : Pass β} (h : Alike related pass pass')
    (f : CompileError → CompileError) : Alike related (mapError f pass) (mapError f pass') := by
  intro context
  obtain ⟨hafter, hresult⟩ := h context
  rw [run_mapError, run_mapError]
  exact ⟨hafter, hresult.mapError f⟩

theorem Alike.nested {pass : Pass α} {pass' : Pass β} (h : Alike related pass pass') :
    Alike related (nested pass) (nested pass') := by
  intro context
  obtain ⟨hafter, hresult⟩ := h { context with level := context.level + 1 }
  rw [run_nested, run_nested]
  exact ⟨by rw [hafter], hresult⟩

theorem alike_sweepFrom {step step' : Place → Nat → Pass Move}
    (h : ∀ place fresh, Alike Move.SamePlaces (step place fresh) (step' place fresh))
    (before pending : Text) (busy : Nat) (keeping : Bool) (text : Text) :
    SameOutcome (Sweep.sweepFrom step before pending busy keeping text)
      (Sweep.sweepFrom step' before pending busy keeping text) := by
  induction text generalizing before pending busy keeping with
  | nil => exact alike_pure trivial
  | cons c rest ih =>
    cases busy with
    | succ busy => exact ih _ _ _ _
    | zero =>
      refine (h _ _).bind fun move move' hmoves => ?_
      cases hmoves with
      | keep more => exact ih _ _ _ _
      | replace claimed more new new' =>
        exact (ih _ _ _ _).bind fun _ _ _ => alike_pure trivial

theorem alike_sweep {step step' : Place → Nat → Pass Move}
    (h : ∀ place fresh, Alike Move.SamePlaces (step place fresh) (step' place fresh))
    (text : Text) : SameOutcome (sweep step text) (sweep step' text) :=
  alike_sweepFrom h _ _ _ _ _

end Pass

theorem Sweep.run_sweepFrom_ofContext (step : Context → Place → Nat → Except CompileError Move)
    (before pending : Text) (busy : Nat) (keeping : Bool) (text : Text) (context : Context) :
    (sweepFrom (fun place fresh => Pass.ofContext fun context => step context place fresh) before
      pending busy keeping text).run context =
      (sweepFrom (step context) before pending busy keeping text, context) := by
  induction text generalizing before pending busy keeping with
  | nil => rfl
  | cons c rest ih =>
    cases busy with
    | succ busy => exact ih _ _ _ _
    | zero =>
      have hstep : (Pass.ofContext fun context =>
          step context ⟨before, c :: rest⟩ pending.length).run context =
            (step context ⟨before, c :: rest⟩ pending.length, context) := rfl
      rw [sweepFrom, sweepFrom, Pass.run_bind, hstep]
      cases step context ⟨before, c :: rest⟩ pending.length with
      | error error => rfl
      | ok move =>
        cases move with
        | keep more => exact ih _ _ _ _
        | replace claimed more new =>
          simp only [Pass.run_bind, ih]
          show _ = (sweepFrom (step context) (c :: before) [] more false rest >>= _, context)
          cases sweepFrom (step context) (c :: before) [] more false rest <;> rfl

open Pass

variable {environment : Environment} (mode mode' : OutputMode)

theorem Head.resolve_withMode (context : Context) (head : Head) (extra : Nat) :
    head.resolve (environment.withMode mode) context extra =
      head.resolve environment context extra := rfl

theorem SimpleCall.step_agree (context : Context) (place : Place) (fresh : Nat) :
    Agree Move.SamePlaces (SimpleCall.step (environment.withMode mode) context place fresh)
      (SimpleCall.step (environment.withMode mode') context place fresh) := by
  have hmarkers (mode : OutputMode) : (environment.withMode mode).options.markers =
    environment.options.markers := rfl
  unfold SimpleCall.step
  simp only [hmarkers, Head.resolve_withMode]
  by_cases hglued : place.previous.any isWordChar
  · rw [if_pos hglued, if_pos hglued]
    exact .ok (.keep _)
  rw [if_neg hglued, if_neg hglued]
  rcases Head.parse? environment.options.markers place.rest with _ | ⟨head, after⟩
  · exact .ok (.keep _)
  simp only
  split
  · exact .ok (.keep _)
  split
  · exact .ok (.keep _)
  cases Layout.lead? place.before fresh with
  | none => exact .ok (.keep _)
  | some lead =>
    cases head.resolve environment context 0 with
    | error error => exact .error _
    | ok call => exact .ok (.replace _ _ _ _)

theorem simpleCalls_alike (text : Text) : SameOutcome
    (Pass.ofContext fun context => simpleCalls (environment.withMode mode) context text)
    (Pass.ofContext fun context => simpleCalls (environment.withMode mode') context text) := by
  have hsweep (mode : OutputMode) :
      (Pass.ofContext fun context => simpleCalls (environment.withMode mode) context text) =
        sweep (fun place fresh => Pass.ofContext fun context =>
          SimpleCall.step (environment.withMode mode) context place fresh) text := by
    funext context
    exact (Sweep.run_sweepFrom_ofContext _ _ _ _ _ _ _).symm
  rw [hsweep, hsweep]
  apply alike_sweep
  intro place fresh
  exact alike_ofContext fun context => SimpleCall.step_agree mode mode' context place fresh

theorem blockCalls_alike {nested nested' : Text → Pass Text}
    (h : ∀ content, SameOutcome (nested content) (nested' content)) (text : Text) :
    SameOutcome (blockCalls (environment.withMode mode) nested text)
      (blockCalls (environment.withMode mode') nested' text) := by
  apply alike_sweep
  intro place fresh
  have hmarkers (mode : OutputMode) : (environment.withMode mode).options.markers =
    environment.options.markers := rfl
  unfold BlockCall.step
  rw [hmarkers, hmarkers]
  cases (Block.entries environment.options.markers none text)[place.before.length]?.join with
  | none => exact alike_pure (.keep _)
  | some block =>
    cases Layout.lead? place.before fresh with
    | none => exact alike_pure (.keep _)
    | some lead =>
      refine ((h _).mapError _).bind fun compiled compiled' _ => ?_
      refine ((alike_refl _).mapError _).bind fun call call' hcall => ?_
      exact alike_pure (.replace _ _ _ _)

theorem Construction.addAll_withMode (context : Context) (construction : Construction)
    (attributes : List Attribute) :
    addAll (environment.withMode mode) context construction attributes =
      addAll environment context construction attributes := by
  induction attributes generalizing construction with
  | nil => rfl
  | cons attr attributes ih =>
    have hadd : add (environment.withMode mode) context construction attr =
      add environment context construction attr := rfl
    simp only [addAll, hadd, ih]

theorem Construction.ofTag_withMode (context : Context) (qualifier : Text) (tag : Tag) :
    ofTag (environment.withMode mode) context qualifier tag =
      ofTag environment context qualifier tag := by
  have hresolve (qualifier name : Text) :
      (environment.withMode mode).resolve context qualifier name =
        environment.resolve context qualifier name := rfl
  simp only [ofTag, hresolve, addAll_withMode]

/-- The content of a component is compiled as it stands in the text, so that its compile is on
one text in both modes too. -/
theorem componentCalls_alike (text : Text) :
    SameOutcome (componentCalls (environment.withMode mode) text)
      (componentCalls (environment.withMode mode') text) := by
  rw [componentCalls, componentCalls]
  refine Alike.nested (alike_sweep ?_ text)
  intro place fresh
  unfold Component.step
  rcases Tag.parse? place.rest with _ | ⟨tag, after⟩
  · exact alike_pure (.keep 0)
  simp only
  cases Component.qualifier? tag with
  | none => exact alike_pure (.keep 0)
  | some qualifier =>
    rcases Element.ofTag? tag after with _ | ⟨element, rest⟩
    · exact alike_pure (.keep 0)
    simp only [Construction.ofTag_withMode]
    refine ((alike_refl _).mapError _).bind fun construction construction' _ => ?_
    have hnested (content : Text) : SameOutcome
        (if content.length < text.length then
          componentCalls (environment.withMode mode) content else pure content)
        (if content.length < text.length then
          componentCalls (environment.withMode mode') content else pure content) := by
      split
      · exact componentCalls_alike content
      · exact alike_pure trivial
    exact ((hnested _).mapError _).bind fun compiled compiled' _ => alike_pure (.replace _ _ _ _)
termination_by text.length

/-- Each pass does the same with a text in both modes, if the content of blocks is compiled
alike. -/
theorem passes_alike {nested nested' : Text → Pass Text}
    (h : ∀ content, SameOutcome (nested content) (nested' content)) :
    ∀ pair ∈ (passes (environment.withMode mode) nested).zip
      (passes (environment.withMode mode') nested'),
      ∀ text, SameOutcome (pair.1 text) (pair.2 text) := by
  intro pair hpair text
  simp only [passes, List.zip_cons_cons, List.zip_nil_left, List.mem_cons, List.not_mem_nil,
    or_false] at hpair
  rcases hpair with rfl | rfl | rfl | rfl | rfl | rfl | rfl | rfl
  · exact sameOutcome_refl _
  · exact sameOutcome_refl _
  · exact sameOutcome_refl _
  · exact sameOutcome_refl _
  · exact simpleCalls_alike mode mode' text
  · exact blockCalls_alike mode mode' h text
  · exact sameOutcome_refl _
  · exact componentCalls_alike mode mode' text

theorem CallFree.runPasses_alike {text : Text} (h : CallFree environment.options.markers text)
    (depth : Nat) :
    SameOutcome (runPasses ((passesWithin (environment.withMode mode) depth).drop 4) text)
      (runPasses ((passesWithin (environment.withMode mode') depth).drop 4) text) := by
  have hrun (mode : OutputMode) :
      runPasses ((passesWithin (environment.withMode mode) depth).drop 4) text =
        (Pass.ofContext fun context => .ok (promote context text)) >>= fun promoted =>
          componentCalls (environment.withMode mode) promoted >>= pure := by
    have hmarkers : CallFree (environment.withMode mode).options.markers text := h
    have hsimple : (Pass.ofContext fun context =>
        simpleCalls (environment.withMode mode) context text) = pure text := by
      funext context
      show (simpleCalls (environment.withMode mode) context text, context) = (.ok text, context)
      rw [hmarkers.simpleCalls_eq]
    rw [runPasses_simpleCalls, hsimple, pure_bind]
    show blockCalls _ _ text >>= _ = _
    rw [blockCalls_eq_pure (hmarkers.entries_eq_none [] text rfl), pure_bind]
    rfl
  rw [hrun, hrun]
  refine (alike_refl _).bind fun promoted promoted' hsame => ?_
  rw [hsame]
  exact (componentCalls_alike mode mode' promoted').bind fun _ _ _ => alike_pure trivial

theorem simpleCalls_runPasses_alike {text : Text} {context : Context}
    (h : ∀ mode written, simpleCalls (environment.withMode mode) context text = .ok written →
      Settled environment.options.markers context written) (depth : Nat) :
    failure? ((runPasses ((passesWithin (environment.withMode mode) depth).drop 4) text).run
        context).1 =
      failure? ((runPasses ((passesWithin (environment.withMode mode') depth).drop 4) text).run
        context).1 := by
  have hrun (mode : OutputMode) :
      ((runPasses ((passesWithin (environment.withMode mode) depth).drop 4) text).run context).1 =
        simpleCalls (environment.withMode mode) context text := by
    have hsimple : (Pass.ofContext fun context =>
        simpleCalls (environment.withMode mode) context text).run context =
          (simpleCalls (environment.withMode mode) context text, context) := rfl
    rw [runPasses_simpleCalls, run_bind, hsimple]
    cases hwritten : simpleCalls (environment.withMode mode) context text with
    | error error => rfl
    | ok written =>
      have hsettled : Settled (environment.withMode mode).options.markers context written :=
        h mode written hwritten
      simp only [hsettled.runPasses_eq]
  rw [hrun, hrun]
  exact (simpleCalls_alike mode mode' text context).2.failure?_eq

/-! ## Modes in which the same is found -/

theorem Agree.cause?_eq {α β : Type} {related : α → β → Prop} {result : Except CompileError α}
    {result' : Except CompileError β} (h : Agree related result result') :
    cause? result = cause? result' := by
  cases h <;> rfl

theorem Pass.Alike.ending_eq {α β : Type} {related : α → β → Prop} {pass : Pass α} {pass' : Pass β}
    (h : Alike related pass pass') (context : Context) :
    pass.ending context = pass'.ending context :=
  Prod.ext (h context).2.cause?_eq (h context).1

/-- Blocks have the same heads, one after the other, and contents that are read alike. -/
def blocksAlike (alike : Text → Text → Context → Bool) (nested : Text → Pass Text) :
    List Block → List Block → Context → Bool
  | [], [], _ => true
  | block :: blocks, block' :: blocks', context =>
    decide (block.head = block'.head) &&
      alike block.content.trimEnd block'.content.trimEnd context &&
      blocksAlike alike nested blocks blocks' ((nested block.content.trimEnd).ending context).2
  | _, _, _ => false

def firstRun (environment : Environment) (text : Text) (context : Context) :
    Except CompileError Text × Context :=
  (runPasses ((passesWithin environment 0).take 5) text).run context

/-- Whether the passes before the blocks leave a text and the context as they are. -/
def isIdle (environment : Environment) (text : Text) (context : Context) : Bool :=
  decide ((firstRun environment text context).1.toOption = some text ∧
    (firstRun environment text context).2 = context)

/-- Whether a compile of one text in pretty mode and a compile of another in compact mode find the
same: the same blocks, with contents that are read alike in turn, and after that the same
components. To the passes before the blocks the two are one text, or neither has anything to do. -/
def readAlike (environment : Environment) : (depth : Nat) → Text → Text → Context → Bool
  | 0, _, _, _ => true
  | depth + 1, text, text', context =>
    let pretty := environment.withMode .pretty
    let compact := environment.withMode .compact
    let below := { context with level := context.level + 1 }
    (decide (text = text') || isIdle pretty text below && isIdle compact text' below) &&
    match firstRun pretty text below, firstRun compact text' below with
    | (.ok written, after), (.ok written', _) =>
      blocksAlike (readAlike environment depth) (compileWithin pretty depth)
        (BlockCall.found environment.options.markers written)
        (BlockCall.found environment.options.markers written') after &&
      match (blockCalls pretty (compileWithin pretty depth) written).run after,
        (blockCalls compact (compileWithin compact depth) written').run after with
      | (.ok replaced, later), (.ok replaced', _) =>
        decide (Component.tags (promote later replaced) = Component.tags (promote later replaced'))
      | _, _ => true
    | _, _ => true

theorem ending_of_blocksAlike {alike : Text → Text → Context → Bool}
    {nested nested' : Text → Pass Text}
    (halike : ∀ text text' context, alike text text' context →
      (nested text).ending context = (nested' text').ending context)
    {blocks blocks' : List Block} {context : Context}
    (h : blocksAlike alike nested blocks blocks' context) :
    endingOfAll (BlockCall.blockEnding (environment.withMode mode) nested) blocks context =
      endingOfAll (BlockCall.blockEnding (environment.withMode mode') nested') blocks' context := by
  induction blocks generalizing blocks' context with
  | nil =>
    cases blocks' with
    | nil => rfl
    | cons block' blocks' => cases h
  | cons block blocks ih =>
    cases blocks' with
    | nil => cases h
    | cons block' blocks' =>
      rw [blocksAlike, Bool.and_eq_true, Bool.and_eq_true, decide_eq_true_eq] at h
      obtain ⟨⟨hhead, hcontent⟩, hlater⟩ := h
      have hnested := halike _ _ _ hcontent
      rw [endingOfAll, endingOfAll, BlockCall.blockEnding, BlockCall.blockEnding, ← hnested, hhead]
      rcases hending : (nested block.content.trimEnd).ending context with ⟨_ | cause, after⟩
      · rw [hending] at hlater
        have hcall : block'.head.resolve (environment.withMode mode) after 1 =
            block'.head.resolve (environment.withMode mode') after 1 := rfl
        simp only [hcall]
        cases cause? (block'.head.resolve (environment.withMode mode') after 1) with
        | none => exact ih hlater
        | some cause => rfl
      · rfl

theorem tagCause_withMode (context : Context) :
    Component.tagCause (environment.withMode mode) context =
      Component.tagCause environment context := by
  funext tag
  rw [Component.tagCause, Component.tagCause, Construction.ofTag_withMode]

/-- The passes end as the first of them do, or else as the blocks do, or else as the components that
are found in the end. -/
theorem ending_passes (depth : Nat) (text : Text) (context : Context) :
    (runPasses (passesWithin environment depth) text).ending context =
      match firstRun environment text context with
      | (.ok written, after) =>
        match (blockCalls environment (compileWithin environment depth) written).run after with
        | (.ok replaced, later) =>
          ((Component.tags (promote later replaced)).findSome?
            (Component.tagCause environment later), later)
        | (.error error, later) => (some error.cause, later)
      | (.error error, after) => (some error.cause, after) := by
  have hlast (replaced : Text) (later : Context) :
      (runPasses ((passesWithin environment depth).drop 6) replaced).ending later =
        ((Component.tags (promote later replaced)).findSome?
          (Component.tagCause environment later), later) := by
    have hrun : runPasses ((passesWithin environment depth).drop 6) replaced =
        (Pass.ofContext fun context => .ok (promote context replaced)) >>= fun promoted =>
          componentCalls environment promoted >>= pure := rfl
    rw [hrun, ending_bind]
    show (componentCalls environment (promote later replaced) >>= pure).ending later = _
    rw [bind_pure, Component.ending_componentCalls]
  have hfirst : (passesWithin environment depth).take 5 = (passesWithin environment 0).take 5 := rfl
  rw [runPasses_passesWithin, ending_bind, hfirst, firstRun]
  rcases (runPasses ((passesWithin environment 0).take 5) text).run context with
    ⟨_ | written, after⟩
  · rfl
  · simp only [ending_bind, hlast]
    rcases (blockCalls environment (compileWithin environment depth) written).run after with
      ⟨_ | _, _⟩ <;> rfl

theorem ending_first (text : Text) (context : Context) :
    (runPasses ((passesWithin (environment.withMode mode) 0).take 5) text).ending context =
      (runPasses ((passesWithin (environment.withMode mode') 0).take 5) text).ending context := by
  have hrun (mode : OutputMode) :
      runPasses ((passesWithin (environment.withMode mode) 0).take 5) text =
        runPasses ((passesWithin environment 0).take 4) text >>= fun reached =>
          (Pass.ofContext fun context =>
            simpleCalls (environment.withMode mode) context reached) >>= pure :=
    runPasses_append ((passesWithin environment 0).take 4)
      [fun text => Pass.ofContext fun context =>
        simpleCalls (environment.withMode mode) context text] text
  rw [hrun, hrun, ending_bind, ending_bind]
  rcases (runPasses ((passesWithin environment 0).take 4) text).run context with
    ⟨_ | reached, after⟩
  · rfl
  · simp only [bind_pure]
    exact (simpleCalls_alike mode mode' reached).ending_eq after

theorem ending_of_isIdle {text : Text} {context : Context} (h : isIdle environment text context) :
    (runPasses ((passesWithin environment 0).take 5) text).ending context = (none, context) := by
  obtain ⟨hresult, hafter⟩ := of_decide_eq_true h
  exact Prod.ext (congrArg cause? (eq_ok_of_toOption hresult)) hafter

def compileEnding : Ending → Ending
  | (none, after) =>
    (none, { after.takePreamble.2 with level := after.takePreamble.2.level - 1 })
  | (some cause, after) => (some cause, { after with level := after.level - 1 })

theorem ending_compileWithin (depth : Nat) (text : Text) (context : Context) :
    (compileWithin environment (depth + 1) text).ending context =
      compileEnding ((runPasses (passesWithin environment depth) text).ending
        { context with level := context.level + 1 }) := by
  unfold Pass.ending
  rw [compileWithin_run]
  rcases (runPasses (passesWithin environment depth) text).run
    { context with level := context.level + 1 } with ⟨_ | _, after⟩ <;> rfl

theorem ending_of_readAlike {depth : Nat} {text text' : Text} {context : Context}
    (h : readAlike environment depth text text' context) :
    (compileWithin (environment.withMode .pretty) depth text).ending context =
      (compileWithin (environment.withMode .compact) depth text').ending context := by
  induction depth generalizing text text' context with
  | zero => rfl
  | succ depth ih =>
    rw [ending_compileWithin, ending_compileWithin]
    apply congrArg compileEnding
    unfold readAlike at h
    simp only [Bool.and_eq_true, Bool.or_eq_true, decide_eq_true_eq] at h
    obtain ⟨hbefore, hfound⟩ := h
    generalize { context with level := context.level + 1 } = below at hbefore hfound ⊢
    have hfirst : (runPasses ((passesWithin (environment.withMode .pretty) 0).take 5) text).ending
        below = (runPasses ((passesWithin (environment.withMode .compact) 0).take 5) text').ending
          below := by
      rcases hbefore with rfl | ⟨hidle, hidle'⟩
      · exact ending_first _ _ _ _
      · rw [ending_of_isIdle hidle, ending_of_isIdle hidle']
    rw [ending_passes, ending_passes]
    unfold firstRun at hfound ⊢
    rcases ending_cases hfirst with ⟨error, error', after, hrun, hrun', hcause⟩ |
      ⟨written, written', after, hrun, hrun'⟩
    · simp only [hrun, hrun', hcause]
    simp only [hrun, hrun', Bool.and_eq_true] at hfound ⊢
    obtain ⟨hblocks, hcomponents⟩ := hfound
    have hending : (blockCalls (environment.withMode .pretty)
          (compileWithin (environment.withMode .pretty) depth) written).ending after =
        (blockCalls (environment.withMode .compact)
          (compileWithin (environment.withMode .compact) depth) written').ending after := by
      rw [BlockCall.ending_blockCalls, BlockCall.ending_blockCalls]
      exact ending_of_blocksAlike _ _ (fun _ _ _ h => ih h) hblocks
    rcases ending_cases hending with ⟨error, error', later, hrun, hrun', hcause⟩ |
      ⟨replaced, replaced', later, hrun, hrun'⟩
    · simp only [hrun, hrun', hcause]
    · simp only [hrun, hrun', decide_eq_true_eq] at hcomponents ⊢
      rw [hcomponents, tagCause_withMode, tagCause_withMode]

theorem map_cause_failure? (result : Except CompileError Text) :
    (failure? result).map (·.cause) = cause? result := by
  cases result <;> rfl

/-- Run in both modes on one text, with blocks compiled by the same, a pass has the same outcome.
All passes together have the same outcome too if the directives of a template leave a text
without calls, or if its simple calls, written in either mode, leave nothing else to do. And they
succeed in both modes, or fail for one cause, if they find the same blocks and components. -/
theorem same_outcome (environment : Environment) (source : Text) :
    (∀ nested, ∀ pair ∈ (passes (environment.withMode .pretty) nested).zip
      (passes (environment.withMode .compact) nested),
      ∀ text, SameOutcome (pair.1 text) (pair.2 text)) ∧
    ((∀ reached after, HasRun environment source.length source Context.initial 4 reached after →
        CallFree environment.options.markers reached ∨
          ∀ mode written, simpleCalls (environment.withMode mode) after reached = .ok written →
            Settled environment.options.markers after written) →
      failure? (compileTemplate (environment.withMode .pretty) source) =
        failure? (compileTemplate (environment.withMode .compact) source)) ∧
    (readAlike environment (source.length + 1) source source Context.initial →
      (failure? (compileTemplate (environment.withMode .pretty) source)).map (·.cause) =
        (failure? (compileTemplate (environment.withMode .compact) source)).map (·.cause)) := by
  refine ⟨fun nested => passes_alike .pretty .compact fun _ => sameOutcome_refl _, fun h => ?_,
    fun h => ?_⟩
  · -- The directives are run by the same passes in both modes.
    have hpasses (mode : OutputMode) :
        runPasses (passesWithin (environment.withMode mode) source.length) source =
          runPasses ((passesWithin environment source.length).take 4) source >>=
            runPasses ((passesWithin (environment.withMode mode) source.length).drop 4) :=
      runPasses_append ((passesWithin environment source.length).take 4) _ source
    rw [failure?_compileTemplate, failure?_compileTemplate, hpasses, hpasses, run_bind, run_bind]
    rcases hrun : (runPasses ((passesWithin environment source.length).take 4) source).run
      { Context.initial with level := Context.initial.level + 1 } with ⟨error | reached, after⟩
    · rfl
    rcases h reached after hrun with hfree | hsettled
    · exact (hfree.runPasses_alike .pretty .compact source.length after).2.failure?_eq
    · exact simpleCalls_runPasses_alike .pretty .compact hsettled source.length
  · rw [map_cause_failure?, map_cause_failure?]
    exact congrArg Prod.fst (ending_of_readAlike h)

/-- A page with a call between its tags, and one with calls in a block and in components, the last
of which is not declared. -/
theorem same_outcome_of_call_in_page :
    let handler : Handler :=
      ⟨"U".toList, none, [("g".toList, []), ("box".toList, [⟨"content".toList, false⟩])]⟩
    let environment : Environment := ⟨Registry.builtin.insert handler, {}⟩
    let source := "@use(U)\n<p>@@g('a')</p>".toList
    let page := ("@use(U)\n@@box: <b>@@g()</b> <_h:html tag='i'>@@g()</_h:html> @@end box\n" ++
      "<x:y>@@g()</x:y>").toList
    (∀ reached after, HasRun environment source.length source Context.initial 4 reached after →
      CallFree environment.options.markers reached ∨
        ∀ mode written, simpleCalls (environment.withMode mode) after reached = .ok written →
          Settled environment.options.markers after written) ∧
    failure? (compileTemplate (environment.withMode .pretty) source) =
      failure? (compileTemplate (environment.withMode .compact) source) ∧
    readAlike environment (page.length + 1) page page Context.initial ∧
    (failure? (compileTemplate (environment.withMode .pretty) page)).map (·.cause) =
      (failure? (compileTemplate (environment.withMode .compact) page)).map (·.cause) := by
  intro handler environment source page
  have hreached : ((runPasses ((passesWithin environment source.length).take 4) source).run
      { Context.initial with level := Context.initial.level + 1 }).1.toOption =
        some "\n<p>@@g('a')</p>".toList := by
    decide +kernel
  have hafter : ((runPasses ((passesWithin environment source.length).take 4) source).run
      { Context.initial with level := Context.initial.level + 1 }).2 =
        ⟨Context.initial.bindings ++ [([], ⟨[], ['U'], false⟩)], 1, []⟩ := by
    decide +kernel
  have hwritten (mode : OutputMode) : ∀ written ∈ (simpleCalls (environment.withMode mode)
      ⟨Context.initial.bindings ++ [([], ⟨[], ['U'], false⟩)], 1, []⟩
        "\n<p>@@g('a')</p>".toList).toOption,
      Settled {} ⟨Context.initial.bindings ++ [([], ⟨[], ['U'], false⟩)], 1, []⟩ written := by
    cases mode <;> decide +kernel
  have hsettled (reached : Text) (after : Context)
      (h : HasRun environment source.length source Context.initial 4 reached after)
      (mode : OutputMode) (written : Text)
      (hcalls : simpleCalls (environment.withMode mode) after reached = .ok written) :
      Settled environment.options.markers after written := by
    rw [h] at hreached hafter
    cases hreached
    cases hafter
    apply hwritten mode
    rw [hcalls]
    rfl
  have halike : readAlike environment (page.length + 1) page page Context.initial := by
    decide +kernel
  exact ⟨fun reached after h => Or.inr (hsettled reached after h),
    (same_outcome environment source).2.1 fun reached after h => Or.inr (hsettled reached after h),
    halike, (same_outcome environment page).2.2 halike⟩

/-- With a call in an attribute the outcome depends on the mode. In pretty mode the statement of
the call brings quotes of its own, so that what was a component is none any more. -/
theorem outcome_differs_of_call_in_attribute :
    let handler : Handler := ⟨"U".toList, none, [("g".toList, [])]⟩
    let environment : Environment := ⟨Registry.builtin.insert handler, {}⟩
    let source := "@use(U)\n<x:y a='@@g()'/>".toList
    failure? (compileTemplate (environment.withMode .pretty) source) = none ∧
      (failure? (compileTemplate (environment.withMode .compact) source)).map (·.cause) =
        some (.unboundAlias "x".toList) := by
  decide +kernel

end TemplateCompiler
