import TemplateCompiler.Proofs.Nesting

/-!
# Endings by what is found

How a pass over blocks or components ends is told by the constructs that it finds, whatever stands
around them. The components of a text fail for the cause of the first tag among them that stands
for no construction; blocks fail with the first whose content or call does.
-/
namespace TemplateCompiler

open Pass

def cause? {α : Type} : Except CompileError α → Option ErrorCause
  | .ok _ => none
  | .error error => some error.cause

namespace Pass

/-- The cause for which a pass fails, if it does, and the context that it leaves. -/
abbrev Ending := Option ErrorCause × Context

def ending {α : Type} (pass : Pass α) (context : Context) : Ending :=
  (cause? (pass.run context).1, (pass.run context).2)

/-- Acts upon one thing after the other, up to the first for which that fails. -/
def endingOfAll {σ : Type} (act : σ → Context → Ending) : List σ → Context → Ending
  | [], context => (none, context)
  | first :: later, context =>
    match act first context with
    | (none, after) => endingOfAll act later after
    | failed => failed

variable {α β σ : Type} {context : Context}

theorem ending_bind (pass : Pass α) (next : α → Pass β) (context : Context) :
    ending (pass >>= next) context =
      match pass.run context with
      | (.ok value, after) => ending (next value) after
      | (.error error, after) => (some error.cause, after) := by
  unfold ending
  rw [run_bind]
  rcases pass.run context with ⟨_ | _, after⟩ <;> rfl

theorem ending_cases {pass : Pass α} {pass' : Pass β} {context' : Context}
    (h : pass.ending context = pass'.ending context') :
    (∃ error error' after, pass.run context = (.error error, after) ∧
      pass'.run context' = (.error error', after) ∧ error.cause = error'.cause) ∨
    ∃ value value' after, pass.run context = (.ok value, after) ∧
      pass'.run context' = (.ok value', after) := by
  unfold ending at h
  generalize pass.run context = run at h ⊢
  generalize pass'.run context' = run' at h ⊢
  obtain ⟨result, after⟩ := run
  obtain ⟨result', after'⟩ := run'
  obtain ⟨hcause, hafter⟩ := Prod.ext_iff.mp h
  obtain rfl : after = after' := hafter
  cases result with
  | error error =>
    cases result' with
    | error error' => exact .inl ⟨error, error', after, rfl, rfl, Option.some.inj hcause⟩
    | ok value' => cases hcause
  | ok value =>
    cases result' with
    | error error' => cases hcause
    | ok value' => exact .inr ⟨value, value', after, rfl, rfl⟩

theorem ending_bind_pure (pass : Pass α) (next : α → β) (context : Context) :
    ending (pass >>= fun value => pure (next value)) context = ending pass context := by
  rw [ending_bind, ending]
  rcases pass.run context with ⟨_ | _, after⟩ <;> rfl

theorem ending_mapError {f : CompileError → CompileError}
    (h : ∀ error, (f error).cause = error.cause) (pass : Pass α) (context : Context) :
    ending (mapError f pass) context = ending pass context := by
  unfold ending
  rw [run_mapError]
  rcases pass.run context with ⟨error | _, after⟩
  · exact congrArg (fun cause => (some cause, after)) (h error)
  · rfl

theorem ending_nested (pass : Pass α) (context : Context) :
    ending (nested pass) context =
      ((ending pass { context with level := context.level + 1 }).1,
        { (ending pass { context with level := context.level + 1 }).2 with
          level := (ending pass { context with level := context.level + 1 }).2.level - 1 }) := by
  rw [ending, run_nested]
  rfl

/-- What does not depend on the value of a pass goes by how that ends. -/
theorem ending_bind_of {pass : Pass α} {next : α → Pass β} {later : Context → Ending}
    (h : ∀ value after, ending (next value) after = later after) (context : Context) :
    ending (pass >>= next) context =
      match ending pass context with
      | (none, after) => later after
      | failed => failed := by
  rw [ending_bind, ending]
  rcases pass.run context with ⟨_ | _, after⟩
  · rfl
  · exact h _ after

end Pass

/-! ## Sweeps -/

namespace Sweep

variable {σ : Type}

/-- The constructs that a sweep finds in a text that follows `before`, of which `fresh` characters
were kept since the last one. At a place `find` says which construct begins there, and how many
characters of it follow the first. -/
def found (find : Place → Nat → Option (σ × Nat)) (before : Text) (fresh busy : Nat)
    (keeping : Bool) : Text → List σ
  | [] => []
  | c :: rest =>
    match busy with
    | busy + 1 => found find (c :: before) (if keeping then fresh + 1 else fresh) busy keeping rest
    | 0 =>
      match find ⟨before, c :: rest⟩ fresh with
      | none => found find (c :: before) (fresh + 1) 0 true rest
      | some (construct, more) => construct :: found find (c :: before) 0 more false rest

/-- A step replaces what is found, and ends as is said of the construct. -/
structure ReplacesFound (step : Place → Nat → Pass Move) (find : Place → Nat → Option (σ × Nat))
    (act : σ → Context → Ending) : Prop where
  keep {place : Place} {fresh : Nat} (h : find place fresh = none) :
    step place fresh = pure (.keep 0)
  replace {place : Place} {fresh more : Nat} {construct : σ}
    (h : find place fresh = some (construct, more)) :
    ∃ (pass : Pass Text) (claimed : Nat),
      step place fresh = (pass >>= fun new => pure (.replace claimed more new)) ∧
        ∀ context, pass.ending context = act construct context

theorem ReplacesFound.ending_sweepFrom {step : Place → Nat → Pass Move}
    {find : Place → Nat → Option (σ × Nat)} {act : σ → Context → Ending}
    (h : ReplacesFound step find act) (before pending : Text) (busy : Nat) (keeping : Bool)
    (text : Text) (context : Context) :
    (sweepFrom step before pending busy keeping text).ending context =
      endingOfAll act (found find before pending.length busy keeping text) context := by
  induction text generalizing before pending busy keeping context with
  | nil => rfl
  | cons c rest ih =>
    cases busy with
    | succ busy =>
      rw [sweepFrom, found, ih]
      cases keeping <;> rfl
    | zero =>
      rw [sweepFrom, found]
      cases hfind : find ⟨before, c :: rest⟩ pending.length with
      | none =>
        rw [h.keep hfind, pure_bind]
        exact ih (c :: before) (c :: pending) 0 true context
      | some construct =>
        obtain ⟨pass, claimed, hstep, hpass⟩ := h.replace hfind
        rw [hstep, bind_assoc, endingOfAll, ← hpass]
        refine ending_bind_of (fun new after => ?_) context
        rw [pure_bind, ending_bind_pure]
        exact ih (c :: before) [] construct.2 false after

end Sweep

/-! ## Components -/

namespace Component

def first? (text : Text) : Option (Text × Element) :=
  (Tag.parse? text).bind fun (tag, after) => (qualifier? tag).bind fun qualifier =>
    (Element.ofTag? tag after).map fun (element, _) => (qualifier, element)

/-- The component at a place: its tag, and its content as it is compiled. -/
def find (place : Place) (fresh : Nat) : Option ((Tag × Text) × Nat) :=
  (first? place.rest).map fun (_, element) =>
    ((element.tag, Layout.dedent (Layout.lineIndent place.before fresh)
      (skipLineBreak element.content)), element.written.length - 1)

/-- The tags of the components of a text, each followed by those of its content. -/
def tags (text : Text) : List Tag :=
  (Sweep.found find [] 0 0 true text).flatMap fun found =>
    found.1 :: if found.2.length < text.length then tags found.2 else []
termination_by text.length

/-- The cause for which a tag stands for no construction. -/
def tagCause (environment : Environment) (context : Context) (tag : Tag) : Option ErrorCause :=
  cause? (Construction.ofTag environment context ((qualifier? tag).getD []) tag)

variable {environment : Environment}

theorem tagCause_level (context : Context) (level : Nat) :
    tagCause environment { context with level := level } = tagCause environment context := by
  funext tag
  unfold tagCause
  rw [Construction.ofTag_eq context.bindings level context.prolog,
    Construction.ofTag_eq context.bindings context.level context.prolog]

def statement (environment : Environment) (nested : Text → Pass Text) (place : Place) (fresh : Nat)
    (qualifier : Text) (element : Element) : Pass Text := do
  let construction ← Pass.mapError
    (fun error =>
      (error.locate (Span.ofText place.offset element.tag.written)).blame element.tag.written)
    (Pass.ofContext fun context => Construction.ofTag environment context qualifier element.tag)
  let indent := Layout.lineIndent place.before fresh
  let content := skipLineBreak element.content
  let compiled ← Pass.mapError
    (·.shift (place.offset + element.tag.written.size + (element.content.size - content.size)))
    (nested (Layout.dedent indent content))
  return code environment.options indent construction compiled

theorem step_eq (nested : Text → Pass Text) (place : Place) (fresh : Nat) :
    step environment nested place fresh =
      match first? place.rest with
      | none => pure (.keep 0)
      | some (qualifier, element) =>
        statement environment nested place fresh qualifier element >>= fun new =>
          pure (.replace (Layout.lineIndent place.before fresh).length
            (element.written.length - 1) new) := by
  unfold step first? statement
  cases Tag.parse? place.rest with
  | none => rfl
  | some read =>
    simp only [Option.bind_some]
    cases qualifier? read.1 with
    | none => rfl
    | some qualifier =>
      simp only [Option.bind_some]
      cases helement : Element.ofTag? read.1 read.2 with
      | none => rfl
      | some found =>
        have htag : found.1.tag = read.1 := (Element.ofTag?_eq helement).2
        simp only [Option.map_some, htag, bind_assoc, pure_bind]

theorem qualifier?_of_first? {text qualifier : Text} {element : Element}
    (h : first? text = some (qualifier, element)) : qualifier? element.tag = some qualifier := by
  obtain ⟨⟨tag, after⟩, -, h⟩ := Option.bind_eq_some_iff.mp h
  obtain ⟨found, hqualifier, h⟩ := Option.bind_eq_some_iff.mp h
  obtain ⟨⟨element', rest⟩, helement, heq⟩ := Option.map_eq_some_iff.mp h
  cases heq
  rw [(Element.ofTag?_eq helement).2, hqualifier]

theorem ending_statement {nested : Text → Pass Text} {later : Text → Context → Option ErrorCause}
    (h : ∀ content context, (nested content).ending context = (later content context, context))
    (place : Place) (fresh : Nat) {qualifier : Text} {element : Element}
    (hqualifier : qualifier? element.tag = some qualifier) (context : Context) :
    (statement environment nested place fresh qualifier element).ending context =
      ((tagCause environment context element.tag).or (later (Layout.dedent
        (Layout.lineIndent place.before fresh) (skipLineBreak element.content)) context),
        context) := by
  have hconstruction : (Pass.mapError
      (fun error =>
        (error.locate (Span.ofText place.offset element.tag.written)).blame element.tag.written)
      (Pass.ofContext fun context =>
        Construction.ofTag environment context qualifier element.tag)).ending context =
        (tagCause environment context element.tag, context) := by
    rw [ending_mapError fun error => error.cause_blame_locate _ _, tagCause, hqualifier]
    rfl
  have hcontent (construction : Construction) (after : Context) :
      ending ((mapError (·.shift (place.offset + element.tag.written.size +
          (element.content.size - (skipLineBreak element.content).size)))
        (nested (Layout.dedent (Layout.lineIndent place.before fresh)
          (skipLineBreak element.content)))) >>= fun compiled =>
            pure (code environment.options (Layout.lineIndent place.before fresh) construction
              compiled)) after =
        (later (Layout.dedent (Layout.lineIndent place.before fresh)
          (skipLineBreak element.content)) after, after) := by
    rw [ending_bind_pure, ending_mapError fun error => error.cause_shift _, h]
  refine (ending_bind_of hcontent context).trans ?_
  rw [hconstruction]
  cases tagCause environment context element.tag <;> rfl

theorem replacesFound {nested : Text → Pass Text} {later : Text → Context → Option ErrorCause}
    (h : ∀ content context, (nested content).ending context = (later content context, context)) :
    Sweep.ReplacesFound (step environment nested) find fun found context =>
      ((tagCause environment context found.1).or (later found.2 context), context) where
  keep {place fresh} hfind := by
    rw [step_eq, Option.map_eq_none_iff.mp hfind]
  replace {place fresh more construct} hfind := by
    obtain ⟨⟨qualifier, element⟩, hfirst, hconstruct⟩ := Option.map_eq_some_iff.mp hfind
    cases hconstruct
    rw [step_eq, hfirst]
    exact ⟨_, _, rfl, ending_statement h place fresh (qualifier?_of_first? hfirst)⟩

theorem findSome?_flatMap {σ τ ρ : Type} (constructs : List σ) (part : σ → List τ)
    (cause : τ → Option ρ) : (constructs.flatMap part).findSome? cause =
      constructs.findSome? fun construct => (part construct).findSome? cause := by
  induction constructs with
  | nil => rfl
  | cons construct constructs ih =>
    rw [List.flatMap_cons, List.findSome?_append, ih, List.findSome?_cons]
    cases (part construct).findSome? cause <;> rfl

/-- What is done about components leaves the context alone, so that the first of them for which it
fails decides. -/
theorem endingOfAll_found {σ : Type} (cause : σ → Context → Option ErrorCause) (constructs : List σ)
    (context : Context) :
    endingOfAll (fun construct context => (cause construct context, context)) constructs context =
      (constructs.findSome? (cause · context), context) := by
  induction constructs with
  | nil => rfl
  | cons construct constructs ih =>
    rw [endingOfAll, List.findSome?_cons]
    cases cause construct context with
    | none => exact ih
    | some cause => rfl

/-- The components of a text fail for the cause of the first tag that stands for no construction. -/
theorem ending_componentCalls (environment : Environment) (text : Text) (context : Context) :
    (componentCalls environment text).ending context =
      ((tags text).findSome? (tagCause environment context), context) := by
  have hnested (content : Text) (context : Context) :
      ending (if content.length < text.length then componentCalls environment content
        else pure content) context =
      ((if content.length < text.length then tags content else []).findSome?
        (tagCause environment context), context) := by
    split
    · exact ending_componentCalls environment content context
    · rfl
  have hsweep := (@replacesFound environment _ _ hnested).ending_sweepFrom [] [] 0 true text
    { context with level := context.level + 1 }
  rw [endingOfAll_found fun (found : Tag × Text) context =>
    (tagCause environment context found.1).or
      ((if found.2.length < text.length then tags found.2 else []).findSome?
        (tagCause environment context))] at hsweep
  rw [componentCalls, ending_nested, sweep, hsweep, tags, findSome?_flatMap]
  have hcause (tag : Tag) (later : List Tag) :
      (tag :: later).findSome? (tagCause environment context) =
        (tagCause environment context tag).or (later.findSome? (tagCause environment context)) := by
    rw [List.findSome?_cons]
    cases tagCause environment context tag <;> rfl
  simp only [tagCause_level, hcause]
  rfl
termination_by text.length

end Component

/-! ## Blocks -/

namespace BlockCall

/-- The block that is replaced at a place, of the blocks of the text by place. -/
def find (entries : List (Option Block)) (place : Place) (fresh : Nat) : Option (Block × Nat) :=
  entries[place.before.length]?.join.bind fun block =>
    (Layout.lead? place.before fresh).map fun _ => (block, block.written.length - 1)

def found (markers : Markers) (text : Text) : List Block :=
  Sweep.found (find (Block.entries markers none text)) [] 0 0 true text

/-- The ending of what is done about a block: its content is compiled, and then its call resolved.
-/
def blockEnding (environment : Environment) (nested : Text → Pass Text) (block : Block)
    (context : Context) : Ending :=
  match (nested block.content.trimEnd).ending context with
  | (none, after) => (cause? (block.head.resolve environment after 1), after)
  | failed => failed

theorem replacesFound (environment : Environment) (nested : Text → Pass Text)
    (entries : List (Option Block)) :
    Sweep.ReplacesFound (step environment nested entries) (find entries)
      (blockEnding environment nested) where
  keep {place fresh} hfind := by
    unfold find at hfind
    unfold step
    cases hblock : entries[place.before.length]?.join with
    | none => rfl
    | some block =>
      rw [hblock, Option.bind_some, Option.map_eq_none_iff] at hfind
      simp only [hfind]
  replace {place fresh more block} hfind := by
    obtain ⟨block', hblock, hfind⟩ := Option.bind_eq_some_iff.mp hfind
    obtain ⟨lead, hlead, heq⟩ := Option.map_eq_some_iff.mp hfind
    cases heq
    have hcall (compiled : Text) (after : Context) :
        ending (mapError (fun error =>
            (error.locate (Span.ofText place.offset block.written)).blame block.head.written)
          (ofContext fun context => block.head.resolve environment context 1) >>= fun call =>
            pure (code environment.options lead call block.head compiled)) after =
          (cause? (block.head.resolve environment after 1), after) := by
      rw [ending_bind_pure, ending_mapError fun error => error.cause_blame_locate _ _]
      rfl
    refine ⟨mapError (·.shift (place.offset + block.opening.size))
      (nested block.content.trimEnd) >>= fun compiled =>
        mapError (fun error =>
            (error.locate (Span.ofText place.offset block.written)).blame block.head.written)
          (ofContext fun context => block.head.resolve environment context 1) >>= fun call =>
            pure (code environment.options lead call block.head compiled),
      lead.length, ?_, fun context => ?_⟩
    · unfold step
      simp only [hblock, hlead, bind_assoc, pure_bind]
    · rw [ending_bind_of hcall, ending_mapError fun error => error.cause_shift _]
      rfl

theorem ending_blockCalls (environment : Environment) (nested : Text → Pass Text) (text : Text)
    (context : Context) :
    (blockCalls environment nested text).ending context =
      endingOfAll (blockEnding environment nested) (found environment.options.markers text)
        context :=
  (replacesFound environment nested _).ending_sweepFrom [] [] 0 true text context

end BlockCall

end TemplateCompiler
