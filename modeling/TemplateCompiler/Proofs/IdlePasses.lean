import TemplateCompiler.Proofs.BlockMatching
import TemplateCompiler.Proofs.Nesting
import TemplateCompiler.Proofs.Scanning
import TemplateCompiler.Proofs.Sweeping

/-!
# Passes that find nothing

A pass that finds none of its constructs at any place of a text hands the text on as it stands.
What makes a place uninteresting differs from pass to pass: no match of a pattern, no head of a
call, no tag with a directive to run, no element that is a component.
-/
namespace TemplateCompiler

theorem Place.forall_iff {text : Text} {p : Place → Prop} :
    (∀ place : Place, place.text = text → p place) ↔
      ∀ count ∈ List.range (text.length + 1), p ((Place.start text).advance count) := by
  constructor
  · intro h count _
    exact h _ (Place.text_advance _ _)
  · rintro h place rfl
    rw [← place.advance_start]
    refine h place.before.length (List.mem_range.mpr ?_)
    simp only [Place.text, List.length_append, List.length_reverse]
    omega

instance Place.decidableForall {text : Text} {p : Place → Prop} [DecidablePred p] :
    Decidable (∀ place : Place, place.text = text → p place) :=
  decidable_of_iff _ Place.forall_iff.symm

theorem Matcher.leftmost_eq_none {α : Type} {pattern : Place → Option (Nat × α)} {place : Place}
    (h : ∀ place' : Place, place'.text = place.text → place'.rest <:+ place.rest →
      pattern place' = none) : Matcher.leftmost pattern place = none := by
  obtain ⟨before, rest⟩ := place
  unfold Matcher.leftmost
  induction rest generalizing before with
  | nil => simp [Matcher.leftmost.go, h]
  | cons c rest ih =>
    have hrest : Matcher.leftmost.go pattern (c :: before) rest = none :=
      ih (c :: before) fun place' htext hplace =>
        h place' (by rw [htext, Place.text_shift]) (hplace.trans (List.suffix_cons _ _))
    simp [Matcher.leftmost.go, h, hrest]

theorem Substitution.substituteFrom_eq_pure {α : Type} {pattern : Place → Option (Nat × α)}
    {replace : Replace α} {place : Place}
    (h : ∀ place' : Place, place'.text = place.text → place'.rest <:+ place.rest →
      pattern place' = none) :
    substituteFrom (Matcher.leftmost pattern) replace place = pure place.rest := by
  rw [substituteFrom, Matcher.leftmost_eq_none h]

theorem runPasses_eq_self {passes : List (Text → Pass Text)} {text : Text} {context : Context}
    (h : ∀ pass ∈ passes, (pass text).run context = (.ok text, context)) :
    (runPasses passes text).run context = (.ok text, context) := by
  induction passes with
  | nil => rfl
  | cons pass passes ih =>
    have hfirst := h pass List.mem_cons_self
    have hlater := ih fun pass hpass => h pass (List.mem_cons_of_mem _ hpass)
    rw [runPasses_cons, Pass.run_bind, hfirst]
    exact hlater

namespace Directive

variable {place : Place}

theorem Use.pattern_eq_none (h : place.rest.contains "@use".toList = false) :
    Use.pattern place = none := by
  have hafter := Text.contains_eq_false_iff.mp h _ (List.dropWhile_suffix Unicode.isWhitespace)
  simp only [Use.pattern, Text.trimStart, hafter, Option.bind_none]

theorem Namespace.pattern_eq_none (h : place.rest.contains "xmlns:".toList = false) :
    Namespace.pattern place = none := by
  have hafter := Text.contains_eq_false_iff.mp h _ (List.suffix_refl _)
  simp only [Namespace.pattern, hafter, Option.bind_none, ite_self]

theorem Config.pattern_eq_none (h : place.rest.contains "@config".toList = false) :
    Config.pattern place = none := by
  have hafter := Text.contains_eq_false_iff.mp h _ (List.suffix_refl _)
  unfold Config.pattern
  rw [hafter, Option.bind_none]

theorem Content.pattern_eq_none (h : place.rest.contains "@content".toList = false) :
    Content.pattern place = none := by
  have hafter := Text.contains_eq_false_iff.mp h _ (List.dropWhile_suffix Unicode.isWhitespace)
  unfold Content.pattern Content.keyword Text.trimStart
  rw [hafter, Option.bind_none]

end Directive

/-- No directive is written anywhere in a text. -/
def DirectiveFree (text : Text) : Prop :=
  ∀ keyword ∈ ["@use", "@config", "@content", "xmlns:"], text.contains keyword.toList = false

instance (text : Text) : Decidable (DirectiveFree text) :=
  inferInstanceAs (Decidable (∀ keyword ∈ ["@use", "@config", "@content", "xmlns:"],
    text.contains keyword.toList = false))

namespace DirectiveFree

variable {text : Text}

theorem of_suffix {rest : Text} (h : DirectiveFree text) (hrest : rest <:+ text) :
    DirectiveFree rest :=
  fun keyword hkeyword => Text.contains_of_suffix (h keyword hkeyword) hrest

theorem substituteFrom_uses {place : Place} (h : DirectiveFree place.rest) :
    Substitution.substituteFrom (Matcher.leftmost Directive.Use.pattern) Directive.Use.replace
      place = pure place.rest :=
  Substitution.substituteFrom_eq_pure fun _ _ hplace =>
    Directive.Use.pattern_eq_none (h.of_suffix hplace "@use" (by simp))

theorem uses_eq_pure (h : DirectiveFree text) : Directive.uses text = pure text :=
  substituteFrom_uses h

theorem namespaces_eq_pure (h : DirectiveFree text) : Directive.namespaces text = pure text :=
  Substitution.substituteFrom_eq_pure fun _ _ hplace =>
    Directive.Namespace.pattern_eq_none (h.of_suffix hplace "xmlns:" (by simp))

theorem configBlocks_eq_pure (h : DirectiveFree text) : Directive.configBlocks text = pure text :=
  Substitution.substituteFrom_eq_pure fun _ _ hplace =>
    Directive.Config.pattern_eq_none (h.of_suffix hplace "@config" (by simp))

theorem contents_eq_pure (h : DirectiveFree text) : Directive.contents text = pure text :=
  Substitution.substituteFrom_eq_pure fun _ _ hplace =>
    Directive.Content.pattern_eq_none (h.of_suffix hplace "@content" (by simp))

end DirectiveFree

theorem blockCalls_eq_pure {environment : Environment} {text : Text}
    (h : ∀ entry ∈ Block.entries environment.options.markers none text, entry = none)
    (nested : Text → Pass Text) : blockCalls environment nested text = pure text := by
  apply sweep_eq_pure
  intro place fresh _
  have hnone : (Block.entries environment.options.markers none text)[place.before.length]?.join =
      none := by
    cases hentry :
        (Block.entries environment.options.markers none text)[place.before.length]? with
    | none => rfl
    | some entry => exact h entry (List.mem_of_getElem? hentry)
  unfold BlockCall.step
  rw [hnone]

namespace Block

variable {markers : Markers} {head : Head} {text : Text}

theorem endTag?_eq_none (h : Text.after? (markers.call ++ markers.endKeyword) text = none) :
    head.endTag? markers text = none := by
  unfold Head.endTag?
  cases hcall : Text.after? markers.call text with
  | none => rfl
  | some keyword =>
    cases hkeyword : Text.after? markers.endKeyword keyword with
    | none => simp [hkeyword]
    | some named =>
      rw [Text.after?_eq_some_iff.mp hcall, Text.after?_eq_some_iff.mp hkeyword,
        ← List.append_assoc, Text.after?_append] at h
      cases h

theorem content?_eq_none (h : text.contains (markers.call ++ markers.endKeyword) = false)
    (skip : Nat) (later : List (Option Block)) : content? markers head skip text later = none := by
  induction text generalizing skip later with
  | nil => simp [content?]
  | cons c rest ih =>
    have hrest := ih (Text.contains_of_suffix h (List.suffix_cons _ _))
    have hclosing : head.endTag? markers (c :: rest) = none :=
      endTag?_eq_none (Text.contains_eq_false_iff.mp h _ (List.suffix_refl _))
    cases skip with
    | succ skip => rw [content?, hrest, Option.map_none]
    | zero =>
      rw [content?]
      split
      · rw [hrest, Option.map_none]
      · simp only [hclosing, hrest, Option.map_none]

theorem parse?_eq_none (h : text.contains (markers.call ++ markers.endKeyword) = false)
    (later : List (Option Block)) : parse? markers text later = none := by
  unfold parse?
  rw [Option.bind_eq_none_iff]
  rintro ⟨head, afterHead⟩ hhead
  simp only
  split
  · rfl
  · rw [Option.bind_eq_none_iff]
    rintro ⟨lead, content⟩ hlead
    have hcontent : content <:+ text := by
      rw [Head.parse?_eq hhead, lead?_eq hlead]
      exact ((List.suffix_append _ _).trans (List.suffix_append _ _))
    simp only [content?_eq_none (Text.contains_of_suffix h hcontent), Option.map_none]

theorem entries_eq_none (h : text.contains (markers.call ++ markers.endKeyword) = false)
    (previous : Option Char) : ∀ entry ∈ entries markers previous text, entry = none := by
  induction text generalizing previous with
  | nil => simp [entries]
  | cons c rest ih =>
    intro entry hentry
    rw [entries, List.mem_cons] at hentry
    rcases hentry with rfl | hlater
    · rw [parse?_eq_none h, ite_self]
    · exact ih (Text.contains_of_suffix h (List.suffix_cons _ _)) (some c) entry hlater

end Block

theorem DirectiveFree.runPasses_eq {text : Text} (h : DirectiveFree text)
    {environment : Environment} {depth : Nat} {passes : List (Text → Pass Text)}
    (hpasses : passes ⊆ (passesWithin environment depth).take 4) (context : Context) :
    (runPasses passes text).run context = (.ok text, context) := by
  apply runPasses_eq_self
  intro pass hmem
  have hpass := hpasses hmem
  simp only [passesWithin, TemplateCompiler.passes, List.take_succ_cons, List.take_zero,
    List.mem_cons, List.not_mem_nil, or_false] at hpass
  rcases hpass with rfl | rfl | rfl | rfl
  · rw [h.uses_eq_pure]
    rfl
  · rw [h.namespaces_eq_pure]
    rfl
  · rw [h.configBlocks_eq_pure]
    rfl
  · rw [h.contents_eq_pure]
    rfl

theorem runPasses_simpleCalls (environment : Environment) (depth : Nat) (text : Text) :
    runPasses ((passesWithin environment depth).drop 4) text =
      (Pass.ofContext fun context => simpleCalls environment context text) >>=
        runPasses ((passesWithin environment depth).drop 5) := rfl

/-- No head of a call is read anywhere in a text, but where its marker is glued to a word. -/
def CallFree (markers : Markers) (text : Text) : Prop :=
  ∀ place : Place, place.text = text → ¬place.previous.any isWordChar →
    Head.parse? markers place.rest = none

instance (markers : Markers) (text : Text) : Decidable (CallFree markers text) :=
  inferInstanceAs (Decidable (∀ place : Place, place.text = text →
    ¬place.previous.any isWordChar → Head.parse? markers place.rest = none))

namespace CallFree

variable {environment : Environment} {text : Text}

theorem simpleCalls_eq (h : CallFree environment.options.markers text) (context : Context) :
    simpleCalls environment context text = .ok text := by
  apply sweep_eq_pure
  intro place fresh hplace
  unfold SimpleCall.step
  by_cases hprevious : place.previous.any isWordChar
  · rw [if_pos hprevious]
    rfl
  · rw [if_neg hprevious, h place hplace hprevious]
    rfl

theorem entries_eq_none {markers : Markers} (h : CallFree markers text) (before rest : Text)
    (hplace : (⟨before, rest⟩ : Place).text = text) :
    ∀ entry ∈ Block.entries markers before.head? rest, entry = none := by
  induction rest generalizing before with
  | nil => simp [Block.entries]
  | cons c rest ih =>
    intro entry hentry
    rw [Block.entries, List.mem_cons] at hentry
    rcases hentry with rfl | hlater
    · split
      · rfl
      · rename_i hprevious
        have hparse := h ⟨before, c :: rest⟩ hplace hprevious
        simp only at hparse
        simp only [Block.parse?, hparse, Option.bind_none]
    · exact ih (c :: before) (by rwa [Place.text_shift]) entry hlater

end CallFree

/-- Every tag that is read anywhere in a text, together with what follows it, has a property. -/
def Tag.Everywhere (p : Tag × Text → Prop) (text : Text) : Prop :=
  ∀ rest, rest <:+ text → ∀ found ∈ Tag.parse? rest, p found

theorem Tag.everywhere_iff {p : Tag × Text → Prop} {text : Text} : Tag.Everywhere p text ↔
    ∀ place : Place, place.text = text → ∀ found ∈ Tag.parse? place.rest, p found := by
  constructor
  · rintro h place rfl
    exact h place.rest ⟨place.before.reverse, rfl⟩
  · rintro h rest ⟨before, rfl⟩
    exact h ⟨before.reverse, rest⟩ (by simp [Place.text])

instance (p : Tag × Text → Prop) [DecidablePred p] (text : Text) :
    Decidable (Tag.Everywhere p text) :=
  decidable_of_iff _ Tag.everywhere_iff.symm

theorem promote_eq_self {context : Context} {text : Text}
    (h : Tag.Everywhere (fun found => ¬Promotion.isPromotable context found.1) text) :
    promote context text = text := by
  rw [promote]
  apply sweep_eq_pure
  intro place fresh hplace
  unfold Promotion.step
  split
  · rfl
  · rename_i tag after hparse
    rw [if_neg (Tag.everywhere_iff.mp h place hplace (tag, after) hparse)]
    rfl

/-- A tag is no component, or one that is not closed. -/
def Component.IsNone (found : Tag × Text) : Prop :=
  Component.qualifier? found.1 = none ∨ Element.ofTag? found.1 found.2 = none

instance : DecidablePred Component.IsNone := fun found =>
  inferInstanceAs (Decidable
    (Component.qualifier? found.1 = none ∨ Element.ofTag? found.1 found.2 = none))

theorem componentCalls_eq_pure {environment : Environment} {text : Text}
    (h : Tag.Everywhere Component.IsNone text) :
    componentCalls environment text = Pass.nested (pure text) := by
  rw [componentCalls]
  apply congrArg Pass.nested
  apply sweep_eq_pure
  intro place fresh hplace
  unfold Component.step
  split
  · rfl
  · rename_i tag after hparse
    rcases Tag.everywhere_iff.mp h place hplace (tag, after) hparse with hnone | hopen
    · rw [hnone]
    · split
      · rfl
      · rw [hopen]

/-- Nothing is left to do in a text once its directives are run and its simple calls replaced: there
is no block, no plain tag to promote and no component. -/
structure Settled (markers : Markers) (context : Context) (text : Text) : Prop where
  block : ∀ entry ∈ Block.entries markers none text, entry = none
  promotion : Tag.Everywhere (fun found => ¬Promotion.isPromotable context found.1) text
  component : Tag.Everywhere Component.IsNone text

instance (markers : Markers) (context : Context) (text : Text) :
    Decidable (Settled markers context text) :=
  decidable_of_iff
    ((∀ entry ∈ Block.entries markers none text, entry = none) ∧
      Tag.Everywhere (fun found => ¬Promotion.isPromotable context found.1) text ∧
      Tag.Everywhere Component.IsNone text)
    ⟨fun h => ⟨h.1, h.2.1, h.2.2⟩, fun h => ⟨h.block, h.promotion, h.component⟩⟩

theorem Settled.runPasses_eq {environment : Environment} {context : Context} {text : Text}
    (h : Settled environment.options.markers context text) (depth : Nat) :
    (runPasses ((passesWithin environment depth).drop 5) text).run context =
      (.ok text, context) := by
  apply runPasses_eq_self
  intro pass hpass
  simp only [passesWithin, passes, List.drop_succ_cons, List.drop_zero, List.mem_cons,
    List.not_mem_nil, or_false] at hpass
  rcases hpass with rfl | rfl | rfl
  · rw [blockCalls_eq_pure h.block]
    rfl
  · show (Except.ok (promote context text), context) = _
    rw [promote_eq_self h.promotion]
  · rw [componentCalls_eq_pure h.component]
    rfl

end TemplateCompiler
