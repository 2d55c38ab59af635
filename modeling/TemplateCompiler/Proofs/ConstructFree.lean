import TemplateCompiler.Proofs.IdlePasses

/-!
# Text without constructs

Markup that is none of the compiler's business is passed on as it stands. A place begins no
construct if no pass would find anything there; a text all of whose places are such is left alone
by each of the passes, and so by all of them.
-/
namespace TemplateCompiler

/-- A tag, followed by a text, is no construct: it is plain and has no directive of the runtime, or
its qualifier is reserved for markup, or it is not closed. -/
def Tag.IsMarkup (tag : Tag) (after : Text) : Prop :=
  (tag.qualifier = none ∧ ∀ directive ∈ tag.directives, Name.aliasKey directive.1 ≠ "_h".toList) ∨
    tag.qualifier.any isXmlName ∨ (tag.qualifier ≠ none ∧ Element.ofTag? tag after = none)

instance (tag : Tag) (after : Text) : Decidable (tag.IsMarkup after) := by
  unfold Tag.IsMarkup
  infer_instance

namespace Tag.IsMarkup

variable {tag : Tag} {after : Text}

theorem not_isPromotable {context : Context} (h : tag.IsMarkup after)
    (hbound : ∀ directive ∈ tag.directives, Name.aliasKey directive.1 ≠ "_h".toList →
      context.binding? directive.1 = none) : ¬Promotion.isPromotable context tag := by
  unfold Promotion.isPromotable
  rw [Bool.and_eq_true, Option.isNone_iff_eq_none, List.any_eq_true]
  rintro ⟨hqualifier, directive, hdirective, hsome⟩
  rcases h with ⟨-, hfree⟩ | hreserved | ⟨hqualified, -⟩
  · rw [hbound directive hdirective (hfree directive hdirective)] at hsome
    cases hsome
  · rw [hqualifier] at hreserved
    cases hreserved
  · exact hqualified hqualifier

theorem isNone (h : tag.IsMarkup after) : Component.IsNone (tag, after) := by
  rcases h with ⟨hnone, -⟩ | hreserved | ⟨-, hopen⟩
  · left
    rw [Component.qualifier?, hnone]
    rfl
  · left
    rw [Component.qualifier?, Option.filter_eq_none_iff]
    intro qualifier hqualifier
    rw [hqualifier, Option.any_some] at hreserved
    simp [hreserved]
  · exact Or.inr hopen

end Tag.IsMarkup

/-- No construct begins at a place, with the default markers and no alias but that of the
runtime. -/
structure Inert (place : Place) : Prop where
  directive : ∀ keyword ∈ ["@use", "@config", "@content", "xmlns:"],
    Text.startsWith place.rest keyword.toList = false
  /-- A call marker is glued to a word. -/
  call : Text.startsWith place.rest "@@".toList → place.previous.any isWordChar
  tag : ∀ found ∈ Tag.parse? place.rest, found.1.IsMarkup found.2

instance (place : Place) : Decidable (Inert place) :=
  decidable_of_iff
    ((∀ keyword ∈ ["@use", "@config", "@content", "xmlns:"],
      Text.startsWith place.rest keyword.toList = false) ∧
    (Text.startsWith place.rest "@@".toList → place.previous.any isWordChar) ∧
    ∀ found ∈ Tag.parse? place.rest, found.1.IsMarkup found.2)
    ⟨fun h => ⟨h.1, h.2.1, h.2.2⟩, fun h => ⟨h.directive, h.call, h.tag⟩⟩

def ConstructFree (text : Text) : Prop := ∀ place : Place, place.text = text → Inert place

instance (text : Text) : Decidable (ConstructFree text) :=
  decidable_of_iff _ Place.forall_iff.symm

namespace ConstructFree

variable {text : Text}

theorem directiveFree (h : ConstructFree text) : DirectiveFree text := by
  intro keyword hkeyword
  rw [Text.contains_eq_false_iff]
  rintro rest ⟨before, hrest⟩
  have hplace : (⟨before.reverse, rest⟩ : Place).text = text := by
    rw [← hrest]
    simp [Place.text]
  have hstarts := (h _ hplace).directive keyword hkeyword
  rwa [Text.startsWith, Option.isSome_eq_false_iff, Option.isNone_iff_eq_none] at hstarts

theorem uses_eq_pure (h : ConstructFree text) : Directive.uses text = pure text :=
  h.directiveFree.uses_eq_pure

theorem namespaces_eq_pure (h : ConstructFree text) : Directive.namespaces text = pure text :=
  h.directiveFree.namespaces_eq_pure

theorem configBlocks_eq_pure (h : ConstructFree text) : Directive.configBlocks text = pure text :=
  h.directiveFree.configBlocks_eq_pure

theorem contents_eq_pure (h : ConstructFree text) : Directive.contents text = pure text :=
  h.directiveFree.contents_eq_pure

theorem callFree (h : ConstructFree text) : CallFree {} text := by
  intro place hplace hprevious
  have hcall : ¬Text.startsWith place.rest "@@".toList := by
    intro hstarts
    exact hprevious ((h place hplace).call hstarts)
  apply Head.parse?_eq_none
  rwa [Text.startsWith, Bool.not_eq_true, Option.isSome_eq_false_iff,
    Option.isNone_iff_eq_none] at hcall

variable {environment : Environment}

theorem simpleCalls_eq (h : ConstructFree text) (hmarkers : environment.options.markers = {})
    (context : Context) : simpleCalls environment context text = .ok text := by
  have hfree : CallFree environment.options.markers text := by
    rw [hmarkers]
    exact h.callFree
  exact hfree.simpleCalls_eq context

theorem blockCalls_eq_pure (h : ConstructFree text) (hmarkers : environment.options.markers = {})
    (nested : Text → Pass Text) : blockCalls environment nested text = pure text := by
  have hfree : CallFree environment.options.markers text := by
    rw [hmarkers]
    exact h.callFree
  exact TemplateCompiler.blockCalls_eq_pure (hfree.entries_eq_none [] text rfl) nested

theorem binding?_initial {level : Nat} {prolog : List Text} {name : Text}
    (h : Name.aliasKey name ≠ "_h".toList) :
    Context.binding? ⟨Context.initial.bindings, level, prolog⟩ name = none := by
  have hruntime : Name.aliasKey Binding.runtime.name = "_h".toList := by decide
  have hkey : (Name.aliasKey name == Name.aliasKey Binding.runtime.name) = false := by
    rw [hruntime, beq_eq_false_iff_ne]
    exact h
  simp only [Context.binding?, Context.initial, List.lookup_cons, hkey, List.lookup_nil]

theorem promote_eq_self (h : ConstructFree text) (level : Nat) (prolog : List Text) :
    promote ⟨Context.initial.bindings, level, prolog⟩ text = text := by
  apply TemplateCompiler.promote_eq_self
  rw [Tag.everywhere_iff]
  intro place hplace found hfound
  exact ((h place hplace).tag found hfound).not_isPromotable fun _ _ => binding?_initial

theorem componentCalls_eq_pure (h : ConstructFree text) :
    componentCalls environment text = Pass.nested (pure text) := by
  apply TemplateCompiler.componentCalls_eq_pure
  rw [Tag.everywhere_iff]
  intro place hplace found hfound
  exact ((h place hplace).tag found hfound).isNone

end ConstructFree

/-- A text in which no construct begins is compiled to itself. -/
theorem compileTemplate_eq_self (registry : Registry) (mode : OutputMode) (useCache : Bool)
    {source : Text} (h : ConstructFree source) :
    compileTemplate ⟨registry, ⟨{}, mode, useCache⟩⟩ source = .ok source := by
  have hpasses : ∀ pass ∈ passesWithin ⟨registry, ⟨{}, mode, useCache⟩⟩ source.length,
      (pass source).run ⟨Context.initial.bindings, 1, []⟩ =
        (.ok source, ⟨Context.initial.bindings, 1, []⟩) := by
    intro pass hpass
    simp only [passesWithin, passes, List.mem_cons, List.not_mem_nil, or_false] at hpass
    rcases hpass with rfl | rfl | rfl | rfl | rfl | rfl | rfl | rfl
    · rw [h.uses_eq_pure]
      rfl
    · rw [h.namespaces_eq_pure]
      rfl
    · rw [h.configBlocks_eq_pure]
      rfl
    · rw [h.contents_eq_pure]
      rfl
    · show (simpleCalls _ _ source, _) = _
      rw [h.simpleCalls_eq rfl]
    · rw [h.blockCalls_eq_pure rfl]
      rfl
    · show (Except.ok (promote _ source), _) = _
      rw [h.promote_eq_self]
    · rw [h.componentCalls_eq_pure]
      rfl
  have hrun : (runPasses (passesWithin ⟨registry, ⟨{}, mode, useCache⟩⟩ source.length) source).run
      { Context.initial with level := Context.initial.level + 1 } =
        (.ok source, ⟨Context.initial.bindings, 1, []⟩) := runPasses_eq_self hpasses
  rw [compileTemplate, compile, compileWithin_run, hrun]
  rfl

/-- Markup with an echo, a directive of nobody, a marker within a word and a tag left open. -/
theorem compileTemplate_plain_page :
    ConstructFree "<p x-on:click='f'>\x7b\x7b $a \x7d\x7d b@@c.d</p>\n<xml:e><x:y>".toList ∧
    compileTemplate ⟨Registry.builtin, ⟨{}, .compact, true⟩⟩
        "<p x-on:click='f'>\x7b\x7b $a \x7d\x7d b@@c.d</p>\n<xml:e><x:y>".toList =
      .ok "<p x-on:click='f'>\x7b\x7b $a \x7d\x7d b@@c.d</p>\n<xml:e><x:y>".toList :=
  ⟨by decide +kernel, compileTemplate_eq_self _ _ _ (by decide +kernel)⟩

end TemplateCompiler
