import TemplateCompiler.Diagnostic
import TemplateCompiler.Proofs.ErrorSpans

/-!
# Where errors are shown

An error is shown where its fragment occurs first in the template. The error of a component has
its opening tag as fragment, so it is shown at the tag that failed unless the same text stands
before it, where it may be part of something that did not fail.
-/
namespace TemplateCompiler

namespace Text

variable {pattern text before after earlier later : Text}

theorem prefix_of_cut? (h : cut? pattern text = some (before, after))
    (hother : text = earlier ++ pattern ++ later) : before <+: earlier := by
  induction text generalizing before earlier with
  | nil =>
    unfold cut? at h
    split at h
    · cases h
      exact List.nil_prefix
    · cases h
  | cons c rest ih =>
    unfold cut? at h
    split at h
    · cases h
      exact List.nil_prefix
    · rename_i hstart
      obtain ⟨⟨before', after'⟩, hcut, hfound⟩ := Option.map_eq_some_iff.mp h
      cases hfound
      cases earlier with
      | nil =>
        rw [hother, List.nil_append, after?_append] at hstart
        cases hstart
      | cons d earlier =>
        obtain ⟨rfl, hrest⟩ := List.cons.inj hother
        exact (List.prefix_cons_inj c).mpr (ih hcut hrest)

theorem exists_cut? (h : text = earlier ++ pattern ++ later) :
    ∃ before after, cut? pattern text = some (before, after) := by
  have hcontains : text.contains pattern := contains_iff.mpr ⟨earlier, later, h.symm⟩
  obtain ⟨⟨before, after⟩, hcut⟩ := Option.isSome_iff_exists.mp hcontains
  exact ⟨before, after, hcut⟩

theorem eq_of_prefix_of_size_eq (h : before <+: text) (hsize : before.size = text.size) :
    before = text := by
  obtain ⟨rest, rfl⟩ := h
  have hlength := length_le_size rest
  rw [size_append] at hsize
  have hrest : rest = [] := List.eq_nil_of_length_eq_zero (by omega)
  rw [hrest, List.append_nil]

end Text

/-- Whether a piece of a text stands behind `before` and nowhere earlier in it. -/
def Text.OccursFirst (piece text before : Text) : Prop :=
  (∃ after, text = before ++ piece ++ after) ∧
    ∀ earlier after, text = earlier ++ piece ++ after → before <+: earlier

/-- An error with a fragment that the template holds is shown where that occurs first. -/
theorem CompileError.position?_eq {error : CompileError} {source fragment before after : Text}
    (hfragment : error.fragment = some fragment) (hempty : fragment ≠ [])
    (hsource : source = before ++ fragment ++ after) :
    ∃ first, fragment.OccursFirst source first ∧
      error.position? source = some (first.size, fragment.size) := by
  obtain ⟨first, rest, hcut⟩ := Text.exists_cut? hsource
  refine ⟨first, ⟨⟨rest, Text.cut?_eq hcut⟩, fun _ _ => Text.prefix_of_cut? hcut⟩, ?_⟩
  have hnonempty : (!fragment.isEmpty) = true := by simpa using hempty
  rw [position?, hfragment, Option.filter_some, if_pos hnonempty, Option.bind_some, hcut,
    Option.map_some]

namespace Sweep

variable {step : Place → Nat → Pass Move} {before pending text : Text} {busy fresh : Nat}
  {keeping : Bool} {context moment : Context} {place : Place} {error : CompileError}

theorem Reaches.fails
    (h : Reaches step before pending busy keeping text context place fresh moment)
    (hstep : ((step place fresh).run moment).1 = .error error) :
    ((sweepFrom step before pending busy keeping text).run context).1 = .error error := by
  induction h with
  | here before pending keeping c rest context =>
    rw [sweepFrom, Pass.run_bind]
    rcases hrun : (step ⟨before, c :: rest⟩ pending.length).run context with ⟨error' | move, after⟩
    · rw [hrun] at hstep
      cases hstep
      rfl
    · rw [hrun] at hstep
      cases hstep
  | skip _ ih => exact ih hstep
  | keep hkeep _ ih =>
    rw [sweepFrom, Pass.run_bind, hkeep]
    exact ih hstep
  | replace hreplace _ ih =>
    rw [sweepFrom, Pass.run_bind, hreplace]
    simp only [Pass.run_bind]
    have hlater := ih hstep
    revert hlater
    rcases (sweepFrom step _ _ _ _ _).run _ with ⟨error' | swept, after⟩ <;> intro hlater
    · exact hlater
    · cases hlater

theorem reaches_of_keep {c : Char} {rest : Text} (kept : Text)
    (h : ∀ n < kept.length,
      (step ((⟨before, kept ++ c :: rest⟩ : Place).advance n) (pending.length + n)).run context =
        (.ok (.keep 0), context)) :
    Reaches step before pending 0 keeping (kept ++ c :: rest) context
      ⟨kept.reverse ++ before, c :: rest⟩ (pending.length + kept.length) context := by
  induction kept generalizing before pending keeping with
  | nil => exact .here before pending keeping c rest context
  | cons d kept ih =>
    have hlater := @ih (d :: before) (d :: pending) true fun n hn => by
      have hkeep := h (n + 1) (Nat.succ_lt_succ hn)
      simp only [Place.advance, List.cons_append, List.take_succ_cons, List.drop_succ_cons,
        List.reverse_cons, List.append_assoc] at hkeep ⊢
      rw [List.length_cons, Nat.add_right_comm]
      exact hkeep
    refine .keep (h 0 (Nat.zero_lt_succ _)) ?_
    rw [List.reverse_cons, List.append_assoc, List.length_cons, ← Nat.add_assoc,
      Nat.add_right_comm]
    exact hlater

end Sweep

namespace Component

variable {environment : Environment} {context : Context} {text : Text} {place : Place} {tag : Tag}
  {cause : CompileError}

theorem step_fails {inner : Text → Pass Text} {behind qualifier rest : Text} {fresh : Nat}
    {element : Element} (htag : Tag.parse? place.rest = some (tag, behind))
    (hqualifier : qualifier? tag = some qualifier)
    (helement : Element.ofTag? tag behind = some (element, rest))
    (hcause : Construction.ofTag environment context qualifier tag = .error cause) :
    ((step environment inner place fresh).run context).1 =
      .error (errorAt cause place.offset tag) := by
  have hread : (Pass.ofContext fun context =>
      Construction.ofTag environment context qualifier tag).run context = (.error cause, context) :=
    congrArg (·, context) hcause
  unfold step
  simp only [htag, hqualifier, helement]
  rw [Pass.run_bind, Pass.run_mapError, hread, ← errorAt_eq (Construction.span_of_ofTag hcause)]
  rfl

/-- The pass over the components of a text, begun in a context, comes to a tag at a place of the
text itself and fails to construct the handler of the tag. -/
inductive FailsAt (environment : Environment) (context : Context) (text : Text) (place : Place)
    (tag : Tag) (cause : CompileError) : Prop
  | intro {moment : Context} {behind qualifier rest : Text} {fresh : Nat} {element : Element}
      (hreaches : Sweep.Reaches (step environment (nested environment text)) [] [] 0 true text
        { context with level := context.level + 1 } place fresh moment)
      (htag : Tag.parse? place.rest = some (tag, behind))
      (hqualifier : qualifier? tag = some qualifier)
      (helement : Element.ofTag? tag behind = some (element, rest))
      (hcause : Construction.ofTag environment moment qualifier tag = .error cause)

namespace FailsAt

theorem of_keep {c : Char} {rest behind qualifier after : Text} {element : Element} (kept : Text)
    (htext : text = kept ++ c :: rest)
    (hkeep : ∀ n < kept.length,
      (((step environment (nested environment text) ((Place.start text).advance n) n).run
          { context with level := context.level + 1 }).1.toOption = some (.keep 0)) ∧
        ((step environment (nested environment text) ((Place.start text).advance n) n).run
          { context with level := context.level + 1 }).2 =
            { context with level := context.level + 1 })
    (htag : Tag.parse? (c :: rest) = some (tag, behind))
    (hqualifier : qualifier? tag = some qualifier)
    (helement : Element.ofTag? tag behind = some (element, after))
    (hcause : Construction.ofTag environment { context with level := context.level + 1 } qualifier
      tag = .error cause) :
    FailsAt environment context text ⟨kept.reverse, c :: rest⟩ tag cause := by
  have hreaches := @Sweep.reaches_of_keep (step environment (nested environment text)) [] [] true
    { context with level := context.level + 1 } c rest kept fun n hn => by
      rw [← htext, List.length_nil, Nat.zero_add]
      exact Prod.ext (eq_ok_of_toOption (hkeep n hn).1) (hkeep n hn).2
  rw [← htext, List.append_nil] at hreaches
  exact .intro hreaches htag hqualifier helement hcause

theorem componentCalls_run (h : FailsAt environment context text place tag cause) :
    ((componentCalls environment text).run context).1 =
      .error (errorAt cause place.offset tag) := by
  obtain ⟨hreaches, htag, hqualifier, helement, hcause⟩ := h
  rw [componentCalls_eq, Pass.run_nested]
  exact hreaches.fails (step_fails htag hqualifier helement hcause)

theorem text_eq (h : FailsAt environment context text place tag cause) :
    ∃ behind, text = place.before.reverse ++ tag.written ++ behind := by
  obtain ⟨hreaches, htag, -, -, -⟩ := h
  have htext := hreaches.text_eq
  rw [Place.text, Tag.parse?_eq htag, List.reverse_nil, List.nil_append,
    ← List.append_assoc] at htext
  exact ⟨_, htext.symm⟩

end FailsAt

end Component

theorem HasRun.compile_fails {environment : Environment} {context moment : Context} {source : Text}
    {error : CompileError} (h : HasRun environment source.length source context 7 source moment)
    (hfails : ((componentCalls environment source).run moment).1 = .error error) :
    ((compile environment source).run context).1 = .error error := by
  have hlast : (runPasses ((passesWithin environment source.length).drop 7) source).run moment =
      ((componentCalls environment source) >>= pure).run moment := rfl
  rw [bind_pure] at hlast
  rw [compile, compileWithin_run, h.run_drop, hlast]
  revert hfails
  rcases (componentCalls environment source).run moment with ⟨error' | text, after⟩ <;> intro hfails
  · exact hfails
  · cases hfails

/-- If the first seven passes change nothing in a template and its components fail at a tag of the
template itself, the compile fails with the span of that tag. If the fragment is the tag, the error
is shown where the text of the tag stands first: by all ways of showing it at the same place, which
is at or before the failing tag, and is that tag exactly if its text does not stand before it. -/
theorem failing_tag_shown_at_first_occurrence {environment : Environment} {context moment : Context}
    {source : Text} {place : Place} {tag : Tag} {cause : CompileError}
    (hpasses : HasRun environment source.length source context 7 source moment)
    (hfails : Component.FailsAt environment moment source place tag cause)
    (hfragment : ∀ fragment, cause.fragment = some fragment → fragment = tag.written) :
    ∃ error first,
      ((compile environment source).run context).1 = .error error ∧
      error.span = Span.ofText place.offset tag.written ∧
      error.fragment = some tag.written ∧
      tag.written.OccursFirst source first ∧
      error.position? source = some (first.size, tag.written.size) ∧
      error.lineAndColumn? source =
        some ((LineIndex.ofText source).position first.size).shown ∧
      (Diagnostic.ofError source error).labels = [⟨"here".toList, first.size, tag.written.size⟩] ∧
      first.size ≤ error.span.start ∧
      (first.size = error.span.start ↔ tag.written.OccursFirst source place.before.reverse) := by
  have hblamed : (Component.errorAt cause place.offset tag).fragment = some tag.written := by
    cases hcause : cause.fragment with
    | none => rw [Component.errorAt, hcause, Option.getD_none]
    | some fragment => rw [Component.errorAt, hcause, Option.getD_some, hfragment fragment hcause]
  obtain ⟨behind, hsource⟩ := hfails.text_eq
  obtain ⟨first, hfirst, hposition⟩ :=
    CompileError.position?_eq hblamed tag.written_ne_nil hsource
  have hbefore : first <+: place.before.reverse := hfirst.2 _ _ hsource
  refine ⟨_, first, hpasses.compile_fails hfails.componentCalls_run, rfl, hblamed, hfirst,
    hposition, ?_, ?_, ?_, ?_⟩
  · rw [CompileError.lineAndColumn?, hposition, Option.map_some]
  · rw [Diagnostic.ofError, hposition]
    rfl
  · obtain ⟨between, hbetween⟩ := hbefore
    have hsize := congrArg Text.size hbetween
    rw [Text.size_append, Text.size_reverse] at hsize
    show first.size ≤ place.before.size
    omega
  · have hstart : (Component.errorAt cause place.offset tag).span.start =
        Text.size place.before.reverse := (Text.size_reverse place.before).symm
    rw [hstart]
    constructor
    · intro hsize
      rw [← Text.eq_of_prefix_of_size_eq hbefore hsize]
      exact hfirst
    · intro hother
      obtain ⟨after, hafter⟩ := hfirst.1
      rw [hbefore.eq_of_length_le (hother.2 first after hafter).length_le]

/-- A tag of nobody is shown where it stands if its text stands nowhere before it. -/
theorem failing_tag_shown_at_first_occurrence_of_one :
    let environment : Environment := ⟨Registry.builtin, {}⟩
    let source := "a <x:y/>".toList
    ∃ error, compileTemplate environment source = .error error ∧
      error.span = ⟨2, 8⟩ ∧ error.position? source = some (2, 6) := by
  intro environment source
  let tag : Tag := ⟨some ['x'], ['y'], [], [], true⟩
  have hpasses : HasRun environment source.length source Context.initial 7 source
      { Context.initial with level := 1 } :=
    Prod.ext (eq_ok_of_toOption (by decide +kernel)) (by decide +kernel)
  have htag : Tag.parse? "<x:y/>".toList = some (tag, []) := by decide +kernel
  have helement : Element.ofTag? tag [] = some (⟨tag, [], []⟩, []) := by decide +kernel
  have hfails : Component.FailsAt environment { Context.initial with level := 1 } source
      ⟨" a".toList, "<x:y/>".toList⟩ tag (.ofCause (.unboundAlias ['x'])) :=
    .of_keep "a ".toList rfl (by decide +kernel) htag rfl helement rfl
  obtain ⟨error, first, herror, hspan, -, -, hposition, -, -, -, hstart⟩ :=
    failing_tag_shown_at_first_occurrence hpasses hfails (by decide)
  have hfirst : tag.written.OccursFirst source "a ".toList := by
    have hcut : Text.cut? tag.written source = some ("a ".toList, []) := by decide +kernel
    exact ⟨⟨[], rfl⟩, fun earlier after => Text.prefix_of_cut? hcut⟩
  have hsize := hstart.mpr hfirst
  rw [hspan] at hsize
  refine ⟨error, herror, hspan, ?_⟩
  rw [hposition, hsize]
  rfl

/-- The first tag is not closed and did not fail; the error of the second one is shown at it. -/
theorem failing_tag_shown_at_another :
    let environment : Environment := ⟨Registry.builtin, {}⟩
    let source := "<x:y> <x:y></x:y>".toList
    let tag : Tag := ⟨some ['x'], ['y'], [], [], false⟩
    HasRun environment source.length source Context.initial 7 source
      { Context.initial with level := 1 } ∧
    Component.FailsAt environment { Context.initial with level := 1 } source
      ⟨"<x:y> ".toList.reverse, "<x:y></x:y>".toList⟩ tag (.ofCause (.unboundAlias ['x'])) ∧
    ∃ error, compileTemplate environment source = .error error ∧
      error.fragment = some tag.written ∧ error.span.start = 6 ∧
      error.position? source = some (0, 5) ∧ error.lineAndColumn? source = some ⟨1, 1⟩ ∧
      (Diagnostic.ofError source error).labels = [⟨"here".toList, 0, 5⟩] := by
  intro environment source tag
  have htag : Tag.parse? "<x:y></x:y>".toList = some (tag, "</x:y>".toList) := by decide +kernel
  have helement : Element.ofTag? tag "</x:y>".toList = some (⟨tag, [], "</x:y>".toList⟩, []) := by
    decide +kernel
  have herror : compileTemplate environment source =
      .error ⟨.unboundAlias ['x'], ⟨6, 11⟩, some "<x:y>".toList⟩ :=
    eq_error_of_failure? (by decide +kernel)
  refine ⟨Prod.ext (eq_ok_of_toOption (by decide +kernel)) (by decide +kernel),
    .of_keep "<x:y> ".toList rfl (by decide +kernel) htag rfl helement rfl, _, herror, rfl, rfl,
    ?_, ?_, ?_⟩
  all_goals decide +kernel

end TemplateCompiler
