import TemplateCompiler.Proofs.BlockMatching
import TemplateCompiler.Proofs.BufferBalance
import TemplateCompiler.Proofs.TagEnding

/-!
# Where the errors of components point

The error of a component has the span of its opening tag. Within other components that span is
counted in content that has lost the indentation of the component around it, and it is moved by a
single offset for each of them. So it begins too early by the indentation that was lost before the
tag, and is right where none was.
-/
namespace TemplateCompiler

/-! ## Content without its indentation -/

namespace Layout

variable {indent text before rest : Text} {c : Char}

theorem dedented_split {line : Text}
    (h : (Text.after? indent line).getD line = before ++ c :: rest) :
    ∃ start, line = start ++ c :: rest ∧ (Text.after? indent start).getD start = before := by
  cases hafter : Text.after? indent line with
  | none =>
    rw [hafter, Option.getD_none] at h
    refine ⟨before, h, ?_⟩
    cases hbefore : Text.after? indent before with
    | none => rfl
    | some kept =>
      rw [h, Text.after?_eq_some_iff.mp hbefore, List.append_assoc, Text.after?_append] at hafter
      cases hafter
  | some kept =>
    rw [hafter, Option.getD_some] at h
    refine ⟨indent ++ before, ?_, by rw [Text.after?_append, Option.getD_some]⟩
    rw [Text.after?_eq_some_iff.mp hafter, h, List.append_assoc]

theorem prefix_of_line {piece line rest : Text} (hpiece : '\n' ∉ piece) (hline : '\n' ∈ line)
    (h : piece <+: line ++ rest) : piece <+: line := by
  rcases List.prefix_or_prefix_of_prefix h (List.prefix_append line rest) with h | h
  · exact h
  · exact absurd (h.subset hline) hpiece

/-- A character that is left when indentation is taken away stands in the text behind what the
characters before it are left of, and its line goes on as there. -/
theorem dedent_split (indent text : Text) {before rest : Text} {c : Char}
    (h : dedent indent text = before ++ c :: rest) :
    ∃ start later, text = start ++ c :: later ∧ dedent indent start = before ∧
      ∀ piece, '\n' ∉ piece → piece <+: c :: rest → piece <+: c :: later := by
  by_cases hbreak : '\n' ∈ text
  · obtain ⟨line, tail, htext, hline⟩ := List.eq_append_cons_of_mem hbreak
    have hshorter : tail.length < text.length := by
      rw [htext, List.length_append, List.length_cons]
      omega
    rw [htext] at h ⊢
    rw [dedent_line indent hline] at h
    generalize hfirst : (Text.after? indent (line ++ ['\n'])).getD (line ++ ['\n']) = first at h
    have hbelow (left : Text) (hbefore : before = first ++ left)
        (htail : dedent indent tail = left ++ c :: rest) :
        ∃ start later, line ++ '\n' :: tail = start ++ c :: later ∧ dedent indent start = before ∧
          ∀ piece, '\n' ∉ piece → piece <+: c :: rest → piece <+: c :: later := by
      obtain ⟨start, later, htailEq, hstart, hpieces⟩ := dedent_split indent tail htail
      refine ⟨line ++ '\n' :: start, later, by simp [htailEq], ?_, hpieces⟩
      rw [dedent_line indent hline, hfirst, hstart, hbefore]
    rcases List.append_eq_append_iff.mp h with ⟨left, hbefore, htail⟩ | ⟨kept, hkept, hrest⟩
    · exact hbelow left hbefore htail
    · cases kept with
      | nil => exact hbelow [] (by simpa using hkept.symm) hrest.symm
      | cons d kept =>
        obtain ⟨rfl, rfl⟩ := List.cons.inj hrest
        obtain ⟨start, hstart, hbefore⟩ := dedented_split (hfirst.trans hkept)
        -- what stands before the character is a part of the line without its end
        have hpart : start <+: line := by
          have hlength := congrArg List.length hstart
          simp only [List.length_append, List.length_cons, List.length_nil] at hlength
          exact List.prefix_of_prefix_length_le ⟨_, hstart.symm⟩ (List.prefix_append line ['\n'])
            (by omega)
        have hend : '\n' ∈ c :: kept := by
          have hsuffix : c :: kept <:+ line ++ ['\n'] := ⟨start, hstart.symm⟩
          rcases List.suffix_concat_iff.mp hsuffix with hnil | ⟨more, hmore, -⟩
          · cases hnil
          · rw [hmore]
            exact List.mem_append_right _ (List.mem_singleton_self _)
        refine ⟨start, kept ++ tail, ?_, ?_, ?_⟩
        · rw [← List.singleton_append, ← List.append_assoc, hstart, List.append_assoc]
          rfl
        · rw [dedent_single indent fun hmem => hline (hpart.subset hmem), hbefore]
        · intro piece hpiece hprefix
          have hwithin := prefix_of_line hpiece hend hprefix
          exact hwithin.trans (List.prefix_append (c :: kept) tail)
  · rw [dedent_single indent hbreak] at h
    obtain ⟨start, hstart, hbefore⟩ := dedented_split h
    refine ⟨start, rest, hstart, ?_, fun _ _ h => h⟩
    rw [dedent_single indent, hbefore]
    rw [hstart] at hbreak
    exact fun hmem => hbreak (List.mem_append_left _ hmem)
termination_by text.length
decreasing_by exact hshorter

theorem size_dedent_le (indent text : Text) : Text.size (dedent indent text) ≤ text.size := by
  have hlines (lines : List Text) :
      Text.size (lines.flatMap fun line => (Text.after? indent line).getD line) ≤
        Text.size lines.flatten := by
    induction lines with
    | nil => exact Nat.le_refl _
    | cons line lines ih =>
      obtain ⟨removed, hremoved⟩ := dedented_suffix indent line
      have hline := congrArg Text.size hremoved
      rw [List.flatMap_cons, List.flatten_cons, Text.size_append, Text.size_append]
      rw [Text.size_append] at hline
      omega
  have hall := hlines (dedent.linesOf text)
  rwa [flatten_linesOf] at hall

end Layout

namespace Sweep

variable {step : Place → Nat → Pass Move} {before pending text : Text} {busy : Nat}
  {keeping : Bool} {context : Context}

theorem Reaches.text_eq {place : Place} {fresh : Nat} {moment : Context}
    (h : Reaches step before pending busy keeping text context place fresh moment) :
    place.text = before.reverse ++ text := by
  induction h with
  | here => rfl
  | skip _ ih | keep _ _ ih | replace _ _ ih =>
    rw [ih, List.reverse_cons, List.append_assoc, List.singleton_append]

theorem exists_failing_step {error : CompileError}
    (h : ((sweepFrom step before pending busy keeping text).run context).1 = .error error) :
    ∃ place fresh moment,
      Reaches step before pending busy keeping text context place fresh moment ∧
        ((step place fresh).run moment).1 = .error error := by
  induction text generalizing before pending busy keeping context with
  | nil => cases h
  | cons c rest ih =>
    cases busy with
    | succ busy =>
      obtain ⟨place, fresh, moment, hreaches, hstep⟩ := ih h
      exact ⟨place, fresh, moment, .skip hreaches, hstep⟩
    | zero =>
      rw [sweepFrom, Pass.run_bind] at h
      rcases hrun : (step ⟨before, c :: rest⟩ pending.length).run context with
        ⟨error' | move, after⟩
      · rw [hrun] at h
        cases h
        exact ⟨_, _, _, .here before pending keeping c rest context, by rw [hrun]⟩
      · rw [hrun] at h
        cases move with
        | keep more =>
          obtain ⟨place, fresh, moment, hreaches, hstep⟩ := ih h
          exact ⟨place, fresh, moment, .keep hrun hreaches, hstep⟩
        | replace claimed more new =>
          simp only [Pass.run_bind] at h
          rcases hlater : (sweepFrom step (c :: before) [] more false rest).run after with
            ⟨error' | swept, last⟩
          · rw [hlater] at h
            cases h
            obtain ⟨place, fresh, moment, hreaches, hstep⟩ :=
              ih (congrArg Prod.fst hlater)
            exact ⟨place, fresh, moment, .replace hrun hreaches, hstep⟩
          · rw [hlater] at h
            cases h

end Sweep

/-! ## Errors of one component -/

theorem Environment.span_of_resolve {environment : Environment} {context : Context}
    {qualifier name : Text} {error : CompileError}
    (h : environment.resolve context qualifier name = .error error) : error.span = ⟨0, 0⟩ := by
  unfold resolve Context.binding at h
  split at h
  · rename_i hbinding
    split at hbinding <;> cases hbinding
    cases h
    rfl
  · simp only at h
    split at h <;> cases h
    rfl

theorem Interpolation.span_of_compile {tags : Text × Text} {value : Text} {error : CompileError}
    (h : compile tags value = .error error) : error.span = ⟨0, 0⟩ := by
  unfold compile at h
  simp only at h
  split at h <;> cases h
  rfl

namespace Construction

variable {environment : Environment} {context : Context} {error : CompileError}

theorem span_of_add {construction : Construction} {attr : Attribute}
    (h : add environment context construction attr = .error error) : error.span = ⟨0, 0⟩ := by
  unfold add at h
  split at h
  · rename_i hvalue
    cases h
    unfold valueCode at hvalue
    split at hvalue
    · exact Interpolation.span_of_compile hvalue
    · exact Interpolation.span_of_compile hvalue
    · cases hvalue
    · cases hvalue
  · split at h
    · rename_i qualifier name _
      cases hmixin : mixinCode environment context qualifier name _ with
      | error error' =>
        rw [hmixin] at h
        cases h
        unfold mixinCode at hmixin
        split at hmixin
        · rename_i hresolve
          cases hmixin
          exact Environment.span_of_resolve hresolve
        · split at hmixin <;> cases hmixin
          rfl
      | ok mixin =>
        rw [hmixin] at h
        cases h
    · cases h

theorem span_of_ofTag {qualifier : Text} {tag : Tag}
    (h : ofTag environment context qualifier tag = .error error) : error.span = ⟨0, 0⟩ := by
  have hattributes (construction : Construction) (attributes : List Attribute)
      (h : addAll environment context construction attributes = .error error) :
      error.span = ⟨0, 0⟩ := by
    induction attributes generalizing construction with
    | nil => cases h
    | cons attr attributes ih =>
      rw [addAll] at h
      split at h
      · rename_i hadd
        cases h
        exact span_of_add hadd
      · exact ih _ h
  unfold ofTag at h
  simp only at h
  split at h
  · rename_i hresolve
    cases h
    exact Environment.span_of_resolve hresolve
  · split at h
    · exact hattributes _ _ h
    · cases h
      rfl

end Construction

namespace Component

variable {environment : Environment} {place : Place} {fresh : Nat} {context : Context}
  {error : CompileError}

/-- How the content of a component in a text is compiled. -/
def nested (environment : Environment) (text content : Text) : Pass Text :=
  if content.length < text.length then componentCalls environment content else pure content

theorem componentCalls_eq (environment : Environment) (text : Text) :
    componentCalls environment text =
      Pass.nested (sweep (step environment (nested environment text)) text) := by
  rw [componentCalls]
  rfl

theorem failed_of_step {inner : Text → Pass Text}
    (h : ((step environment inner place fresh).run context).1 = .error error) :
    ∃ tag behind qualifier element rest,
      Tag.parse? place.rest = some (tag, behind) ∧ qualifier? tag = some qualifier ∧
      Element.ofTag? tag behind = some (element, rest) ∧
      ((∃ cause, Construction.ofTag environment context qualifier tag = .error cause ∧
          error = (cause.locate (Span.ofText place.offset tag.written)).blame tag.written) ∨
        ∃ construction cause,
          Construction.ofTag environment context qualifier tag = .ok construction ∧
          ((inner (Layout.dedent (Layout.lineIndent place.before fresh)
            (skipLineBreak element.content))).run context).1 = .error cause ∧
          error = cause.shift (place.offset + tag.written.size +
            (element.content.size - Text.size (skipLineBreak element.content)))) := by
  unfold step at h
  split at h
  · cases h
  · rename_i tag behind htag
    split at h
    · cases h
    · rename_i qualifier hqualifier
      split at h
      · cases h
      · rename_i element rest helement
        refine ⟨tag, behind, qualifier, element, rest, htag, hqualifier, helement, ?_⟩
        rw [Pass.run_bind, Pass.run_mapError] at h
        have hread : (Pass.ofContext fun context =>
            Construction.ofTag environment context qualifier tag).run context =
              (Construction.ofTag environment context qualifier tag, context) := rfl
        rw [hread] at h
        cases hconstruction : Construction.ofTag environment context qualifier tag with
        | error cause =>
          rw [hconstruction] at h
          cases h
          exact Or.inl ⟨cause, rfl, rfl⟩
        | ok construction =>
          rw [hconstruction] at h
          refine Or.inr ⟨construction, ?_⟩
          simp only [Except.mapError] at h
          rw [Pass.run_bind, Pass.run_mapError] at h
          rcases hinner : (inner (Layout.dedent (Layout.lineIndent place.before fresh)
            (skipLineBreak element.content))).run context with ⟨cause | compiled, after⟩
          · rw [hinner] at h
            cases h
            exact ⟨cause, rfl, rfl, rfl⟩
          · rw [hinner] at h
            cases h

/-- The construction of a component's handler fails, at a place of a text that is compiled in a
context: for a component of the text itself, or for one in the content of another, where the text
before it has lost its indentation. In all it has lost so many bytes. -/
inductive Fault (environment : Environment) :
    Context → (text : Text) → Place → (lost : Nat) → Tag → CompileError → Prop
  | here {context moment : Context} {text behind qualifier rest : Text} {place : Place}
      {fresh : Nat} {tag : Tag} {element : Element} {cause : CompileError}
      (hreaches : Sweep.Reaches (step environment (nested environment text)) [] [] 0 true text
        { context with level := context.level + 1 } place fresh moment)
      (htag : Tag.parse? place.rest = some (tag, behind))
      (hqualifier : qualifier? tag = some qualifier)
      (helement : Element.ofTag? tag behind = some (element, rest))
      (hcause : Construction.ofTag environment moment qualifier tag = .error cause) :
      Fault environment context text place 0 tag cause
  | within {context moment : Context} {text behind qualifier rest skipped start later left : Text}
      {place : Place} {fresh lost : Nat} {outer tag : Tag} {element : Element}
      {construction : Construction} {cause : CompileError}
      (hreaches : Sweep.Reaches (step environment (nested environment text)) [] [] 0 true text
        { context with level := context.level + 1 } place fresh moment)
      (houter : Tag.parse? place.rest = some (outer, behind))
      (hqualifier : qualifier? outer = some qualifier)
      (helement : Element.ofTag? outer behind = some (element, rest))
      (hconstruction : Construction.ofTag environment moment qualifier outer = .ok construction)
      (hskipped : element.content = skipped ++ skipLineBreak element.content)
      (hcontent : skipLineBreak element.content = start ++ later)
      (hfault : Fault environment moment
        (Layout.dedent (Layout.lineIndent place.before fresh) (start ++ later))
        ⟨(Layout.dedent (Layout.lineIndent place.before fresh) start).reverse, left⟩
        lost tag cause) :
      Fault environment context text
        ⟨(outer.written ++ skipped ++ start).reverse ++ place.before,
          later ++ (element.closing ++ rest)⟩
        (lost + (start.size -
          Text.size (Layout.dedent (Layout.lineIndent place.before fresh) start))) tag cause

namespace Fault

variable {text : Text} {lost : Nat} {tag : Tag} {cause : CompileError}

theorem text_eq (h : Fault environment context text place lost tag cause) : place.text = text := by
  cases h with
  | here hreaches => exact hreaches.text_eq
  | within hreaches houter _ helement _ hskipped hcontent =>
    have htext := hreaches.text_eq
    rw [Place.text, Tag.parse?_eq houter, (Element.ofTag?_eq helement).1, hskipped, hcontent,
      List.reverse_nil, List.nil_append] at htext
    rw [← htext, Place.text]
    simp only [List.reverse_append, List.reverse_reverse, List.append_assoc]

theorem lost_le (h : Fault environment context text place lost tag cause) :
    lost ≤ place.offset := by
  induction h with
  | here => exact Nat.zero_le _
  | @within _ _ _ _ _ _ _ start _ _ place fresh _ _ _ _ _ _ _ _ _ _ _ _ _ _ ih =>
    have hsize := Layout.size_dedent_le (Layout.lineIndent place.before fresh) start
    simp only [Place.offset, Text.size_append, Text.size_reverse] at ih ⊢
    omega

theorem exists_parse? (h : Fault environment context text place lost tag cause) :
    ∃ written after, Tag.parse? written = some (tag, after) := by
  induction h with
  | here _ htag => exact ⟨_, _, htag⟩
  | within _ _ _ _ _ _ _ _ ih => exact ih

end Fault

def errorAt (cause : CompileError) (offset : Nat) (tag : Tag) : CompileError :=
  ⟨cause.cause, Span.ofText offset tag.written, some (cause.fragment.getD tag.written)⟩

theorem errorAt_eq {cause : CompileError} (h : cause.span = ⟨0, 0⟩) (offset : Nat) (tag : Tag) :
    (cause.locate (Span.ofText offset tag.written)).blame tag.written =
      errorAt cause offset tag := by
  have hempty : cause.span.isEmpty := by
    rw [h]
    rfl
  rw [CompileError.locate, if_pos hempty]
  rfl

theorem shift_errorAt (cause : CompileError) (offset more : Nat) (tag : Tag) :
    (errorAt cause offset tag).shift more = errorAt cause (offset + more) tag := by
  have hsize := Text.length_le_size tag.written
  have hlength := List.length_pos_iff.mpr tag.written_ne_nil
  have hempty : ¬(errorAt cause offset tag).span.isEmpty = true := by
    simp only [errorAt, Span.ofText, Span.isEmpty, beq_iff_eq]
    omega
  rw [CompileError.shift, if_neg hempty]
  simp only [errorAt, Span.ofText, Span.shift, CompileError.mk.injEq, Span.mk.injEq]
  exact ⟨trivial, ⟨trivial, by omega⟩, trivial⟩

/-- The error of a text comes from a fault, and is reported where the tag would stand if nothing
before it had been lost. A tag without a line break stands in the text as it was compiled. -/
theorem fault_of_error (text : Text) (context : Context) {error : CompileError}
    (h : ((componentCalls environment text).run context).1 = .error error) :
    ∃ before later lost tag cause,
      Fault environment context text ⟨before, '<' :: later⟩ lost tag cause ∧
        error = errorAt cause (Text.size before - lost) tag ∧
        ('\n' ∉ tag.written → tag.written <+: '<' :: later) := by
  rw [componentCalls_eq, Pass.run_nested] at h
  obtain ⟨place, fresh, moment, hreaches, hstep⟩ := Sweep.exists_failing_step h
  obtain ⟨tag, behind, qualifier, element, rest, htag, hqualifier, helement,
    ⟨cause, hcause, rfl⟩ | ⟨construction, cause, hconstruction, hinner, rfl⟩⟩ :=
    failed_of_step hstep
  · have hwritten := Tag.parse?_eq htag
    obtain ⟨before, rest'⟩ := place
    obtain rfl : rest' = '<' :: _ := hwritten
    refine ⟨before, _, 0, tag, cause, .here hreaches htag hqualifier helement hcause,
      errorAt_eq (Construction.span_of_ofTag hcause) _ _, fun _ => ?_⟩
    exact ⟨behind, rfl⟩
  · rw [nested] at hinner
    by_cases hshorter : (Layout.dedent (Layout.lineIndent place.before fresh)
        (skipLineBreak element.content)).length < text.length
    · rw [if_pos hshorter] at hinner
      obtain ⟨before, later, lost, inner, cause', hfault, rfl, hpieces⟩ :=
        fault_of_error _ moment hinner
      obtain ⟨start, later', hcontent, hstart, hline⟩ :=
        Layout.dedent_split _ _ hfault.text_eq.symm
      obtain ⟨skipped, hskipped⟩ := skipLineBreak_suffix element.content
      have hlost := hfault.lost_le
      obtain rfl :
          before = (Layout.dedent (Layout.lineIndent place.before fresh) start).reverse := by
        rw [hstart, List.reverse_reverse]
      rw [hcontent] at hfault
      refine ⟨_, _, _, inner, cause', .within hreaches htag hqualifier helement hconstruction
        hskipped.symm hcontent hfault, ?_, fun hbreak => ?_⟩
      · rw [shift_errorAt]
        have hsize := congrArg Text.size hskipped
        have hle := Layout.size_dedent_le (Layout.lineIndent place.before fresh) start
        simp only [Text.size_append, Text.size_reverse, Place.offset] at hsize hlost ⊢
        congr 1
        omega
      · have hprefix := hline _ hbreak (hpieces hbreak)
        exact hprefix.trans (List.prefix_append _ _)
    · rw [if_neg hshorter] at hinner
      cases hinner
termination_by text.length
decreasing_by exact hshorter

end Component

theorem eq_error_of_failure? {result : Except CompileError Text} {error : CompileError}
    (h : failure? result = some error) : result = .error error := by
  cases result with
  | error error' =>
    cases h
    rfl
  | ok out => cases h

def Span.isOpeningTag (span : Span) (text : Text) : Bool :=
  (Place.ofOffset? text span.start).any fun place =>
    (Tag.parse? place.rest).any fun found => Span.ofText place.offset found.1.written == span

theorem Tag.isOpeningTag_of_parse? {place : Place} {tag : Tag} {after : Text}
    (h : parse? place.rest = some (tag, after)) :
    (Span.ofText place.offset tag.written).isOpeningTag place.text := by
  have hplace : Place.ofOffset? place.text (Span.ofText place.offset tag.written).start =
      some place := place.ofOffset?_offset
  simp only [Span.isOpeningTag, hplace, h, Option.any_some, beq_self_eq_true]

/-- The error of a text with components has the span of the tag that fails, moved back by the
indentation that the content of the components around it has lost before the tag. Where none is lost
it is the span of an opening tag of the text, if the tag is on one line or lost nothing itself. -/
theorem component_error_span {environment : Environment} {context : Context} {text : Text}
    {error : CompileError} (h : components environment context text = .error error) :
    ∃ place lost tag cause,
      Component.Fault environment context text place lost tag cause ∧
      place.text = text ∧ lost ≤ place.offset ∧
      error = Component.errorAt cause (place.offset - lost) tag ∧
      ('\n' ∉ tag.written ∨ tag.written <+: place.rest →
        (∃ after, Tag.parse? place.rest = some (tag, after)) ∧
          (lost = 0 → error.span.isOpeningTag text)) := by
  obtain ⟨before, later, lost, tag, cause, hfault, herror, hline⟩ :=
    Component.fault_of_error text context h
  refine ⟨⟨before, '<' :: later⟩, lost, tag, cause, hfault, hfault.text_eq, hfault.lost_le, herror,
    fun hwhole => ?_⟩
  obtain ⟨after, hafter⟩ : tag.written <+: '<' :: later := hwhole.elim hline id
  obtain ⟨text', after', htag⟩ := hfault.exists_parse?
  have hparse := Tag.parse?_written htag after
  rw [hafter] at hparse
  refine ⟨⟨after, hparse⟩, ?_⟩
  rintro rfl
  rw [herror, ← hfault.text_eq]
  exact Tag.isOpeningTag_of_parse? hparse

/-- A component of nobody within another one that is not indented. -/
theorem component_error_span_of_nested :
    let environment : Environment := ⟨Registry.builtin, {}⟩
    let text : Text := "<_h:html>\n  <x:y/></_h:html>".toList
    ∃ error, components environment Context.initial text = .error error ∧
      error.span = ⟨12, 18⟩ ∧ (⟨12, 18⟩ : Span).isOpeningTag text ∧
      ∃ place lost tag cause,
        Component.Fault environment Context.initial text place lost tag cause ∧
        place.text = text ∧ lost ≤ place.offset ∧
        error = Component.errorAt cause (place.offset - lost) tag := by
  intro environment text
  have hspan : (failure? (components environment Context.initial text)).map (·.span) =
      some ⟨12, 18⟩ := by decide +kernel
  obtain ⟨error, herror, hspan⟩ := Option.map_eq_some_iff.mp hspan
  have herror := eq_error_of_failure? herror
  obtain ⟨place, lost, tag, cause, hfault, htext, hlost, hat, -⟩ := component_error_span herror
  exact ⟨error, herror, hspan, by decide +kernel, place, lost, tag, cause, hfault, htext, hlost,
    hat⟩

/-- The line of the tag loses the two spaces before it, and so does the span. -/
theorem error_span_misses_indented_tag :
    let text : Text := "  <_h:html>\n  a\n  <x:y/>\n  </_h:html>".toList
    (failure? (components ⟨Registry.builtin, {}⟩ Context.initial text)).map (·.span) =
      some ⟨16, 22⟩ ∧
    (⟨16, 22⟩ : Span).isOpeningTag text = false ∧ (⟨18, 24⟩ : Span).isOpeningTag text := by
  decide +kernel

end TemplateCompiler
