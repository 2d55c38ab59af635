import TemplateCompiler.Component.Construction
import TemplateCompiler.Proofs.BufferSteps

/-!
# Code that names no output buffer

What is compiled from a text that names no function of output buffering names none either: the
expression of an attribute is made of pieces of its text, with operators and quotes between those
that were apart, and escaping only takes letters apart.
-/
namespace TemplateCompiler

/-- A text that names no function of output buffering. -/
def Unbuffered (text : Text) : Prop := text.contains "ob_".toList = false

variable {text first second : Text} {c : Char}

namespace Unbuffered

theorem of_infix (h : Unbuffered text) (hpiece : first <:+: text) : Unbuffered first :=
  Text.contains_of_infix h hpiece

theorem of_not_mem (hc : c ∈ "ob_".toList) (h : c ∉ text) : Unbuffered text :=
  Text.contains_of_not_mem hc h

theorem append_cons (hfirst : Unbuffered first) (hsecond : Unbuffered second)
    (hc : c ∉ "ob_".toList) : Unbuffered (first ++ c :: second) :=
  Text.contains_append_cons hc hfirst hsecond

theorem nil : Unbuffered [] := rfl

theorem cons (h : Unbuffered text) (hc : c ∉ "ob_".toList) : Unbuffered (c :: text) :=
  nil.append_cons h hc

theorem concat (h : Unbuffered text) (hc : c ∉ "ob_".toList) : Unbuffered (text ++ [c]) :=
  h.append_cons nil hc

theorem quiet (h : Unbuffered text) : Quiet text :=
  ⟨Text.contains_of_longer h ⟨"<?php ".toList, "start() ?>".toList, rfl⟩,
    Text.contains_of_longer h ⟨[], "get_clean()".toList, rfl⟩⟩

theorem escape {special : Char → Bool} (hspecial : special '\\')
    (hname : "ob_".toList.any special = false) (h : Unbuffered text) :
    Unbuffered (Code.escape special text) := by
  induction text with
  | nil => exact nil
  | cons c text ih =>
    have hrest := ih (h.of_infix (List.suffix_cons c text).isInfix)
    by_cases hc : special c
    · have hescape : Code.escape special (c :: text) =
          '\\' :: c :: Code.escape special text := by
        simp [Code.escape, hc]
      have hother : c ∉ "ob_".toList := fun hmem => List.any_eq_false.mp hname c hmem hc
      rw [hescape]
      exact (hrest.cons hother).cons (by decide)
    · have hescape : Code.escape special (c :: text) = c :: Code.escape special text := by
        simp [Code.escape, hc]
      have hhead := @Text.after?_escape _ hspecial _ hname (c :: text)
      have hnone := Text.contains_eq_false_iff.mp h (c :: text) (List.suffix_refl _)
      rw [hnone, Option.map_none, hescape] at hhead
      rw [hescape, Unbuffered, Text.contains_eq_false_iff]
      intro rest hsuffix
      rcases List.suffix_cons_iff.mp hsuffix with rfl | hsuffix
      · exact hhead
      · exact Text.contains_eq_false_iff.mp hrest rest hsuffix

theorem singleQuoted (h : Unbuffered text) : Unbuffered (Code.singleQuoted text) :=
  ((h.escape (by decide) (by decide)).cons (by decide)).concat (by decide)

theorem doubleQuotedBody (h : Unbuffered text) : Unbuffered (Code.doubleQuotedBody text) :=
  h.escape (by decide) (by decide)

theorem join (hc : c ∉ "ob_".toList) {parts : List Text} (h : ∀ part ∈ parts, Unbuffered part) :
    Unbuffered (Text.join [c] parts) := by
  induction parts with
  | nil => exact nil
  | cons part parts ih =>
    have hpart := h part List.mem_cons_self
    have hrest := ih fun part hmem => h part (List.mem_cons_of_mem _ hmem)
    cases parts with
    | nil => rwa [Text.join_singleton]
    | cons second parts =>
      rw [Text.join_cons_cons]
      exact hpart.append_cons hrest hc

end Unbuffered

namespace Interpolation

/-- A text from which pieces were read: the texts of the literal ones follow each other, and the
expressions stand between them. -/
inductive Spells : List Piece → Text → Prop
  | done (rest : Text) : Spells [] rest
  | literal (text : Text) {pieces : List Piece} {rest : Text} (h : Spells pieces rest) :
      Spells (.literal text :: pieces) (text ++ rest)
  | embedded (before expression after : Text) {pieces : List Piece} {rest : Text}
      (h : Spells pieces rest) :
      Spells (.embedded expression :: pieces) (before ++ expression ++ after ++ rest)

variable {tags : Text × Text}

theorem spells_step {pieces : List Piece} {text : Text} (h : Spells pieces (step tags text).2) :
    Spells ((step tags text).1 ++ pieces) text := by
  have hall (h : Spells pieces []) : Spells (.literal text :: pieces) text := by
    have hread := Spells.literal text h
    rwa [List.append_nil] at hread
  unfold step at h ⊢
  split
  · rename_i hcut
    rw [hcut] at h
    exact hall h
  · rename_i before opened hcut
    rw [hcut] at h
    simp only at h ⊢
    split
    · rename_i hcut'
      rw [hcut'] at h
      exact hall h
    · rename_i inner after hcut'
      rw [hcut'] at h
      have htext : text = before ++ (tags.1 ++ inner ++ tags.2 ++ after) := by
        rw [Text.cut?_eq hcut, Text.cut?_eq hcut']
        simp only [List.append_assoc]
      rw [htext]
      refine Spells.literal before ?_
      simp only at h
      split
      · exact Spells.literal _ h
      · obtain ⟨first, last, hinner⟩ := Text.trim_infix inner
        have hread := Spells.embedded (tags.1 ++ first) inner.trim (last ++ tags.2) h
        have htext : tags.1 ++ first ++ inner.trim ++ (last ++ tags.2) ++ after =
            tags.1 ++ inner ++ tags.2 ++ after := by
          conv => rhs; rw [← hinner]
          simp only [List.append_assoc]
        rwa [htext] at hread

theorem spells_pieces (tags : Text × Text) (text : Text) : Spells (pieces tags text) text := by
  fun_induction pieces tags text with
  | case1 text hempty => exact Spells.done text
  | case2 text hempty first after hstep hlength ih =>
    have hread := @spells_step tags (pieces tags after) text (by rwa [hstep])
    rwa [hstep] at hread
  | case3 text hempty first after hstep hlength =>
    rw [(standstill _ _ _).property]
    have hread := @spells_step tags [] text (Spells.done _)
    rwa [hstep, List.append_nil] at hread

/-- What a string literal holds so far, after the text `read`: code that is complete, and the
escaped end of `read`, which may go on. -/
def Body (read body : Text) : Prop :=
  ∃ complete last, body = complete ++ Code.doubleQuotedBody last ∧ last <:+ read ∧
    Unbuffered complete ∧ (complete = [] ∨ ∃ code, complete = code ++ ['\x7d'])

/-- Segments that were built from the text `read`. -/
structure Built (read : Text) (segments : List Segment) : Prop where
  unbuffered : ∀ segment ∈ segments, Unbuffered segment.render
  body : ∀ parts rest, segments = .string parts :: rest → Body read (parts.flatMap Part.render)

theorem Body.unbuffered {read body : Text} (h : Body read body) (hread : Unbuffered read) :
    Unbuffered body := by
  obtain ⟨complete, last, rfl, hlast, hcomplete, hend⟩ := h
  have hbody := (hread.of_infix hlast.isInfix).doubleQuotedBody
  rcases hend with rfl | ⟨code, rfl⟩
  · exact hbody
  · rw [List.append_assoc, List.singleton_append]
    exact (hcomplete.of_infix (List.prefix_append _ _).isInfix).append_cons hbody (by decide)

theorem Body.literal {read body : Text} (h : Body read body) (text : Text) :
    Body (read ++ text) (body ++ Code.doubleQuotedBody text) := by
  obtain ⟨complete, last, rfl, hlast, hcomplete, hend⟩ := h
  refine ⟨complete, last ++ text, ?_, ?_, hcomplete, hend⟩
  · rw [List.append_assoc, Code.doubleQuotedBody, Code.doubleQuotedBody, Code.doubleQuotedBody,
      Code.escape_append]
  · obtain ⟨before, hbefore⟩ := hlast
    exact ⟨before, by rw [← hbefore, List.append_assoc]⟩

theorem Body.reference {read body name : Text} (h : Body read body) (hread : Unbuffered read)
    (hname : Unbuffered name) (read' : Text) :
    Body read' (body ++ Part.render (.reference name)) := by
  refine ⟨body ++ Part.render (.reference name), [], ?_, List.nil_suffix, ?_, Or.inr ?_⟩
  · exact (List.append_nil _).symm
  · rw [Part.render, List.cons_append]
    exact (h.unbuffered hread).append_cons (hname.concat (by decide)) (by decide)
  · exact ⟨body ++ '\x7b' :: name, by rw [Part.render, List.append_assoc]⟩

theorem Body.start (text : Text) {read : Text} : Body (read ++ text) (Code.doubleQuotedBody text) :=
  ⟨[], text, rfl, List.suffix_append _ _, Unbuffered.nil, Or.inl rfl⟩

variable {read : Text} {segments : List Segment}

theorem Built.string {parts : List Part} {rest : List Segment} (hread : Unbuffered read)
    (hbody : Body read (parts.flatMap Part.render))
    (hrest : ∀ segment ∈ rest, Unbuffered segment.render) :
    Built read (.string parts :: rest) := by
  constructor
  · intro segment hsegment
    rcases List.mem_cons.mp hsegment with rfl | hsegment
    · exact ((hbody.unbuffered hread).cons (by decide)).concat (by decide)
    · exact hrest segment hsegment
  · intro parts' rest' heq
    cases heq
    exact hbody

theorem Built.segment {segment : Segment} (hsegment : Unbuffered segment.render)
    (hother : ∀ parts, segment ≠ .string parts)
    (hrest : ∀ segment ∈ segments, Unbuffered segment.render) :
    Built read (segment :: segments) := by
  constructor
  · intro other hmem
    rcases List.mem_cons.mp hmem with rfl | hmem
    · exact hsegment
    · exact hrest other hmem
  · intro parts rest heq
    exact absurd (List.cons.inj heq).1 (hother parts)

theorem Built.literal (h : Built read segments) (text : Text)
    (hread : Unbuffered (read ++ text)) : Built (read ++ text) (pushLiteral text segments) := by
  unfold pushLiteral
  split
  · rename_i hempty
    obtain rfl := List.isEmpty_iff.mp hempty
    rwa [List.append_nil]
  · unfold pushPart
    split
    · rename_i parts rest
      apply Built.string hread
      · rw [List.flatMap_append, List.flatMap_singleton]
        exact (h.body parts rest rfl).literal text
      · intro segment hsegment
        exact h.unbuffered segment (List.mem_cons_of_mem _ hsegment)
    · apply Built.string hread
      · rw [List.flatMap_singleton]
        exact Body.start text
      · exact h.unbuffered

theorem Built.expression (h : Built read segments) {expression : Text} (hread : Unbuffered read)
    (hexpression : Unbuffered expression) {read' : Text} (hread' : Unbuffered read') :
    Built read' (pushExpression expression segments) := by
  unfold pushExpression
  split
  · split
    · rename_i parts rest
      apply Built.string hread'
      · rw [List.flatMap_append, List.flatMap_singleton]
        exact (h.body parts rest rfl).reference hread hexpression read'
      · intro segment hsegment
        exact h.unbuffered segment (List.mem_cons_of_mem _ hsegment)
    · exact Built.segment hexpression (by simp) h.unbuffered
  · split
    · exact Built.segment hexpression (by simp) h.unbuffered
    · have hwrapped : Unbuffered (Segment.wrapped expression).render :=
        (hexpression.cons (by decide)).concat (by decide)
      exact Built.segment hwrapped (by simp) h.unbuffered

theorem unbuffered_foldl {pieces : List Piece} {rest : Text} (h : Spells pieces rest)
    (hread : Unbuffered (read ++ rest)) (hbuilt : Built read segments) :
    ∀ segment ∈ pieces.foldl push segments, Unbuffered segment.render := by
  induction h generalizing read segments with
  | done rest => exact hbuilt.unbuffered
  | literal text h ih =>
    rw [← List.append_assoc] at hread
    exact ih hread (hbuilt.literal text (hread.of_infix (List.prefix_append _ _).isInfix))
  | @embedded before expression after pieces rest h ih =>
    have hread' : Unbuffered (read ++ (before ++ expression ++ after) ++ rest) := by
      rwa [List.append_assoc]
    have hexpression : Unbuffered expression := by
      apply hread'.of_infix
      exact ⟨read ++ before, after ++ rest, by simp only [List.append_assoc]⟩
    have hfront := hread.of_infix (List.prefix_append read _).isInfix
    exact ih hread' (hbuilt.expression hfront hexpression
      (hread'.of_infix (List.prefix_append _ _).isInfix))

theorem unbuffered_render (h : ∀ segment ∈ segments, Unbuffered segment.render) :
    Unbuffered (render segments) := by
  unfold render
  split
  · rfl
  · rename_i code
    have hcode := h _ (List.mem_singleton.mpr rfl)
    exact hcode.of_infix ⟨['('], [')'], rfl⟩
  · apply Unbuffered.join (by decide)
    intro part hpart
    obtain ⟨segment, hsegment, rfl⟩ := List.mem_map.mp hpart
    exact h segment hsegment

theorem unbuffered_compile {value code : Text} (h : compile tags value = .ok code)
    (hvalue : Unbuffered value) : Unbuffered code := by
  have hsegments : ∀ segment ∈ segments tags value, Unbuffered segment.render := by
    intro segment hsegment
    have hbuilt : Built [] ([] : List Segment) := by
      refine ⟨fun _ hmem => (List.not_mem_nil hmem).elim, ?_⟩
      intro parts rest hnil
      cases hnil
    exact @unbuffered_foldl [] [] _ value (spells_pieces tags value) hvalue hbuilt segment
      (List.mem_reverse.mp hsegment)
  unfold compile at h
  simp only at h
  split at h
  · cases h
    exact unbuffered_render hsegments
  · cases h

end Interpolation

end TemplateCompiler
