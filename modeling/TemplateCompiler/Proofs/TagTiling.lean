import Mathlib.Data.List.Forall2
import TemplateCompiler.Proofs.BlockMatching
import TemplateCompiler.Proofs.TagEnding

/-!
# The tag at an offset

What is read at an offset of a text depends on the characters of the tag alone: the same characters
anywhere in another text are the same tag. The attributes stand one behind the other between the
name of the tag and its end, with white space and nothing else around them.
-/
namespace TemplateCompiler

/-- A piece of a text stands where the span says. -/
def Span.Marks (span : Span) (text piece : Text) : Prop :=
  ∃ before after, text = before ++ piece ++ after ∧ span = ofText (Text.size before) piece

/-- Spans tile a region of a text but for white space: none is empty, each ends before the next one
begins, and the characters of the region that are in none of them are white space. -/
structure Span.Tiling (text : Text) (region : Span) (spans : List Span) : Prop where
  nonempty : ∀ span ∈ spans, span.start < span.stop
  apart : spans.Pairwise fun first second => first.stop ≤ second.start
  inside : ∀ span ∈ spans, region.start ≤ span.start ∧ span.stop ≤ region.stop
  blank : ∀ before c after, text = before ++ c :: after →
    region.start ≤ Text.size before → Text.size before < region.stop →
    (∃ span ∈ spans, span.start ≤ Text.size before ∧ Text.size before < span.stop) ∨
      Unicode.isWhitespace c

namespace Place

theorem eq_of_ofOffset?_go {before rest : Text} {n : Nat} {place : Place}
    (h : ofOffset?.go before n rest = some place) :
    place.text = before.reverse ++ rest ∧ place.offset = Text.size before + n := by
  fun_induction ofOffset?.go before n rest with
  | case1 before rest =>
    cases h
    exact ⟨rfl, rfl⟩
  | case2 => cases h
  | case3 before n c rest hle ih =>
    obtain ⟨htext, hoffset⟩ := ih h
    refine ⟨by simpa using htext, ?_⟩
    rw [hoffset, Text.size_cons]
    omega
  | case4 => cases h

theorem eq_of_ofOffset? {source : Text} {n : Nat} {place : Place}
    (h : ofOffset? source n = some place) : place.text = source ∧ place.offset = n := by
  simpa using eq_of_ofOffset?_go h

end Place

namespace Text

theorem mem_of_offset {before after piece before' after' : Text} {c : Char}
    (h : before' ++ c :: after' = before ++ piece ++ after) (hstart : size before ≤ size before')
    (hstop : size before' < size before + size piece) : c ∈ piece := by
  have hpos := c.utf8Size_pos
  rw [List.append_assoc, List.append_eq_append_iff] at h
  rcases h with ⟨more, hbefore, hpiece⟩ | ⟨more, hbefore, hpiece⟩
  · have hsize := congrArg size hbefore
    rw [size_append] at hsize
    have hmore : more = [] := by
      cases more with
      | nil => rfl
      | cons d more =>
        have hd := d.utf8Size_pos
        rw [size_cons] at hsize
        omega
    rw [hmore, List.nil_append] at hpiece
    cases piece with
    | nil => simp at hstop; omega
    | cons d piece =>
      rw [(List.cons.inj hpiece).1]
      exact List.mem_cons_self
  · have hsize := congrArg size hbefore
    rw [size_append] at hsize
    rw [List.append_eq_append_iff] at hpiece
    rcases hpiece with ⟨rest, hmore, hrest⟩ | ⟨rest, hmore, hrest⟩
    · have hsize' := congrArg size hmore
      rw [size_append] at hsize'
      omega
    · cases rest with
      | nil =>
        rw [List.append_nil] at hmore
        rw [hmore] at hstop
        omega
      | cons d rest =>
        rw [hmore, (List.cons.inj hrest).1]
        simp

end Text

namespace Span.Tiling

variable {before lead piece more after : Text} {spans : List Span}

theorem of_blank (before after : Text) {blank : Text} (hblank : blank.isBlank) :
    Tiling (before ++ blank ++ after) (ofText (Text.size before) blank) [] where
  nonempty := by simp
  apart := List.Pairwise.nil
  inside := by simp
  blank before' c after' htext hstart hstop :=
    Or.inr (List.all_eq_true.mp hblank c (Text.mem_of_offset htext.symm hstart hstop))

theorem cons (hlead : lead.isBlank) (hpiece : piece ≠ [])
    (h : Tiling (before ++ (lead ++ piece ++ more) ++ after)
      (ofText (Text.size (before ++ (lead ++ piece))) more) spans) :
    Tiling (before ++ (lead ++ piece ++ more) ++ after)
      (ofText (Text.size before) (lead ++ piece ++ more))
      (ofText (Text.size before + Text.size lead) piece :: spans) := by
  have hlength := Text.length_le_size piece
  have hpos := List.length_pos_iff.mpr hpiece
  have hinside := h.inside
  simp only [ofText, Text.size_append] at hinside
  constructor
  · refine List.forall_mem_cons.mpr ⟨?_, h.nonempty⟩
    simp only [ofText]
    omega
  · refine List.Pairwise.cons (fun span hspan => ?_) h.apart
    have hstart := (hinside span hspan).1
    simp only [ofText]
    omega
  · simp only [ofText, Text.size_append]
    refine List.forall_mem_cons.mpr ⟨⟨Nat.le_add_right _ _, ?_⟩, fun span hspan => ?_⟩
    · dsimp only
      omega
    · have hspan' := hinside span hspan
      constructor <;> omega
  · intro before' c after' htext hstart hstop
    simp only [ofText, Text.size_append] at hstart hstop
    by_cases hbefore : Text.size before' < Text.size before + Text.size lead
    · refine Or.inr (List.all_eq_true.mp hlead c
        (@Text.mem_of_offset before (piece ++ more ++ after) lead before' after' c ?_ hstart
          hbefore))
      simpa only [List.append_assoc] using htext.symm
    · by_cases hwithin : Text.size before' < Text.size before + Text.size lead + Text.size piece
      · exact Or.inl ⟨_, List.mem_cons_self, Nat.not_lt.mp hbefore, hwithin⟩
      · refine (h.blank before' c after' htext ?_ ?_).imp_left
          fun ⟨span, hspan, hrange⟩ => ⟨span, List.mem_cons_of_mem _ hspan, hrange⟩
        · simp only [ofText, Text.size_append]
          omega
        · simp only [ofText, Text.size_append]
          omega

end Span.Tiling

namespace AttributeValue

/-- A text without quotes that goes up to the end of the tag does not end in a slash, which would
close the tag. -/
theorem getLast?_unquotedText {text value rest : Text}
    (h : unquotedText text = (value, '>' :: rest)) : value.getLast? ≠ some '/' := by
  induction text generalizing value with
  | nil => cases h
  | cons c text ih =>
    rw [unquotedText] at h
    split at h
    · cases h
      simp
    · rename_i hgoes
      cases hlater : unquotedText text with
      | mk value' after =>
        rw [hlater] at h
        cases h
        cases value' with
        | cons d value' =>
          rw [List.getLast?_cons_cons]
          exact ih hlater
        | nil =>
          have hwritten := unquotedText_eq text
          rw [hlater, List.nil_append] at hwritten
          rintro hslash
          obtain rfl : c = '/' := by simpa using hslash
          apply hgoes
          rw [startsWith_end, ← hwritten]
          rfl

theorem getLast?_of_parse? {text rest : Text} {value : AttributeValue}
    (h : parse? text = some (value, '>' :: rest)) : value.written.getLast? ≠ some '/' := by
  unfold parse? at h
  split at h
  · cases h
  · rename_i c text
    split at h
    · rename_i hquote
      split at h
      · cases h
      · rename_i mark tail hdrop
        cases h
        have hhead := List.head?_dropWhile_not (· != c) text
        rw [hdrop] at hhead
        obtain rfl : mark = c := by simpa using hhead
        rw [written, List.getLast?_append]
        rcases hquote with rfl | rfl <;> simp
    · simp only at h
      split at h
      · cases h
      · cases hvalue : unquotedText (c :: text) with
        | mk value' after =>
          rw [hvalue] at h
          cases h
          rw [written_ofUnquoted]
          exact getLast?_unquotedText hvalue

end AttributeValue

namespace Attribute

theorem getLast?_of_parse? {lead text rest : Text} {attr : Attribute}
    (h : parse? lead text = some (attr, '>' :: rest)) : attr.written.getLast? ≠ some '/' := by
  simp only [parse?] at h
  split at h
  · cases h
  · split at h
    · obtain ⟨rfl, -⟩ := by simpa only [Option.some.injEq, Prod.mk.injEq] using h
      intro hlast
      have hmem := List.mem_of_getLast? hlast
      simp only [written, AttributeValue.written, List.append_nil] at hmem
      have hname := List.all_eq_true.mp List.all_takeWhile '/' hmem
      revert hname
      decide
    · obtain ⟨⟨value, after⟩, hvalue, hfound⟩ := Option.map_eq_some_iff.mp h
      cases hfound
      rw [written, List.getLast?_append_of_ne_nil _ (AttributeValue.written_ne_nil hvalue)]
      exact AttributeValue.getLast?_of_parse? hvalue

theorem written_ne_nil {lead text after : Text} {attr : Attribute}
    (h : parse? lead text = some (attr, after)) : attr.written ≠ [] := by
  have hname := (parse?_eq h).2.2
  simp [written, hname]

end Attribute

namespace Tag

variable {text after trail : Text} {attributes : List Attribute} {selfClosing : Bool}

def at? (text : Text) (offset : Nat) : Option Tag :=
  (Place.ofOffset? text offset).bind fun place => (parse? place.rest).map Prod.fst

/-- Where the attributes and the white space around them stand in a tag at an offset. -/
def attributeRegion (offset : Nat) (tag : Tag) : Span :=
  Span.ofText (offset + 1 + tag.qualified.size) tag.attributeText

/-! ## The attributes of a tag -/

/-- There is white space before each attribute and before the end of the tag, if anything. -/
theorem blank_of_attributes? (h : attributes? text = some (attributes, trail, selfClosing, after)) :
    (∀ attr ∈ attributes, attr.lead.isBlank ∧ attr.written ≠ []) ∧ trail.isBlank := by
  fun_induction attributes? text generalizing attributes with
  | case1 =>
    cases h
    exact ⟨fun _ hattr => absurd hattr List.not_mem_nil, List.all_takeWhile⟩
  | case2 =>
    cases h
    exact ⟨fun _ hattr => absurd hattr List.not_mem_nil, List.all_takeWhile⟩
  | case3 => cases h
  | case4 text attr rest hparse _ _ _ ih =>
    obtain ⟨⟨later, more⟩, hfound, hmore⟩ := Option.map_eq_some_iff.mp h
    cases hmore
    refine ⟨List.forall_mem_cons.mpr ⟨⟨?_, Attribute.written_ne_nil hparse⟩, (ih hfound).1⟩,
      (ih hfound).2⟩
    rw [(Attribute.parse?_eq hparse).2.1]
    exact List.all_takeWhile

theorem getLast?_of_attributes? (h : attributes? text = some (attributes, trail, false, after)) :
    (attributes.flatMap (·.writtenWithLead) ++ trail).getLast? ≠ some '/' := by
  fun_induction attributes? text generalizing attributes with
  | case1 => cases h
  | case2 text rest hdrop =>
    cases h
    intro hlast
    have hmem := List.mem_of_getLast? hlast
    rw [List.flatMap_nil, List.nil_append] at hmem
    have hblank := List.all_eq_true.mp List.all_takeWhile '/' hmem
    revert hblank
    decide
  | case3 => cases h
  | case4 text attr rest hparse _ _ _ ih =>
    obtain ⟨⟨later, more⟩, hfound, hmore⟩ := Option.map_eq_some_iff.mp h
    cases hmore
    rw [List.flatMap_cons, List.append_assoc]
    by_cases hlast : later.flatMap (·.writtenWithLead) ++ trail = []
    · -- nothing stands between the attribute and the end of the tag
      have hrest := attributes?_eq hfound
      rw [hlast] at hrest
      rw [hrest] at hparse
      rw [hlast, List.append_nil, Attribute.writtenWithLead,
        List.getLast?_append_of_ne_nil _ (Attribute.written_ne_nil hparse)]
      exact Attribute.getLast?_of_parse? hparse
    · rw [List.getLast?_append_of_ne_nil _ hlast]
      exact ih hfound

/-- The slash of a tag that closes itself is its own, not that of an attribute or of the name. -/
theorem slash_suffix_iff {tag : Tag} (h : parse? text = some (tag, after)) :
    ['/', '>'] <:+ tag.written ↔ tag.selfClosing := by
  obtain ⟨rest, hattributes⟩ := exists_attributes? h
  cases hself : tag.selfClosing with
  | true =>
    rw [written, hself]
    exact iff_of_true (List.suffix_append _ _) rfl
  | false =>
    rw [hself] at hattributes
    refine iff_of_false ?_ Bool.false_ne_true
    rintro ⟨more, hmore⟩
    rw [written, hself, ending, if_neg Bool.false_ne_true] at hmore
    have hlast : ('<' :: tag.qualified ++ tag.attributeText).getLast? = some '/' := by
      have hinit : more ++ ['/'] = '<' :: tag.qualified ++ tag.attributeText :=
        List.append_cancel_right (by simpa using hmore)
      rw [← hinit, List.getLast?_append_of_ne_nil _ (by simp)]
      rfl
    by_cases hempty : tag.attributeText = []
    · rw [hempty, List.append_nil] at hlast
      rcases List.mem_cons.mp (List.mem_of_getLast? hlast) with heq | hmem
      · revert heq
        decide
      · rcases isNameChar_of_parse? h '/' hmem with hname | hcolon
        · revert hname
          decide
        · revert hcolon
          decide
    · rw [List.getLast?_append_of_ne_nil _ hempty] at hlast
      exact getLast?_of_attributes? hattributes hlast

/-! ## The spans of the attributes -/

theorem attributeSpans_go_shift (attributes : List Attribute) (first offset : Nat) :
    attributeSpans.go (first + offset) attributes =
      (attributeSpans.go first attributes).map (·.shift offset) := by
  induction attributes generalizing first with
  | nil => rfl
  | cons attr attributes ih =>
    have hlater := ih (first + attr.writtenWithLead.size)
    rw [Nat.add_right_comm] at hlater
    rw [attributeSpans.go, hlater, Nat.add_right_comm]
    simp only [attributeSpans.go, List.map_cons, Span.shift, Span.ofText,
      Nat.add_right_comm _ offset]

/-- The spans of the attributes depend on the place of the tag by a shift only. -/
theorem attributeSpans_eq (offset : Nat) (tag : Tag) :
    tag.attributeSpans offset = (tag.attributeSpans 0).map (·.shift offset) := by
  rw [attributeSpans, attributeSpans, ← attributeSpans_go_shift]
  congr 1
  omega

theorem tiling_go (hattributes : ∀ attr ∈ attributes, attr.lead.isBlank ∧ attr.written ≠ [])
    (htrail : trail.isBlank) (before after : Text) :
    Span.Tiling (before ++ (attributes.flatMap (·.writtenWithLead) ++ trail) ++ after)
      (Span.ofText before.size (attributes.flatMap (·.writtenWithLead) ++ trail))
      (attributeSpans.go before.size attributes) := by
  induction attributes generalizing before with
  | nil => exact Span.Tiling.of_blank before after htrail
  | cons attr attributes ih =>
    obtain ⟨⟨hlead, hwritten⟩, hlater⟩ := List.forall_mem_cons.mp hattributes
    have hregion : (attr :: attributes).flatMap (·.writtenWithLead) ++ trail =
        attr.lead ++ attr.written ++ (attributes.flatMap (·.writtenWithLead) ++ trail) := by
      rw [List.flatMap_cons, List.append_assoc, Attribute.writtenWithLead]
    have hsize : before.size + attr.writtenWithLead.size =
        Text.size (before ++ (attr.lead ++ attr.written)) := (Text.size_append _ _).symm
    have htail := ih hlater (before ++ (attr.lead ++ attr.written))
    rw [hregion, attributeSpans.go, hsize]
    apply Span.Tiling.cons hlead hwritten
    simpa only [List.append_assoc] using htail

theorem marks_go (attributes : List Attribute) (before after : Text) :
    List.Forall₂ (fun attr span =>
        Span.Marks span (before ++ attributes.flatMap (·.writtenWithLead) ++ after) attr.written)
      attributes (attributeSpans.go before.size attributes) := by
  induction attributes generalizing before with
  | nil => exact List.Forall₂.nil
  | cons attr attributes ih =>
    have htail := ih (before ++ attr.writtenWithLead)
    rw [Text.size_append] at htail
    refine List.Forall₂.cons ⟨before ++ attr.lead, attributes.flatMap (·.writtenWithLead) ++ after,
      ?_, by rw [Text.size_append]⟩ ?_
    · simp only [List.flatMap_cons, Attribute.writtenWithLead, List.append_assoc]
    · simpa only [List.flatMap_cons, List.append_assoc] using htail

/-! ## The tag at an offset -/

theorem at?_eq_some_iff {source : Text} {offset : Nat} {tag : Tag} :
    at? source offset = some tag ↔ ∃ (place : Place) (after : Text),
      place.text = source ∧ place.offset = offset ∧ parse? place.rest = some (tag, after) := by
  constructor
  · intro h
    obtain ⟨place, hplace, hfound⟩ := Option.bind_eq_some_iff.mp h
    obtain ⟨⟨found, after⟩, hparse, rfl⟩ := Option.map_eq_some_iff.mp hfound
    obtain ⟨htext, hoffset⟩ := Place.eq_of_ofOffset? hplace
    exact ⟨place, after, htext, hoffset, hparse⟩
  · rintro ⟨place, after, rfl, rfl, hparse⟩
    rw [at?, Place.ofOffset?_offset, Option.bind_some, hparse]
    rfl

/-- A tag is read wherever its characters stand. -/
theorem at?_of_marks {source other : Text} {offset offset' : Nat} {tag : Tag}
    (h : at? source offset = some tag)
    (hmarks : (Span.ofText offset' tag.written).Marks other tag.written) :
    at? other offset' = some tag := by
  obtain ⟨place, after, -, -, hparse⟩ := at?_eq_some_iff.mp h
  obtain ⟨before, more, rfl, hspan⟩ := hmarks
  refine at?_eq_some_iff.mpr ⟨⟨before.reverse, tag.written ++ more⟩, more, ?_, ?_,
    parse?_written hparse more⟩
  · simp [Place.text]
  · rw [Place.offset, Text.size_reverse]
    exact (congrArg Span.start hspan).symm

theorem attributeRegion_marks {place : Place} {tag : Tag}
    (h : parse? place.rest = some (tag, after)) :
    (tag.attributeRegion place.offset).Marks place.text tag.attributeText := by
  have hangle : Char.utf8Size '<' = 1 := by decide
  refine ⟨place.before.reverse ++ '<' :: tag.qualified, ending tag.selfClosing ++ after, ?_, ?_⟩
  · simp only [Place.text, parse?_eq h, written, List.append_assoc, List.cons_append]
  · rw [attributeRegion]
    congr 1
    simp only [Text.size_append, Text.size_reverse, Text.size_cons, Place.offset, hangle]
    omega

/-- A tag depends on its own characters alone, wherever they stand, and its pieces tile it: it is
its name, the text of its attributes and its end, whose slash is there if it closes itself; the
spans of the attributes mark them one behind the other in that text, with white space and nothing
else around them. -/
theorem tag_local_and_tiled {source : Text} {offset : Nat} {tag : Tag}
    (h : at? source offset = some tag) :
    (Span.ofText offset tag.written).Marks source tag.written ∧
      (∀ other offset', (Span.ofText offset' tag.written).Marks other tag.written →
        at? other offset' = some tag ∧
          ∃ spans : List Span, tag.attributeSpans offset = spans.map (·.shift offset) ∧
            tag.attributeSpans offset' = spans.map (·.shift offset')) ∧
      tag.written = '<' :: tag.qualified ++ tag.attributeText ++
        (if tag.selfClosing then ['/', '>'] else ['>']) ∧
      (['/', '>'] <:+ tag.written ↔ tag.selfClosing) ∧
      (tag.attributeRegion offset).Marks source tag.attributeText ∧
      List.Forall₂ (fun attr span => Span.Marks span source attr.written)
        tag.attributes (tag.attributeSpans offset) ∧
      Span.Tiling source (tag.attributeRegion offset) (tag.attributeSpans offset) := by
  obtain ⟨place, after, rfl, rfl, hparse⟩ := at?_eq_some_iff.mp h
  obtain ⟨rest, hattributes⟩ := exists_attributes? hparse
  obtain ⟨hblank, htrail⟩ := blank_of_attributes? hattributes
  obtain ⟨before, behind, htext, hspan⟩ := attributeRegion_marks hparse
  have hoffset : place.offset + 1 + tag.qualified.size = Text.size before :=
    congrArg Span.start hspan
  refine ⟨⟨place.before.reverse, after, ?_, ?_⟩, fun other offset' hmarks =>
    ⟨at?_of_marks h hmarks, tag.attributeSpans 0, attributeSpans_eq _ tag, attributeSpans_eq _ tag⟩,
    rfl, slash_suffix_iff hparse, attributeRegion_marks hparse, ?_, ?_⟩
  · rw [Place.text, parse?_eq hparse, List.append_assoc]
  · rw [Text.size_reverse, Place.offset]
  · rw [attributeSpans, hoffset, htext, attributeText]
    have hmarked := marks_go tag.attributes before (tag.trail ++ behind)
    simpa only [List.append_assoc] using hmarked
  · rw [hspan, attributeSpans, hoffset, htext, attributeText]
    exact tiling_go hblank htrail before behind

/-- An equals sign far behind the tag, for which its last attribute looks ahead, is not its own. -/
theorem tag_local_and_tiled_of_icon :
    let tag : Tag := ⟨some "ui".toList, "icon".toList,
      [⟨" ".toList, "name".toList, " = ".toList, .bare "star".toList⟩,
        ⟨"  ".toList, "wide".toList, [], .flag⟩], " ".toList, true⟩
    let source := "ü<ui:icon name = star  wide />".toList
    at? source 2 = some tag ∧ at? "<p><ui:icon name = star  wide /> = <b>".toList 3 = some tag ∧
      Span.Tiling source ⟨10, 29⟩ [⟨11, 22⟩, ⟨24, 28⟩] := by
  intro tag source
  have htag : at? source 2 = some tag := by decide +kernel
  have hregion : tag.attributeRegion 2 = ⟨10, 29⟩ := by decide +kernel
  have hspans : tag.attributeSpans 2 = [⟨11, 22⟩, ⟨24, 28⟩] := by decide +kernel
  obtain ⟨-, hlocal, -, -, -, -, htiling⟩ := tag_local_and_tiled htag
  rw [hregion, hspans] at htiling
  refine ⟨htag, (hlocal _ 3 ⟨"<p>".toList, " = <b>".toList, ?_, ?_⟩).1, htiling⟩
  · decide +kernel
  · decide +kernel

end Tag

end TemplateCompiler
