import TemplateCompiler.Proofs.TagLocality

/-!
# Tags with another end

What is read of a tag before its end can be written again in front of another end, and is read as
before: the same attributes, and the white space after them. The other end is of the same kind, or
there is more white space before it, so that no value runs into it.
-/
namespace TemplateCompiler

/-- A text ends an attribute in the place of another: it starts with white space, or as the other
one does. -/
inductive EndsLike : Text → Text → Prop
  | blank {after rest : Text} {c : Char} (hc : Unicode.isWhitespace c) : EndsLike after (c :: rest)
  | same {rest rest' : Text} {c : Char} (hc : c ≠ '/') : EndsLike (c :: rest) (c :: rest')
  | slash {rest rest' : Text} : EndsLike ('/' :: '>' :: rest) ('/' :: '>' :: rest')

namespace AttributeValue

variable {text value after after' : Text}

theorem startsWith_end (c : Char) (text : Text) :
    Text.startsWith (c :: text) ['/', '>'] = (c == '/' && text.head? == some '>') := by
  cases text with
  | nil => by_cases hc : c = '/' <;> simp [Text.startsWith, Text.after?, hc]
  | cons d text =>
    by_cases hc : c = '/'
    · by_cases hd : d = '>'
      · simp [Text.startsWith, Text.after?, hc, hd]
      · simp [Text.startsWith, Text.after?, hc, hd, Ne.symm hd]
    · simp [Text.startsWith, Text.after?, hc, Ne.symm hc]

theorem head?_of_endsLike (h : EndsLike after after') (hend : after'.head? = some '>') :
    after.head? = some '>' := by
  cases h with
  | blank hc =>
    cases hend
    cases hc
  | same hc => exact hend
  | slash => cases hend

theorem unquotedText_endsLike (h : unquotedText text = (value, after))
    (hends : EndsLike after after') : unquotedText (value ++ after') = (value, after') := by
  induction text generalizing value with
  | nil =>
    cases h
    cases hends with
    | blank hc => rw [List.nil_append, unquotedText, if_pos (by simp [hc])]
  | cons c rest ih =>
    rw [unquotedText] at h
    split at h
    · rename_i hstop
      cases h
      rw [List.nil_append]
      cases hends with
      | blank hc => rw [unquotedText, if_pos (by simp [hc])]
      | same hc =>
        have hstop' : Unicode.isWhitespace c || c == '>' := by
          simpa [startsWith_end, beq_eq_false_iff_ne.mpr hc] using hstop
        rw [unquotedText, if_pos (by simp [hstop'])]
      | slash => rw [unquotedText, if_pos (by simp [startsWith_end])]
    · rename_i hgoes
      cases hrest : unquotedText rest with
      | mk value' after'' =>
        rw [hrest] at h
        cases h
        have hlater := ih hrest
        have hwritten : value' ++ after = rest := by
          have hparts := unquotedText_eq rest
          rwa [hrest] at hparts
        -- The character begins no end of the tag before either of the two texts.
        have hgoes' : ¬(Unicode.isWhitespace c || c == '>' ||
            Text.startsWith (c :: (value' ++ after')) ['/', '>']) := by
          rw [startsWith_end] at hgoes ⊢
          intro hstop
          apply hgoes
          rw [← hwritten]
          cases value' with
          | cons d value' => exact hstop
          | nil =>
            simp only [Bool.or_eq_true, Bool.and_eq_true, List.nil_append, beq_iff_eq] at hstop ⊢
            exact hstop.imp_right fun hend => ⟨hend.1, head?_of_endsLike hends hend.2⟩
        rw [List.cons_append, unquotedText, if_neg hgoes', hlater]

theorem written_ne_nil {value : AttributeValue} (h : parse? text = some (value, after)) :
    value.written ≠ [] := by
  unfold parse? at h
  split at h
  · cases h
  · split at h
    · split at h
      · cases h
      · cases h
        simp [written]
    · simp only at h
      split at h
      · cases h
      · rename_i hempty
        cases h
        rw [written_ofUnquoted]
        simpa using hempty

theorem parse?_endsLike {value : AttributeValue} (h : parse? text = some (value, after))
    (hends : EndsLike after after') : parse? (value.written ++ after') = some (value, after') := by
  have hwritten := written_ne_nil h
  have htext := parse?_eq h
  unfold parse? at h
  split at h
  · cases h
  · rename_i c rest
    split at h
    · rename_i hquote
      split at h
      · cases h
      · rename_i mark tail hdrop
        cases h
        have hmark : mark = c := (List.cons.inj htext).1.symm
        subst hmark
        obtain ⟨htake, hrest⟩ := @Text.takeWhile_word (· != mark) (rest.takeWhile (· != mark))
          after' mark List.all_takeWhile (by simp)
        rw [written, List.append_assoc, List.singleton_append, List.cons_append, parse?,
          if_pos hquote, hrest]
        simp only [htake]
    · rename_i hquote
      simp only at h
      split at h
      · cases h
      · rename_i hempty
        cases h
        rw [written_ofUnquoted] at htext hwritten ⊢
        have hvalue : (unquotedText (c :: rest)).1 =
            c :: (unquotedText (c :: rest)).1.tail := by
          cases hcases : (unquotedText (c :: rest)).1 with
          | nil => exact absurd hcases hwritten
          | cons d value =>
            rw [hcases] at htext
            rw [(List.cons.inj htext).1]
            rfl
        have hread := unquotedText_endsLike (Prod.eta (unquotedText (c :: rest))).symm hends
        rw [hvalue, List.cons_append] at hread ⊢
        rw [parse?, if_neg hquote, hread]
        rfl

end AttributeValue

namespace Attribute

variable {lead text after after' : Text}

theorem equals?_cons {equals rest rest' : Text} {c : Char}
    (h : equals? text = some (equals, c :: rest)) :
    equals? (equals ++ c :: rest') = some (equals, c :: rest') := by
  unfold equals? at h
  split at h
  · rename_i tail hdrop
    rw [Option.some.injEq, Prod.mk.injEq] at h
    obtain ⟨rfl, hrest⟩ := h
    have hc : Unicode.isWhitespace c = false := by
      have hhead := List.head?_dropWhile_not Unicode.isWhitespace tail
      rwa [hrest] at hhead
    have hequals : Unicode.isWhitespace '=' = false := by decide
    obtain ⟨hfirst, hsecond⟩ := @Text.takeWhile_word Unicode.isWhitespace
      (text.takeWhile Unicode.isWhitespace) (tail.takeWhile Unicode.isWhitespace ++ c :: rest') '='
      List.all_takeWhile hequals
    obtain ⟨hfirst', hsecond'⟩ := @Text.takeWhile_word Unicode.isWhitespace
      (tail.takeWhile Unicode.isWhitespace) rest' c List.all_takeWhile hc
    rw [List.append_assoc, List.cons_append, equals?, hsecond]
    simp only [hfirst, hfirst', hsecond']
  · cases h

theorem isNameEnd_of_endsLike (h : EndsLike after after') (hafter : after.head?.all isNameEnd) :
    ∃ c rest, after' = c :: rest ∧ isNameEnd c := by
  cases h with
  | blank hc => exact ⟨_, _, rfl, by simp [isNameEnd, hc]⟩
  | same => exact ⟨_, _, rfl, hafter⟩
  | slash => exact ⟨_, _, rfl, by decide⟩

theorem head?_dropWhile_isNameEnd (text : Text) :
    (text.dropWhile fun c => !isNameEnd c).head?.all isNameEnd := by
  have hhead := List.head?_dropWhile_not (fun c => !isNameEnd c) text
  cases hdrop : text.dropWhile fun c => !isNameEnd c with
  | nil => rfl
  | cons c rest =>
    rw [hdrop] at hhead
    simpa using hhead

theorem parse?_endsLike {attr : Attribute} (h : parse? lead text = some (attr, after))
    (hflag : equals? after' = none) (hends : EndsLike after after') :
    parse? lead (attr.written ++ after') = some (attr, after') := by
  have hhead := head?_dropWhile_isNameEnd text
  have hname : (text.takeWhile fun c => !isNameEnd c).all fun c => !isNameEnd c :=
    List.all_takeWhile
  simp only [parse?] at h
  split at h
  · cases h
  · rename_i hempty
    split at h
    · cases h
      obtain ⟨c, rest, rfl, hc⟩ := isNameEnd_of_endsLike hends hhead
      obtain ⟨htake, hdrop⟩ := @Text.takeWhile_word _ _ rest c hname (by simp [hc])
      simp only [written, AttributeValue.written, List.append_nil, parse?, htake, hdrop, hempty,
        hflag]
      rfl
    · rename_i equals rest hequals
      obtain ⟨⟨value, tail⟩, hvalue, hfound⟩ := Option.map_eq_some_iff.mp h
      cases hfound
      rw [equals?_eq hequals] at hhead
      have hread := AttributeValue.parse?_endsLike hvalue hends
      have hequals' : equals? (equals ++ (value.written ++ after')) =
          some (equals, value.written ++ after') := by
        rw [AttributeValue.parse?_eq hvalue] at hequals
        cases hwritten : value.written with
        | nil => exact absurd hwritten (AttributeValue.written_ne_nil hvalue)
        | cons c more =>
          rw [hwritten] at hequals
          exact equals?_cons hequals
      have hends' : ∃ c more, equals ++ (value.written ++ after') = c :: more ∧ isNameEnd c := by
        cases hcases : equals with
        | nil =>
          rw [hcases] at hequals
          unfold equals? at hequals
          split at hequals
          · simp at hequals
          · cases hequals
        | cons c more =>
          rw [hcases] at hhead
          exact ⟨c, _, rfl, hhead⟩
      obtain ⟨c, more, hmore, hc⟩ := hends'
      obtain ⟨htake, hdrop⟩ := @Text.takeWhile_word _ _ more c hname (by simp [hc])
      simp only [written, List.append_assoc]
      rw [hmore] at hequals' ⊢
      simp only [parse?, htake, hdrop, hempty, hequals', hread]
      rfl

end Attribute

namespace Tag

variable {text after blank : Text} {selfClosing closes : Bool}

theorem attributes?_of_blank (hblank : ∀ c ∈ blank, Unicode.isWhitespace c) (more : Text) :
    attributes? (blank ++ (ending closes ++ more)) = some ([], blank, closes, more) := by
  have hall : blank.all Unicode.isWhitespace := List.all_eq_true.mpr hblank
  cases closes with
  | true =>
    obtain ⟨htake, hdrop⟩ := @Text.takeWhile_word _ _ ('>' :: more) '/' hall (by decide)
    have hread := attributes?_of_slash hdrop
    rwa [htake] at hread
  | false =>
    obtain ⟨htake, hdrop⟩ := @Text.takeWhile_word _ _ more '>' hall (by decide)
    have hread := attributes?_of_end hdrop
    rwa [htake] at hread

theorem equals?_of_attributes? {found : List Attribute × Text × Bool × Text}
    (h : attributes? text = some found) : Attribute.equals? text = none := by
  unfold Attribute.equals?
  split
  · rename_i rest hdrop
    rw [attributes?_step (by simp [hdrop]) (by simp [hdrop]), hdrop,
      Attribute.parse?_eq_none (by decide)] at h
    cases h
  · rfl

theorem attributes?_slash {attributes : List Attribute} {trail rest : Text}
    (h : attributes? ('/' :: rest) = some (attributes, trail, selfClosing, after)) :
    attributes = [] ∧ trail = [] := by
  have hblank : ('/' :: rest).dropWhile Unicode.isWhitespace = '/' :: rest := by
    rw [List.dropWhile_cons, if_neg (by decide)]
  by_cases hend : ∃ tail, rest = '>' :: tail
  · obtain ⟨tail, rfl⟩ := hend
    rw [attributes?_of_slash hblank] at h
    cases h
    exact ⟨rfl, rfl⟩
  · rw [attributes?_step, hblank, Attribute.parse?_eq_none (by decide)] at h
    · cases h
    · rw [hblank]
      rintro tail heq
      exact hend ⟨tail, (List.cons.inj heq).2⟩
    · rw [hblank]
      rintro tail heq
      cases heq

/-- The attributes after one of them, or the end of the tag, end that attribute as before if they
are written in front of another end. -/
theorem endsLike_of_attributes? {attributes : List Attribute} {trail : Text}
    (h : attributes? text = some (attributes, trail, selfClosing, after))
    (hblank : ∀ c ∈ blank, Unicode.isWhitespace c) (hends : blank ≠ [] ∨ closes = selfClosing)
    (more : Text) : EndsLike text (attributes.flatMap (·.writtenWithLead) ++ trail ++
      (blank ++ (ending closes ++ more))) := by
  have htext := attributes?_eq h
  cases hwritten : attributes.flatMap (·.writtenWithLead) ++ trail with
  | nil =>
    rw [hwritten] at htext
    cases blank with
    | cons c blank => exact EndsLike.blank (hblank c List.mem_cons_self)
    | nil =>
      obtain rfl : closes = selfClosing := hends.resolve_left fun hne => hne rfl
      rw [htext]
      cases closes with
      | true => exact EndsLike.slash
      | false => exact EndsLike.same (by decide)
  | cons c written =>
    rw [hwritten] at htext
    rw [htext]
    apply EndsLike.same
    rintro rfl
    rw [htext] at h
    obtain ⟨rfl, rfl⟩ := attributes?_slash h
    cases hwritten

theorem attributes?_written {attributes : List Attribute} {trail : Text}
    (h : attributes? text = some (attributes, trail, selfClosing, after))
    (hblank : ∀ c ∈ blank, Unicode.isWhitespace c) (hends : blank ≠ [] ∨ closes = selfClosing)
    (more : Text) :
    attributes? (attributes.flatMap (·.writtenWithLead) ++ trail ++
        (blank ++ (ending closes ++ more))) = some (attributes, trail ++ blank, closes, more) := by
  have htrail (text : Text) : ∀ c ∈ text.takeWhile Unicode.isWhitespace ++ blank,
      Unicode.isWhitespace c := by
    intro c hc
    rcases List.mem_append.mp hc with hc | hc
    · exact List.all_eq_true.mp List.all_takeWhile c hc
    · exact hblank c hc
  fun_induction attributes? text generalizing attributes with
  | case1 text rest hdrop =>
    cases h
    rw [List.flatMap_nil, List.nil_append, ← List.append_assoc]
    exact attributes?_of_blank (htrail text) more
  | case2 text rest hdrop =>
    cases h
    rw [List.flatMap_nil, List.nil_append, ← List.append_assoc]
    exact attributes?_of_blank (htrail text) more
  | case3 => cases h
  | case4 text attr rest hparse hlength hslash hend ih =>
    obtain ⟨⟨later, trail', selfClosing', after'⟩, hfound, hmore⟩ := Option.map_eq_some_iff.mp h
    cases hmore
    have hlater := ih hfound
    have hattr := Attribute.parse?_endsLike hparse (equals?_of_attributes? hlater)
      (endsLike_of_attributes? hfound hblank hends more)
    have hlead := (Attribute.parse?_eq hparse).2.1
    rw [List.flatMap_cons, Attribute.writtenWithLead]
    simp only [List.append_assoc] at hlater hattr ⊢
    generalize later.flatMap (·.writtenWithLead) ++ (trail ++ (blank ++ (ending closes ++ more))) =
      rest' at hlater hattr ⊢
    -- The white space before the attribute ends where its name begins.
    have hname : ∃ c name, attr.written ++ rest' = c :: name ∧ Unicode.isWhitespace c = false := by
      have hne := (Attribute.parse?_eq hparse).2.2
      have htext := (Attribute.parse?_eq hparse).1
      cases hcases : attr.name with
      | nil => exact absurd hcases hne
      | cons c name =>
        refine ⟨c, _, by rw [Attribute.written, hcases]; rfl, ?_⟩
        have hhead := List.head?_dropWhile_not Unicode.isWhitespace text
        rwa [htext, Attribute.written, hcases] at hhead
    obtain ⟨c, name, hwritten, hc⟩ := hname
    obtain ⟨htake, hdrop⟩ := @Text.takeWhile_word _ (text.takeWhile Unicode.isWhitespace) name c
      List.all_takeWhile hc
    rw [← hwritten] at htake hdrop
    rw [hlead]
    rw [attributes?_of_parse? (by rw [htake, hdrop]; exact hattr), hlater]
    rfl

theorem name?_written {qualifier : Option Text} {name text rest : Text} {c : Char}
    (h : name? text = some (qualifier, name, c :: rest)) (hc : isNameEnded (c :: rest))
    (rest' : Text) :
    name? (qualifiedName qualifier name ++ c :: rest') = some (qualifier, name, c :: rest') := by
  have hcolon : c ≠ ':' := by
    rintro rfl
    cases hc
  have hword {text : Text} (hdrop : text.dropWhile isNameChar = c :: rest) :
      (text.takeWhile isNameChar ++ c :: rest').takeWhile isNameChar = text.takeWhile isNameChar ∧
        (text.takeWhile isNameChar ++ c :: rest').dropWhile isNameChar = c :: rest' := by
    have hhead := List.head?_dropWhile_not isNameChar text
    rw [hdrop] at hhead
    exact Text.takeWhile_word List.all_takeWhile hhead
  unfold name? at h
  split at h
  · cases h
  · rename_i hname
    split at h
    · rename_i d tail hdrop
      split at h
      · rename_i hd
        obtain ⟨rfl, rfl, hafter⟩ := by simpa only [Option.some.injEq, Prod.mk.injEq] using h
        obtain ⟨hsecond, hlast⟩ := hword hafter
        obtain ⟨hfirst, hbehind⟩ := @Text.takeWhile_word _ (text.takeWhile isNameChar)
          ((d :: tail).takeWhile isNameChar ++ c :: rest') ':' List.all_takeWhile (by decide)
        rw [qualifiedName, List.append_assoc, List.cons_append, name?, hfirst, if_neg hname,
          hbehind]
        rw [List.takeWhile_cons_of_pos hd, List.cons_append] at hsecond hlast ⊢
        simp only [if_pos hd, hsecond, hlast]
      · cases h
        exact absurd rfl hcolon
    · obtain ⟨rfl, rfl, hafter⟩ := by simpa only [Option.some.injEq, Prod.mk.injEq] using h
      obtain ⟨hfirst, hbehind⟩ := hword hafter
      rw [qualifiedName, name?, hfirst, if_neg hname, hbehind]
      split
      · rename_i heq
        exact absurd (List.cons.inj heq).1 hcolon
      · rfl

/-- A tag, written in front of another text, is read again. -/
theorem parse?_written {tag : Tag} {text after : Text} (h : parse? text = some (tag, after))
    (more : Text) : parse? (tag.written ++ more) = some (tag, more) := by
  unfold parse? at h
  split at h
  · rename_i text
    obtain ⟨⟨qualifier, name, rest⟩, hname, h⟩ := Option.bind_eq_some_iff.mp h
    simp only at h
    split at h
    · rename_i hended
      obtain ⟨⟨attributes, trail, selfClosing, after'⟩, hattributes, hfound⟩ :=
        Option.map_eq_some_iff.mp h
      cases hfound
      have hagain := @attributes?_written _ _ [] _ selfClosing _ _ hattributes
        (fun _ hc => absurd hc List.not_mem_nil) (Or.inr rfl) more
      rw [List.append_nil, List.nil_append] at hagain
      -- the text after the name begins as it did
      have hrest := attributes?_eq hattributes
      cases hbetween : attributes.flatMap (·.writtenWithLead) ++ trail ++ ending selfClosing with
      | nil => cases selfClosing <;> simp [ending] at hbetween
      | cons c between =>
        rw [hbetween, List.cons_append] at hrest
        rw [hrest] at hname hended
        have htext : Tag.written ⟨qualifier, name, attributes, trail, selfClosing⟩ ++ more =
            '<' :: (qualifiedName qualifier name ++ c :: (between ++ more)) := by
          have hmore : c :: (between ++ more) = attributes.flatMap (·.writtenWithLead) ++ trail ++
              ending selfClosing ++ more := by rw [hbetween, List.cons_append]
          rw [hmore]
          simp only [written, qualified, attributeText, List.append_assoc, List.cons_append]
        rw [← List.append_assoc, hbetween, List.cons_append] at hagain
        have hended' : isNameEnded (c :: (between ++ more)) := hended
        rw [htext, parse?, name?_written hname hended, Option.bind_some]
        simp only [if_pos hended', hagain, Option.map_some]
    · cases h
  · cases h

end Tag

end TemplateCompiler
