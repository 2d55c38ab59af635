import TemplateCompiler.Markup.Element
import TemplateCompiler.Proofs.Scanning

/-!
# Tags and the text after them

A tag is read from its own characters, so text put behind what follows it changes nothing about the
tag. This holds of an attribute and of its value as soon as something follows that shows where they
end.
-/
namespace TemplateCompiler

namespace AttributeValue

variable {text after more : Text}

theorem endsTag_append {c d : Char} {rest : Text} :
    Text.startsWith (c :: d :: rest ++ more) ['/', '>'] =
      Text.startsWith (c :: d :: rest) ['/', '>'] := by
  simp only [Text.startsWith, Text.after?, List.cons_append]
  split
  · split <;> rfl
  · rfl

theorem unquotedText_append (h : (unquotedText text).2 ≠ []) :
    unquotedText (text ++ more) = ((unquotedText text).1, (unquotedText text).2 ++ more) := by
  induction text with
  | nil => exact absurd rfl h
  | cons c rest ih =>
    cases rest with
    | nil =>
      have hstop : Unicode.isWhitespace c || c == '>' := by
        by_cases hstop : Unicode.isWhitespace c || c == '>'
        · exact hstop
        · simp [unquotedText, hstop, Text.startsWith, Text.after?] at h
      simp [unquotedText, hstop]
    | cons d rest =>
      have hends := @endsTag_append more c d rest
      rw [List.cons_append] at hends
      rw [List.cons_append, unquotedText, unquotedText, hends]
      rw [unquotedText] at h
      split
      · rfl
      · rename_i hgoes
        rw [if_neg hgoes] at h
        rw [ih h]

theorem parse?_append {value : AttributeValue} (h : parse? text = some (value, after))
    (hafter : after ≠ []) : parse? (text ++ more) = some (value, after ++ more) := by
  unfold parse? at h
  split at h
  · cases h
  · rename_i c rest
    rw [List.cons_append, parse?]
    split at h
    · rename_i hquote
      rw [if_pos hquote]
      split at h
      · cases h
      · rename_i mark rest' hdrop
        cases h
        have hne : rest.dropWhile (· != c) ≠ [] := by simp [hdrop]
        rw [Text.dropWhile_append_of_ne_nil hne, Text.takeWhile_append_of_ne_nil hne, hdrop]
        rfl
    · rename_i hquote
      rw [if_neg hquote]
      simp only at h ⊢
      split at h
      · cases h
      · rename_i hempty
        cases h
        rw [← List.cons_append, unquotedText_append hafter]
        simp only [hempty]
        rfl

end AttributeValue

namespace Attribute

variable {lead text after more : Text}

theorem equals?_append {equals : Text} (h : equals? text = some (equals, after))
    (hafter : after ≠ []) : equals? (text ++ more) = some (equals, after ++ more) := by
  unfold equals? at h ⊢
  split at h
  · rename_i rest hdrop
    cases h
    have hne : text.dropWhile Unicode.isWhitespace ≠ [] := by simp [hdrop]
    rw [Text.dropWhile_append_of_ne_nil hne, Text.takeWhile_append_of_ne_nil hne, hdrop]
    simp [Text.dropWhile_append_of_ne_nil hafter, Text.takeWhile_append_of_ne_nil hafter]
  · cases h

theorem equals?_append_of_eq_none (h : equals? text = none)
    (hblank : text.dropWhile Unicode.isWhitespace ≠ []) : equals? (text ++ more) = none := by
  unfold equals? at h ⊢
  rw [Text.dropWhile_append_of_ne_nil hblank]
  cases hdrop : text.dropWhile Unicode.isWhitespace with
  | nil => exact absurd hdrop hblank
  | cons c rest =>
    rw [hdrop] at h
    split at h
    · cases h
    · rename_i hequals
      split
      · rename_i rest' hrest
        rw [List.cons_append, List.cons.injEq] at hrest
        exact absurd (by rw [hrest.1]) (hequals rest)
      · rfl

/-- White space after an equals sign may go on in what follows. -/
theorem equals?_append_of_nil {equals : Text} (h : equals? text = some (equals, [])) :
    ∃ equals', equals? (text ++ more) = some (equals', more.dropWhile Unicode.isWhitespace) := by
  unfold equals? at h ⊢
  split at h
  · rename_i rest hdrop
    rw [Option.some.injEq, Prod.mk.injEq] at h
    have hne : text.dropWhile Unicode.isWhitespace ≠ [] := by simp [hdrop]
    rw [Text.dropWhile_append_of_ne_nil hne, hdrop]
    simp only [List.cons_append, Text.dropWhile_append_of_eq_nil h.2]
    exact ⟨_, rfl⟩
  · cases h

theorem parse?_eq_none {c : Char} {rest : Text} (h : isNameEnd c) :
    parse? lead (c :: rest) = none := by
  simp [parse?, h]

theorem parse?_append {attr : Attribute} (h : parse? lead text = some (attr, after))
    (hafter : after.dropWhile Unicode.isWhitespace ≠ []) :
    parse? lead (text ++ more) = some (attr, after ++ more) := by
  simp only [parse?] at h ⊢
  split at h
  · cases h
  · rename_i hname
    have hrest : text.dropWhile (fun c => !isNameEnd c) ≠ [] := by
      intro hnil
      rw [hnil] at h
      have hflag : equals? [] = none := rfl
      rw [hflag] at h
      cases h
      exact hafter rfl
    rw [Text.takeWhile_append_of_ne_nil hrest, Text.dropWhile_append_of_ne_nil hrest, if_neg hname]
    split at h
    · rename_i hequals
      cases h
      rw [equals?_append_of_eq_none hequals hafter]
    · rename_i equals rest hequals
      obtain ⟨⟨value, after'⟩, hvalue, hfound⟩ := Option.map_eq_some_iff.mp h
      cases hfound
      have hvalueRest : rest ≠ [] := by
        rintro rfl
        cases hvalue
      have hne : after' ≠ [] := by
        rintro rfl
        exact hafter rfl
      rw [equals?_append hequals hvalueRest]
      simp only [AttributeValue.parse?_append hvalue hne, Option.map_some]

end Attribute

namespace Tag

variable {text after more : Text}

theorem attributes?_of_slash (h : text.dropWhile Unicode.isWhitespace = '/' :: '>' :: after) :
    attributes? text = some ([], text.takeWhile Unicode.isWhitespace, true, after) := by
  rw [attributes?]
  split <;> simp_all

theorem attributes?_of_end (h : text.dropWhile Unicode.isWhitespace = '>' :: after) :
    attributes? text = some ([], text.takeWhile Unicode.isWhitespace, false, after) := by
  rw [attributes?]
  split <;> simp_all

theorem attributes?_step
    (hslash : ∀ after, text.dropWhile Unicode.isWhitespace ≠ '/' :: '>' :: after)
    (hend : ∀ after, text.dropWhile Unicode.isWhitespace ≠ '>' :: after) :
    attributes? text = (Attribute.parse? (text.takeWhile Unicode.isWhitespace)
      (text.dropWhile Unicode.isWhitespace)).bind fun found =>
        (attributes? found.2).map fun more => (found.1 :: more.1, more.2) := by
  rw [attributes?]
  split
  · rename_i after h
    exact absurd h (hslash after)
  · rename_i after h
    exact absurd h (hend after)
  · split
    · rename_i h
      rw [h, Option.bind_none]
    · rename_i h
      conv => rhs; rw [h, Option.bind_some]

theorem attributes?_blank (h : text.dropWhile Unicode.isWhitespace = []) :
    attributes? text = none := by
  rw [attributes?_step (by simp [h]) (by simp [h]), h]
  rfl

theorem attributes?_of_parse? {attr : Attribute} (h : Attribute.parse?
    (text.takeWhile Unicode.isWhitespace) (text.dropWhile Unicode.isWhitespace) =
      some (attr, after)) :
    attributes? text = (attributes? after).map fun more => (attr :: more.1, more.2) := by
  have hend (c : Char) (rest : Text) (hc : Attribute.isNameEnd c) :
      text.dropWhile Unicode.isWhitespace ≠ c :: rest := by
    intro hrest
    rw [hrest, Attribute.parse?_eq_none hc] at h
    cases h
  rw [attributes?_step (fun after => hend '/' _ (by decide)) (fun after => hend '>' _ (by decide)),
    h, Option.bind_some]

theorem attributes?_append {attributes : List Attribute} {trail : Text} {selfClosing : Bool}
    (h : attributes? text = some (attributes, trail, selfClosing, after)) :
    attributes? (text ++ more) = some (attributes, trail, selfClosing, after ++ more) := by
  fun_induction attributes? text generalizing attributes with
  | case1 text rest hdrop =>
    cases h
    have hne : text.dropWhile Unicode.isWhitespace ≠ [] := by simp [hdrop]
    rw [@attributes?_of_slash _ (after ++ more), Text.takeWhile_append_of_ne_nil hne]
    rw [Text.dropWhile_append_of_ne_nil hne, hdrop]
    rfl
  | case2 text rest hdrop =>
    cases h
    have hne : text.dropWhile Unicode.isWhitespace ≠ [] := by simp [hdrop]
    rw [@attributes?_of_end _ (after ++ more), Text.takeWhile_append_of_ne_nil hne]
    rw [Text.dropWhile_append_of_ne_nil hne, hdrop]
    rfl
  | case3 => cases h
  | case4 text attr rest hparse hlength hslash hend ih =>
    obtain ⟨⟨later, trail', selfClosing', after'⟩, hfound, hmore⟩ := Option.map_eq_some_iff.mp h
    cases hmore
    -- What follows the attribute ends the tag, so it shows that the attribute is complete.
    have hrest : rest.dropWhile Unicode.isWhitespace ≠ [] := by
      intro hblank
      rw [attributes?_blank hblank] at hfound
      cases hfound
    have hne : text.dropWhile Unicode.isWhitespace ≠ [] := by
      intro hblank
      rw [hblank] at hparse
      cases hparse
    have hmoreParse := @Attribute.parse?_append _ _ _ more _ hparse hrest
    rw [← Text.takeWhile_append_of_ne_nil hne, ← Text.dropWhile_append_of_ne_nil hne] at hmoreParse
    rw [attributes?_of_parse? hmoreParse, ih hfound]
    rfl

theorem name?_append {qualifier : Option Text} {name : Text}
    (h : name? text = some (qualifier, name, after)) (hended : isNameEnded after) :
    name? (text ++ more) = some (qualifier, name, after ++ more) := by
  have hafter : after ≠ [] := by
    rintro rfl
    cases hended
  unfold name? at h ⊢
  split at h
  · cases h
  · rename_i hname
    have hrest : text.dropWhile isNameChar ≠ [] := by
      intro hnil
      rw [hnil] at h
      cases h
      exact hafter rfl
    rw [Text.takeWhile_append_of_ne_nil hrest, Text.dropWhile_append_of_ne_nil hrest, if_neg hname]
    split at h
    · rename_i c rest hdrop
      rw [hdrop]
      simp only [List.cons_append]
      split at h
      · rename_i hc
        cases h
        rw [if_pos hc, ← List.cons_append, Text.takeWhile_append_of_ne_nil hafter,
          Text.dropWhile_append_of_ne_nil hafter]
      · rename_i hc
        cases h
        rw [if_neg hc]
        rfl
    · cases h
      cases hdrop : text.dropWhile isNameChar with
      | nil => exact absurd hdrop hrest
      | cons d rest =>
        rw [hdrop] at hended
        split
        · rename_i c rest' hcolon
          rw [List.cons_append, List.cons.injEq] at hcolon
          rw [hcolon.1] at hended
          cases hended
        · rfl

/-- Text put behind what follows a tag changes nothing about the tag. -/
theorem parse?_append {tag : Tag} (h : parse? text = some (tag, after)) :
    parse? (text ++ more) = some (tag, after ++ more) := by
  unfold parse? at h
  split at h
  · rename_i text
    obtain ⟨⟨qualifier, name, rest⟩, hname, h⟩ := Option.bind_eq_some_iff.mp h
    simp only at h
    split at h
    · rename_i hended
      obtain ⟨⟨attributes, trail, selfClosing, after'⟩, hattributes, hfound⟩ :=
        Option.map_eq_some_iff.mp h
      cases hfound
      have hended' : isNameEnded (rest ++ more) := by
        cases rest with
        | nil => cases hended
        | cons c rest => exact hended
      rw [List.cons_append, parse?, name?_append hname hended, Option.bind_some]
      simp only [if_pos hended', attributes?_append hattributes, Option.map_some]
    · cases h
  · cases h

theorem parse?_eq_none {c : Char} {rest : Text} (h : c ≠ '<') : parse? (c :: rest) = none := by
  unfold parse?
  split
  · rename_i heq
    exact absurd (List.cons.inj heq).1 h
  · rfl

theorem isNameChar_of_name? {text name after : Text} {qualifier : Option Text}
    (h : name? text = some (qualifier, name, after)) :
    ∀ c ∈ qualifiedName qualifier name, isNameChar c ∨ c = ':' := by
  have hname (text : Text) (c : Char) (hc : c ∈ text.takeWhile isNameChar) : isNameChar c :=
    List.all_eq_true.mp List.all_takeWhile c hc
  unfold name? at h
  split at h
  · cases h
  · split at h
    · split at h
      · cases h
        intro c hc
        rw [qualifiedName, List.mem_append, List.mem_cons] at hc
        rcases hc with hc | rfl | hc
        · exact Or.inl (hname _ c hc)
        · exact Or.inr rfl
        · exact Or.inl (hname _ c hc)
      · cases h
        exact fun c hc => Or.inl (hname _ c hc)
    · cases h
      exact fun c hc => Or.inl (hname _ c hc)

theorem isNameChar_of_parse? {text after : Text} {tag : Tag} (h : parse? text = some (tag, after)) :
    ∀ c ∈ tag.qualified, isNameChar c ∨ c = ':' := by
  unfold parse? at h
  split at h
  · obtain ⟨found, hname, h⟩ := Option.bind_eq_some_iff.mp h
    simp only at h
    split at h
    · obtain ⟨more, -, hfound⟩ := Option.map_eq_some_iff.mp h
      cases hfound
      exact isNameChar_of_name? hname
    · cases h
  · cases h

theorem exists_attributes? {tag : Tag} (h : parse? text = some (tag, after)) :
    ∃ rest, attributes? rest = some (tag.attributes, tag.trail, tag.selfClosing, after) := by
  unfold parse? at h
  split at h
  · obtain ⟨⟨qualifier, name, rest⟩, -, h⟩ := Option.bind_eq_some_iff.mp h
    simp only at h
    split at h
    · obtain ⟨found, hattributes, hfound⟩ := Option.map_eq_some_iff.mp h
      cases hfound
      exact ⟨rest, hattributes⟩
    · cases h
  · cases h

end Tag

theorem Tag.length_of_parse? {text : Text} {found : Tag × Text} (h : parse? text = some found) :
    found.2.length < text.length := by
  rw [parse?_eq h, written]
  simp only [List.cons_append, List.length_cons, List.length_append]
  omega

theorem Tag.written_ne_nil (tag : Tag) : tag.written ≠ [] := List.cons_ne_nil _ _

theorem Element.length_of_ofTag? {tag : Tag} {after : Text} {found : Element × Text}
    (h : ofTag? tag after = some found) :
    found.1.content.length ≤ after.length ∧ found.2.length ≤ after.length := by
  rw [(ofTag?_eq h).1]
  simp only [List.length_append]
  omega

theorem Element.pieces_of_parse? {text after rest : Text} {tag : Tag} {element : Element}
    (htag : Tag.parse? text = some (tag, after))
    (helement : ofTag? tag after = some (element, rest)) :
    element.content <:+: text ∧ rest <:+ text := by
  have htext : text = tag.written ++ element.content ++ (element.closing ++ rest) := by
    rw [Tag.parse?_eq htag, (ofTag?_eq helement).1]
    simp only [List.append_assoc]
  constructor
  · exact ⟨_, _, htext.symm⟩
  · rw [htext, ← List.append_assoc]
    exact List.suffix_append _ _

theorem Element.content?_eq_none {qualified text : Text} (h : '<' ∉ text) (depth skip : Nat) :
    content? qualified depth skip text = none := by
  induction text generalizing depth skip with
  | nil => simp [content?]
  | cons c rest ih =>
    rw [List.mem_cons, not_or] at h
    cases skip with
    | succ skip => rw [content?, ih h.2, Option.map_none]
    | zero =>
      have hclosing : closingTag? qualified (c :: rest) = none := by
        simp [closingTag?, Text.after?, h.1]
      rw [content?, hclosing, Tag.parse?_eq_none (Ne.symm h.1)]
      simp only [ih h.2, Option.map_none]

end TemplateCompiler
