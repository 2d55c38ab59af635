import TemplateCompiler.Proofs.PromotedText
import TemplateCompiler.Proofs.TagEnding

/-!
# Promoted tags are components

The tags that promotion writes are read again as tags of components, with the name of the plain tag
and its attributes. If the text names no such component itself, the closing tags that promotion
writes are the ones that these tags are paired with.
-/
namespace TemplateCompiler

theorem Tag.isNameChar_of_mem_name {text after : Text} {tag : Tag}
    (h : parse? text = some (tag, after)) {c : Char} (hc : c ∈ tag.name) :
    isNameChar c ∨ c = ':' := by
  apply isNameChar_of_parse? h
  unfold qualified qualifiedName
  split
  · exact List.mem_append_right _ (List.mem_cons_of_mem _ hc)
  · exact hc

namespace Promotion

/-- The attribute that gives a component the name of the plain tag. -/
def nameAttribute (name : Text) : Attribute := ⟨[' '], "tag".toList, ['='], .quoted '"' name⟩

/-- The component's tag for a plain tag. -/
def component (tag : Tag) (closes : Bool) : Tag :=
  ⟨some Binding.runtime.name, "html".toList, nameAttribute tag.name :: tag.attributes,
    tag.trail ++ (if closes then [' '] else []), closes⟩

/-- How the component's tags begin. -/
def start : Text := '<' :: htmlName

/-- The component's closing tag. -/
def closing : Text := "</".toList ++ htmlName ++ ['>']

theorem qualified_component (tag : Tag) (closes : Bool) :
    (component tag closes).qualified = htmlName := by
  rfl

theorem written_component (tag : Tag) (closes : Bool) :
    (component tag closes).written =
      opening tag ++ ((if closes then [' '] else []) ++ Tag.ending closes) := by
  have hname : (nameAttribute tag.name).writtenWithLead =
      " tag=\"".toList ++ tag.name ++ ['"'] := by
    rfl
  rw [opening, Tag.written, qualified_component]
  simp only [component, Tag.attributeText, List.flatMap_cons, hname, List.append_assoc,
    List.cons_append, List.nil_append]

theorem empty_eq (tag : Tag) : empty tag = (component tag true).written := by
  rw [written_component]
  rfl

theorem full_eq (tag : Tag) (content : Text) :
    full tag content = (component tag false).written ++ content ++ closing := by
  rw [written_component, full, closing]
  simp only [Tag.ending, Bool.false_eq_true, if_false, List.append_assoc, List.cons_append,
    List.nil_append]

theorem parse?_nameAttribute {name : Text} (hname : '"' ∉ name) (rest : Text) :
    Attribute.parse? [' '] ((nameAttribute name).written ++ rest) =
      some (nameAttribute name, rest) := by
  have hall : name.all (· != '"') := by
    rw [List.all_eq_true]
    intro c hc
    rw [bne_iff_ne]
    rintro rfl
    exact hname hc
  obtain ⟨htake, hdrop⟩ := @Text.takeWhile_word _ _ rest '"' hall (by decide)
  have hvalue : AttributeValue.parse? ('"' :: (name ++ '"' :: rest)) =
      some (.quoted '"' name, rest) := by
    rw [AttributeValue.parse?, if_pos (Or.inl rfl), hdrop, htake]
  have htext : (nameAttribute name).written ++ rest =
      't' :: 'a' :: 'g' :: '=' :: '"' :: (name ++ '"' :: rest) := by
    simp [nameAttribute, Attribute.written, AttributeValue.written]
  have hequals : Attribute.equals? ('=' :: '"' :: (name ++ '"' :: rest)) =
      some (['='], '"' :: (name ++ '"' :: rest)) := rfl
  rw [htext]
  change ((AttributeValue.parse? ('"' :: (name ++ '"' :: rest))).map _) = _
  rw [hvalue]
  rfl

theorem name?_component (rest : Text) :
    Tag.name? (htmlName ++ ' ' :: rest) =
      some (some Binding.runtime.name, "html".toList, ' ' :: rest) := by
  rfl

variable {tag : Tag} {text after : Text} {closes : Bool}

theorem parse?_component (h : Tag.parse? text = some (tag, after))
    (hends : closes = true ∨ tag.selfClosing = false) (more : Text) :
    Tag.parse? ((component tag closes).written ++ more) = some (component tag closes, more) := by
  have hname : '"' ∉ tag.name := by
    intro hmem
    have hchar := Tag.isNameChar_of_mem_name h hmem
    revert hchar
    decide
  obtain ⟨rest, hrest⟩ := Tag.exists_attributes? h
  have hspace : (if closes then [' '] else [] : Text).all Unicode.isWhitespace := by
    cases closes <;> decide
  have hblank := List.all_eq_true.mp hspace
  have hother : (if closes then [' '] else [] : Text) ≠ [] ∨ closes = tag.selfClosing := by
    cases closes with
    | true => exact Or.inl (List.cons_ne_nil _ _)
    | false => exact Or.inr (hends.resolve_left Bool.false_ne_true).symm
  have hwritten := Tag.attributes?_written hrest hblank hother more
  have htext : (component tag closes).written ++ more =
      '<' :: (htmlName ++ ' ' :: ((nameAttribute tag.name).written ++
        (tag.attributes.flatMap (·.writtenWithLead) ++ tag.trail ++
          ((if closes then [' '] else []) ++ (Tag.ending closes ++ more))))) := by
    have hlead : (nameAttribute tag.name).writtenWithLead =
        ' ' :: (nameAttribute tag.name).written := by
      rfl
    rw [Tag.written, qualified_component]
    simp only [component, Tag.attributeText, List.flatMap_cons, hlead, List.append_assoc,
      List.cons_append]
  rw [htext]
  generalize tag.attributes.flatMap (·.writtenWithLead) ++ tag.trail ++
    ((if closes then [' '] else []) ++ (Tag.ending closes ++ more)) = rest' at hwritten ⊢
  have hattr := parse?_nameAttribute hname rest'
  have hattributes : Tag.attributes? (' ' :: ((nameAttribute tag.name).written ++ rest')) =
      some ((component tag closes).attributes, (component tag closes).trail, closes, more) := by
    rw [@Tag.attributes?_of_parse? (' ' :: ((nameAttribute tag.name).written ++ rest')) rest' _
      hattr, hwritten]
    rfl
  rw [Tag.parse?, name?_component, Option.bind_some]
  simp only [hattributes]
  rfl

end Promotion

namespace Element

variable {qualified text rest closing : Text}

/-- What a tag has taken is content. -/
theorem content?_skip (qualified : Text) (depth : Nat) (piece rest : Text) :
    content? qualified depth piece.length (piece ++ rest) =
      (content? qualified depth 0 rest).map fun found => (piece ++ found.1, found.2) := by
  induction piece with
  | nil => exact Option.map_id'.symm
  | cons c piece ih =>
    rw [List.length_cons, List.cons_append, content?, ih, Option.map_map]
    rfl

theorem content?_skip_tail {piece : Text} (hpiece : piece ≠ []) (depth : Nat) (rest : Text) :
    ∃ c more, piece ++ rest = c :: more ∧
      (content? qualified depth (piece.length - 1) more).map
          (fun found => (c :: found.1, found.2)) =
        (content? qualified depth 0 rest).map fun found => (piece ++ found.1, found.2) := by
  cases piece with
  | nil => exact absurd rfl hpiece
  | cons c piece =>
    refine ⟨c, piece ++ rest, rfl, ?_⟩
    rw [List.length_cons, Nat.add_sub_cancel, content?_skip, Option.map_map]
    rfl

/-- A character that begins no tag of the name is content. -/
theorem content?_cons {c : Char} (hclosing : closingTag? qualified (c :: rest) = none)
    (htag : ∀ found, Tag.parse? (c :: rest) = some found → found.1.qualified ≠ qualified)
    (depth : Nat) :
    content? qualified depth 0 (c :: rest) =
      (content? qualified depth 0 rest).map fun found => (c :: found.1, found.2) := by
  rw [content?, hclosing]
  cases hparse : Tag.parse? (c :: rest) with
  | none => rfl
  | some found =>
    simp only [if_neg (htag found hparse)]

/-- An opening tag of the name goes deeper, unless it closes itself. -/
theorem content?_tag {tag : Tag} (h : Tag.parse? (tag.written ++ rest) = some (tag, rest))
    (hclosing : closingTag? tag.qualified (tag.written ++ rest) = none) (depth : Nat) :
    content? tag.qualified depth 0 (tag.written ++ rest) =
      (content? tag.qualified (if tag.selfClosing then depth else depth + 1) 0 rest).map
        fun found => (tag.written ++ found.1, found.2) := by
  obtain ⟨c, more, htext, hskip⟩ := @content?_skip_tail tag.qualified _ tag.written_ne_nil
    (if tag.selfClosing then depth else depth + 1) rest
  rw [htext] at h hclosing ⊢
  rw [content?, hclosing]
  simp only [h, if_true, hskip]

/-- A closing tag of the name goes back up. -/
theorem content?_closing (h : closingTag? qualified (closing ++ rest) = some (closing, rest))
    (hne : closing ≠ []) (depth : Nat) :
    content? qualified (depth + 1) 0 (closing ++ rest) =
      (content? qualified depth 0 rest).map fun found => (closing ++ found.1, found.2) := by
  obtain ⟨c, more, htext, hskip⟩ := @content?_skip_tail qualified _ hne depth rest
  rw [htext] at h ⊢
  rw [content?, h]
  exact hskip

/-- On the level of its own tag, it ends the content. -/
theorem content?_zero (h : closingTag? qualified (closing ++ rest) = some (closing, rest))
    (hne : closing ≠ []) :
    content? qualified 0 0 (closing ++ rest) = some ([], closing, rest) := by
  cases closing with
  | nil => exact absurd rfl hne
  | cons c closing =>
    rw [List.cons_append] at h ⊢
    rw [content?, h]

end Element

namespace Promotion

variable {tag : Tag} {text after : Text} {closes : Bool}

/-- The tag of a component goes deeper, unless it closes itself. -/
theorem content?_component (h : Tag.parse? text = some (tag, after))
    (hends : closes = true ∨ tag.selfClosing = false) (depth : Nat) (more : Text) :
    Element.content? htmlName depth 0 ((component tag closes).written ++ more) =
      (Element.content? htmlName (if closes then depth else depth + 1) 0 more).map
        fun found => ((component tag closes).written ++ found.1, found.2) :=
  Element.content?_tag (parse?_component h hends more) rfl depth

theorem closingTag?_closing (more : Text) :
    Element.closingTag? htmlName (closing ++ more) = some (closing, more) := by
  rfl

end Promotion

namespace Promoted

variable {context : Context} {text rest : Text}

theorem after?_bracket {lead rest : Text} (hlead : '<' ∉ lead) (hne : lead ≠ [])
    (hrest : rest.head?.all (· == '<')) : Text.after? lead rest = none := by
  cases lead with
  | nil => exact absurd rfl hne
  | cons a lead =>
    cases rest with
    | nil => rfl
    | cons c rest =>
      have hc : c = '<' := by simpa using hrest
      rw [Text.after?, hc, if_neg (Ne.symm (List.ne_of_not_mem_cons hlead))]

/-- Promoted text begins with what the text begins with, up to the first tag that is written. -/
theorem after?_render {lead : Text} (hlead : '<' ∉ lead) (h : Text.after? lead text = none)
    (hrest : rest.head?.all (· == '<')) :
    Text.after? lead ((ofText context text).render ++ rest) = none := by
  have hne {lead text : Text} (h : Text.after? lead text = none) : lead ≠ [] := by
    rintro rfl
    cases h
  induction text using ofText_induction context generalizing lead with
  | done hpieces =>
    rw [hpieces]
    exact after?_bracket hlead (hne h) hrest
  | kept c tail hpieces ih =>
    rw [hpieces, render, List.cons_append]
    cases lead with
    | nil => cases h
    | cons a lead =>
      rw [Text.after?] at h ⊢
      split at h
      · rename_i hc
        rw [if_pos hc]
        exact ih (List.not_mem_of_not_mem_cons hlead) h
      · rename_i hc
        rw [if_neg hc]
  | empty text tag after htag hpromotable hempty hpieces ih =>
    rw [hpieces]
    exact after?_bracket hlead (hne h) rfl
  | full text tag after element tail htag hpromotable hopen helement hpieces ih ih' =>
    rw [hpieces]
    exact after?_bracket hlead (hne h) rfl

/-- Behind a character that stays, promoted text begins with the name of a component for plain
markup, or with a slash and that name, only if the text does. -/
theorem after?_htmlName {c : Char} {tail lead : Text}
    (h : Text.contains (c :: tail) Promotion.htmlName = false)
    (hlead : lead = Promotion.htmlName ∨ lead = '/' :: Promotion.htmlName)
    (hrest : rest.head?.all (· == '<')) :
    Text.after? lead ((ofText context tail).render ++ rest) = none := by
  have hbracket : '<' ∉ lead := by
    rcases hlead with rfl | rfl <;> decide
  apply after?_render hbracket ?_ hrest
  cases hafter : Text.after? lead tail with
  | none => rfl
  | some later =>
    have hwithin : Promotion.htmlName <:+: c :: tail := by
      rw [Text.after?_eq_some_iff.mp hafter]
      rcases hlead with rfl | rfl
      · exact ⟨[c], later, rfl⟩
      · exact ⟨[c, '/'], later, rfl⟩
    exact absurd hwithin (Text.not_contains_iff.mp h)

/-- The tags in promoted text are paired with each other. -/
theorem content?_render (h : text.contains Promotion.htmlName = false) (depth : Nat)
    (hrest : rest.head?.all (· == '<')) :
    Element.content? Promotion.htmlName depth 0 ((ofText context text).render ++ rest) =
      (Element.content? Promotion.htmlName depth 0 rest).map
        fun found => ((ofText context text).render ++ found.1, found.2) := by
  induction text using ofText_induction context generalizing depth rest with
  | done hpieces =>
    rw [hpieces]
    exact Option.map_id'.symm
  | kept c tail hpieces ih =>
    have hclosing : Element.closingTag? Promotion.htmlName
        (c :: ((ofText context tail).render ++ rest)) = none := by
      rw [Element.closingTag?, Text.after?]
      split
      · rw [after?_htmlName h (Or.inr rfl) hrest, Option.bind_none]
      · rfl
    have htag : ∀ found, Tag.parse? (c :: ((ofText context tail).render ++ rest)) = some found →
        found.1.qualified ≠ Promotion.htmlName := by
      intro found hfound hqualified
      have htext := Tag.parse?_eq hfound
      rw [Tag.written, hqualified] at htext
      simp only [List.cons_append, List.append_assoc] at htext
      have hnone := @after?_htmlName context rest c tail _ h (Or.inl rfl) hrest
      rw [(List.cons.inj htext).2, Text.after?_append] at hnone
      cases hnone
    rw [hpieces, render, List.cons_append, Element.content?_cons hclosing htag]
    rw [ih (Text.contains_of_suffix h (List.suffix_cons c tail)) depth hrest, Option.map_map]
    rfl
  | empty text tag after htag hpromotable hempty hpieces ih =>
    have hafter : after <:+ text := ⟨tag.written, (Tag.parse?_eq htag).symm⟩
    rw [hpieces, render, Promotion.empty_eq, List.append_assoc]
    rw [Promotion.content?_component htag (Or.inl rfl), if_pos rfl]
    rw [ih (Text.contains_of_suffix h hafter) depth hrest, Option.map_map]
    simp only [Function.comp_def, List.append_assoc]
  | full text tag after element tail htag hpromotable hopen helement hpieces ih ih' =>
    have hselfClosing : tag.selfClosing = false := (Bool.or_eq_false_iff.mp hopen).1
    obtain ⟨hcontent, htail⟩ := Element.pieces_of_parse? htag helement
    rw [hpieces, render, Promotion.full_eq]
    simp only [List.append_assoc]
    rw [Promotion.content?_component htag (Or.inr hselfClosing), if_neg Bool.false_ne_true]
    rw [ih (Text.contains_of_infix h hcontent) (depth + 1) rfl]
    rw [Element.content?_closing (Promotion.closingTag?_closing _) (List.cons_ne_nil _ _)]
    rw [ih' (Text.contains_of_suffix h htail) depth hrest]
    simp only [Option.map_map, Function.comp_def]

/-- The tag of a component is paired with the closing tag behind its promoted content. -/
theorem ofTag?_component (h : text.contains Promotion.htmlName = false) (tag : Tag)
    (rest : Text) :
    Element.ofTag? (Promotion.component tag false)
        ((ofText context text).render ++ (Promotion.closing ++ rest)) =
      some (⟨Promotion.component tag false, (ofText context text).render, Promotion.closing⟩,
        rest) := by
  have hmatch := @content?_render context text (Promotion.closing ++ rest) h 0 rfl
  rw [Element.content?_zero (Promotion.closingTag?_closing rest) (List.cons_ne_nil _ _)] at hmatch
  have hopen : ¬(Promotion.component tag false).selfClosing := Bool.false_ne_true
  rw [Element.ofTag?, if_neg hopen, Promotion.qualified_component, hmatch]
  simp only [Option.map_some, List.append_nil]

end Promoted

end TemplateCompiler
