import TemplateCompiler.Markup.Tag

/-!
# Elements

A tag is paired with the closing tag that brings the depth it started back to zero, where opening
tags of the same name go deeper and closing tags go back up.
-/
namespace TemplateCompiler

/-- A tag with its content and its closing tag, both empty for a self-closing tag. -/
structure Element where
  tag : Tag
  content : Text
  closing : Text
  deriving DecidableEq, Repr

namespace Element

def written (element : Element) : Text :=
  element.tag.written ++ element.content ++ element.closing

/-- The closing tag of a qualified name at the start of a text, and what follows it. White space
may stand before its end. -/
def closingTag? (qualified text : Text) : Option (Text × Text) :=
  (Text.after? ('<' :: '/' :: qualified) text).bind fun rest =>
  match rest.dropWhile Unicode.isWhitespace with
  | '>' :: after =>
    some ('<' :: '/' :: qualified ++ rest.takeWhile Unicode.isWhitespace ++ ['>'], after)
  | _ => none

/-- The content up to the closing tag of a qualified name, that tag, and what follows, within
`depth` elements of the same name. The first `skip` characters belong to a tag that was read
already. -/
def content? (qualified : Text) : (depth skip : Nat) → Text → Option (Text × Text × Text)
  | _, _, [] => none
  | depth, skip + 1, c :: rest =>
    (content? qualified depth skip rest).map fun (content, more) => (c :: content, more)
  | depth, 0, c :: rest =>
    match closingTag? qualified (c :: rest) with
    | some (closing, after) =>
      match depth with
      | 0 => some ([], closing, after)
      | depth + 1 =>
        (content? qualified depth (closing.length - 1) rest).map
          fun (content, more) => (c :: content, more)
    | none =>
      match Tag.parse? (c :: rest) with
      | some (tag, _) =>
        if tag.qualified = qualified then
          (content? qualified (if tag.selfClosing then depth else depth + 1)
            (tag.written.length - 1) rest).map fun (content, more) => (c :: content, more)
        else
          (content? qualified depth 0 rest).map fun (content, more) => (c :: content, more)
      | none => (content? qualified depth 0 rest).map fun (content, more) => (c :: content, more)

/-- The element that a tag begins, given the text after the tag, and what follows the element. -/
def ofTag? (tag : Tag) (after : Text) : Option (Element × Text) :=
  if tag.selfClosing then some (⟨tag, [], []⟩, after)
  else (content? tag.qualified 0 0 after).map fun (content, closing, rest) =>
    (⟨tag, content, closing⟩, rest)

theorem closingTag?_eq {qualified text closing after : Text}
    (h : closingTag? qualified text = some (closing, after)) : text = closing ++ after := by
  obtain ⟨rest, hr, h⟩ := Option.bind_eq_some_iff.1 h
  rw [Text.after?_eq_some_iff.1 hr]
  split at h
  · rename_i a tail
    cases h
    simp only [List.append_assoc, List.cons_append, List.nil_append]
    rw [← tail, List.takeWhile_append_dropWhile]
  · simp at h

theorem content?_eq {qualified text content closing after : Text} {depth skip : Nat}
    (h : content? qualified depth skip text = some (content, closing, after)) :
    text = content ++ closing ++ after := by
  fun_induction content? qualified depth skip text generalizing content with
  | case1 => simp at h
  | case3 => 
    rename_i found
    cases h
    exact closingTag?_eq found
  | case2 | case4 | case5 | case6 | case7 =>
    rename_i ih
    obtain ⟨⟨content, more⟩, hm, e⟩ := Option.map_eq_some_iff.1 h
    cases e
    simp [ih hm]

/-- The pieces of an element tile the text it was read from. -/
theorem ofTag?_eq {tag : Tag} {text rest : Text} {element : Element}
    (h : ofTag? tag text = some (element, rest)) :
    text = element.content ++ element.closing ++ rest ∧ element.tag = tag := by
  unfold ofTag? at h
  split at h
  · cases h
    simp
  · obtain ⟨⟨content, closing, after⟩, hc, e⟩ := Option.map_eq_some_iff.1 h
    cases e
    exact ⟨content?_eq hc, rfl⟩

end Element

end TemplateCompiler
