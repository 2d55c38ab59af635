import TemplateCompiler.Markup.Attribute
import TemplateCompiler.Text.Span

/-!
# Opening tags

Only the tags that may be constructs are told apart; all other markup is text. The pieces of a
tag, put together again, are the text it was read from, and nothing after it is consulted.
-/
namespace TemplateCompiler

structure Tag where
  /-- The alias before the colon of a qualified name. -/
  qualifier : Option Text
  name : Text
  attributes : List Attribute
  /-- The white space before the end of the tag. -/
  trail : Text
  selfClosing : Bool
  deriving DecidableEq, Repr

namespace Tag

/-- The elements that never have a closing tag. -/
def voidElements : List String :=
  ["area", "base", "br", "col", "embed", "hr", "img", "input", "link", "meta", "param", "source",
    "track", "wbr"]

def isVoidName (name : Text) : Bool :=
  voidElements.any fun element => Text.equalIgnoringAsciiCase element.toList name

def qualifiedName (qualifier : Option Text) (name : Text) : Text :=
  match qualifier with
  | some qualifier => qualifier ++ ':' :: name
  | none => name

def qualified (tag : Tag) : Text := qualifiedName tag.qualifier tag.name

/-- The text between the name and the end of the tag. -/
def attributeText (tag : Tag) : Text := tag.attributes.flatMap (·.writtenWithLead) ++ tag.trail

def ending (selfClosing : Bool) : Text := if selfClosing then ['/', '>'] else ['>']

def written (tag : Tag) : Text :=
  '<' :: tag.qualified ++ tag.attributeText ++ ending tag.selfClosing

/-- The qualifiers and names of the attributes that are directives, in order. -/
def directives (tag : Tag) : List (Text × Text) := tag.attributes.filterMap (·.directive?)

def attributeSpans (offset : Nat) (tag : Tag) : List Span :=
  go (offset + 1 + tag.qualified.size) tag.attributes
where
  go (offset : Nat) : List Attribute → List Span
    | [] => []
    | attr :: rest =>
      Span.ofText (offset + attr.lead.size) attr.written ::
        go (offset + attr.writtenWithLead.size) rest

/-- The name at the start of a text with its qualifier, and what follows. A colon belongs to the
name only between name characters. -/
def name? (text : Text) : Option (Option Text × Text × Text) :=
  if (text.takeWhile isNameChar).isEmpty then none
  else match text.dropWhile isNameChar with
    | ':' :: c :: rest =>
      if isNameChar c then
        some (some (text.takeWhile isNameChar), (c :: rest).takeWhile isNameChar,
          (c :: rest).dropWhile isNameChar)
      else some (none, text.takeWhile isNameChar, ':' :: c :: rest)
    | rest => some (none, text.takeWhile isNameChar, rest)

/-- The attributes up to the end of a tag, the white space before that end, whether the tag
closes itself, and what follows it. -/
def attributes? (text : Text) : Option (List Attribute × Text × Bool × Text) :=
  match text.dropWhile Unicode.isWhitespace with
  | '/' :: '>' :: after => some ([], text.takeWhile Unicode.isWhitespace, true, after)
  | '>' :: after => some ([], text.takeWhile Unicode.isWhitespace, false, after)
  | rest =>
    match h : Attribute.parse? (text.takeWhile Unicode.isWhitespace)
        (text.dropWhile Unicode.isWhitespace) with
    | none => none
    | some (attr, after) =>
      have : after.length < text.length := by
        have shorter := congrArg List.length (Attribute.parse?_eq h).1
        have named := List.length_pos_iff.2 (Attribute.parse?_eq h).2.2
        have := (List.dropWhile_suffix Unicode.isWhitespace (l := text)).length_le
        simp only [Attribute.written, List.length_append] at shorter
        omega
      (attributes? after).map fun (attributes, more) => (attr :: attributes, more)
termination_by text.length

def isNameEnded : Text → Bool
  | [] => false
  | c :: _ => Unicode.isWhitespace c || c == '>' || c == '/'

def parse? : Text → Option (Tag × Text)
  | '<' :: text =>
    (name? text).bind fun (qualifier, name, rest) =>
    if isNameEnded rest then
      (attributes? rest).map fun (attributes, trail, selfClosing, after) =>
        (⟨qualifier, name, attributes, trail, selfClosing⟩, after)
    else none
  | _ => none

theorem name?_eq {text name rest : Text} {qualifier : Option Text}
    (h : name? text = some (qualifier, name, rest)) :
    text = qualifiedName qualifier name ++ rest ∧ name ≠ [] := by
  unfold name? at h
  split at h
  · simp at h
  · rename_i nonempty
    have named : text.takeWhile isNameChar ≠ [] := by simpa using nonempty
    split at h
    · rename_i c r tail
      split at h
      · rename_i name_char
        cases h
        refine ⟨?_, by simp [name_char]⟩
        simp only [qualifiedName, List.append_assoc, List.cons_append,
          List.takeWhile_append_dropWhile]
        rw [← tail, List.takeWhile_append_dropWhile]
      · cases h
        refine ⟨?_, named⟩
        rw [qualifiedName, ← tail, List.takeWhile_append_dropWhile]
    · cases h
      exact ⟨by simp [qualifiedName], named⟩

theorem attributes?_eq {text trail after : Text} {attributes : List Attribute} {selfClosing : Bool}
    (h : attributes? text = some (attributes, trail, selfClosing, after)) :
    text = attributes.flatMap (·.writtenWithLead) ++ trail ++ ending selfClosing ++ after := by
  have parts (t : Text) :
      t.takeWhile Unicode.isWhitespace ++ t.dropWhile Unicode.isWhitespace = t :=
    List.takeWhile_append_dropWhile
  fun_induction attributes? text generalizing attributes with
  | case1 text rest tail =>
    cases h
    have := parts text
    rw [tail] at this
    simpa [ending] using this.symm
  | case2 text rest tail =>
    cases h
    have := parts text
    rw [tail] at this
    simpa [ending] using this.symm
  | case3 => simp at h
  | case4 text attr rest found _ _ _ ih =>
    obtain ⟨⟨attributes, more⟩, hm, e⟩ := Option.map_eq_some_iff.1 h
    cases e
    have split := Attribute.parse?_eq found
    have := parts text
    rw [split.1, ih hm] at this
    simpa [Attribute.writtenWithLead, split.2.1] using this.symm

/-- The pieces of a tag tile the text it was read from. -/
theorem parse?_eq {text after : Text} {tag : Tag} (h : parse? text = some (tag, after)) :
    text = tag.written ++ after := by
  unfold parse? at h
  split at h
  · rename_i text
    obtain ⟨⟨qualifier, name, rest⟩, hn, h⟩ := Option.bind_eq_some_iff.1 h
    simp only at h
    split at h
    · obtain ⟨⟨attributes, trail, selfClosing, a⟩, ha, e⟩ := Option.map_eq_some_iff.1 h
      cases e
      rw [(name?_eq hn).1, attributes?_eq ha]
      simp [written, qualified, attributeText]
    · simp at h
  · simp at h

end Tag

end TemplateCompiler
