import TemplateCompiler.Name

/-!
# Attributes

Attributes as written in a tag. The pieces of an attribute, put together again, are the text it
was read from.
-/
namespace TemplateCompiler

inductive AttributeValue
  /-- Text between quotes. -/
  | quoted (mark : Char) (text : Text)
  /-- A number, a constant or a variable. -/
  | bare (text : Text)
  /-- Any other text without quotes. -/
  | unquoted (text : Text)
  /-- No value at all. -/
  | flag
  deriving DecidableEq, Repr

structure Attribute where
  /-- The white space before the name. -/
  lead : Text
  name : Text
  /-- The equals sign and the white space around it; nothing for a flag. -/
  equals : Text
  value : AttributeValue
  deriving DecidableEq, Repr

/-- The names that XML reserves, which never name a directive. -/
def isXmlName (name : Text) : Bool :=
  ["xml", "xlink", "xmlns"].any fun xml => Text.equalIgnoringAsciiCase xml.toList name

namespace AttributeValue

def written : AttributeValue → Text
  | quoted mark text => mark :: text ++ [mark]
  | bare text => text
  | unquoted text => text
  | flag => []

def digits (text : Text) : Text × Text := (text.takeWhile Char.isDigit, text.dropWhile Char.isDigit)

def isExponent : Text → Bool
  | [] => true
  | c :: rest =>
    (c == 'e' || c == 'E') &&
      (let number := match rest with
        | '+' :: number => number
        | '-' :: number => number
        | number => number
      !number.isEmpty && number.all Char.isDigit)

/-- Whether a text is a decimal number without a sign: digits with at most one point, and an
exponent. -/
def isUnsignedNumber (text : Text) : Bool :=
  let (whole, rest) := digits text
  match rest with
  | '.' :: rest =>
    let (fraction, rest) := digits rest
    !(whole.isEmpty && fraction.isEmpty) && isExponent rest
  | rest => !whole.isEmpty && isExponent rest

/-- Whether a text is a decimal number, an infinity or not a number, with or without a sign. -/
def isNumber (text : Text) : Bool :=
  let unsigned := match text with
    | '+' :: rest => rest
    | '-' :: rest => rest
    | rest => rest
  isUnsignedNumber unsigned ||
    ["inf", "infinity", "nan"].any fun name => Text.equalIgnoringAsciiCase name.toList unsigned

/-- Whether a text is one token: a word, a variable or a number. -/
def isToken (text : Text) : Bool :=
  let word := match text with
    | '$' :: word => word
    | word => word
  (!word.isEmpty && word.all isWordChar) || isNumber text

def ofUnquoted (text : Text) : AttributeValue := if isToken text then bare text else unquoted text

@[simp] theorem written_ofUnquoted (text : Text) : (ofUnquoted text).written = text := by
  unfold ofUnquoted
  split <;> rfl

def unquotedText : Text → Text × Text
  | [] => ([], [])
  | c :: rest =>
    if Unicode.isWhitespace c || c == '>' || Text.startsWith (c :: rest) ['/', '>'] then
      ([], c :: rest)
    else
      let (text, after) := unquotedText rest
      (c :: text, after)

def parse? : Text → Option (AttributeValue × Text)
  | [] => none
  | c :: rest =>
    if c = '"' ∨ c = '\'' then
      match rest.dropWhile (· != c) with
      | [] => none
      | mark :: after => some (quoted mark (rest.takeWhile (· != c)), after)
    else
      let (text, after) := unquotedText (c :: rest)
      if text.isEmpty then none else some (ofUnquoted text, after)

theorem unquotedText_eq (text : Text) : (unquotedText text).1 ++ (unquotedText text).2 = text := by
  induction text with
  | nil => rfl
  | cons c rest ih =>
    unfold unquotedText
    split
    · rfl
    · simp [ih]

theorem parse?_eq {text after : Text} {value : AttributeValue}
    (h : parse? text = some (value, after)) : text = value.written ++ after := by
  unfold parse? at h
  split at h
  · simp at h
  · rename_i c rest
    split at h
    · split at h
      · simp at h
      · rename_i mark _ tail
        cases h
        have hm : mark = c := by
          have := List.head?_dropWhile_not (· != c) rest
          rw [tail] at this
          simpa using this
        subst hm
        simp only [written, List.cons_append, List.append_assoc, List.cons.injEq, true_and,
          List.nil_append]
        rw [← tail, List.takeWhile_append_dropWhile]
    · rw [← unquotedText_eq (c :: rest)]
      simp only at h
      split at h
      · simp at h
      · cases h
        rw [written_ofUnquoted]

end AttributeValue

namespace Attribute

def written (attr : Attribute) : Text :=
  attr.name ++ attr.equals ++ attr.value.written

def writtenWithLead (attr : Attribute) : Text := attr.lead ++ attr.written

def isNameEnd (c : Char) : Bool :=
  Unicode.isWhitespace c || c == '=' || c == '>' || c == '/' || c == '"' || c == '\'' || c == '<'

/-- The qualifier and the name of an attribute that is a directive. -/
def directive? (attr : Attribute) : Option (Text × Text) :=
  (Text.cut? [':'] attr.name).bind fun (qualifier, name) =>
  if !qualifier.isEmpty && qualifier.all isNameChar && !name.isEmpty && name.all isNameChar &&
    !isXmlName qualifier then some (qualifier, name) else none

/-- The equals sign at the start of a text with the white space around it, and what follows. -/
def equals? (text : Text) : Option (Text × Text) :=
  match text.dropWhile Unicode.isWhitespace with
  | '=' :: rest =>
    some (text.takeWhile Unicode.isWhitespace ++ '=' :: rest.takeWhile Unicode.isWhitespace,
      rest.dropWhile Unicode.isWhitespace)
  | _ => none

/-- The attribute whose name starts a text, after the white space `lead`, and what follows. -/
def parse? (lead text : Text) : Option (Attribute × Text) :=
  let name := text.takeWhile fun c => !isNameEnd c
  let rest := text.dropWhile fun c => !isNameEnd c
  if name.isEmpty then none
  else match equals? rest with
    | none => some (⟨lead, name, [], .flag⟩, rest)
    | some (equals, rest) =>
      (AttributeValue.parse? rest).map fun (value, after) => (⟨lead, name, equals, value⟩, after)

theorem equals?_eq {text equals after : Text} (h : equals? text = some (equals, after)) :
    text = equals ++ after := by
  unfold equals? at h
  split at h
  · rename_i rest tail
    cases h
    simp only [List.append_assoc, List.cons_append, List.takeWhile_append_dropWhile]
    rw [← tail, List.takeWhile_append_dropWhile]
  · simp at h

theorem parse?_eq {lead text after : Text} {attr : Attribute}
    (h : parse? lead text = some (attr, after)) :
    text = attr.written ++ after ∧ attr.lead = lead ∧ attr.name ≠ [] := by
  simp only [parse?] at h
  split at h
  · simp at h
  · rename_i nonempty
    split at h
    · cases h
      refine ⟨?_, rfl, by simpa using nonempty⟩
      simp [written, AttributeValue.written]
    · rename_i equals rest he
      obtain ⟨⟨value, a⟩, hv, e⟩ := Option.map_eq_some_iff.1 h
      cases e
      refine ⟨?_, rfl, by simpa using nonempty⟩
      simp only [written, List.append_assoc]
      rw [← AttributeValue.parse?_eq hv, ← equals?_eq he, List.takeWhile_append_dropWhile]

end Attribute

end TemplateCompiler
