import TemplateCompiler.Code.Group
import TemplateCompiler.Markers
import TemplateCompiler.Name

/-!
# Heads of calls

A head is the call marker, a method with an optional qualifier, and an optional list of
arguments. The pieces of a head, put together again, are the text it was read from.
-/
namespace TemplateCompiler

structure Head where
  marker : Text
  /-- The alias that qualifies the method, with the character that separates them. -/
  qualifier : Option (Text × Char)
  method : Text
  /-- The white space before the arguments, and the arguments with their brackets. -/
  arguments : Option (Text × Text)
  deriving DecidableEq, Repr

namespace Head

def qualifierName (head : Head) : Option Text := head.qualifier.map (·.1)

def qualifierPart : Option (Text × Char) → Text
  | some (name, separator) => name ++ [separator]
  | none => []

def argumentPart : Option (Text × Text) → Text
  | some (gap, group) => gap ++ group
  | none => []

/-- From the marker through the method. -/
def opener (head : Head) : Text := head.marker ++ qualifierPart head.qualifier ++ head.method

/-- The text of the head, arguments included. -/
def written (head : Head) : Text := head.opener ++ argumentPart head.arguments

def argumentText (head : Head) : Option Text := head.arguments.map fun (_, group) =>
  group.tail.dropLast

def isEndTag (markers : Markers) (head : Head) : Bool :=
  (head.qualifierName.getD head.method).startsWith markers.endKeyword

/-- The arguments at the start of a text, and what follows them. They may be missing, but not
left open. -/
def arguments? (text : Text) : Option (Option (Text × Text) × Text) :=
  match text.dropWhile Unicode.isWhitespace with
  | '(' :: rest =>
    (Code.group? ('(' :: rest)).map fun (group, after) =>
      (some (text.takeWhile Unicode.isWhitespace, group), after)
  | _ => some (none, text)

def qualifier? (markers : Markers) (text : Text) : Option ((Text × Char) × Text) :=
  match text.dropWhile isNameChar with
  | separator :: c :: rest =>
    if markers.isSeparator separator && isNameChar c then
      some ((text.takeWhile isNameChar, separator), c :: rest)
    else none
  | _ => none

/-- The qualifier, if any, and the method at the start of a text, and what follows them. Each is
as long as it can be; a separator counts as one only in front of a name character. -/
def name? (markers : Markers) (text : Text) : Option (Option (Text × Char) × Text × Text) :=
  if (text.takeWhile isNameChar).isEmpty then none
  else match qualifier? markers text with
    | some (qualifier, rest) =>
      some (some qualifier, rest.takeWhile isNameChar, rest.dropWhile isNameChar)
    | none => some (none, text.takeWhile isNameChar, text.dropWhile isNameChar)

def parse? (markers : Markers) (text : Text) : Option (Head × Text) :=
  (Text.after? markers.call text).bind fun named =>
  (name? markers named).bind fun (qualifier, method, rest) =>
  (arguments? rest).map fun (arguments, after) =>
  (⟨markers.call, qualifier, method, arguments⟩, after)

theorem arguments?_eq {text after : Text} {arguments : Option (Text × Text)}
    (h : arguments? text = some (arguments, after)) :
    text = argumentPart arguments ++ after := by
  simp only [arguments?] at h
  split at h
  · rename_i rest start
    obtain ⟨⟨group, a⟩, hg, e⟩ := Option.map_eq_some_iff.1 h
    simp only [Prod.mk.injEq] at e
    rw [← e.1, ← e.2, argumentPart, List.append_assoc, ← (Code.closeGroup?_eq hg).1, ← start,
      List.takeWhile_append_dropWhile]
  · simp only [Option.some.injEq, Prod.mk.injEq] at h
    simp [← h.1, ← h.2, argumentPart]

theorem qualifier?_eq {markers : Markers} {text name rest : Text} {separator : Char}
    (h : qualifier? markers text = some ((name, separator), rest)) :
    text = name ++ separator :: rest ∧ name = text.takeWhile isNameChar := by
  simp only [qualifier?] at h
  split at h
  · rename_i d c r tail
    split at h
    · simp only [Option.some.injEq, Prod.mk.injEq] at h
      obtain ⟨⟨hn, hs⟩, hr⟩ := h
      refine ⟨?_, hn.symm⟩
      rw [← hn, ← hs, ← hr, ← tail, List.takeWhile_append_dropWhile]
    · simp at h
  · simp at h

theorem name?_eq {markers : Markers} {text method rest : Text}
    {qualifier : Option (Text × Char)} (h : name? markers text = some (qualifier, method, rest)) :
    text = qualifierPart qualifier ++ method ++ rest ∧ method ≠ [] := by
  simp only [name?] at h
  split at h
  · simp at h
  · split at h
    · rename_i nonempty q r hq
      obtain ⟨name, separator⟩ := q
      cases h
      refine ⟨by simp [qualifierPart, (qualifier?_eq hq).1], ?_⟩
      simp only [qualifier?] at hq
      split at hq
      · split at hq
        · rename_i c r tail name_char
          cases hq
          simp only [Bool.and_eq_true] at name_char
          simp [name_char.2]
        · simp at hq
      · simp at hq
    · cases h
      rename_i nonempty _ _
      exact ⟨by simp [qualifierPart], by simpa using nonempty⟩

/-- The pieces of a head tile the text it was read from. -/
theorem parse?_eq {markers : Markers} {text after : Text} {head : Head}
    (h : parse? markers text = some (head, after)) : text = head.written ++ after := by
  obtain ⟨named, hm, h⟩ := Option.bind_eq_some_iff.1 h
  obtain ⟨⟨qualifier, method, rest⟩, hn, h⟩ := Option.bind_eq_some_iff.1 h
  obtain ⟨⟨arguments, a⟩, ha, h⟩ := Option.map_eq_some_iff.1 h
  cases h
  rw [Text.after?_eq_some_iff.1 hm, (name?_eq hn).1, arguments?_eq ha]
  simp [written, opener]

theorem method_ne_nil {markers : Markers} {text after : Text} {head : Head}
    (h : parse? markers text = some (head, after)) : head.method ≠ [] := by
  obtain ⟨named, hm, h⟩ := Option.bind_eq_some_iff.1 h
  obtain ⟨⟨qualifier, method, rest⟩, hn, h⟩ := Option.bind_eq_some_iff.1 h
  obtain ⟨⟨arguments, a⟩, ha, h⟩ := Option.map_eq_some_iff.1 h
  cases h
  exact (name?_eq hn).2

end Head

end TemplateCompiler
