import TemplateCompiler.Proofs.TagLocality

/-!
# Tags in the arguments of a call

The statement that a call becomes goes on after the arguments. A tag in the arguments that is open
at their end might be closed by what goes on, were it not for the quotes there: they are no part of
a name, and after one of them no attribute begins. So a tag is read in the statement exactly where
one is read in the arguments alone.
-/
namespace TemplateCompiler

/-- What follows the arguments of a call in the statement that it becomes, if it is not indented. -/
def callEnd : Text := "), '') ?> ".toList

theorem callEnd_eq : callEnd = ')' :: ", '') ?> ".toList := rfl

theorem callEnd_ne_cons {c : Char} {rest : Text} (h : c ≠ ')') : callEnd ≠ c :: rest := by
  rw [callEnd_eq]
  intro heq
  exact h (List.cons.inj heq).1.symm

theorem takeWhile_callEnd {p : Char → Bool} (hp : p ')' = false) (text : Text) :
    (text ++ callEnd).takeWhile p = text.takeWhile p ∧
      (text ++ callEnd).dropWhile p = text.dropWhile p ++ callEnd :=
  Text.takeWhile_append_cons hp text _

theorem isWhitespace_bracket : Unicode.isWhitespace ')' = false := by decide

/-- A text in which no tag that is open before it comes to its end. -/
def IsStuck (text : Text) : Prop := Tag.attributes? text = none

instance (text : Text) : Decidable (IsStuck text) :=
  inferInstanceAs (Decidable (Tag.attributes? text = none))

/-- A name or a value goes on into the end of a call up to its first blank. -/
theorem isStuck_blank : IsStuck " '') ?> ".toList := by decide +kernel

theorem isStuck_quote : IsStuck "') ?> ".toList := by decide +kernel

namespace AttributeValue

theorem unquotedText_callEnd (text : Text) :
    IsStuck (unquotedText (text ++ callEnd)).2 ∨
      unquotedText (text ++ callEnd) =
        ((unquotedText text).1, (unquotedText text).2 ++ callEnd) := by
  induction text with
  | nil =>
    left
    decide +kernel
  | cons c rest ih =>
    have hends : Text.startsWith (c :: (rest ++ callEnd)) ['/', '>'] =
        Text.startsWith (c :: rest) ['/', '>'] := by
      have hafter := @Text.after?_append_cons ')' ['/', '>'] (by decide) (c :: rest)
        ", '') ?> ".toList
      rw [← callEnd_eq, List.cons_append] at hafter
      rw [Text.startsWith, hafter, Option.isSome_map]
      rfl
    rw [List.cons_append, unquotedText, unquotedText, hends]
    split
    · exact Or.inr rfl
    · rcases ih with hstuck | hlocal
      · exact Or.inl hstuck
      · right
        rw [hlocal]

theorem parse?_callEnd {text after : Text} {value : AttributeValue}
    (h : parse? (text ++ callEnd) = some (value, after)) :
    IsStuck after ∨ ∃ rest, after = rest ++ callEnd ∧ parse? text = some (value, rest) := by
  cases text with
  | nil =>
    have hend : parse? ([] ++ callEnd) = some (.unquoted "),".toList, " '') ?> ".toList) := by
      decide
    rw [hend] at h
    cases h
    exact Or.inl isStuck_blank
  | cons c rest =>
    rw [List.cons_append, parse?] at h
    by_cases hquote : c = '"' ∨ c = '\''
    · rw [if_pos hquote] at h
      by_cases hopen : rest.dropWhile (· != c) = []
      · rw [Text.dropWhile_append_of_eq_nil hopen] at h
        rcases hquote with rfl | rfl
        · cases h
        · cases h
          exact Or.inl isStuck_quote
      · rw [Text.dropWhile_append_of_ne_nil hopen, Text.takeWhile_append_of_ne_nil hopen] at h
        cases hdrop : rest.dropWhile (· != c) with
        | nil => exact absurd hdrop hopen
        | cons mark after' =>
          rw [hdrop] at h
          cases h
          exact Or.inr ⟨after', rfl, by rw [parse?, if_pos hquote, hdrop]⟩
    · rw [if_neg hquote] at h
      simp only at h
      split at h
      · cases h
      · rename_i hempty
        cases h
        rcases unquotedText_callEnd (c :: rest) with hstuck | hlocal
        · exact Or.inl hstuck
        · rw [List.cons_append] at hlocal
          rw [hlocal] at hempty ⊢
          exact Or.inr ⟨_, rfl, by rw [parse?, if_neg hquote]; exact if_neg hempty⟩

end AttributeValue

namespace Attribute

theorem equals?_callEnd_of_blank {text : Text} (h : text.dropWhile Unicode.isWhitespace = []) :
    equals? text = none ∧ equals? (text ++ callEnd) = none := by
  unfold equals?
  rw [(takeWhile_callEnd isWhitespace_bracket text).2, h]
  exact ⟨rfl, rfl⟩

theorem parse?_callEnd {lead text after : Text} {attr : Attribute}
    (h : parse? lead (text ++ callEnd) = some (attr, after)) :
    IsStuck after ∨ ∃ rest, after = rest ++ callEnd ∧ parse? lead text = some (attr, rest) := by
  simp only [parse?] at h ⊢
  by_cases hname : text.dropWhile (fun c => !isNameEnd c) = []
  · -- The name goes on into the end of the call, and the attribute is a flag.
    left
    have hnext : callEnd.dropWhile (fun c => !isNameEnd c) = " '') ?> ".toList := by decide
    have hequals : equals? " '') ?> ".toList = none := by decide
    rw [Text.dropWhile_append_of_eq_nil hname, hnext, hequals] at h
    split at h
    · cases h
    · cases h
      exact isStuck_blank
  rw [Text.takeWhile_append_of_ne_nil hname, Text.dropWhile_append_of_ne_nil hname] at h
  split at h
  · cases h
  rename_i hempty
  rw [if_neg hempty]
  generalize text.dropWhile (fun c => !isNameEnd c) = rest at h ⊢
  by_cases hblank : rest.dropWhile Unicode.isWhitespace = []
  · obtain ⟨hequals, hequals'⟩ := equals?_callEnd_of_blank hblank
    rw [hequals'] at h
    cases h
    exact Or.inr ⟨rest, rfl, by rw [hequals]⟩
  cases hequals : equals? rest with
  | none =>
    rw [equals?_append_of_eq_none hequals hblank] at h
    cases h
    exact Or.inr ⟨rest, rfl, rfl⟩
  | some found =>
    obtain ⟨equals, valued⟩ := found
    by_cases hvalued : valued = []
    · -- The value begins where the end of the call does.
      left
      subst hvalued
      obtain ⟨equals', hequals'⟩ := @equals?_append_of_nil _ callEnd _ hequals
      have hvalue : AttributeValue.parse? (callEnd.dropWhile Unicode.isWhitespace) =
          some (.unquoted "),".toList, " '') ?> ".toList) := by decide
      rw [hequals'] at h
      simp only [hvalue, Option.map_some] at h
      cases h
      exact isStuck_blank
    · rw [equals?_append hequals hvalued] at h
      obtain ⟨⟨value, after'⟩, hvalue, hfound⟩ := Option.map_eq_some_iff.mp h
      cases hfound
      rcases AttributeValue.parse?_callEnd hvalue with hstuck | ⟨rest', rfl, hrest⟩
      · exact Or.inl hstuck
      · exact Or.inr ⟨rest', rfl, by simp only [hrest, Option.map_some]⟩

end Attribute

namespace Tag

theorem isStuck_callEnd_step {text : Text}
    (hslash : ∀ after, text.dropWhile Unicode.isWhitespace ≠ '/' :: '>' :: after)
    (hend : ∀ after, text.dropWhile Unicode.isWhitespace ≠ '>' :: after)
    (h : ∀ attr rest, Attribute.parse? (text.takeWhile Unicode.isWhitespace)
      (text.dropWhile Unicode.isWhitespace) = some (attr, rest) → IsStuck (rest ++ callEnd)) :
    IsStuck (text ++ callEnd) := by
  obtain ⟨htake, hdrop⟩ := takeWhile_callEnd isWhitespace_bracket text
  generalize text.dropWhile Unicode.isWhitespace = body at *
  have hslash' (after : Text) : body ++ callEnd ≠ '/' :: '>' :: after := by
    rcases body with _ | ⟨c, _ | ⟨d, body⟩⟩
    · exact callEnd_ne_cons (by decide)
    · intro hbody
      exact callEnd_ne_cons (by decide) (List.cons.inj hbody).2
    · intro hbody
      cases hbody
      exact hslash _ rfl
  have hend' (after : Text) : body ++ callEnd ≠ '>' :: after := by
    cases body with
    | nil => exact callEnd_ne_cons (by decide)
    | cons c body =>
      intro hbody
      cases hbody
      exact hend _ rfl
  unfold IsStuck at h ⊢
  rw [attributes?_step (by rwa [hdrop]) (by rwa [hdrop]), hdrop, Option.bind_eq_none_iff]
  rintro ⟨attr, after⟩ hparse
  rw [Option.map_eq_none_iff]
  rcases Attribute.parse?_callEnd hparse with hstuck | ⟨rest, rfl, hrest⟩
  · exact hstuck
  · rw [htake] at hrest
    exact h attr rest hrest

/-- The end of a call closes no tag whose attributes a text leaves open. -/
theorem isStuck_callEnd {text : Text} (h : IsStuck text) : IsStuck (text ++ callEnd) := by
  unfold IsStuck at h
  fun_induction attributes? text with
  | case1 => cases h
  | case2 => cases h
  | case3 text hparse hslash hend =>
    apply isStuck_callEnd_step hslash hend
    intro attr rest hfound
    rw [hfound] at hparse
    cases hparse
  | case4 text attr rest hparse hlength hslash hend ih =>
    apply isStuck_callEnd_step hslash hend
    intro attr' rest' hfound
    rw [hfound] at hparse
    cases hparse
    exact ih (Option.map_eq_none_iff.mp h)

theorem name?_callEnd (text : Text) : name? (text ++ callEnd) =
    (name? text).map fun found => (found.1, found.2.1, found.2.2 ++ callEnd) := by
  have hend : isNameChar ')' = false := by decide
  unfold name?
  rw [(takeWhile_callEnd hend text).1, (takeWhile_callEnd hend text).2]
  split
  · rfl
  rcases text.dropWhile isNameChar with _ | ⟨c, _ | ⟨d, rest⟩⟩
  · rfl
  · by_cases hcolon : c = ':'
    · subst hcolon
      simp [callEnd_eq, hend]
    · simp [hcolon]
  · by_cases hcolon : c = ':'
    · subst hcolon
      have hlater := takeWhile_callEnd hend (d :: rest)
      rw [List.cons_append] at hlater
      by_cases hd : isNameChar d <;> simp [hd, hlater]
    · simp [hcolon]

theorem parse?_callEnd (text : Text) : parse? (text ++ callEnd) =
    (parse? text).map fun found => (found.1, found.2 ++ callEnd) := by
  cases hparse : parse? text with
  | some found => exact parse?_append hparse
  | none =>
    rcases text with _ | ⟨c, rest⟩
    · exact parse?_eq_none (by decide)
    by_cases hc : c = '<'
    · subst hc
      rw [List.cons_append, parse?, name?_callEnd]
      rw [parse?] at hparse
      rcases hname : name? rest with _ | ⟨qualifier, name, after⟩
      · rfl
      rw [hname, Option.bind_some] at hparse
      have hended : isNameEnded (after ++ callEnd) = isNameEnded after := by
        cases after with
        | nil => decide
        | cons d after => rfl
      rw [Option.map_some, Option.bind_some]
      simp only [hended] at hparse ⊢
      split
      · rename_i hafter
        rw [if_pos hafter, Option.map_eq_none_iff] at hparse
        rw [isStuck_callEnd hparse]
        rfl
      · rfl
    · exact parse?_eq_none hc

end Tag

namespace Element

theorem closingTag?_callEnd {qualified : Text} (h : ')' ∉ qualified) (text : Text) :
    closingTag? qualified (text ++ callEnd) =
      (closingTag? qualified text).map fun found => (found.1, found.2 ++ callEnd) := by
  have hlead : ')' ∉ '<' :: '/' :: qualified := by simp [h]
  unfold closingTag?
  rw [callEnd_eq, Text.after?_append_cons hlead, ← callEnd_eq]
  cases Text.after? ('<' :: '/' :: qualified) text with
  | none => rfl
  | some rest =>
    obtain ⟨htake, hdrop⟩ := takeWhile_callEnd isWhitespace_bracket rest
    rw [Option.map_some, Option.bind_some, Option.bind_some, htake, hdrop]
    cases rest.dropWhile Unicode.isWhitespace with
    | nil => rfl
    | cons c after =>
      by_cases hc : c = '>'
      · subst hc
        rfl
      · simp [hc]

theorem content?_callEnd {qualified : Text} (h : ')' ∉ qualified) (text : Text)
    (depth skip : Nat) : content? qualified depth skip (text ++ callEnd) =
      (content? qualified depth skip text).map fun found =>
        (found.1, found.2.1, found.2.2 ++ callEnd) := by
  induction text generalizing depth skip with
  | nil => rw [List.nil_append, content?_eq_none (by decide), content?, Option.map_none]
  | cons c rest ih =>
    rw [List.cons_append]
    cases skip with
    | succ skip =>
      rw [content?, content?, ih]
      simp only [Option.map_map]
      rfl
    | zero =>
      have hclosing := closingTag?_callEnd h (c :: rest)
      have hparse := Tag.parse?_callEnd (c :: rest)
      rw [List.cons_append] at hclosing hparse
      rw [content?, content?, hclosing, hparse]
      cases hclose : closingTag? qualified (c :: rest) with
      | some found =>
        cases depth with
        | zero => rfl
        | succ depth =>
          simp only [Option.map_some, ih, Option.map_map]
          rfl
      | none =>
        cases Tag.parse? (c :: rest) with
        | none =>
          simp only [Option.map_none, ih, Option.map_map]
          rfl
        | some found =>
          simp only [Option.map_none, Option.map_some, ih]
          split <;> simp only [Option.map_map] <;> rfl

theorem ofTag?_callEnd {text after : Text} {tag : Tag} (h : Tag.parse? text = some (tag, after)) :
    ofTag? tag (after ++ callEnd) =
      (ofTag? tag after).map fun found => (found.1, found.2 ++ callEnd) := by
  have hbracket : ')' ∉ tag.qualified := by
    intro hmem
    have hname : ¬(isNameChar ')' ∨ ')' = ':') := by decide
    exact hname (Tag.isNameChar_of_parse? h ')' hmem)
  unfold ofTag?
  split
  · rfl
  · rw [content?_callEnd hbracket, Option.map_map, Option.map_map]
    rfl

end Element

end TemplateCompiler
