import TemplateCompiler.Call.Block
import TemplateCompiler.Proofs.Scanning

/-!
# Tags that end blocks

The name of a call is read as far as it goes, but the tag that ends a block is recognized by going
through the name that is known from the head. Both come to the same: a tag ends a block just if the
name that would be read there is the one of the head, and nothing behind it makes it the qualifier
of another name.
-/
namespace TemplateCompiler

theorem Text.takeWhile_of_head? {p : Char → Bool} {word rest : Text} (hword : word.all p)
    (hrest : rest.head?.any p = false) :
    (word ++ rest).takeWhile p = word ∧ (word ++ rest).dropWhile p = rest := by
  have hall := List.all_eq_true.mp hword
  rw [List.takeWhile_append_of_pos hall, List.dropWhile_append_of_pos hall]
  cases rest with
  | nil => simp
  | cons c rest =>
    have hc : p c = false := hrest
    simp [hc]

namespace Head

/-- No character that may stand behind a qualifier belongs to a name. -/
def HasOwnSeparators (markers : Markers) : Prop :=
  ∀ c, markers.isSeparator c → isNameChar c = false

theorem hasOwnSeparators_default : HasOwnSeparators {} := by
  intro c hc
  have hmem : c ∈ [':', '.'] := List.contains_iff_mem.mp hc
  rcases List.mem_cons.mp hmem with rfl | hmem
  · decide
  · rw [List.mem_singleton.mp hmem]
    decide

/-- A name that is complete: it is made of name characters, and goes on in what follows neither
with one of these nor, if it has no qualifier, as the qualifier of another name. -/
structure IsName (markers : Markers) (qualifier : Option (Text × Char)) (method rest : Text) :
    Prop where
  method_ne_nil : method ≠ []
  method_all : method.all isNameChar
  qualified : ∀ name separator, qualifier = some (name, separator) →
    name ≠ [] ∧ name.all isNameChar ∧ markers.isSeparator separator
  ends : rest.head?.any isNameChar = false
  unqualified : qualifier = none → extendsName markers rest = false

variable {markers : Markers} {qualifier : Option (Text × Char)} {text method rest : Text}

theorem extendsName_eq_false_iff : extendsName markers rest = false ↔
    rest.head?.any isNameChar = false ∧
      ¬∃ separator c more, rest = separator :: c :: more ∧ markers.isSeparator separator ∧
        isNameChar c := by
  rcases rest with _ | ⟨d, _ | ⟨c, more⟩⟩ <;> simp [extendsName]

theorem qualifier?_eq_none_iff (hends : rest.head?.any isNameChar = false) {word : Text}
    (hword : word.all isNameChar) :
    qualifier? markers (word ++ rest) = none ↔ extendsName markers rest = false := by
  rw [qualifier?, (Text.takeWhile_of_head? hword hends).2]
  rcases rest with _ | ⟨d, _ | ⟨c, more⟩⟩
  · simp [extendsName]
  · simpa [extendsName] using hends
  · have hd : isNameChar d = false := hends
    simp [extendsName, hd]

theorem qualifier?_append (hseparators : HasOwnSeparators markers) {name more : Text}
    {separator c : Char} (hname : name.all isNameChar) (hseparator : markers.isSeparator separator)
    (hc : isNameChar c) : qualifier? markers (name ++ separator :: c :: more) =
      some ((name, separator), c :: more) := by
  obtain ⟨htake, hdrop⟩ := @Text.takeWhile_word _ name (c :: more) separator hname
    (hseparators separator hseparator)
  rw [qualifier?, htake, hdrop]
  simp only [hseparator, hc, Bool.and_true, if_true]

theorem isSeparator_of_qualifier? {name : Text} {separator : Char}
    (h : qualifier? markers text = some ((name, separator), rest)) :
    markers.isSeparator separator := by
  unfold qualifier? at h
  split at h
  · split at h
    · rename_i hseparates
      cases h
      exact (Bool.and_eq_true_iff.mp hseparates).1
    · cases h
  · cases h

theorem IsName.of_name? (h : name? markers text = some (qualifier, method, rest)) :
    IsName markers qualifier method rest := by
  have hends (text : Text) : (text.dropWhile isNameChar).head?.any isNameChar = false := by
    cases hdrop : text.dropWhile isNameChar with
    | nil => rfl
    | cons c rest =>
      have hhead := List.head?_dropWhile_not isNameChar text
      rw [hdrop] at hhead
      exact hhead
  have hmethod := (name?_eq h).2
  unfold name? at h
  split at h
  · cases h
  rename_i hnamed
  split at h
  · rename_i qualifier' behind hqualifier
    cases h
    refine ⟨hmethod, List.all_takeWhile, ?_, hends _, fun hnone => nomatch hnone⟩
    intro name separator hname
    cases hname
    rw [(qualifier?_eq hqualifier).2]
    refine ⟨fun hempty => hnamed ?_, List.all_takeWhile, isSeparator_of_qualifier? hqualifier⟩
    rw [hempty]
    rfl
  · rename_i hqualifier
    cases h
    refine ⟨hmethod, List.all_takeWhile, fun _ _ hsome => (nomatch hsome), hends _, fun _ => ?_⟩
    rwa [← qualifier?_eq_none_iff (hends _) List.all_takeWhile, List.takeWhile_append_dropWhile]

theorem IsName.name?_eq (hseparators : HasOwnSeparators markers)
    (h : IsName markers qualifier method rest) :
    name? markers (qualifierPart qualifier ++ method ++ rest) = some (qualifier, method, rest) := by
  obtain ⟨htake, hdrop⟩ := Text.takeWhile_of_head? h.method_all h.ends
  cases hmethod : method with
  | nil => exact absurd hmethod h.method_ne_nil
  | cons c more =>
    rw [hmethod] at htake hdrop
    have hnone := @qualifier?_eq_none_iff markers rest h.ends method h.method_all
    have hall := h.method_all
    rw [hmethod] at hnone hall
    cases qualifier with
    | none =>
      rw [qualifierPart, List.nil_append, name?, htake, hdrop, hnone.mpr (h.unqualified rfl)]
      rfl
    | some named =>
      obtain ⟨name, separator⟩ := named
      obtain ⟨hne, hname, hseparator⟩ := h.qualified name separator rfl
      have hc : isNameChar c := (Bool.and_eq_true_iff.mp hall).1
      obtain ⟨hfirst, -⟩ := @Text.takeWhile_word _ name (c :: (more ++ rest)) separator hname
        (hseparators separator hseparator)
      have htext : qualifierPart (some (name, separator)) ++ c :: more ++ rest =
          name ++ separator :: c :: (more ++ rest) := by
        simp [qualifierPart]
      rw [htext, name?, hfirst, qualifier?_append hseparators hname hseparator hc]
      rw [List.cons_append] at htake hdrop
      simp only [htake, hdrop, List.isEmpty_eq_false_iff.mpr hne, Bool.false_eq_true, if_false]

/-! ## The tag that ends a block -/

theorem echoedQualifier?_eq_some_iff {name : Option Text} {part : Text} :
    echoedQualifier? markers name text = some (part, rest) ↔
      ∃ qualifier, part = qualifierPart qualifier ∧ text = part ++ rest ∧
        qualifier.map (·.1) = name ∧ qualifier.all (fun q => markers.isSeparator q.2) := by
  cases name with
  | none =>
    constructor
    · rintro ⟨⟩
      exact ⟨none, rfl, rfl, rfl, rfl⟩
    · rintro ⟨qualifier, rfl, rfl, hnone, -⟩
      rw [Option.map_eq_none_iff.mp hnone]
      rfl
  | some name =>
    rw [echoedQualifier?]
    constructor
    · intro h
      obtain ⟨behind, hname, h⟩ := Option.bind_eq_some_iff.mp h
      rw [Text.after?_eq_some_iff.mp hname]
      split at h
      · split at h
        · rename_i separator more hseparator
          cases h
          exact ⟨some (name, separator), rfl, by simp, rfl, hseparator⟩
        · cases h
      · cases h
    · rintro ⟨qualifier, rfl, rfl, hname, hseparator⟩
      obtain ⟨⟨name', separator⟩, rfl, hname⟩ := Option.map_eq_some_iff.mp hname
      obtain rfl : name' = name := Option.some.inj hname
      have htext : qualifierPart (some (name', separator)) ++ rest =
          name' ++ separator :: rest := by
        simp [qualifierPart]
      rw [htext, Text.after?_append, Option.bind_some]
      exact if_pos hseparator

theorem exists_of_endTag? {head : Head} {closing : Text}
    (h : head.endTag? markers text = some (closing, rest)) :
    ∃ named qualifier, text = markers.call ++ markers.endKeyword ++ named ∧
      named.dropWhile Text.isSpaceOrTab = qualifierPart qualifier ++ head.method ++ rest ∧
      closing = markers.call ++ markers.endKeyword ++ named.takeWhile Text.isSpaceOrTab ++
        qualifierPart qualifier ++ head.method ∧
      qualifier.map (·.1) = head.qualifierName ∧
      qualifier.all (fun q => markers.isSeparator q.2) ∧ extendsName markers rest = false := by
  obtain ⟨keyword, hcall, h⟩ := Option.bind_eq_some_iff.mp h
  obtain ⟨named, hkeyword, h⟩ := Option.bind_eq_some_iff.mp h
  obtain ⟨⟨part, behind⟩, hpart, h⟩ := Option.bind_eq_some_iff.mp h
  obtain ⟨after, hmethod, h⟩ := Option.bind_eq_some_iff.mp h
  rw [Text.after?_eq_some_iff] at hcall hkeyword hmethod
  obtain ⟨qualifier, rfl, hbehind, hname, hseparator⟩ := echoedQualifier?_eq_some_iff.mp hpart
  split at h
  · cases h
  · rename_i hends
    cases h
    rw [hmethod, ← List.append_assoc] at hbehind
    rw [hcall, hkeyword, ← List.append_assoc]
    exact ⟨named, qualifier, rfl, hbehind, rfl, hname, hseparator, Bool.not_eq_true _ ▸ hends⟩

theorem endTag?_eq {head : Head} {closing : Text}
    (h : head.endTag? markers text = some (closing, rest)) :
    text = closing ++ rest ∧ markers.call <+: closing := by
  obtain ⟨named, qualifier, htext, hbehind, rfl, -⟩ := exists_of_endTag? h
  have hnamed := @List.takeWhile_append_dropWhile _ Text.isSpaceOrTab named
  rw [hbehind] at hnamed
  simp only [htext, List.append_assoc, List.prefix_append, and_true]
  conv => lhs; rw [← hnamed]
  simp only [List.append_assoc]

theorem endTag?_eq_some_iff {head : Head} {closing : Text} :
    head.endTag? markers text = some (closing, rest) ↔
      text = closing ++ rest ∧ ∃ named qualifier,
        text = markers.call ++ markers.endKeyword ++ named ∧
        named.dropWhile Text.isSpaceOrTab = qualifierPart qualifier ++ head.method ++ rest ∧
        qualifier.map (·.1) = head.qualifierName ∧
        qualifier.all (fun q => markers.isSeparator q.2) ∧ extendsName markers rest = false := by
  constructor
  · intro h
    obtain ⟨named, qualifier, htext, hbehind, -, hends⟩ := exists_of_endTag? h
    exact ⟨(endTag?_eq h).1, named, qualifier, htext, hbehind, hends⟩
  · rintro ⟨htext, named, qualifier, hnamed, hbehind, hname, hseparator, hends⟩
    have hpart : echoedQualifier? markers head.qualifierName (named.dropWhile Text.isSpaceOrTab) =
        some (qualifierPart qualifier, head.method ++ rest) :=
      echoedQualifier?_eq_some_iff.mpr
        ⟨qualifier, rfl, by rw [hbehind, List.append_assoc], hname, hseparator⟩
    have hread : head.endTag? markers text = some (markers.call ++ markers.endKeyword ++
        named.takeWhile Text.isSpaceOrTab ++ qualifierPart qualifier ++ head.method, rest) := by
      rw [hnamed, endTag?, List.append_assoc, Text.after?_append, Option.bind_some,
        Text.after?_append, Option.bind_some, hpart, Option.bind_some]
      simp only [Text.after?_append, Option.bind_some, hends]
      rfl
    have hclosing := (endTag?_eq hread).1
    rw [htext, List.append_left_inj] at hclosing
    rw [hread, ← hclosing]

theorem exists_isName {head : Head} {source behind : Text}
    (h : parse? markers source = some (head, behind)) :
    ∃ rest, source = head.opener ++ rest ∧
      head.opener = markers.call ++ (qualifierPart head.qualifier ++ head.method) ∧
      IsName markers head.qualifier head.method rest := by
  obtain ⟨named, hcall, h⟩ := Option.bind_eq_some_iff.mp h
  obtain ⟨⟨qualifier, method, rest⟩, hread, h⟩ := Option.bind_eq_some_iff.mp h
  obtain ⟨⟨arguments, after⟩, -, heq⟩ := Option.map_eq_some_iff.mp h
  cases heq
  refine ⟨rest, ?_, by simp only [opener, List.append_assoc], .of_name? hread⟩
  rw [Text.after?_eq_some_iff.mp hcall, (name?_eq hread).1]
  simp only [opener, List.append_assoc]

/-- The name of a head is complete wherever it is repeated, with any separator, if what follows
does not extend it. -/
theorem isName_of_echo {head : Head} {source behind : Text}
    (h : parse? markers source = some (head, behind))
    (hname : qualifier.map (·.1) = head.qualifierName)
    (hseparator : qualifier.all (fun q => markers.isSeparator q.2))
    (hends : extendsName markers rest = false) : IsName markers qualifier head.method rest := by
  obtain ⟨_, -, -, hhead⟩ := exists_isName h
  refine ⟨hhead.method_ne_nil, hhead.method_all, ?_, (extendsName_eq_false_iff.mp hends).1,
    fun _ => hends⟩
  rintro name separator rfl
  obtain ⟨⟨name', separator'⟩, hqualifier', rfl⟩ := Option.map_eq_some_iff.mp hname.symm
  obtain ⟨hne, hall, -⟩ := hhead.qualified _ _ hqualifier'
  exact ⟨hne, hall, hseparator⟩

theorem IsName.isSeparator (h : IsName markers qualifier method rest) :
    qualifier.all fun q => markers.isSeparator q.2 := by
  cases qualifier with
  | none => rfl
  | some named => exact (h.qualified named.1 named.2 rfl).2.2

/-- A tag ends the block of a head just if the name that would be read there, as far as it goes, is
the name of the head, and nothing behind it makes it the qualifier of another name. -/
theorem endTag?_echoes_name {head : Head} {source behind : Text}
    (h : parse? {} source = some (head, behind)) (place : Place) (closing rest : Text) :
    head.endTag? {} place.rest = some (closing, rest) ↔
      place.rest = closing ++ rest ∧ ∃ named qualifier, place.rest = "@@end".toList ++ named ∧
        name? {} (named.dropWhile Text.isSpaceOrTab) = some (qualifier, head.method, rest) ∧
        qualifier.map (·.1) = head.qualifierName ∧
        ¬∃ separator c more, rest = separator :: c :: more ∧
          ({} : Markers).isSeparator separator ∧ isNameChar c := by
  rw [endTag?_eq_some_iff]
  constructor
  · rintro ⟨htext, named, qualifier, hnamed, hbehind, hname, hseparator, hends⟩
    have hecho := isName_of_echo h hname hseparator hends
    refine ⟨htext, named, qualifier, hnamed, ?_, hname, (extendsName_eq_false_iff.mp hends).2⟩
    rw [hbehind, hecho.name?_eq hasOwnSeparators_default]
  · rintro ⟨htext, named, qualifier, hnamed, hread, hname, hends⟩
    have hcomplete := IsName.of_name? hread
    exact ⟨htext, named, qualifier, hnamed, (name?_eq hread).1, hname, hcomplete.isSeparator,
      extendsName_eq_false_iff.mpr ⟨hcomplete.ends, hends⟩⟩

/-- The separator need not be that of the head. -/
theorem endTag?_echoes_name_of_panel :
    let head : Head := ⟨"@@".toList, some ("ui".toList, ':'), "panel".toList, none⟩
    let place : Place := ⟨" x :lenap:iu@@".toList, "@@end\t ui.panel, done".toList⟩
    parse? {} place.text = some (head, ": x @@end\t ui.panel, done".toList) ∧
    head.endTag? {} place.rest = some ("@@end\t ui.panel".toList, ", done".toList) := by
  intro head place
  have hhead : parse? {} place.text = some (head, ": x @@end\t ui.panel, done".toList) := by
    decide +kernel
  refine ⟨hhead, (endTag?_echoes_name hhead place _ _).mpr ⟨by decide, "\t ui.panel, done".toList,
    some ("ui".toList, '.'), by decide, by decide +kernel, by decide, ?_⟩⟩
  rintro ⟨separator, c, more, hrest, hseparator, -⟩
  obtain ⟨rfl, -⟩ := List.cons.inj hrest
  cases hseparator

end Head

end TemplateCompiler
