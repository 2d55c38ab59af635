import TemplateCompiler.Directive.Config
import TemplateCompiler.Proofs.EndTags
import TemplateCompiler.Proofs.PathSpellings
import TemplateCompiler.Proofs.UseLines

/-!
# Entries of a configuration block

What an entry line says: the name before the colon is its key, and what stands behind the colon is
its value, without the white space around it and a comma at the end. A line is read from its first
to its last character that is not white space, so the pieces that a block is cut into may have any
white space at their ends.
-/
namespace TemplateCompiler.Directive

namespace Entry

/-- A text without the white space around it, and without a comma at its end unless there is nothing
else. -/
def bare (text : Text) : Text :=
  if text.trim.getLast? = some ',' ∧ text.trim ≠ [','] then Text.trimEnd text.trim.dropLast
  else text.trim

/-- A line `key: value`, as the entry that it stands for. -/
structure IsWrittenAs (entry : Entry) (line : Text) : Prop where
  key_ne_nil : entry.key ≠ []
  isNameChar_key : entry.key.all isNameChar
  exists_parts : ∃ lead gap rest : Text, line = lead ++ (entry.key ++ (gap ++ ':' :: rest)) ∧
    lead.isBlank ∧ gap.isBlank ∧ rest.isBlank = false ∧ entry.value = bare rest

variable {text first later value tail line : Text} {entry : Entry}

theorem isBlank_append : (first ++ later).isBlank = (first.isBlank && later.isBlank) :=
  List.all_append

/-! ## The value -/

theorem isTail_of_isBlank (h : text.isBlank) : isTail text := by
  have hnil : text.trimStart = [] := List.dropWhile_eq_nil_iff.mpr (List.all_eq_true.mp h)
  rw [isTail, hnil]

theorem isTail_comma (hfirst : first.isBlank) (hlater : later.isBlank) :
    isTail (first ++ ',' :: later) := by
  have htrim : Text.trimStart (first ++ ',' :: later) = ',' :: later := by
    rw [Text.trimStart, List.dropWhile_append_of_pos (List.all_eq_true.mp hfirst)]
    rfl
  rw [isTail, htrim]
  exact hlater

theorem isTail_eq_false {c : Char} (hc : Unicode.isWhitespace c = false)
    (h : c ≠ ',' ∨ first.isBlank = false) (later : Text) :
    isTail (first ++ c :: later) = false := by
  unfold isTail
  cases hblank : first.isBlank with
  | true =>
    have hne : c ≠ ',' := h.resolve_right (by simp [hblank])
    have htrim : Text.trimStart (first ++ c :: later) = c :: later := by
      rw [Text.trimStart, List.dropWhile_append_of_pos (List.all_eq_true.mp hblank),
        List.dropWhile_cons, hc, if_neg Bool.false_ne_true]
    rw [htrim]
    split
    · rename_i heq
      cases heq
    · rename_i heq
      exact absurd (List.cons.inj heq).1 hne
    · rfl
  | false =>
    have hnonblank : first.trimStart ≠ [] := by
      intro hnil
      have hall := List.all_eq_true.mpr (List.dropWhile_eq_nil_iff.mp hnil)
      rw [Text.isBlank, hall] at hblank
      cases hblank
    have htrim : Text.trimStart (first ++ c :: later) = first.trimStart ++ c :: later :=
      Text.dropWhile_append_of_ne_nil hnonblank
    rw [htrim]
    cases hfirst : first.trimStart with
    | nil => exact absurd hfirst hnonblank
    | cons d more =>
      have hrest : Text.isBlank (more ++ c :: later) = false := by
        simp [Text.isBlank, hc]
      rw [List.cons_append]
      split
      · rename_i heq
        cases heq
      · rename_i heq
        obtain ⟨-, rfl⟩ := List.cons.inj heq
        exact hrest
      · rfl

theorem valueOf_append (hne : value ≠ []) (htail : isTail tail)
    (hshortest : ∀ first later, value = first ++ later → first ≠ [] → later ≠ [] →
      isTail (later ++ tail) = false) : valueOf (value ++ tail) = value := by
  induction value with
  | nil => exact absurd rfl hne
  | cons c rest ih =>
    rw [List.cons_append, valueOf]
    cases rest with
    | nil => rw [List.nil_append, if_pos htail]
    | cons d rest =>
      have hgoes := hshortest [c] (d :: rest) rfl (List.cons_ne_nil _ _) (List.cons_ne_nil _ _)
      rw [hgoes, if_neg Bool.false_ne_true, ih (List.cons_ne_nil d rest)]
      intro first later hsplit _ hlater
      exact hshortest (c :: first) later (by rw [hsplit, List.cons_append]) (List.cons_ne_nil _ _)
        hlater

theorem exists_last {part : Text} (hpart : part ≠ []) (hsuffix : part <:+ value)
    (hlast : ∀ c ∈ value.getLast?, Unicode.isWhitespace c = false) :
    ∃ first c, part = first ++ [c] ∧ c ∈ value.getLast? ∧ Unicode.isWhitespace c = false := by
  obtain ⟨before, rfl⟩ := hsuffix
  rcases List.eq_nil_or_concat part with rfl | ⟨first, c, rfl⟩
  · exact absurd rfl hpart
  · rw [List.concat_eq_append] at hlast ⊢
    have hc : c ∈ (before ++ (first ++ [c])).getLast? := by
      rw [← List.append_assoc, List.getLast?_concat]
      rfl
    exact ⟨first, c, rfl, hc, hlast c hc⟩

/-- What is read as the value is all there is, without white space around it and a comma at the
end. -/
theorem valueOf_eq_bare (h : text.isBlank = false) : valueOf text.trimStart = bare text := by
  obtain ⟨lead, trail, hlead, htrail, htext⟩ := text.exists_trim
  obtain ⟨hhead, hlast⟩ := text.ends_trim
  have hne : text.trim ≠ [] := by
    intro hnil
    rw [htext, hnil, List.append_nil, isBlank_append, hlead, htrail] at h
    cases h
  unfold bare
  generalize text.trim = value at htext hhead hlast hne ⊢
  have hstart : text.trimStart = value ++ trail := by
    rw [htext, List.append_assoc, Text.trimStart,
      List.dropWhile_append_of_pos (List.all_eq_true.mp hlead)]
    cases value with
    | nil => exact absurd rfl hne
    | cons c more =>
      rw [List.cons_append, List.dropWhile_cons, hhead c rfl, if_neg Bool.false_ne_true]
  rw [hstart]
  by_cases hcomma : value.getLast? = some ',' ∧ value ≠ [',']
  · rw [if_pos hcomma]
    obtain ⟨hends, hmore⟩ := hcomma
    obtain ⟨inner, rfl⟩ := List.getLast?_eq_some_iff.mp hends
    obtain ⟨front, space, rfl, htrim, hspace, hfront⟩ := Text.exists_space inner
    rw [List.dropLast_concat, htrim]
    have hsplit : front ++ space ++ [','] ++ trail = front ++ (space ++ ',' :: trail) := by
      simp only [List.append_assoc, List.singleton_append]
    rw [hsplit]
    refine valueOf_append ?_ (isTail_comma hspace htrail) ?_
    · rintro rfl
      cases space with
      | nil => exact hmore rfl
      | cons c space =>
        have hc := hhead c rfl
        rw [List.all_eq_true.mp hspace c List.mem_cons_self] at hc
        cases hc
    · intro first later hparts _ hlater
      obtain ⟨before, c, rfl, -, hc⟩ := exists_last hlater ⟨first, hparts.symm⟩ hfront
      have hblank : Text.isBlank (before ++ [c] ++ space) = false := by
        simp [Text.isBlank, hc]
      rw [← List.append_assoc]
      exact isTail_eq_false (by decide) (Or.inr hblank) trail
  · rw [if_neg hcomma]
    refine valueOf_append hne (isTail_of_isBlank htrail) ?_
    intro first later hparts hfirst hlater
    obtain ⟨before, c, rfl, hmem, hc⟩ := exists_last hlater ⟨first, hparts.symm⟩ hlast
    have hnot : c ≠ ',' := by
      rintro rfl
      apply hcomma
      refine ⟨hmem, ?_⟩
      rintro rfl
      have hlength := congrArg List.length hparts
      have hpos := List.length_pos_iff.mpr hfirst
      simp only [List.length_singleton, List.length_append] at hlength
      omega
    rw [List.append_assoc, List.singleton_append]
    exact isTail_eq_false hc (Or.inl hnot) trail

/-! ## The line -/

theorem head?_gap {gap : Text} (hgap : gap.isBlank) (rest : Text) :
    (gap ++ ':' :: rest).head?.any isNameChar = false := by
  cases gap with
  | nil =>
    show isNameChar ':' = false
    decide
  | cons c gap =>
    apply Bool.eq_false_iff.mpr
    intro hname
    have hblank := List.all_eq_true.mp hgap c List.mem_cons_self
    rw [isWhitespace_of_isNameChar hname] at hblank
    cases hblank

/-- Exactly the lines of the form `key: value` are read. -/
theorem parse?_eq_some_iff : parse? line = some entry ↔ entry.IsWrittenAs line := by
  constructor
  · intro h
    unfold parse? at h
    simp only at h
    split at h
    · cases h
    · rename_i hkey
      obtain ⟨rest, hrest, h⟩ := Option.bind_eq_some_iff.mp h
      split at h
      · cases h
      · rename_i hblank
        cases h
        have hvalue := valueOf_eq_bare (Bool.eq_false_iff.mpr hblank)
        refine ⟨by simpa using hkey, List.all_takeWhile,
          line.takeWhile Unicode.isWhitespace,
          (line.trimStart.dropWhile isNameChar).takeWhile Unicode.isWhitespace, rest, ?_,
          List.all_takeWhile, List.all_takeWhile, Bool.eq_false_iff.mpr hblank, hvalue⟩
        have hcolon : ':' :: rest = Text.trimStart (line.trimStart.dropWhile isNameChar) :=
          (Text.after?_eq_some_iff.mp hrest).symm
        have hspaces (text : Text) : text.takeWhile Unicode.isWhitespace ++ text.trimStart = text :=
          List.takeWhile_append_dropWhile
        rw [hcolon, hspaces, List.takeWhile_append_dropWhile, hspaces]
  · rintro ⟨hne, hname, lead, gap, rest, rfl, hlead, hgap, hrest, hvalue⟩
    obtain ⟨key, value⟩ := entry
    have hstart : Text.trimStart (lead ++ (key ++ (gap ++ ':' :: rest))) =
        key ++ (gap ++ ':' :: rest) := by
      rw [Text.trimStart, List.dropWhile_append_of_pos (List.all_eq_true.mp hlead)]
      cases key with
      | nil => exact absurd rfl hne
      | cons c key =>
        have hc := isWhitespace_of_isNameChar (List.all_eq_true.mp hname c List.mem_cons_self)
        rw [List.cons_append, List.dropWhile_cons, hc, if_neg Bool.false_ne_true]
    obtain ⟨htake, hdrop⟩ := Text.takeWhile_of_head? hname (head?_gap hgap rest)
    have hcolon : Text.trimStart (gap ++ ':' :: rest) = ':' :: rest := by
      rw [Text.trimStart, List.dropWhile_append_of_pos (List.all_eq_true.mp hgap)]
      rfl
    have hafter : Text.after? [':'] (':' :: rest) = some rest := rfl
    unfold parse?
    simp only [hstart, htake, hdrop, hcolon, hafter, Option.bind_some, hrest, Bool.false_eq_true,
      if_false, valueOf_eq_bare hrest]
    rw [if_neg (by simpa using hne), ← hvalue]

theorem bare_append (h : later.isBlank) (text : Text) : bare (text ++ later) = bare text := by
  unfold bare
  rw [Text.trim_append h]

theorem trim_line {lead key rest : Text} (hlead : lead.isBlank) (hne : key ≠ [])
    (hname : key.all isNameChar) (hrest : rest.isBlank = false) (gap : Text) :
    Text.trim (lead ++ (key ++ (gap ++ ':' :: rest))) = key ++ (gap ++ ':' :: rest.trimEnd) ∧
      rest.trimEnd.isBlank = false ∧ bare rest.trimEnd = bare rest := by
  obtain ⟨front, trail, rfl, htrim, htrail, hlast⟩ := Text.exists_space rest
  have hfront : front.isBlank = false := by
    rwa [isBlank_append, htrail, Bool.and_true] at hrest
  rw [htrim]
  refine ⟨?_, hfront, (bare_append htrail front).symm⟩
  have hsplit : lead ++ (key ++ (gap ++ ':' :: (front ++ trail))) =
      lead ++ (key ++ (gap ++ ':' :: front)) ++ trail := by
    simp only [List.append_assoc, List.cons_append]
  rw [hsplit, Text.trim_between hlead htrail]
  apply Text.trim_eq_self_of_ends
  · cases key with
    | nil => exact absurd rfl hne
    | cons c key =>
      rintro d ⟨⟩
      exact isWhitespace_of_isNameChar (List.all_eq_true.mp hname c List.mem_cons_self)
  · cases front with
    | nil => cases hfront
    | cons c front =>
      have hends : key ++ (gap ++ ':' :: c :: front) = (key ++ (gap ++ [':'])) ++ c :: front := by
        simp only [List.append_assoc, List.singleton_append]
      rwa [hends, List.getLast?_append_cons]

theorem isWrittenAs_trim : entry.IsWrittenAs line.trim ↔ entry.IsWrittenAs line := by
  constructor
  · obtain ⟨before, behind, hbefore, hbehind, hline⟩ := line.exists_trim
    rintro ⟨hne, hname, lead, gap, rest, hparts, hlead, hgap, hrest, hvalue⟩
    refine ⟨hne, hname, before ++ lead, gap, rest ++ behind, ?_, ?_, hgap, ?_, ?_⟩
    · rw [hline, hparts]
      simp only [List.append_assoc, List.cons_append]
    · rw [isBlank_append, hbefore, hlead]
      rfl
    · rw [isBlank_append, hrest]
      rfl
    · rw [hvalue, bare_append hbehind]
  · rintro ⟨hne, hname, lead, gap, rest, rfl, hlead, hgap, hrest, hvalue⟩
    obtain ⟨htrim, hblank, hbare⟩ := trim_line hlead hne hname hrest gap
    rw [htrim]
    exact ⟨hne, hname, [], gap, rest.trimEnd, rfl, rfl, hgap, hblank, by rw [hbare, hvalue]⟩

end Entry

namespace Config

variable {lines first later : List Text} {line : Text} {read : List Entry}

/-- The lines of a block that say something, trimmed. -/
def trimmed (lines : List Text) : List Text :=
  (lines.filter fun line => !line.isBlank).map Text.trim

theorem trimmed_cons_of_isBlank (h : line.isBlank) : trimmed (line :: lines) = trimmed lines := by
  rw [trimmed, List.filter_cons_of_neg (by simp [h]), trimmed]

theorem trimmed_cons (h : line.isBlank = false) :
    trimmed (line :: lines) = line.trim :: trimmed lines := by
  rw [trimmed, List.filter_cons_of_pos (by simp [h]), List.map_cons, trimmed]

theorem entries_of_forall₂
    (h : List.Forall₂ (fun line entry => entry.IsWrittenAs line) (trimmed lines) read) :
    entries lines = .ok read := by
  induction lines generalizing read with
  | nil =>
    cases h
    rfl
  | cons line lines ih =>
    cases hblank : line.isBlank with
    | true =>
      rw [trimmed_cons_of_isBlank hblank] at h
      rw [entries, if_pos hblank, ih h]
    | false =>
      rw [trimmed_cons hblank] at h
      cases h with
      | @cons _ entry _ more hentry hmore =>
        have hparse := Entry.parse?_eq_some_iff.mpr (Entry.isWrittenAs_trim.mp hentry)
        rw [entries, if_neg (by simp [hblank]), hparse]
        simp only [ih hmore, Except.map]

theorem entries_of_malformed (h : trimmed lines = first ++ line :: later)
    (hfirst : ∀ text ∈ first, ∃ entry : Entry, entry.IsWrittenAs text)
    (hline : ∀ entry : Entry, ¬entry.IsWrittenAs line) :
    ∃ found, entries lines = .error (.ofCause (.malformedDirective "config".toList found)) ∧
      Text.trim found = line := by
  induction lines generalizing first with
  | nil => cases first <;> cases h
  | cons text lines ih =>
    cases hblank : text.isBlank with
    | true =>
      rw [trimmed_cons_of_isBlank hblank] at h
      obtain ⟨found, herror, hfound⟩ := ih h hfirst
      exact ⟨found, by rw [entries, if_pos hblank, herror], hfound⟩
    | false =>
      rw [trimmed_cons hblank] at h
      cases first with
      | nil =>
        obtain ⟨rfl, -⟩ := List.cons.inj h
        have hparse : Entry.parse? text = none := by
          apply Option.eq_none_iff_forall_ne_some.mpr
          intro entry hentry
          exact hline entry (Entry.isWrittenAs_trim.mpr (Entry.parse?_eq_some_iff.mp hentry))
        refine ⟨text, ?_, rfl⟩
        rw [entries, if_neg (by simp [hblank]), hparse]
      | cons head first =>
        obtain ⟨rfl, hmore⟩ := List.cons.inj h
        obtain ⟨entry, hentry⟩ := hfirst text.trim List.mem_cons_self
        have hparse := Entry.parse?_eq_some_iff.mpr (Entry.isWrittenAs_trim.mp hentry)
        obtain ⟨found, herror, hfound⟩ :=
          ih hmore fun other hother => hfirst other (List.mem_cons_of_mem _ hother)
        refine ⟨found, ?_, hfound⟩
        rw [entries, if_neg (by simp [hblank]), hparse]
        simp only [herror, Except.map]

end Config

end TemplateCompiler.Directive
