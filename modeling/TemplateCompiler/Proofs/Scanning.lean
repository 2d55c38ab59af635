import TemplateCompiler.Text.Basic

/-!
# Scanning a text

What a scan for characters of some kind reads of two texts put together, and where a pattern may
occur in them: in either of the two, or over the seam.
-/
namespace TemplateCompiler.Text

variable {p : Char → Bool} {text more : Text}

theorem not_mem_of_all {x : Char} (hx : p x = false) (h : ∀ c ∈ text, p c) : x ∉ text := by
  intro hmem
  rw [h x hmem] at hx
  cases hx

theorem not_mem_takeWhile {x : Char} (hx : p x = false) (text : Text) : x ∉ text.takeWhile p :=
  not_mem_of_all hx (List.all_eq_true.mp List.all_takeWhile)

theorem takeWhile_append_of_ne_nil (h : text.dropWhile p ≠ []) :
    (text ++ more).takeWhile p = text.takeWhile p := by
  rw [List.takeWhile_append, if_neg]
  intro hlength
  have hparts := congrArg List.length (@List.takeWhile_append_dropWhile _ p text)
  rw [List.length_append, hlength] at hparts
  exact h (List.length_eq_zero_iff.mp (by omega))

theorem dropWhile_append_of_ne_nil (h : text.dropWhile p ≠ []) :
    (text ++ more).dropWhile p = text.dropWhile p ++ more := by
  rw [List.dropWhile_append, if_neg (by simpa using h)]

theorem dropWhile_append_of_eq_nil (h : text.dropWhile p = []) :
    (text ++ more).dropWhile p = more.dropWhile p := by
  rw [List.dropWhile_append, if_pos (by simpa using h)]

theorem takeWhile_append_cons {c : Char} (hc : p c = false) (text more : Text) :
    (text ++ c :: more).takeWhile p = text.takeWhile p ∧
      (text ++ c :: more).dropWhile p = text.dropWhile p ++ c :: more := by
  induction text with
  | nil => simp [hc]
  | cons d text ih => by_cases hd : p d <;> simp [hd, ih]

theorem after?_append_cons {c : Char} {lead : Text} (h : c ∉ lead) (text more : Text) :
    after? lead (text ++ c :: more) = (after? lead text).map (· ++ c :: more) := by
  induction lead generalizing text with
  | nil => rfl
  | cons a lead ih =>
    rw [List.mem_cons, not_or] at h
    cases text with
    | nil => simp [after?, Ne.symm h.1]
    | cons b text =>
      by_cases hab : a = b
      · simpa [after?, hab] using ih h.2 text
      · simp [after?, hab]

theorem after?_eq_none {c : Char} {lead : Text} (hne : text ≠ []) (h : c ∉ text) (more : Text) :
    after? (c :: lead) (text ++ more) = none := by
  cases text with
  | nil => exact absurd rfl hne
  | cons d text =>
    have hcd : ¬c = d := by
      rintro rfl
      exact h List.mem_cons_self
    exact if_neg hcd

theorem append_of_eq {whole first second : Text} (h : whole = first ++ second) (rest : Text) :
    whole ++ rest = first ++ (second ++ rest) := by
  rw [h, List.append_assoc]

theorem takeWhile_word {p : Char → Bool} {word rest : Text} {c : Char}
    (hword : word.all p = true) (hc : p c = false) :
    (word ++ c :: rest).takeWhile p = word ∧ (word ++ c :: rest).dropWhile p = c :: rest := by
  have hall := List.all_eq_true.mp hword
  rw [List.takeWhile_append_of_pos hall, List.dropWhile_append_of_pos hall]
  simp [hc]

/-- A suffix of two texts put together lies in the second or begins in the first. -/
theorem suffix_append {rest first second : Text} (h : rest <:+ first ++ second) :
    rest <:+ second ∨ ∃ tail, tail <:+ first ∧ rest = tail ++ second := by
  obtain ⟨before, hbefore⟩ := h
  rcases List.append_eq_append_iff.mp hbefore with ⟨tail, hfirst, hrest⟩ | ⟨between, -, hsecond⟩
  · exact Or.inr ⟨tail, ⟨before, hfirst.symm⟩, hrest⟩
  · exact Or.inl ⟨between, hsecond.symm⟩

theorem contains_eq_false_iff {pattern text : Text} :
    text.contains pattern = false ↔ ∀ rest, rest <:+ text → after? pattern rest = none := by
  induction text with
  | nil => cases pattern <;> simp [contains, cut?, after?]
  | cons c text ih =>
    have hcut : contains (c :: text) pattern = false ↔
        after? pattern (c :: text) = none ∧ contains text pattern = false := by
      cases hafter : after? pattern (c :: text) <;> simp [contains, cut?, hafter]
    rw [hcut, ih]
    constructor
    · rintro ⟨hstart, hlater⟩ rest hrest
      rcases List.suffix_cons_iff.mp hrest with rfl | hrest
      · exact hstart
      · exact hlater rest hrest
    · intro h
      exact ⟨h _ (List.suffix_refl _),
        fun rest hrest => h rest (hrest.trans (List.suffix_cons _ _))⟩

theorem contains_of_suffix {pattern text rest : Text} (h : text.contains pattern = false)
    (hrest : rest <:+ text) : rest.contains pattern = false := by
  rw [contains_eq_false_iff] at h ⊢
  intro rest' hrest'
  exact h rest' (hrest'.trans hrest)

theorem contains_iff {pattern text : Text} : text.contains pattern ↔ pattern <:+: text := by
  rw [← Bool.not_eq_false, contains_eq_false_iff]
  constructor
  · intro h
    apply Classical.byContradiction
    intro hnone
    apply h
    intro rest hrest
    cases hafter : after? pattern rest with
    | none => rfl
    | some later =>
      rw [after?_eq_some_iff.mp hafter] at hrest
      exact absurd ((List.prefix_append _ _).isInfix.trans hrest.isInfix) hnone
  · rintro ⟨before, later, htext⟩ h
    have hrest : pattern ++ later <:+ text := ⟨before, by rw [← htext, List.append_assoc]⟩
    have hafter := h _ hrest
    rw [after?_append] at hafter
    cases hafter

theorem not_contains_iff {pattern text : Text} :
    text.contains pattern = false ↔ ¬pattern <:+: text := by
  rw [← Bool.not_eq_true, contains_iff]

theorem contains_of_infix {pattern text piece : Text} (h : text.contains pattern = false)
    (hpiece : piece <:+: text) : piece.contains pattern = false := by
  rw [not_contains_iff] at h ⊢
  exact fun hpattern => h (hpattern.trans hpiece)

theorem contains_of_longer {pattern longer text : Text} (h : text.contains pattern = false)
    (hlonger : pattern <:+: longer) : text.contains longer = false := by
  rw [not_contains_iff] at h ⊢
  exact fun hpattern => h (hlonger.trans hpattern)

theorem contains_of_not_mem {pattern text : Text} {c : Char} (hc : c ∈ pattern) (h : c ∉ text) :
    text.contains pattern = false :=
  not_contains_iff.mpr fun hpattern => h (hpattern.subset hc)

theorem trim_infix (text : Text) : text.trim <:+: text := by
  have hstart : text.trimStart <:+ text := List.dropWhile_suffix _
  have hend : text.trimStart.trimEnd <+: text.trimStart := by
    rw [trimEnd, ← List.reverse_suffix, List.reverse_reverse]
    exact List.dropWhile_suffix _
  exact hend.isInfix.trans hstart.isInfix

theorem exists_trim (text : Text) :
    ∃ before after : Text, before.isBlank ∧ after.isBlank ∧
      text = before ++ text.trim ++ after := by
  have hblank (x : Text) : (x.takeWhile Unicode.isWhitespace).all Unicode.isWhitespace :=
    List.all_takeWhile
  refine ⟨text.takeWhile Unicode.isWhitespace,
    (text.trimStart.reverse.takeWhile Unicode.isWhitespace).reverse, hblank text, ?_, ?_⟩
  · rw [isBlank, List.all_reverse]
    exact hblank _
  · rw [List.append_assoc, trim, trimEnd, ← List.reverse_append, List.takeWhile_append_dropWhile,
      List.reverse_reverse, trimStart, List.takeWhile_append_dropWhile]

/-- No occurrence of a pattern runs over a character that the pattern does not have. -/
theorem contains_append_cons {pattern first second : Text} {c : Char} (hc : c ∉ pattern)
    (hfirst : first.contains pattern = false) (hsecond : second.contains pattern = false) :
    contains (first ++ c :: second) pattern = false := by
  rw [contains_eq_false_iff] at hfirst hsecond ⊢
  intro rest hrest
  rcases suffix_append hrest with hlater | ⟨tail, htail, rfl⟩
  · rcases List.suffix_cons_iff.mp hlater with rfl | hlater
    · have hnil := after?_append_cons hc [] second
      rwa [hfirst [] (List.nil_suffix), Option.map_none] at hnil
    · exact hsecond rest hlater
  · rw [after?_append_cons hc, hfirst tail htail, Option.map_none]

/-- A pattern that a piece of text does not hold, and that cannot run over the character behind the
piece, occurs behind that character only. -/
theorem occurs_behind {lead passed more first later : Text} {c : Char} (hc : c ∉ lead)
    (hpassed : passed.contains lead = false)
    (h : first ++ (lead ++ later) = passed ++ c :: more) :
    ∃ between, first = passed ++ c :: between ∧ between ++ (lead ++ later) = more := by
  rcases List.append_eq_append_iff.mp h with ⟨tail, rfl, hlater⟩ | ⟨between, rfl, hmore⟩
  · have hstart := contains_eq_false_iff.mp hpassed tail (List.suffix_append first tail)
    have hnone := after?_append_cons hc tail more
    rw [← hlater, after?_append, hstart] at hnone
    cases hnone
  · cases lead with
    | nil => cases contains_eq_false_iff.mp hpassed [] List.nil_suffix
    | cons a lead =>
      cases between with
      | nil =>
        obtain ⟨rfl, -⟩ := List.cons.inj hmore
        exact absurd List.mem_cons_self hc
      | cons d between =>
        obtain ⟨rfl, hlater⟩ := List.cons.inj hmore
        exact ⟨between, rfl, hlater.symm⟩

theorem cut?_of_not_mem {c : Char} (h : c ∉ text) (rest : Text) :
    cut? [c] (text ++ c :: rest) = some (text, rest) := by
  induction text with
  | nil => simp [cut?, after?]
  | cons d text ih =>
    rw [List.mem_cons, not_or] at h
    simp [cut?, after?, h.1, ih h.2]

theorem join_cons_cons (separator first second : Text) (parts : List Text) :
    join separator (first :: second :: parts) =
      first ++ (separator ++ join separator (second :: parts)) := by
  simp [join, List.intercalate, List.intersperse]

theorem join_singleton (separator part : Text) : join separator [part] = part := by
  simp [join, List.intercalate]

end TemplateCompiler.Text
