import TemplateCompiler.Name
import TemplateCompiler.Proofs.Scanning

/-!
# Canonical paths

A canonical path is made of word characters and backslashes. The canonical form of a path is
canonical itself: its segments, joined by backslashes, are split into the same segments again.
-/
namespace TemplateCompiler

namespace Unicode

/-- The code points of all white space, one by one. -/
def whitespaceCodes : List Nat :=
  whitespaceRanges.flatMap fun range => List.range' range.1 (range.2 + 1 - range.1)

theorem mem_whitespaceCodes {c : Char} (h : isWhitespace c) : c.toNat ∈ whitespaceCodes := by
  obtain ⟨range, hrange, hbounds⟩ := List.any_eq_true.mp h
  simp only [Bool.and_eq_true, decide_eq_true_eq] at hbounds
  refine List.mem_flatMap.mpr ⟨range, hrange, ?_⟩
  rw [List.mem_range'_1]
  omega

theorem isWhitespace_of_codes {p : Char → Bool} {c : Char}
    (hcodes : ∀ code ∈ whitespaceCodes, p (Char.ofNat code) = false) (h : p c) :
    isWhitespace c = false := by
  apply Bool.eq_false_iff.mpr
  intro hblank
  have hnone := hcodes c.toNat (mem_whitespaceCodes hblank)
  rw [Char.ofNat_toNat, h] at hnone
  cases hnone

end Unicode

theorem isWhitespace_of_isWordChar {c : Char} (h : isWordChar c) :
    Unicode.isWhitespace c = false :=
  Unicode.isWhitespace_of_codes (by decide +kernel) h

namespace Text

theorem dropWhile_eq_self {p : Char → Bool} {text : Text} (h : ∀ c ∈ text, p c = false) :
    text.dropWhile p = text := by
  cases text with
  | nil => rfl
  | cons c rest => rw [List.dropWhile_cons, h c List.mem_cons_self, if_neg Bool.false_ne_true]

theorem trim_eq_self {text : Text} (h : ∀ c ∈ text, Unicode.isWhitespace c = false) :
    text.trim = text := by
  have hreverse : ∀ c ∈ text.reverse, Unicode.isWhitespace c = false :=
    fun c hc => h c (List.mem_reverse.mp hc)
  rw [trim, trimStart, dropWhile_eq_self h, trimEnd, dropWhile_eq_self hreverse,
    List.reverse_reverse]

variable {isSeparator : Char → Bool}

theorem split_ne_nil (text : Text) : split isSeparator text ≠ [] := by
  cases text with
  | nil => simp [split]
  | cons c rest =>
    rw [split]
    split
    · simp
    · cases split isSeparator rest <;> simp [consFirst]

theorem split_append_cons {part : Text} {c : Char} (hpart : ∀ d ∈ part, isSeparator d = false)
    (hc : isSeparator c) (rest : Text) :
    split isSeparator (part ++ c :: rest) = part :: split isSeparator rest := by
  induction part with
  | nil => simp [split, hc]
  | cons d part ih =>
    have hd := hpart d List.mem_cons_self
    rw [List.cons_append, split, if_neg (by simp [hd]),
      ih fun x hx => hpart x (List.mem_cons_of_mem d hx)]
    rfl

theorem split_eq_singleton {part : Text} (hpart : ∀ d ∈ part, isSeparator d = false) :
    split isSeparator part = [part] := by
  induction part with
  | nil => rfl
  | cons d part ih =>
    have hd := hpart d List.mem_cons_self
    rw [split, if_neg (by simp [hd]), ih fun x hx => hpart x (List.mem_cons_of_mem d hx)]
    rfl

theorem split_join {c : Char} (hc : isSeparator c) {parts : List Text} (hne : parts ≠ [])
    (hparts : ∀ part ∈ parts, ∀ d ∈ part, isSeparator d = false) :
    split isSeparator (join [c] parts) = parts := by
  induction parts with
  | nil => exact absurd rfl hne
  | cons first parts ih =>
    have hfirst := hparts first List.mem_cons_self
    cases parts with
    | nil => rw [join_singleton, split_eq_singleton hfirst]
    | cons second parts =>
      have hrest := ih (List.cons_ne_nil _ _) fun part hpart =>
        hparts part (List.mem_cons_of_mem _ hpart)
      rw [join_cons_cons, List.singleton_append, split_append_cons hfirst hc, hrest]

theorem mem_join {separator : Text} {parts : List Text} {c : Char}
    (h : c ∈ join separator parts) : c ∈ separator ∨ ∃ part ∈ parts, c ∈ part := by
  induction parts with
  | nil => simp [join, List.intercalate] at h
  | cons first parts ih =>
    cases parts with
    | nil =>
      rw [join_singleton] at h
      exact Or.inr ⟨first, List.mem_cons_self, h⟩
    | cons second parts =>
      rw [join_cons_cons, List.mem_append, List.mem_append] at h
      rcases h with h | h | h
      · exact Or.inr ⟨first, List.mem_cons_self, h⟩
      · exact Or.inl h
      · rcases ih h with h | ⟨part, hpart, h⟩
        · exact Or.inl h
        · exact Or.inr ⟨part, List.mem_cons_of_mem _ hpart, h⟩

end Text

namespace HandlerPath

theorem exists_segments {path canonical : Text} (h : canonical? path = some canonical) :
    ∃ segments : List Text, segments ≠ [] ∧ (∀ segment ∈ segments, isSegment segment) ∧
      canonical = Text.join [pathSeparator] segments := by
  unfold canonical? at h
  simp only at h
  split at h
  · rename_i hall
    cases h
    exact ⟨_, Text.split_ne_nil _, List.all_eq_true.mp hall, rfl⟩
  · cases h

theorem isWordChar_of_isSegment {segment : Text} (h : isSegment segment) :
    segment ≠ [] ∧ ∀ c ∈ segment, isWordChar c := by
  rw [isSegment, Bool.and_eq_true] at h
  exact ⟨by simpa using h.1, List.all_eq_true.mp h.2⟩

theorem isWordChar_of_canonical? {path canonical : Text} (h : canonical? path = some canonical) :
    ∀ c ∈ canonical, isWordChar c ∨ c = pathSeparator := by
  obtain ⟨segments, -, hsegments, rfl⟩ := exists_segments h
  intro c hc
  rcases Text.mem_join hc with hc | ⟨segment, hsegment, hc⟩
  · exact Or.inr (List.mem_singleton.mp hc)
  · exact Or.inl ((isWordChar_of_isSegment (hsegments segment hsegment)).2 c hc)

theorem isSeparator_of_isWordChar {c : Char} (h : isWordChar c) : isSeparator c = false := by
  have hseparators : ['\\', '.', '/'].any isWordChar = false := by decide
  apply Bool.eq_false_iff.mpr
  intro hseparator
  have hmem : c ∈ ['\\', '.', '/'] := by
    simpa [isSeparator, or_assoc] using hseparator
  exact List.any_eq_false.mp hseparators c hmem h

theorem canonical?_of_canonical? {path canonical : Text} (h : canonical? path = some canonical) :
    canonical? canonical = some canonical := by
  have htrim : canonical.trim = canonical := by
    apply Text.trim_eq_self
    intro c hc
    rcases isWordChar_of_canonical? h c hc with hword | rfl
    · exact isWhitespace_of_isWordChar hword
    · decide
  obtain ⟨segments, hne, hsegments, hjoin⟩ := exists_segments h
  have hsplit : Text.split isSeparator canonical = segments := by
    rw [hjoin]
    refine Text.split_join (by decide) hne fun segment hsegment c hc => ?_
    exact isSeparator_of_isWordChar ((isWordChar_of_isSegment (hsegments segment hsegment)).2 c hc)
  -- A path that began with a backslash would have an empty segment first.
  have hdrop : canonical.dropWhile (· == pathSeparator) = canonical := by
    cases hcanonical : canonical with
    | nil => rfl
    | cons c rest =>
      have hc : c ≠ pathSeparator := by
        rintro rfl
        have hfirst : [] ∈ segments := by
          rw [← hsplit, hcanonical]
          exact List.mem_cons_self
        exact (isWordChar_of_isSegment (hsegments [] hfirst)).1 rfl
      rw [List.dropWhile_cons, if_neg (by simpa using hc)]
  rw [canonical?, htrim, hdrop, hsplit, if_pos (List.all_eq_true.mpr hsegments), ← hjoin]

end HandlerPath

end TemplateCompiler
