import Mathlib.Data.List.TakeWhile
import TemplateCompiler.Interpolation
import TemplateCompiler.Proofs.ShownPositions

/-!
# The pieces of an attribute text

An attribute text is divided from left to right: an opening tag and the next closing one stand
around an expression, unless there is nothing but white space between them, and all else is
literal. This says so without a scan, and that the scan makes this division and there is no other.
-/
namespace TemplateCompiler

theorem Text.trim_eq_nil_iff {text : Text} : text.trim = [] ↔ text.isBlank := by
  rw [isBlank, List.all_eq_true, ← List.dropWhile_eq_nil_iff, trim, trimEnd,
    List.reverse_eq_nil_iff, trimStart]
  constructor
  · intro hend
    have hfirst := List.head?_dropWhile_not Unicode.isWhitespace text
    cases hstart : text.dropWhile Unicode.isWhitespace with
    | nil => rfl
    | cons c rest =>
      have hblank : Unicode.isWhitespace c := by
        apply List.dropWhile_eq_nil_iff.mp hend
        rw [hstart]
        exact List.mem_reverse.mpr List.mem_cons_self
      rw [hstart, List.head?_cons] at hfirst
      exact absurd hblank (by simpa using hfirst)
  · intro hstart
    rw [hstart]
    rfl

theorem Text.OccursFirst.eq {piece text before before' : Text} (h : OccursFirst piece text before)
    (h' : OccursFirst piece text before') : before = before' := by
  obtain ⟨⟨_, htext⟩, hfirst⟩ := h
  obtain ⟨⟨_, htext'⟩, hfirst'⟩ := h'
  have hprefix := hfirst _ _ htext'
  exact hprefix.eq_of_length_le (hfirst' _ _ htext).length_le

theorem Text.occursFirst_of_cut? {pattern text before after : Text}
    (h : cut? pattern text = some (before, after)) : OccursFirst pattern text before :=
  ⟨⟨after, cut?_eq h⟩, fun _ _ => prefix_of_cut? h⟩

namespace Interpolation

variable {tags : Text × Text} {text before inner after : Text}

structure FirstPair (tags : Text × Text) (text before inner after : Text) : Prop where
  text_eq : text = before ++ tags.1 ++ (inner ++ tags.2 ++ after)
  opening : tags.1.OccursFirst text before
  closing : tags.2.OccursFirst (inner ++ tags.2 ++ after) inner

/-- The division of a text into pieces. -/
inductive Divides (tags : Text × Text) : Text → List Piece → Prop
  | done : Divides tags [] []
  /-- No opening tag has a closing one behind it. -/
  | rest {text : Text} (hne : text ≠ [])
      (hnone : ∀ before inner after, text ≠ before ++ tags.1 ++ (inner ++ tags.2 ++ after)) :
      Divides tags text [.literal text]
  /-- Tags around nothing but white space. -/
  | blank {text before inner after : Text} {pieces : List Piece}
      (hpair : FirstPair tags text before inner after) (hblank : inner.isBlank)
      (h : Divides tags after pieces) :
      Divides tags text (.literal before :: .literal (tags.1 ++ inner ++ tags.2) :: pieces)
  | embedded {text before inner after : Text} {pieces : List Piece}
      (hpair : FirstPair tags text before inner after) (hexpression : inner.isBlank = false)
      (h : Divides tags after pieces) :
      Divides tags text (.literal before :: .embedded inner.trim :: pieces)

namespace FirstPair

theorem length_lt (h : FirstPair tags text before inner after) (htags : tags ≠ ([], [])) :
    after.length < text.length := by
  have hlength := congrArg List.length h.text_eq
  simp only [List.length_append] at hlength
  have hpos : 0 < tags.1.length + tags.2.length := by
    rw [Nat.pos_iff_ne_zero, ne_eq, Nat.add_eq_zero_iff, List.length_eq_zero_iff,
      List.length_eq_zero_iff]
    exact fun hnil => htags (Prod.ext hnil.1 hnil.2)
  omega

theorem unique {before' inner' after' : Text} (h : FirstPair tags text before inner after)
    (h' : FirstPair tags text before' inner' after') :
    before' = before ∧ inner' = inner ∧ after' = after := by
  obtain rfl := h.opening.eq h'.opening
  have hrest := h.text_eq.symm.trans h'.text_eq
  rw [List.append_cancel_left_eq] at hrest
  have hinner : inner = inner' := by
    have hclosing := h'.closing
    rw [← hrest] at hclosing
    exact h.closing.eq hclosing
  subst hinner
  rw [List.append_cancel_left_eq] at hrest
  exact ⟨rfl, rfl, hrest.symm⟩

end FirstPair

theorem Divides.unique (htags : tags ≠ ([], [])) {pieces other : List Piece}
    (h : Divides tags text pieces) (hother : Divides tags text other) : other = pieces := by
  have hnil {before inner after : Text} : ¬FirstPair tags [] before inner after :=
    fun hpair => Nat.not_lt_zero _ (hpair.length_lt htags)
  induction h generalizing other with
  | done =>
    cases hother with
    | done => rfl
    | rest hne _ => exact absurd rfl hne
    | blank hpair _ _ => exact absurd hpair hnil
    | embedded hpair _ _ => exact absurd hpair hnil
  | rest hne hnone =>
    cases hother with
    | done => exact absurd rfl hne
    | rest _ _ => rfl
    | blank hpair _ _ => exact absurd hpair.text_eq (hnone _ _ _)
    | embedded hpair _ _ => exact absurd hpair.text_eq (hnone _ _ _)
  | blank hpair hblank _ ih =>
    cases hother with
    | done => exact absurd hpair hnil
    | rest _ hnone => exact absurd hpair.text_eq (hnone _ _ _)
    | blank hpair' _ h' =>
      obtain ⟨rfl, rfl, rfl⟩ := hpair.unique hpair'
      rw [ih h']
    | embedded hpair' hexpression _ =>
      obtain ⟨rfl, rfl, rfl⟩ := hpair.unique hpair'
      rw [hblank] at hexpression
      cases hexpression
  | embedded hpair hexpression _ ih =>
    cases hother with
    | done => exact absurd hpair hnil
    | rest _ hnone => exact absurd hpair.text_eq (hnone _ _ _)
    | blank hpair' hblank _ =>
      obtain ⟨rfl, rfl, rfl⟩ := hpair.unique hpair'
      rw [hblank] at hexpression
      cases hexpression
    | embedded hpair' _ h' =>
      obtain ⟨rfl, rfl, rfl⟩ := hpair.unique hpair'
      rw [ih h']

/-- What a step of the scan does: it takes all of the text, or the first pair of tags and what
stands before it. -/
theorem step_cases (tags : Text × Text) (text : Text) :
    (step tags text = ([.literal text], []) ∧
      ∀ before inner after, text ≠ before ++ tags.1 ++ (inner ++ tags.2 ++ after)) ∨
    ∃ before inner after, FirstPair tags text before inner after ∧
      step tags text = ([.literal before, if inner.isBlank then .literal (tags.1 ++ inner ++ tags.2)
        else .embedded inner.trim], after) := by
  cases hopen : Text.cut? tags.1 text with
  | none =>
    left
    constructor
    · rw [step, hopen]
    · intro before inner after htext
      obtain ⟨first, rest, hcut⟩ := Text.exists_cut? htext
      rw [hopen] at hcut
      cases hcut
  | some found =>
    obtain ⟨before, opened⟩ := found
    have htext := Text.cut?_eq hopen
    cases hclose : Text.cut? tags.2 opened with
    | none =>
      left
      constructor
      · rw [step, hopen]
        simp only [hclose]
      · intro earlier inner after hpair
        -- The first opening tag stands no later, so the closing one stands behind it too.
        obtain ⟨between, rfl⟩ := Text.prefix_of_cut? hopen hpair
        have hsame : tags.1 ++ opened = between ++ tags.1 ++ (inner ++ tags.2 ++ after) := by
          rw [htext] at hpair
          simpa only [List.append_assoc, List.append_cancel_left_eq] using hpair
        have hlength := congrArg List.length hsame
        have hrest : inner ++ tags.2 ++ after <:+ opened := by
          refine List.suffix_of_suffix_length_le ⟨between ++ tags.1, hsame.symm⟩
            (List.suffix_append tags.1 opened) ?_
          simp only [List.length_append] at hlength ⊢
          omega
        obtain ⟨front, hfront⟩ := hrest
        have hopened : opened = (front ++ inner) ++ tags.2 ++ after := by
          rw [← hfront]
          simp only [List.append_assoc]
        obtain ⟨first, later, hcut⟩ := Text.exists_cut? hopened
        rw [hclose] at hcut
        cases hcut
    | some found =>
      obtain ⟨inner, after⟩ := found
      right
      have hopened := Text.cut?_eq hclose
      refine ⟨before, inner, after, ⟨?_, Text.occursFirst_of_cut? hopen, ?_⟩, ?_⟩
      · rw [htext, hopened]
      · rw [← hopened]
        exact Text.occursFirst_of_cut? hclose
      · have hblank : inner.trim.isEmpty = inner.isBlank := by
          rw [Bool.eq_iff_iff, List.isEmpty_iff, Text.trim_eq_nil_iff]
        rw [step, hopen]
        simp only [hclose, hblank]

/-- The scan divides a text, unless both tags are empty, when it would not come to an end. -/
theorem divides_pieces (htags : tags ≠ ([], [])) (text : Text) :
    Divides tags text (pieces tags text) := by
  fun_induction pieces tags text with
  | case1 text hempty =>
    rw [List.isEmpty_iff.mp hempty]
    exact .done
  | case2 text hempty first after hstep hlength ih =>
    rcases step_cases tags text with ⟨hrest, hnone⟩ | ⟨before, inner, behind, hpair, hfirst⟩
    · rw [hstep] at hrest
      cases hrest
      have hnil : pieces tags [] = [] := by
        rw [pieces]
        rfl
      rw [hnil, List.append_nil]
      exact .rest (fun hnil => hempty (List.isEmpty_iff.mpr hnil)) hnone
    · rw [hstep] at hfirst
      cases hfirst
      cases hblank : inner.isBlank with
      | true => exact .blank hpair hblank ih
      | false => exact .embedded hpair hblank ih
  | case3 text hempty first after hstep hlength =>
    exfalso
    have hne : 0 < text.length := List.length_pos_iff.mpr fun hnil =>
      hempty (List.isEmpty_iff.mpr hnil)
    rcases step_cases tags text with ⟨hrest, -⟩ | ⟨before, inner, behind, hpair, hfirst⟩
    · rw [hstep] at hrest
      cases hrest
      exact hlength hne
    · rw [hstep] at hfirst
      cases hfirst
      exact hlength (hpair.length_lt htags)

/-- Puts a piece in front of others, as a part of the first of them if both are literal. -/
def addFirst : Piece → List Piece → List Piece
  | .literal [], pieces => pieces
  | .literal text, .literal more :: pieces => .literal (text ++ more) :: pieces
  | piece, pieces => piece :: pieces

/-- The pieces with neighbouring literal ones merged and empty ones left out. -/
def merged (pieces : List Piece) : List Piece := pieces.foldr addFirst []

@[simp] theorem addFirst_nil (pieces : List Piece) : addFirst (.literal []) pieces = pieces := by
  cases pieces <;> rfl

theorem addFirst_cons (c : Char) (text : Text) (pieces : List Piece) :
    addFirst (.literal (c :: text)) pieces =
      addFirst (.literal [c]) (addFirst (.literal text) pieces) := by
  cases text with
  | nil => rw [addFirst_nil]
  | cons d text => rcases pieces with _ | ⟨more | expression, pieces⟩ <;> rfl

theorem merged_filter (pieces : List Piece) :
    merged (pieces.filter (· ≠ .literal [])) = merged pieces := by
  induction pieces with
  | nil => rfl
  | cons piece pieces ih =>
    by_cases hempty : piece = .literal []
    · have hpiece : merged (piece :: pieces) = merged pieces := by
        rw [merged, List.foldr_cons, hempty, addFirst_nil]
        rfl
      rw [List.filter_cons_of_neg (by simpa using hempty), ih, hpiece]
    · have hpieces (rest : List Piece) :
          merged (piece :: rest) = addFirst piece (merged rest) := rfl
      rw [List.filter_cons_of_pos (by simpa using hempty), hpieces, hpieces, ih]

theorem addFirst_eq_nil {piece : Piece} {pieces : List Piece} (h : addFirst piece pieces = []) :
    piece = .literal [] := by
  unfold addFirst at h
  split at h
  · rfl
  · cases h
  · cases h

/-- An expression is left alone by merging only if there is nothing else. -/
theorem filter_of_merged {pieces : List Piece} {expression : Text}
    (h : merged pieces = [.embedded expression]) :
    pieces.filter (· ≠ .literal []) = [.embedded expression] := by
  rw [← merged_filter] at h
  have hne : ∀ piece ∈ pieces.filter (· ≠ .literal []), piece ≠ .literal [] :=
    fun piece hpiece => by simpa using (List.mem_filter.mp hpiece).2
  cases hpieces : pieces.filter (· ≠ .literal []) with
  | nil =>
    rw [hpieces] at h
    cases h
  | cons first rest =>
    rw [hpieces] at h hne
    rw [List.forall_mem_cons] at hne
    rw [merged, List.foldr_cons] at h
    cases first with
    | literal text =>
      unfold addFirst at h
      split at h
      · rename_i hempty
        exact absurd hempty hne.1
      · cases h
      · cases h
    | embedded first =>
      have hrest : rest.foldr addFirst [] = [] := (List.cons.inj h).2
      cases rest with
      | nil => exact h
      | cons second rest =>
        exact absurd (addFirst_eq_nil hrest) (List.forall_mem_cons.mp hne.2).1

end Interpolation

end TemplateCompiler
