import Mathlib.Order.Bounds.Defs
import TemplateCompiler.Proofs.CanonicalPath
import TemplateCompiler.Proofs.SimpleCallSites
import TemplateCompiler.Proofs.TagTiling

/-!
# White space claimed before a construct

A construct claims as much of the white space before it as it may: nothing before the floor, where
the last rewrite ended, and nothing that would leave a word glued to the code generated for it.
Which offsets the claim may begin at is said of the whole text, below the floor included; the claim
begins at the least of them.
-/
namespace TemplateCompiler

namespace Text

variable {text part whole : Text}

theorem size_le_of_suffix (h : part <:+ whole) : part.size ≤ whole.size := by
  obtain ⟨more, rfl⟩ := h
  rw [size_append]
  exact Nat.le_add_left _ _

theorem suffix_of_size_le (hpart : part <:+ text) (hwhole : whole <:+ text)
    (hsize : part.size ≤ whole.size) : part <:+ whole := by
  rcases List.suffix_or_suffix_of_suffix hpart hwhole with h | ⟨more, rfl⟩
  · exact h
  · have hlength := length_le_size more
    rw [size_append] at hsize
    obtain rfl : more = [] := List.eq_nil_of_length_eq_zero (by omega)
    exact List.suffix_refl whole

end Text

theorem Place.before_suffix {first second : Place} (htext : first.text = second.text)
    (h : first.offset ≤ second.offset) : first.before <:+ second.before := by
  have hbefore (place : Place) : place.before <:+ place.text.reverse := by
    rw [Place.text, List.reverse_append, List.reverse_reverse]
    exact List.suffix_append _ _
  exact Text.suffix_of_size_le (hbefore first) (htext ▸ hbefore second) h

namespace Layout

/-- White space before a place may be claimed from an offset of the text on: the offset is between
characters, what stands from it up to the place is white space, and no word ends at it. -/
def Claimable (place : Place) (start : Nat) : Prop :=
  ∃ (boundary : Place) (space : Text), Place.ofOffset? place.text start = some boundary ∧
    place.before.reverse = boundary.before.reverse ++ space ∧ space.isBlank ∧
    boundary.previous.any isWordChar = false

variable {place : Place} {kept space : Text}

theorem claimable_iff {start : Nat} : Claimable place start ↔
    ∃ space, space <:+ place.before.reverse ∧ start + Text.size space = place.offset ∧
      space.all Unicode.isWhitespace ∧
      (place.before.drop space.length).head?.any isWordChar = false := by
  constructor
  · rintro ⟨boundary, space, hboundary, hbefore, hblank, hword⟩
    obtain ⟨-, rfl⟩ := Place.eq_of_ofOffset? hboundary
    have hsize := congrArg Text.size hbefore
    rw [Text.size_append, Text.size_reverse, Text.size_reverse] at hsize
    have hdrop : place.before.drop space.length = boundary.before := by
      rw [← List.reverse_reverse place.before, hbefore, List.reverse_append, List.reverse_reverse,
        ← List.length_reverse, List.drop_left]
    exact ⟨space, ⟨_, hbefore.symm⟩, hsize.symm, hblank, by rwa [hdrop]⟩
  · rintro ⟨space, ⟨left, hleft⟩, hoffset, hblank, hword⟩
    have hbefore : place.before = space.reverse ++ left.reverse := by
      rw [← List.reverse_append, hleft, List.reverse_reverse]
    have htext : (⟨left.reverse, space ++ place.rest⟩ : Place).text = place.text := by
      rw [Place.text, Place.text, ← hleft, List.reverse_reverse, List.append_assoc]
    have hstart : (⟨left.reverse, space ++ place.rest⟩ : Place).offset = start := by
      show Text.size left.reverse = start
      rw [Place.offset, hbefore, Text.size_append, Text.size_reverse] at hoffset
      omega
    rw [hbefore, ← List.length_reverse, List.drop_left] at hword
    refine ⟨⟨left.reverse, space ++ place.rest⟩, space, ?_, ?_, hblank, hword⟩
    · rw [← htext, ← hstart, Place.ofOffset?_offset]
    · rw [List.reverse_reverse, hleft]

theorem lead?_eq_none_iff (before : Text) (fresh : Nat) :
    lead? before fresh = none ↔ before.head?.any isWordChar := by
  constructor
  · intro h
    unfold lead? at h
    simp only at h
    split at h
    · rename_i hword
      split at h
      · rename_i hrun
        rwa [List.reverse_eq_nil_iff.mp hrun] at hword
      · cases h
    · cases h
  · intro h
    -- A word character is no white space, so the run of white space is empty.
    have hrun : (before.take fresh).takeWhile Unicode.isWhitespace = [] := by
      cases before with
      | nil => cases h
      | cons c before =>
        cases fresh with
        | zero => rfl
        | succ fresh =>
          rw [List.take_succ_cons, List.takeWhile_cons_of_neg]
          rw [isWhitespace_of_isWordChar h]
          exact Bool.false_ne_true
    unfold lead?
    rw [hrun]
    exact if_pos h

theorem unglued_claimed (hglued : place.previous.any isWordChar = false)
    (hkept : kept.reverse = place.before.take kept.length) :
    (place.before.drop (claimed place kept).length).head?.any isWordChar = false := by
  have hrun : kept.reverse.takeWhile Unicode.isWhitespace <+: place.before :=
    (List.takeWhile_prefix _).trans (hkept ▸ List.take_prefix _ _)
  unfold claimed
  generalize hspace : (kept.reverse.takeWhile Unicode.isWhitespace).reverse = space
  have hblank : ∀ c ∈ space, Unicode.isWhitespace c := by
    rw [← hspace]
    exact fun c hc => List.all_eq_true.mp List.all_takeWhile c (List.mem_reverse.mp hc)
  rw [← List.reverse_reverse (kept.reverse.takeWhile _), hspace] at hrun
  simp only
  split
  · rename_i hword
    cases space with
    | nil => exact absurd hword (Bool.eq_false_iff.mp hglued)
    | cons c tail =>
      obtain ⟨more, hmore⟩ := hrun
      rw [List.tail_cons, ← hmore, List.reverse_cons, List.append_assoc, ← List.length_reverse,
        List.drop_left]
      apply Bool.eq_false_iff.mpr
      intro hc
      have hspace := hblank c List.mem_cons_self
      rw [isWhitespace_of_isWordChar hc] at hspace
      cases hspace
  · rename_i hword
    exact Bool.eq_false_iff.mpr hword

theorem length_le_claimed (hspace : space <:+ kept) (hblank : space.all Unicode.isWhitespace)
    (hword : (place.before.drop space.length).head?.any isWordChar = false) :
    space.length ≤ (claimed place kept).length := by
  have hrun : space.length ≤ (kept.reverse.takeWhile Unicode.isWhitespace).reverse.length := by
    obtain ⟨more, rfl⟩ := hspace
    rw [List.reverse_append, List.takeWhile_append_of_pos, List.length_reverse, List.length_append,
      List.length_reverse]
    · exact Nat.le_add_right _ _
    · exact fun c hc => List.all_eq_true.mp hblank c (List.mem_reverse.mp hc)
  unfold claimed
  simp only
  split
  · rename_i hglued
    rcases Nat.lt_or_eq_of_le hrun with hlt | heq
    · rw [List.length_tail]
      omega
    · rw [← heq, hword] at hglued
      cases hglued
  · exact hrun

/-- If what stands from the floor up to the place is kept, the white space that is claimed of it
begins at the least offset from which that may be claimed. -/
theorem isLeast_claimed {first : Place} (hbefore : place.before = kept.reverse ++ first.before)
    (hglued : place.previous.any isWordChar = false) :
    claimed place kept <:+ place.before.reverse ∧
      IsLeast { start | first.offset ≤ start ∧ start ≤ place.offset ∧ Claimable place start }
        (place.offset - (claimed place kept).size) := by
  have hkept : kept.reverse = place.before.take kept.length := by
    rw [hbefore, ← List.length_reverse, List.take_left]
  have hwithin : kept <:+ place.before.reverse :=
    ⟨first.before.reverse, by rw [hbefore, List.reverse_append, List.reverse_reverse]⟩
  have hsuffix := (claimed_suffix place kept).trans hwithin
  have hsize : place.offset = first.offset + Text.size kept := by
    rw [Place.offset, hbefore, Text.size_append, Text.size_reverse, Nat.add_comm]
    rfl
  have hclaimed := Text.size_le_of_suffix (claimed_suffix place kept)
  refine ⟨hsuffix, ⟨by omega, Nat.sub_le _ _, claimable_iff.mpr ⟨_, hsuffix, by omega,
    isBlank_claimed place kept, unglued_claimed hglued hkept⟩⟩, ?_⟩
  rintro start ⟨hstart, -, hclaimable⟩
  obtain ⟨space, hspace, hoffset, hblank, hword⟩ := claimable_iff.mp hclaimable
  -- From the floor on, the white space is part of what was kept.
  have hspaceWithin : space <:+ kept := Text.suffix_of_size_le hspace hwithin (by omega)
  have hlength := length_le_claimed hspaceWithin hblank hword
  have hlonger := List.suffix_of_suffix_length_le hspace hsuffix hlength
  have hspaceSize := Text.size_le_of_suffix hlonger
  omega

/-- A construct claims nothing at all just if it is glued to a word. Otherwise it claims what stands
from an offset up to it: the least offset, from the floor on, from which that may be claimed. -/
theorem lead?_begins_at_least {source : Text} {floor offset : Nat} {first place : Place}
    (hfloor : Place.ofOffset? source floor = some first)
    (hplace : Place.ofOffset? source offset = some place) (hle : floor ≤ offset) :
    let claim := lead? place.before (place.before.length - first.before.length)
    (claim = none ↔ ∃ c, place.previous = some c ∧ isWordChar c) ∧
    ∀ lead, claim = some lead →
      lead <:+ place.before.reverse ∧
      IsLeast { start | floor ≤ start ∧ start ≤ offset ∧ Claimable place start }
        (offset - lead.size) := by
  obtain ⟨hfirst, rfl⟩ := Place.eq_of_ofOffset? hfloor
  obtain ⟨rfl, rfl⟩ := Place.eq_of_ofOffset? hplace
  obtain ⟨between, hbetween⟩ := Place.before_suffix hfirst hle
  let kept : Text := between.reverse
  have hbefore : place.before = kept.reverse ++ first.before := by
    rw [List.reverse_reverse, hbetween]
  have hfresh : place.before.length - first.before.length = kept.length := by
    rw [hbefore, List.length_append, List.length_reverse, Nat.add_sub_cancel]
  intro claim
  have hnone : claim = none ↔ place.previous.any isWordChar := lead?_eq_none_iff _ _
  refine ⟨by rw [hnone, Option.any_eq_true], fun lead hlead => ?_⟩
  have hglued : place.previous.any isWordChar = false := by
    rw [hlead] at hnone
    exact Bool.eq_false_iff.mpr (mt hnone.mpr (Option.some_ne_none lead))
  have hclaim : claim = some (claimed place kept) := by
    show lead? _ _ = _
    rw [hfresh]
    refine lead?_eq_claimed hglued ?_
    rw [hbefore, ← List.length_reverse, List.take_left]
  obtain rfl : claimed place kept = lead := Option.some.inj (hclaim.symm.trans hlead)
  exact isLeast_claimed hbefore hglued

/-- The white space behind a word is claimed from its second character on, here three bytes on. -/
theorem lead?_begins_at_least_of_em_space :
    let source := "Hi\u2003 @@x".toList
    let place : Place := ⟨"Hi\u2003 ".toList.reverse, "@@x".toList⟩
    Place.ofOffset? source 1 = some ⟨['H'], "i\u2003 @@x".toList⟩ ∧
      Place.ofOffset? source 6 = some place ∧ 1 ≤ 6 ∧
      IsLeast { start | 1 ≤ start ∧ start ≤ 6 ∧ Claimable place start } 5 := by
  intro source place
  have hfloor : Place.ofOffset? source 1 = some ⟨['H'], "i\u2003 @@x".toList⟩ := by decide +kernel
  have hplace : Place.ofOffset? source 6 = some place := by decide +kernel
  have hlead : lead? place.before (place.before.length - 1) = some [' '] := by decide +kernel
  exact ⟨hfloor, hplace, by decide,
    ((lead?_begins_at_least hfloor hplace (by decide)).2 [' '] hlead).2⟩

end Layout

end TemplateCompiler
