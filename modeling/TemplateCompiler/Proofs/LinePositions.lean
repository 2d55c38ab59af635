import Mathlib.Data.List.TakeWhile
import TemplateCompiler.Glob
import TemplateCompiler.Text.Span

/-!
# Positions of offsets

An offset counts bytes and may lie within a character, so its line and column are told by the bytes
before it: the line by the line feeds among them, the column by what follows the last of these. The
table of line starts is ascending, which makes it enough to find where it passes the offset.
-/
namespace TemplateCompiler

/-- One position stands before another: on an earlier line, or further left on the same line. -/
def Position.Precedes (first second : Position) : Prop :=
  first.line < second.line ∨ first.line = second.line ∧ first.column < second.column

namespace LineIndex

open Glob (bytes)

def lineFeed : UInt8 := 10

/-- The offset at which the last line of some bytes begins: just after the last line feed, or 0 if
there is none. -/
def BeginsLastLine (seen : List UInt8) (start : Nat) : Prop :=
  (lineFeed ∉ seen ∧ start = 0) ∨
    ∃ earlier line, seen = earlier ++ lineFeed :: line ∧ lineFeed ∉ line ∧
      start = earlier.length + 1

/-- The offsets just after the line feeds among bytes that stand at an offset. -/
def startsOfBytes (offset : Nat) : List UInt8 → List Nat
  | [] => []
  | b :: rest =>
    if b = lineFeed then (offset + 1) :: startsOfBytes (offset + 1) rest
    else startsOfBytes (offset + 1) rest

variable {seen : List UInt8} {offset start : Nat}

/-! ## Bytes of a text -/

theorem lineFeed_notMem_of_ne {c : Char} (h : c ≠ '\n') :
    lineFeed ∉ String.utf8EncodeChar c := by
  have hcode : c.toNat ≠ 10 := fun hcode => h (Char.ext (UInt32.toNat_inj.mp hcode))
  have hval : c.val.toNat = c.toNat := rfl
  unfold String.utf8EncodeChar lineFeed
  simp only
  split_ifs
  all_goals
    simp only [List.mem_cons, List.not_mem_nil, or_false, ← UInt8.toNat_inj, UInt8.toNat_ofNat']
    simp
    omega

theorem bytes_cons (c : Char) (text : Text) :
    bytes (c :: text) = String.utf8EncodeChar c ++ bytes text := List.flatMap_cons

theorem bytes_append (first rest : Text) : bytes (first ++ rest) = bytes first ++ bytes rest :=
  List.flatMap_append

theorem length_bytes (text : Text) : (bytes text).length = text.size := by
  induction text with
  | nil => rfl
  | cons c text ih =>
    rw [bytes_cons, List.length_append, String.length_utf8EncodeChar, ih, Text.size_cons]

theorem count_bytes (text : Text) : (bytes text).count lineFeed = text.count '\n' := by
  induction text with
  | nil => rfl
  | cons c text ih =>
    rw [bytes_cons, List.count_append, ih]
    by_cases hc : c = '\n'
    · subst hc
      rw [List.count_cons_self, Nat.add_comm]
      rfl
    · rw [List.count_eq_zero_of_not_mem (lineFeed_notMem_of_ne hc), List.count_cons_of_ne hc,
        Nat.zero_add]

/-! ## Line starts among bytes -/

theorem startsOfBytes_append (offset : Nat) (first rest : List UInt8) :
    startsOfBytes offset (first ++ rest) =
      startsOfBytes offset first ++ startsOfBytes (offset + first.length) rest := by
  induction first generalizing offset with
  | nil => rfl
  | cons b first ih =>
    rw [List.cons_append, startsOfBytes, startsOfBytes, ih, List.length_cons, Nat.add_assoc,
      Nat.add_comm 1]
    split <;> rfl

theorem startsOfBytes_eq_nil (h : lineFeed ∉ seen) (offset : Nat) :
    startsOfBytes offset seen = [] := by
  induction seen generalizing offset with
  | nil => rfl
  | cons b seen ih =>
    rw [List.mem_cons, not_or] at h
    rw [startsOfBytes, if_neg (Ne.symm h.1), ih h.2]

theorem length_startsOfBytes (offset : Nat) (seen : List UInt8) :
    (startsOfBytes offset seen).length = seen.count lineFeed := by
  induction seen generalizing offset with
  | nil => rfl
  | cons b seen ih =>
    by_cases hb : b = lineFeed <;> simp [startsOfBytes, hb, ih]

theorem bounds_of_mem_startsOfBytes (h : start ∈ startsOfBytes offset seen) :
    offset < start ∧ start ≤ offset + seen.length := by
  induction seen generalizing offset with
  | nil => cases h
  | cons b seen ih =>
    have hlater (hmem : start ∈ startsOfBytes (offset + 1) seen) :
        offset < start ∧ start ≤ offset + (seen.length + 1) := by
      have hbounds := ih hmem
      omega
    rw [startsOfBytes] at h
    rw [List.length_cons]
    split at h
    · rcases List.mem_cons.mp h with rfl | hmem
      · omega
      · exact hlater hmem
    · exact hlater h

theorem exists_beginsLastLine (seen : List UInt8) : ∃ start, BeginsLastLine seen start ∧
    start ≤ seen.length ∧ (0 :: startsOfBytes 0 seen).getLast? = some start := by
  by_cases hfeed : lineFeed ∈ seen
  · obtain ⟨line, earlier, hsplit, hline⟩ :=
      List.eq_append_cons_of_mem (List.mem_reverse.mpr hfeed)
    have hseen : seen = earlier.reverse ++ lineFeed :: line.reverse := by
      simpa using congrArg List.reverse hsplit
    have hline' : lineFeed ∉ line.reverse := mt List.mem_reverse.mp hline
    refine ⟨earlier.reverse.length + 1, .inr ⟨_, _, hseen, hline', rfl⟩, ?_, ?_⟩
    · rw [hseen, List.length_append, List.length_cons]
      omega
    · rw [hseen, startsOfBytes_append, startsOfBytes, if_pos rfl, startsOfBytes_eq_nil hline',
        Nat.zero_add, ← List.cons_append, List.getLast?_concat]
  · refine ⟨0, .inl ⟨hfeed, rfl⟩, Nat.zero_le _, ?_⟩
    rw [startsOfBytes_eq_nil hfeed]
    rfl

/-! ## The table of a text -/

theorem startsFrom_eq (offset : Nat) (text : Text) :
    startsFrom offset text = startsOfBytes offset (bytes text) := by
  induction text generalizing offset with
  | nil => rfl
  | cons c text ih =>
    rw [startsFrom, ih, bytes_cons, startsOfBytes_append, String.length_utf8EncodeChar]
    by_cases hc : c = '\n'
    · subst hc
      rfl
    · rw [if_neg hc, startsOfBytes_eq_nil (lineFeed_notMem_of_ne hc), List.nil_append]

variable (text : Text)

theorem starts_eq_append (h : offset ≤ text.size) : (ofText text).starts =
    (0 :: startsOfBytes 0 ((bytes text).take offset)) ++
      startsOfBytes offset ((bytes text).drop offset) := by
  have hlength : 0 + ((bytes text).take offset).length = offset := by
    rw [Nat.zero_add, List.length_take, length_bytes, Nat.min_eq_left h]
  have hsplit := startsOfBytes_append 0 ((bytes text).take offset) ((bytes text).drop offset)
  rw [List.take_append_drop, hlength] at hsplit
  rw [ofText, startsFrom_eq, hsplit, List.cons_append]

theorem le_of_mem_begun (h : start ∈ 0 :: startsOfBytes 0 (seen.take offset)) :
    start ≤ offset := by
  rcases List.mem_cons.mp h with rfl | hmem
  · exact Nat.zero_le _
  · have hbounds := bounds_of_mem_startsOfBytes hmem
    rw [Nat.zero_add] at hbounds
    exact hbounds.2.trans (List.length_take_le _ _)

theorem takeWhile_starts (h : offset ≤ text.size) :
    (ofText text).starts.takeWhile (· ≤ offset) =
      0 :: startsOfBytes 0 ((bytes text).take offset) := by
  have hlater : (startsOfBytes offset ((bytes text).drop offset)).takeWhile (· ≤ offset) = [] := by
    rw [List.takeWhile_eq_nil_iff]
    intro hpos hle
    have hbounds := bounds_of_mem_startsOfBytes (List.get_mem _ ⟨0, hpos⟩)
    exact Nat.not_le_of_lt hbounds.1 (of_decide_eq_true hle)
  rw [starts_eq_append text h, List.takeWhile_append_of_pos, hlater, List.append_nil]
  exact fun start hstart => decide_eq_true (le_of_mem_begun hstart)

theorem start_le_iff (h : offset ≤ text.size) {i : Nat}
    (hi : (ofText text).starts[i]? = some start) :
    start ≤ offset ↔ i ≤ ((bytes text).take offset).count lineFeed := by
  have hbegun : (0 :: startsOfBytes 0 ((bytes text).take offset)).length =
      ((bytes text).take offset).count lineFeed + 1 := by
    rw [List.length_cons, length_startsOfBytes]
  rw [starts_eq_append text h] at hi
  rcases Nat.lt_or_ge i (((bytes text).take offset).count lineFeed + 1) with hlt | hge
  · rw [List.getElem?_append_left (by omega)] at hi
    exact iff_of_true (le_of_mem_begun (List.mem_of_getElem? hi)) (by omega)
  · rw [List.getElem?_append_right (by omega)] at hi
    have hbounds := bounds_of_mem_startsOfBytes (List.mem_of_getElem? hi)
    exact iff_of_false (by omega) (by omega)

theorem position_min (offset : Nat) :
    (ofText text).position (min offset text.size) = (ofText text).position offset := by
  have hsize : (ofText text).size = text.size := rfl
  rw [position, position, hsize, Nat.min_assoc, Nat.min_self]

/-- The line of an offset is told by the line feeds before it, and the table holds its start. -/
theorem exists_position (h : offset ≤ text.size) :
    ∃ start, BeginsLastLine ((bytes text).take offset) start ∧ start ≤ offset ∧
      (ofText text).starts[((bytes text).take offset).count lineFeed]? = some start ∧
      (ofText text).position offset =
        ⟨((bytes text).take offset).count lineFeed, offset - start⟩ := by
  have htake := takeWhile_starts text h
  have hstarts := starts_eq_append text h
  generalize hseen : (bytes text).take offset = seen at htake hstarts ⊢
  obtain ⟨start, hbegins, hle, hlast⟩ := exists_beginsLastLine seen
  have hlength : (0 :: startsOfBytes 0 seen).length = seen.count lineFeed + 1 := by
    rw [List.length_cons, length_startsOfBytes]
  have hclamped : min offset (ofText text).size = offset := Nat.min_eq_left h
  refine ⟨start, hbegins, ?_, ?_, ?_⟩
  · rw [← hseen] at hle
    exact hle.trans (List.length_take_le _ _)
  · rw [hstarts, List.getElem?_append_left (by omega)]
    rw [List.getLast?_eq_getElem?, hlength, Nat.add_sub_cancel] at hlast
    exact hlast
  · simp only [position, hclamped, htake, hlength, hlast, Option.getD_some, Nat.add_sub_cancel]

theorem precedes_of_lt {first second : Nat} (h : first < second) (hwithin : second ≤ text.size) :
    ((ofText text).position first).Precedes ((ofText text).position second) := by
  obtain ⟨start, -, hle, hstart, hfirst⟩ := exists_position text (h.le.trans hwithin)
  obtain ⟨start', -, hle', hstart', hsecond⟩ := exists_position text hwithin
  have hcount : ((bytes text).take first).count lineFeed ≤
      ((bytes text).take second).count lineFeed :=
    (List.take_sublist_take_left h.le).count_le _
  rw [hfirst, hsecond]
  rcases Nat.lt_or_eq_of_le hcount with hlt | heq
  · exact .inl hlt
  · -- On one line both offsets are counted from the same start.
    rw [heq, hstart', Option.some.injEq] at hstart
    subst hstart
    exact .inr ⟨heq, Nat.sub_lt_sub_right hle h⟩

/-- Positions are in the order of the offsets within the text. -/
theorem precedes_iff {first second : Nat} (hfirst : first ≤ text.size)
    (hsecond : second ≤ text.size) :
    ((ofText text).position first).Precedes ((ofText text).position second) ↔ first < second := by
  refine ⟨fun hprecedes => ?_, fun h => precedes_of_lt text h hsecond⟩
  rcases Nat.lt_trichotomy first second with h | rfl | h
  · exact h
  · unfold Position.Precedes at hprecedes
    omega
  · have hreverse := precedes_of_lt text h hfirst
    unfold Position.Precedes at hprecedes hreverse
    omega

theorem position_inj {first second : Nat} (hfirst : first ≤ text.size)
    (hsecond : second ≤ text.size) :
    (ofText text).position first = (ofText text).position second ↔ first = second := by
  refine ⟨fun heq => ?_, fun h => h ▸ rfl⟩
  have hforward := precedes_iff text hfirst hsecond
  have hbackward := precedes_iff text hsecond hfirst
  rw [heq] at hforward hbackward
  have hirrefl (position : Position) : ¬position.Precedes position := by
    unfold Position.Precedes
    omega
  have hge := mt hforward.mpr (hirrefl _)
  have hle := mt hbackward.mpr (hirrefl _)
  omega

/-- Let an offset be clamped to the end of its text. Its line is the number of line feeds before
it, and its column what it is beyond the start of that line, which is the offset just after the
last line feed before it, or 0. The table holds this start at the line, and up to the line those
starts that are not beyond the offset. Different offsets within the text have different positions,
in the order of the offsets. -/
theorem position_counts_line_feeds (offset : Nat) :
    let index := ofText text
    let clamped := min offset text.size
    let seen := (bytes text).take clamped
    let position := index.position offset
    position.line = seen.count lineFeed ∧
    (∀ before after, text = before ++ after → before.size = clamped →
      position.line = before.count '\n') ∧
    (∃ start, BeginsLastLine seen start ∧ position.column = clamped - start ∧
      index.starts[position.line]? = some start ∧ start + position.column = clamped) ∧
    (∀ i start, index.starts[i]? = some start → (start ≤ clamped ↔ i ≤ position.line)) ∧
    (∀ other, (position = index.position other ↔ clamped = min other text.size) ∧
      (position.Precedes (index.position other) ↔ clamped < min other text.size)) ∧
    index.lineCount = text.count '\n' + 1 := by
  intro index clamped seen position
  have hclamped : clamped ≤ text.size := Nat.min_le_right _ _
  obtain ⟨start, hbegins, hle, hstart, hposition⟩ := exists_position text hclamped
  rw [position_min] at hposition
  have hline : position.line = seen.count lineFeed := congrArg Position.line hposition
  have hcolumn : position.column = clamped - start := congrArg Position.column hposition
  refine ⟨hline, fun before after htext hbefore => ?_, ⟨start, hbegins, hcolumn, ?_, ?_⟩,
    fun i start hi => ?_, fun other => ?_, lineCount_ofText text⟩
  · have hseen : seen = bytes before := by
      show (bytes text).take clamped = bytes before
      rw [htext, bytes_append, ← hbefore, ← length_bytes, List.take_left]
    rw [hline, hseen, count_bytes]
  · rw [hline]
    exact hstart
  · rw [hcolumn]
    exact Nat.add_sub_cancel' hle
  · rw [hline]
    exact start_le_iff text hclamped hi
  · have hother : min other text.size ≤ text.size := Nat.min_le_right _ _
    have hinj := position_inj text hclamped hother
    have hprecedes := precedes_iff text hclamped hother
    rw [position_min, position_min] at hinj hprecedes
    exact ⟨hinj, hprecedes⟩

/-- An offset past the end is shown at the end of the last line. -/
example : ((ofText "@use(a)\n<x:y>\n</x:y>".toList).position 1000).shown = ⟨3, 7⟩ := by decide

end LineIndex

end TemplateCompiler
