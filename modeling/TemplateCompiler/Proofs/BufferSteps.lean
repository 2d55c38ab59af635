import Mathlib.Combinatorics.Enumerative.DyckWord
import TemplateCompiler.Code.Output
import TemplateCompiler.Proofs.Scanning
import TemplateCompiler.Text.Layout

/-!
# Output buffers in a text

Generated code opens and closes output buffers. In the order in which they occur in a text, these
are the steps of a word, up for a buffer that is opened and down for one that is closed. The steps
of two texts put together are those of the first and those of the second, unless one runs over the
seam.
-/
namespace TemplateCompiler

open DyckStep

def Code.capture : Text := "<?php ob_start() ?>".toList

def bufferStep? (text : Text) : Option DyckStep :=
  if text.startsWith Code.capture then some U
  else if text.startsWith Code.captured then some D
  else none

def bufferSteps : Text → List DyckStep
  | [] => []
  | c :: rest => (bufferStep? (c :: rest)).toList ++ bufferSteps rest

/-- Whether the buffers of a text are closed in the order in which they have to be. -/
def Balanced (text : Text) : Prop := ∃ word : DyckWord, word.toList = bufferSteps text

variable {text first second : Text} {c : Char}

theorem bufferStep?_congr {other : Text}
    (h : ∀ lead, lead = Code.capture ∨ lead = Code.captured →
      (Text.after? lead text).isSome = (Text.after? lead other).isSome) :
    bufferStep? text = bufferStep? other := by
  unfold bufferStep? Text.startsWith
  rw [h _ (Or.inl rfl), h _ (Or.inr rfl)]

theorem bufferStep?_eq_none (h : ∀ lead, lead = Code.capture ∨ lead = Code.captured →
    Text.after? lead text = none) : bufferStep? text = none := by
  unfold bufferStep? Text.startsWith
  rw [h _ (Or.inl rfl), h _ (Or.inr rfl)]
  rfl

theorem bufferStep?_cons (hbracket : c ≠ '<') (hletter : c ≠ 'o') (rest : Text) :
    bufferStep? (c :: rest) = none := by
  apply bufferStep?_eq_none
  rintro lead (rfl | rfl)
  · exact if_neg (Ne.symm hbracket)
  · exact if_neg (Ne.symm hletter)

structure Quiet (text : Text) : Prop where
  capture : text.contains Code.capture = false
  captured : text.contains Code.captured = false

theorem Quiet.bufferSteps_eq (h : Quiet text) : bufferSteps text = [] := by
  have hnone : ∀ rest, rest <:+ text → bufferStep? rest = none := by
    intro rest hrest
    apply bufferStep?_eq_none
    rintro lead (rfl | rfl)
    · exact Text.contains_eq_false_iff.mp h.capture rest hrest
    · exact Text.contains_eq_false_iff.mp h.captured rest hrest
  clear h
  induction text with
  | nil => rfl
  | cons c rest ih =>
    rw [bufferSteps, hnone _ (List.suffix_refl _), ih]
    · rfl
    · intro later hlater
      exact hnone later (hlater.trans (List.suffix_cons c rest))

theorem Quiet.balanced (h : Quiet text) : Balanced text := ⟨0, h.bufferSteps_eq.symm⟩

theorem quiet_of_not_mem (hcapture : c ∈ Code.capture) (hcaptured : c ∈ Code.captured)
    (h : c ∉ text) : Quiet text :=
  ⟨Text.contains_of_not_mem hcapture h, Text.contains_of_not_mem hcaptured h⟩

/-- No step runs over a character that the steps do not have. -/
theorem Quiet.append_cons (hfirst : Quiet first) (hsecond : Quiet second)
    (hcapture : c ∉ Code.capture) (hcaptured : c ∉ Code.captured) :
    Quiet (first ++ c :: second) :=
  ⟨Text.contains_append_cons hcapture hfirst.capture hsecond.capture,
    Text.contains_append_cons hcaptured hfirst.captured hsecond.captured⟩

theorem bufferSteps_append_cons (hcapture : c ∉ Code.capture) (hcaptured : c ∉ Code.captured)
    (first second : Text) :
    bufferSteps (first ++ c :: second) = bufferSteps first ++ bufferSteps second := by
  have hstep (text : Text) : bufferStep? (text ++ c :: second) = bufferStep? text := by
    apply bufferStep?_congr
    rintro lead (rfl | rfl)
    · rw [Text.after?_append_cons hcapture, Option.isSome_map]
    · rw [Text.after?_append_cons hcaptured, Option.isSome_map]
  induction first with
  | nil =>
    have hnone : bufferStep? (c :: second) = none := hstep []
    show (bufferStep? (c :: second)).toList ++ bufferSteps second = bufferSteps second
    rw [hnone]
    rfl
  | cons d first ih =>
    rw [List.cons_append, bufferSteps, ← List.cons_append, hstep, ih, bufferSteps,
      List.append_assoc]

/-- No step runs over the seam of two texts. -/
def Apart (first second : Text) : Prop :=
  ∀ lead, lead = Code.capture ∨ lead = Code.captured → ∀ start more, lead = start ++ more →
    start ≠ [] → more ≠ [] → start <:+ first → more <+: second → False

theorem after?_append_of_apart (h : Apart first second) {lead tail : Text}
    (hlead : lead = Code.capture ∨ lead = Code.captured) (htail : tail <:+ first)
    (hne : tail ≠ []) :
    (Text.after? lead (tail ++ second)).isSome = (Text.after? lead tail).isSome := by
  rw [Bool.eq_iff_iff, Option.isSome_iff_exists, Option.isSome_iff_exists]
  constructor
  · rintro ⟨rest, hrest⟩
    rcases List.append_eq_append_iff.mp (Text.after?_eq_some_iff.mp hrest) with
      ⟨more, hsplit, hsecond⟩ | ⟨later, hsplit, -⟩
    · cases more with
      | nil =>
        rw [List.append_nil] at hsplit
        exact ⟨[], by rw [hsplit, Text.after?_eq_some_iff, List.append_nil]⟩
      | cons d more =>
        exact (h lead hlead tail (d :: more) hsplit hne (List.cons_ne_nil _ _) htail
          ⟨rest, hsecond.symm⟩).elim
    · exact ⟨later, Text.after?_eq_some_iff.mpr hsplit⟩
  · rintro ⟨rest, hrest⟩
    rw [Text.after?_eq_some_iff.mp hrest, List.append_assoc, Text.after?_append]
    exact ⟨_, rfl⟩

theorem bufferSteps_append (h : Apart first second) :
    bufferSteps (first ++ second) = bufferSteps first ++ bufferSteps second := by
  have hstep (tail : Text) (htail : tail <:+ first) (hne : tail ≠ []) :
      bufferStep? (tail ++ second) = bufferStep? tail :=
    bufferStep?_congr fun lead hlead => after?_append_of_apart h hlead htail hne
  clear h
  induction first with
  | nil => rfl
  | cons c first ih =>
    rw [List.cons_append, bufferSteps, ← List.cons_append,
      hstep _ (List.suffix_refl _) (List.cons_ne_nil _ _), bufferSteps, ih, List.append_assoc]
    intro tail htail
    exact hstep tail (htail.trans (List.suffix_cons c first))

theorem Balanced.append (hfirst : Balanced first) (hsecond : Balanced second)
    (h : Apart first second) : Balanced (first ++ second) := by
  obtain ⟨word, hword⟩ := hfirst
  obtain ⟨word', hword'⟩ := hsecond
  refine ⟨word + word', ?_⟩
  rw [bufferSteps_append h, ← hword, ← hword']
  rfl

theorem Quiet.append (hfirst : Quiet first) (hsecond : Quiet second) (h : Apart first second) :
    Quiet (first ++ second) := by
  have hnone (lead : Text) (hlead : lead = Code.capture ∨ lead = Code.captured)
      (hfirst : first.contains lead = false) (hsecond : second.contains lead = false) :
      Text.contains (first ++ second) lead = false := by
    rw [Text.contains_eq_false_iff] at hfirst hsecond ⊢
    intro rest hrest
    rcases Text.suffix_append hrest with hrest | ⟨tail, htail, rfl⟩
    · exact hsecond rest hrest
    · cases tail with
      | nil => exact hsecond _ (List.suffix_refl _)
      | cons c tail =>
        have hsame := after?_append_of_apart h hlead htail (List.cons_ne_nil c tail)
        rw [hfirst _ htail] at hsame
        exact Option.isNone_iff_eq_none.mp (by rw [← Option.not_isSome, hsame]; rfl)
  exact ⟨hnone _ (Or.inl rfl) hfirst.capture hsecond.capture,
    hnone _ (Or.inr rfl) hfirst.captured hsecond.captured⟩

theorem apart_of_pair {d : Char} (hpair : ∀ lead, lead = Code.capture ∨ lead = Code.captured →
    lead.contains [c, d] = false) (first second : Text) : Apart (first ++ [c]) (d :: second) := by
  intro lead hlead start more hsplit hstart hmore hsuffix hprefix
  have hwithin : [c, d] <:+: lead := by
    obtain ⟨before, hbefore⟩ := hsuffix
    obtain ⟨later, hlater⟩ := hprefix
    cases more with
    | nil => exact absurd rfl hmore
    | cons e more =>
      obtain ⟨rfl, -⟩ := List.cons.inj hlater
      rcases List.eq_nil_or_concat start with rfl | ⟨front, b, rfl⟩
      · exact absurd rfl hstart
      · have hlast : b = c := by
          rw [List.concat_eq_append, ← List.append_assoc] at hbefore
          exact (List.cons.inj (List.append_inj' hbefore rfl).2).1
        refine ⟨front, more, ?_⟩
        rw [hsplit, hlast]
        simp
  exact Text.not_contains_iff.mp (hpair lead hlead) hwithin

/-- Both steps have a closing parenthesis behind each opening one. -/
theorem apart_of_call {d : Char} (hd : d ≠ ')') (first second : Text) :
    Apart (first ++ ['(']) (d :: second) := by
  apply apart_of_pair
  intro lead hlead
  have hnext : lead.IsChain fun a b => a = '(' → b = ')' := by
    rcases hlead with rfl | rfl <;> decide
  rw [Text.not_contains_iff]
  intro hwithin
  have hpair : ['(', d].IsChain fun a b => a = '(' → b = ')' := List.IsChain.infix hnext hwithin
  exact hd (List.isChain_pair.mp hpair rfl)

theorem apart_of_bracket (first second : Text) : Apart (first ++ ['>']) second := by
  intro lead hlead start more hsplit hstart hmore hsuffix _
  have hlast : '>' ∉ lead.dropLast := by
    rcases hlead with rfl | rfl <;> decide
  rcases Text.suffix_append hsuffix with hsuffix | ⟨tail, -, rfl⟩
  · rcases List.suffix_cons_iff.mp hsuffix with rfl | hnil
    · rcases hlead with rfl | rfl <;> cases hsplit
    · exact hstart (List.suffix_nil.mp hnil)
  · apply hlast
    rw [hsplit, List.dropLast_append_of_ne_nil hmore]
    simp

/-- Behind the end of a statement and a blank nothing goes on. -/
theorem apart_of_statement (first second : Text) : Apart (first ++ ['>', ' ']) second := by
  intro lead hlead start more hsplit hstart _ hsuffix _
  rcases Text.suffix_append hsuffix with hsuffix | ⟨tail, -, rfl⟩
  · cases start with
    | nil => exact hstart rfl
    | cons c start =>
      have hc : c ∈ ['>', ' '] := hsuffix.subset List.mem_cons_self
      rcases hlead with rfl | rfl <;>
      · obtain ⟨rfl, -⟩ := List.cons.inj hsplit
        revert hc
        decide
  · have hwithin : ['>', ' '] <:+: lead := ⟨tail, more, hsplit.symm⟩
    have hnone : lead.contains ['>', ' '] = false := by
      rcases hlead with rfl | rfl <;> decide
    exact Text.not_contains_iff.mp hnone hwithin

theorem apart_of_blanks {blanks : Text} (h : blanks.all Text.isSpaceOrTab) (first second : Text) :
    Apart first (blanks ++ '<' :: second) := by
  intro lead hlead start more hsplit hstart hmore _ hprefix
  cases more with
  | nil => exact hmore rfl
  | cons c more =>
    cases blanks with
    | nil =>
      obtain rfl : c = '<' := by
        obtain ⟨rest, hrest⟩ := hprefix
        exact (List.cons.inj hrest).1
      have htail : '<' ∉ lead.tail := by
        rcases hlead with rfl | rfl <;> decide
      apply htail
      cases start with
      | nil => exact absurd rfl hstart
      | cons d start =>
        rw [hsplit]
        simp
    | cons b blanks =>
      rw [List.all_cons, Bool.and_eq_true] at h
      obtain ⟨rfl, hbehind⟩ := List.cons_prefix_cons.mp hprefix
      have hblank : c = ' ' ∨ c = '\t' := by simpa [Text.isSpaceOrTab] using h.1
      cases more with
      | nil =>
        have hlast : lead.getLast? = some c := by
          rw [hsplit, List.getLast?_append]
          rfl
        rcases hlead with rfl | rfl <;> rcases hblank with rfl | rfl <;> cases hlast
      | cons d more =>
        -- A blank in a step is followed by neither another one nor an angle bracket.
        have hnext : d = '<' ∨ d = ' ' ∨ d = '\t' := by
          cases blanks with
          | nil => exact Or.inl (List.cons_prefix_cons.mp hbehind).1
          | cons b blanks =>
            obtain ⟨rfl, -⟩ := List.cons_prefix_cons.mp hbehind
            rw [List.all_cons, Bool.and_eq_true] at h
            exact Or.inr (by simpa [Text.isSpaceOrTab] using h.2.1)
        have hwithin : [c, d] <:+: lead := ⟨start, more, by rw [hsplit, List.append_assoc]; rfl⟩
        have hnone : lead.contains [c, d] = false := by
          rcases hlead with rfl | rfl <;> rcases hblank with rfl | rfl <;>
            rcases hnext with rfl | rfl | rfl <;> decide
        exact Text.not_contains_iff.mp hnone hwithin

theorem apart_of_whitespace (hc : Unicode.isWhitespace c) (first : Text) : Apart first [c] := by
  intro lead hlead start more hsplit _ hmore _ hprefix
  rcases List.prefix_cons_iff.mp hprefix with rfl | ⟨rest, rfl, hrest⟩
  · exact hmore rfl
  · obtain rfl := List.prefix_nil.mp hrest
    have hlast : lead.getLast? = some c := by
      rw [hsplit, List.getLast?_append]
      rfl
    rcases hlead with rfl | rfl <;>
    · cases hlast
      revert hc
      decide

theorem Text.after?_escape {special : Char → Bool} (hspecial : special '\\') {lead : Text}
    (h : lead.any special = false) (text : Text) :
    after? lead (Code.escape special text) = (after? lead text).map (Code.escape special) := by
  induction lead generalizing text with
  | nil => rfl
  | cons a lead ih =>
    rw [List.any_cons, Bool.or_eq_false_iff] at h
    obtain ⟨ha, hlead⟩ := h
    cases text with
    | nil => rfl
    | cons c text =>
      by_cases hc : special c
      · have hescape : Code.escape special (c :: text) =
            '\\' :: c :: Code.escape special text := by
          simp [Code.escape, hc]
        have hbackslash : a ≠ '\\' := by
          rintro rfl
          rw [hspecial] at ha
          cases ha
        have hother : a ≠ c := by
          rintro rfl
          rw [hc] at ha
          cases ha
        rw [hescape, after?, if_neg hbackslash, after?, if_neg hother, Option.map_none]
      · have hescape : Code.escape special (c :: text) = c :: Code.escape special text := by
          simp [Code.escape, hc]
        rw [hescape, after?, after?]
        by_cases hac : a = c
        · rw [if_pos hac, if_pos hac, ih hlead]
        · rw [if_neg hac, if_neg hac, Option.map_none]

theorem bufferSteps_escape (text : Text) :
    bufferSteps (Code.escape Code.isSingleQuotedSpecial text) = bufferSteps text := by
  have hstep (text : Text) : bufferStep? (Code.escape Code.isSingleQuotedSpecial text) =
      bufferStep? text := by
    apply bufferStep?_congr
    rintro lead hlead
    have hplain : lead.any Code.isSingleQuotedSpecial = false := by
      rcases hlead with rfl | rfl <;> decide
    rw [Text.after?_escape (by decide) hplain, Option.isSome_map]
  induction text with
  | nil => rfl
  | cons c text ih =>
    have hhead := hstep (c :: text)
    by_cases hc : Code.isSingleQuotedSpecial c
    · have hescape : Code.escape Code.isSingleQuotedSpecial (c :: text) =
          '\\' :: c :: Code.escape Code.isSingleQuotedSpecial text := by
        simp [Code.escape, hc]
      have hletter : c ≠ '<' ∧ c ≠ 'o' := by
        constructor <;> rintro rfl <;> cases hc
      rw [hescape, bufferSteps, bufferSteps, bufferSteps, ih]
      rw [bufferStep?_cons hletter.1 hletter.2, bufferStep?_cons hletter.1 hletter.2]
      rw [bufferStep?_cons (by decide) (by decide)]
      rfl
    · have hescape : Code.escape Code.isSingleQuotedSpecial (c :: text) =
          c :: Code.escape Code.isSingleQuotedSpecial text := by
        simp [Code.escape, hc]
      rw [hescape] at hhead ⊢
      rw [bufferSteps, bufferSteps, ih, hhead]

theorem bufferSteps_singleQuoted (text : Text) :
    bufferSteps (Code.singleQuoted text) = bufferSteps text := by
  have hquote := @bufferSteps_append_cons '\'' (by decide) (by decide)
  rw [Code.singleQuoted, List.cons_append]
  rw [← List.nil_append ('\'' :: _), hquote, hquote, bufferSteps_escape]
  exact List.append_nil _

theorem bufferSteps_trim (text : Text) : bufferSteps text.trim = bufferSteps text := by
  have hblank (c : Char) (rest : Text) (hc : Unicode.isWhitespace c) :
      bufferStep? (c :: rest) = none := by
    apply bufferStep?_cons <;> rintro rfl <;> revert hc <;> decide
  have hstart (text : Text) : bufferSteps text.trimStart = bufferSteps text := by
    rw [Text.trimStart]
    induction text with
    | nil => rfl
    | cons c rest ih =>
      by_cases hc : Unicode.isWhitespace c
      · rw [List.dropWhile_cons, if_pos hc, ih, bufferSteps, hblank c rest hc]
        rfl
      · rw [List.dropWhile_cons, if_neg hc]
  have hend (text : Text) : bufferSteps text.trimEnd = bufferSteps text := by
    rw [Text.trimEnd]
    induction text using List.reverseRecOn with
    | nil => rfl
    | append_singleton text c ih =>
      by_cases hc : Unicode.isWhitespace c
      · rw [List.reverse_append, List.reverse_singleton, List.singleton_append,
          List.dropWhile_cons, if_pos hc, ih, bufferSteps_append (apart_of_whitespace hc text)]
        show _ = bufferSteps text ++ ((bufferStep? [c]).toList ++ [])
        rw [hblank c [] hc]
        exact (List.append_nil _).symm
      · rw [List.reverse_append, List.reverse_singleton, List.singleton_append,
          List.dropWhile_cons, if_neg hc, List.reverse_cons, List.reverse_reverse]
  rw [Text.trim, hend, hstart]

end TemplateCompiler
