import TemplateCompiler.Directive.Content
import TemplateCompiler.Proofs.CanonicalPath
import TemplateCompiler.Proofs.Substituting

/-!
# Content directives that stand alone

The pattern of a content directive takes in the white space around it, and a match is rejected for
what stands before all that. Still it is the characters next to the directive that decide: it is
replaced if it follows neither an at sign nor a word and no word goes on behind it, and every other
character of the text stays.
-/
namespace TemplateCompiler

/-- The text from a position on, with new text for the pieces of a length that begin at given
positions. -/
def Text.replaceAt (text new : Text) (length : Nat) (start : Nat) : List Nat → Text
  | [] => text.drop start
  | position :: positions =>
    (text.take position).drop start ++ new ++
      replaceAt text new length (position + length) positions

theorem Text.replaceAt_cons {text new rest : Text} {length start : Nat} {c : Char}
    {positions : List Nat} (hrest : text.drop start = c :: rest)
    (hpositions : ∀ position ∈ positions, start < position) :
    text.replaceAt new length start positions =
      c :: text.replaceAt new length (start + 1) positions := by
  have hnext : text.drop (start + 1) = rest := by
    rw [← List.drop_drop, hrest]
    rfl
  cases positions with
  | nil => rw [replaceAt, replaceAt, hrest, hnext]
  | cons position positions =>
    have hlater := hpositions position List.mem_cons_self
    have hkept : (text.take position).drop start = c :: (text.take position).drop (start + 1) := by
      obtain ⟨more, rfl⟩ : ∃ more, position = start + 1 + more := ⟨position - (start + 1), by omega⟩
      rw [Nat.add_assoc, ← List.take_drop, Nat.add_comm 1 more, hrest, List.take_succ_cons,
        ← Nat.add_comm 1 more, ← Nat.add_assoc, ← List.take_drop, hnext]
    rw [replaceAt, replaceAt, hkept, List.cons_append, List.cons_append]

namespace Directive

namespace Content

/-- A content directive stands alone at a place: it follows neither an at sign nor a word, and no
word goes on behind it. -/
structure StandsAlone (place : Place) : Prop where
  written : keyword <+: place.rest
  unglued : ∀ c ∈ place.previous, c ≠ '@' ∧ isWordChar c = false
  ends : ∀ c ∈ (place.rest.drop keyword.length).head?, Unicode.isWordConstituent c = false

theorem standsAlone_iff {place : Place} : StandsAlone place ↔
    keyword <+: place.rest ∧ (place.previous.all fun c => c != '@' && !isWordChar c) ∧
      (place.rest.drop keyword.length).head?.all fun c => !Unicode.isWordConstituent c := by
  simp only [Option.all_eq_true, Bool.and_eq_true, bne_iff_ne, Bool.not_eq_true']
  exact ⟨fun h => ⟨h.written, h.unglued, h.ends⟩, fun h => ⟨h.1, h.2.1, h.2.2⟩⟩

instance (place : Place) : Decidable (StandsAlone place) :=
  decidable_of_iff _ standsAlone_iff.symm

theorem not_standsAlone_of_ne {before rest : Text} {c : Char} (h : c ≠ '@') :
    ¬StandsAlone ⟨before, c :: rest⟩ := by
  intro halone
  obtain ⟨more, hmore⟩ := halone.written
  exact h (List.cons.inj hmore).1.symm

/-- The positions from a place on at which a content directive stands alone. -/
def sitesFrom (place : Place) : List Nat :=
  (List.range' place.before.length place.rest.length).filter fun position =>
    StandsAlone ((Place.start place.text).advance position)

def expanded (place : Place) : Text :=
  place.text.replaceAt code keyword.length place.before.length (sitesFrom place)

variable {before rest piece : Text} {c : Char}

theorem mem_sitesFrom {place : Place} {position : Nat} : position ∈ sitesFrom place ↔
    (place.before.length ≤ position ∧ position < place.before.length + place.rest.length) ∧
      StandsAlone ((Place.start place.text).advance position) := by
  simp [sitesFrom, List.mem_range'_1]

theorem sitesFrom_of_alone (h : StandsAlone ⟨before, c :: rest⟩) :
    sitesFrom ⟨before, c :: rest⟩ = before.length :: sitesFrom ⟨c :: before, rest⟩ := by
  rw [sitesFrom, List.length_cons, List.range'_succ,
    List.filter_cons_of_pos (by rwa [Place.advance_start, decide_eq_true_eq]), sitesFrom,
    Place.text_shift, List.length_cons]

theorem sitesFrom_of_not_alone (h : ¬StandsAlone ⟨before, c :: rest⟩) :
    sitesFrom ⟨before, c :: rest⟩ = sitesFrom ⟨c :: before, rest⟩ := by
  rw [sitesFrom, List.length_cons, List.range'_succ,
    List.filter_cons_of_neg (by rwa [Place.advance_start, decide_eq_true_eq]), sitesFrom,
    Place.text_shift, List.length_cons]

theorem sitesFrom_append (h : '@' ∉ piece) :
    sitesFrom ⟨before, piece ++ rest⟩ = sitesFrom ⟨piece.reverse ++ before, rest⟩ := by
  induction piece generalizing before with
  | nil => rfl
  | cons c piece ih =>
    rw [List.mem_cons, not_or] at h
    rw [List.cons_append, sitesFrom_of_not_alone (not_standsAlone_of_ne (Ne.symm h.1)), ih h.2,
      List.reverse_cons, List.append_assoc, List.singleton_append]

theorem drop_text (before rest : Text) :
    (⟨before, rest⟩ : Place).text.drop before.length = rest := by
  rw [Place.text, ← List.length_reverse, List.drop_left]

theorem expanded_nil : expanded ⟨before, []⟩ = [] :=
  drop_text before []

theorem expanded_cons (h : ¬StandsAlone ⟨before, c :: rest⟩) :
    expanded ⟨before, c :: rest⟩ = c :: expanded ⟨c :: before, rest⟩ := by
  have hlater : ∀ position ∈ sitesFrom ⟨c :: before, rest⟩, before.length < position :=
    fun position hposition => (mem_sitesFrom.mp hposition).1.1
  rw [expanded, sitesFrom_of_not_alone h, Text.replaceAt_cons (drop_text before _) hlater,
    ← Place.text_shift]
  rfl

theorem expanded_append (h : '@' ∉ piece) :
    expanded ⟨before, piece ++ rest⟩ = piece ++ expanded ⟨piece.reverse ++ before, rest⟩ := by
  induction piece generalizing before with
  | nil => rfl
  | cons c piece ih =>
    rw [List.mem_cons, not_or] at h
    rw [List.cons_append, expanded_cons (not_standsAlone_of_ne (Ne.symm h.1)), ih h.2,
      List.cons_append, List.reverse_cons, List.append_assoc, List.singleton_append]

theorem expanded_keyword (h : StandsAlone ⟨before, keyword ++ rest⟩) :
    expanded ⟨before, keyword ++ rest⟩ = code ++ expanded ⟨keyword.reverse ++ before, rest⟩ := by
  have hkeyword : keyword = '@' :: "content".toList := by decide
  have hname : '@' ∉ "content".toList := by decide
  have hsites : sitesFrom ⟨before, keyword ++ rest⟩ =
      before.length :: sitesFrom ⟨keyword.reverse ++ before, rest⟩ := by
    rw [hkeyword, List.cons_append] at h ⊢
    rw [sitesFrom_of_alone h, sitesFrom_append hname, List.reverse_cons, List.append_assoc,
      List.singleton_append]
  have htext : (⟨before, keyword ++ rest⟩ : Place).text =
      (⟨keyword.reverse ++ before, rest⟩ : Place).text := by
    simp [Place.text]
  have hnone : ((⟨before, keyword ++ rest⟩ : Place).text.take before.length).drop before.length =
      [] := List.drop_eq_nil_of_le (List.length_take_le _ _)
  rw [expanded, hsites, Text.replaceAt, hnone, List.nil_append, htext, Nat.add_comm,
    ← List.length_reverse, ← List.length_append]
  rfl

theorem isWithin_pattern : Matcher.IsWithin pattern := by
  intro place length found h
  obtain ⟨rest, -, h⟩ := Option.bind_eq_some_iff.mp h
  split at h
  · cases h
    exact Nat.sub_le _ _
  · cases h

theorem isWordEnd_iff {text : Text} :
    isWordEnd text ↔ ∀ c ∈ text.head?, Unicode.isWordConstituent c = false := by
  cases text <;> simp [isWordEnd]

theorem StandsAlone.pattern_ne_none {place : Place} (h : StandsAlone place) :
    pattern place ≠ none := by
  obtain ⟨rest, hrest⟩ := h.written
  have htrim : place.rest.trimStart = keyword ++ rest := by
    rw [← hrest]
    rfl
  have hend : isWordEnd rest := by
    have hends := h.ends
    rw [← hrest, List.drop_left] at hends
    exact isWordEnd_iff.mpr hends
  unfold pattern
  rw [htrim, Text.after?_append, Option.bind_some, if_pos hend]
  exact Option.some_ne_none _

theorem exists_of_pattern {place : Place} {length : Nat} {found : Content}
    (h : pattern place = some (length, found)) :
    ∃ after, place.rest = found.lead ++ (keyword ++ (found.trail ++ after)) ∧
      length = (found.lead ++ (keyword ++ found.trail)).length ∧
      found.lead.all Unicode.isWhitespace ∧ found.trail.all Unicode.isWhitespace ∧
      isWordEnd (found.trail ++ after) := by
  obtain ⟨rest, hafter, h⟩ := Option.bind_eq_some_iff.mp h
  split at h
  · rename_i hend
    cases h
    have hlead : place.rest.takeWhile Unicode.isWhitespace ++ place.rest.trimStart = place.rest :=
      List.takeWhile_append_dropWhile
    have htrail : rest.takeWhile Unicode.isWhitespace ++ rest.trimStart = rest :=
      List.takeWhile_append_dropWhile
    have hrest : place.rest = place.rest.takeWhile Unicode.isWhitespace ++ (keyword ++
        (rest.takeWhile Unicode.isWhitespace ++ rest.trimStart)) := by
      rw [htrail, ← Text.after?_eq_some_iff.mp hafter, hlead]
    refine ⟨rest.trimStart, hrest, ?_, List.all_takeWhile, List.all_takeWhile, by rwa [htrail]⟩
    have hlength := congrArg List.length hrest
    simp only [List.length_append] at hlength ⊢
    unfold lengthUpTo
    omega
  · cases h

theorem not_mem_of_blank {space : Text} (h : space.all Unicode.isWhitespace) : '@' ∉ space :=
  Text.not_mem_of_all (by decide) (List.all_eq_true.mp h)

variable {lead : Text}

/-- A match is rejected for the character before it. -/
def IsRejected (before lead : Text) : Prop :=
  ∃ c ∈ before.head?, isWordChar c ∨ (c = '@' ∧ lead = [])

theorem isRejected_iff : IsRejected before lead ↔
    before.head?.any fun c => isWordChar c || (c == '@' && lead.isEmpty) := by
  cases before <;> simp [IsRejected]

theorem replace_of_rejected (h : IsRejected before lead) (trail : Text) :
    replace ⟨before, rest⟩ ⟨lead, trail⟩ = pure none :=
  if_pos (isRejected_iff.mp h)

theorem replace_of_not_rejected (h : ¬IsRejected before lead) (trail : Text) :
    replace ⟨before, rest⟩ ⟨lead, trail⟩ = pure (some (lead ++ code ++ trail)) :=
  if_neg (mt isRejected_iff.mpr h)

/-- Where a match is rejected no directive stands alone: there is one that is glued, or white
space. -/
theorem not_alone_of_rejected (h : IsRejected before lead) (hlead : lead.all Unicode.isWhitespace) :
    ¬StandsAlone ⟨before, lead ++ (keyword ++ rest)⟩ := by
  cases lead with
  | nil =>
    intro halone
    obtain ⟨c, hc, hglued⟩ := h
    have hunglued := halone.unglued c hc
    simp [hunglued.1, hunglued.2] at hglued
  | cons c lead =>
    apply not_standsAlone_of_ne
    rintro rfl
    exact not_mem_of_blank hlead List.mem_cons_self

theorem alone_of_not_rejected (h : ¬IsRejected before lead)
    (hlead : lead.all Unicode.isWhitespace) (hend : isWordEnd rest) :
    StandsAlone ⟨lead.reverse ++ before, keyword ++ rest⟩ where
  written := List.prefix_append _ _
  unglued c hc := by
    rcases List.eq_nil_or_concat lead with rfl | ⟨first, space, rfl⟩
    · have hnot : ¬(isWordChar c ∨ (c = '@' ∧ ([] : Text) = [])) :=
        fun hglued => h ⟨c, hc, hglued⟩
      simpa [and_comm] using hnot
    · have hspace : c = space := by simpa [Place.previous, eq_comm] using hc
      have hblank : Unicode.isWhitespace c := by
        rw [hspace]
        exact List.all_eq_true.mp hlead space (by simp)
      refine ⟨?_, ?_⟩
      · rintro rfl
        cases hblank
      · apply Bool.eq_false_iff.mpr
        intro hword
        rw [isWhitespace_of_isWordChar hword] at hblank
        cases hblank
  ends := by
    rw [List.drop_left]
    exact isWordEnd_iff.mp hend

/-- Of a match that is not rejected the directive is replaced, and the white space stays. -/
theorem expanded_of_not_rejected {trail after : Text} (h : ¬IsRejected before lead)
    (hlead : lead.all Unicode.isWhitespace) (htrail : trail.all Unicode.isWhitespace)
    (hend : isWordEnd (trail ++ after)) :
    expanded ⟨before, lead ++ (keyword ++ (trail ++ after))⟩ = lead ++ code ++ trail ++
      expanded ⟨trail.reverse ++ (keyword.reverse ++ (lead.reverse ++ before)), after⟩ := by
  have halone := alone_of_not_rejected h hlead hend
  rw [expanded_append (not_mem_of_blank hlead), expanded_keyword halone,
    expanded_append (not_mem_of_blank htrail)]
  simp only [List.append_assoc]

theorem run_of_not_rejected {length : Nat} {trail after : Text}
    (hmatch : pattern ⟨before, rest⟩ = some (length, ⟨lead, trail⟩))
    (hrest : rest = lead ++ (keyword ++ (trail ++ after)))
    (hlength : length = (lead ++ (keyword ++ trail)).length) (h : ¬IsRejected before lead)
    (context : Context) :
    (Substitution.substituteFrom (Matcher.leftmost pattern) replace ⟨before, rest⟩).run context =
      ((lead ++ code ++ trail ++ ·) <$> Substitution.substituteFrom (Matcher.leftmost pattern)
        replace ⟨trail.reverse ++ (keyword.reverse ++ (lead.reverse ++ before)), after⟩).run
          context := by
  have hreplace : (replace ⟨before, rest⟩ ⟨lead, trail⟩).run context =
      (.ok (some (lead ++ code ++ trail)), context) := by
    rw [replace_of_not_rejected h]
    rfl
  have hpos : 0 < length := by
    have hkeyword : 0 < keyword.length := by decide
    rw [hlength, List.length_append, List.length_append]
    omega
  have hadvance : (⟨before, rest⟩ : Place).advance length =
      ⟨trail.reverse ++ (keyword.reverse ++ (lead.reverse ++ before)), after⟩ := by
    have hwhole : rest = (lead ++ (keyword ++ trail)) ++ after := by
      rw [hrest, List.append_assoc, List.append_assoc]
    rw [hlength, Place.advance, hwhole, List.take_left, List.drop_left]
    simp only [List.reverse_append, List.append_assoc]
  rw [Substitution.run_of_accepted hmatch hreplace hpos (isWithin_pattern _ _ _ hmatch), hadvance]

/-- From any place on, the pass replaces the directives that stand alone. -/
theorem run_substituteFrom (before rest : Text) (context : Context) :
    (Substitution.substituteFrom (Matcher.leftmost pattern) replace ⟨before, rest⟩).run context =
      (.ok (expanded ⟨before, rest⟩), context) := by
  cases rest with
  | nil =>
    have hnone : Matcher.leftmost pattern ⟨before, []⟩ = none := rfl
    rw [Substitution.substituteFrom, hnone, expanded_nil]
    rfl
  | cons c later =>
    have hcopy (hnone : ¬StandsAlone ⟨before, c :: later⟩) :
        ((c :: ·) <$> Substitution.substituteFrom (Matcher.leftmost pattern) replace
          ⟨c :: before, later⟩).run context = (.ok (expanded ⟨before, c :: later⟩), context) := by
      rw [Pass.run_map, run_substituteFrom (c :: before) later context, expanded_cons hnone]
      rfl
    cases hmatch : pattern ⟨before, c :: later⟩ with
    | none =>
      rw [Substitution.substituteFrom_cons isWithin_pattern hmatch]
      exact hcopy fun halone => halone.pattern_ne_none hmatch
    | some found =>
      obtain ⟨length, lead, trail⟩ := found
      obtain ⟨after, hrest, hlength, hlead, htrail, hend⟩ := exists_of_pattern hmatch
      simp only at hrest hlength hlead htrail hend
      by_cases hrejected : IsRejected before lead
      · have hreplace : (replace ⟨before, c :: later⟩ ⟨lead, trail⟩).run context =
            (.ok none, context) := by
          rw [replace_of_rejected hrejected]
          rfl
        rw [Substitution.run_of_rejected hmatch hreplace]
        apply hcopy
        rw [hrest]
        exact not_alone_of_rejected hrejected hlead
      · -- The keyword is not empty, so that what follows the match is shorter.
        have hshorter : after.length ≤ later.length := by
          have hkeyword : 0 < keyword.length := by decide
          have hwhole := congrArg List.length hrest
          simp only [List.length_cons, List.length_append] at hwhole
          omega
        rw [run_of_not_rejected hmatch hrest hlength hrejected, Pass.run_map,
          run_substituteFrom _ after context, hrest,
          expanded_of_not_rejected hrejected hlead htrail hend]
        rfl
termination_by rest.length

theorem not_prefix_within {count : Nat} (hpos : 0 < count) (hcount : count < keyword.length)
    (behind : Text) : ¬keyword <+: (keyword ++ behind).drop count := by
  have hname : ∀ count < keyword.length, 0 < count →
      (keyword.drop count).head?.any (· != '@') := by decide
  have hhead := hname count hcount hpos
  rw [List.drop_append_of_le_length (Nat.le_of_lt hcount)]
  cases hleft : keyword.drop count with
  | nil =>
    rw [hleft] at hhead
    cases hhead
  | cons c name =>
    rw [hleft] at hhead
    rintro ⟨rest, hrest⟩
    obtain ⟨rfl, -⟩ := List.cons.inj hrest
    cases hhead

theorem pairwise_sites (text : Text) :
    (sitesFrom (Place.start text)).Pairwise fun first later => first + keyword.length ≤ later := by
  refine List.Pairwise.imp_of_mem ?_ (List.Pairwise.filter _ List.pairwise_lt_range')
  intro first later hfirst hlater hlt
  obtain ⟨behind, hbehind⟩ := (mem_sitesFrom.mp hfirst).2.written
  have hwritten := (mem_sitesFrom.mp hlater).2.written
  apply Nat.le_of_not_lt
  intro hwithin
  obtain ⟨count, rfl⟩ := Nat.exists_eq_add_of_lt hlt
  rw [Nat.add_assoc, ← Place.advance_advance] at hwritten
  apply not_prefix_within (Nat.succ_pos count) (by omega) behind
  rwa [hbehind]

end Content

/-- The pass over the content directives replaces `@content` exactly where it stands alone: where
the character before it, if there is one, is neither an at sign nor a word character, and the
character behind it, if there is one, does not go on with the word. These positions do not overlap,
and all other characters stay. -/
theorem contents_replaces_standing_alone (text : Text) (context : Context) :
    ∃ positions : List Nat,
      (∀ position, position ∈ positions ↔
        Content.StandsAlone ((Place.start text).advance position)) ∧
      (positions.Pairwise fun first later => first + "@content".length ≤ later) ∧
      (contents text).run context =
        (.ok (text.replaceAt "<?php echo $my->getContent() ?>".toList "@content".length 0
            positions),
          context) := by
  refine ⟨Content.sitesFrom (Place.start text), fun position => ?_, Content.pairwise_sites text,
    Content.run_substituteFrom [] text context⟩
  rw [Content.mem_sitesFrom]
  refine ⟨fun h => h.2, fun h => ⟨⟨Nat.zero_le _, ?_⟩, h⟩⟩
  have hlength := h.written.length_le
  have hkeyword : 0 < Content.keyword.length := by decide
  simp only [Place.start, Place.advance, List.length_drop, List.length_nil] at hlength ⊢
  omega

end Directive

end TemplateCompiler
