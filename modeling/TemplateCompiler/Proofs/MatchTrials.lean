import Mathlib.Data.List.Chain
import TemplateCompiler.Proofs.Substituting

/-!
# Trials of a substitution

A substitution tries one match after the other: it replaces the match, rejects it or fails with it.
Whatever finds the matches, as long as it finds the leftmost ones, the trials come to an end, each
begins behind the start of the one before, those that are accepted lie apart, and no match is passed
over.
-/
namespace TemplateCompiler

theorem Place.length_before_advance {place : Place} {count : Nat}
    (h : count ≤ place.rest.length) :
    (place.advance count).before.length = place.before.length + count := by
  rw [advance, List.length_append, List.length_reverse, List.length_take, Nat.min_eq_left h,
    Nat.add_comm]

/-! ## Leftmost matches -/

variable {α : Type}

namespace Matcher

variable {find : Matcher α} {occurs : Place → Nat → α → Prop}
  {pattern : Place → Option (Nat × α)}

/-- A matcher finds the leftmost of the pieces that occur in the text from a place on, and nothing
only if none of them occurs there. -/
structure IsLeftmost (find : Matcher α) (occurs : Place → Nat → α → Prop) : Prop where
  within : ∀ place found, find place = some found →
    found.skip + found.length ≤ place.rest.length
  found : ∀ place found, find place = some found →
    occurs (place.advance found.skip) found.length found.captures
  first : ∀ place found, find place = some found → ∀ skip < found.skip, ∀ length captures,
    ¬occurs (place.advance skip) length captures
  nowhere : ∀ place, find place = none → ∀ skip ≤ place.rest.length, ∀ length captures,
    ¬occurs (place.advance skip) length captures

theorem leftmost_cases (pattern : Place → Option (Nat × α)) (place : Place) :
    (leftmost pattern place = none ∧
      ∀ skip ≤ place.rest.length, pattern (place.advance skip) = none) ∨
    ∃ found, leftmost pattern place = some found ∧ found.skip ≤ place.rest.length ∧
      ∀ skip < found.skip, pattern (place.advance skip) = none := by
  obtain ⟨before, rest⟩ := place
  cases hmatch : pattern ⟨before, rest⟩ with
  | some matched =>
    exact .inr ⟨_, leftmost_of_match hmatch, Nat.zero_le _,
      fun skip hskip => absurd hskip (Nat.not_lt_zero skip)⟩
  | none =>
    induction rest generalizing before with
    | nil =>
      refine .inl ⟨Option.map_eq_none_iff.mpr hmatch, fun skip hskip => ?_⟩
      rw [Nat.le_zero.mp hskip]
      exact hmatch
    | cons c rest ih =>
      -- The places from the next one on are the later ones from here.
      have hshift {last : Nat}
          (hnone : ∀ skip < last, pattern ((⟨c :: before, rest⟩ : Place).advance skip) = none) :
          ∀ skip < last + 1, pattern ((⟨before, c :: rest⟩ : Place).advance skip) = none := by
        intro skip hskip
        cases skip with
        | zero => exact hmatch
        | succ skip =>
          rw [Place.advance_cons]
          exact hnone skip (Nat.lt_of_succ_lt_succ hskip)
      rw [leftmost_cons hmatch]
      cases hnext : pattern ⟨c :: before, rest⟩ with
      | some matched =>
        rw [leftmost_of_match hnext]
        exact .inr ⟨_, rfl, Nat.succ_le_succ (Nat.zero_le _),
          hshift fun skip hskip => absurd hskip (Nat.not_lt_zero skip)⟩
      | none =>
        rcases ih (c :: before) hnext with ⟨hfind, hnone⟩ | ⟨found, hfind, hle, hnone⟩
        · refine .inl ⟨by rw [hfind, Option.map_none], fun skip hskip => ?_⟩
          exact hshift (fun skip hlt => hnone skip (Nat.le_of_lt_succ hlt)) skip
            (Nat.lt_succ_of_le hskip)
        · rw [hfind]
          exact .inr ⟨_, rfl, Nat.succ_le_succ hle, hshift hnone⟩

/-- A pattern whose matches end within the text is found at the leftmost of them. -/
theorem isLeftmost_leftmost (h : IsWithin pattern) :
    IsLeftmost (leftmost pattern) fun place length captures =>
      pattern place = some (length, captures) where
  within place found hfound := by
    have hlength := h _ _ _ (match_of_leftmost hfound)
    rcases leftmost_cases pattern place with ⟨hnone, -⟩ | ⟨other, hother, hle, -⟩
    · rw [hnone] at hfound
      cases hfound
    · rw [hother] at hfound
      cases hfound
      simp only [Place.advance, List.length_drop] at hlength
      omega
  found place found hfound := match_of_leftmost hfound
  first place found hfound skip hskip length captures hmatch := by
    rcases leftmost_cases pattern place with ⟨hnone, -⟩ | ⟨other, hother, -, hbefore⟩
    · rw [hnone] at hfound
      cases hfound
    · rw [hother] at hfound
      cases hfound
      rw [hbefore skip hskip] at hmatch
      cases hmatch
  nowhere place hnone skip hskip length captures hmatch := by
    rcases leftmost_cases pattern place with ⟨-, hnowhere⟩ | ⟨other, hother, -⟩
    · rw [hnowhere skip hskip] at hmatch
      cases hmatch
    · rw [hother] at hnone
      cases hnone

end Matcher

/-! ## Trials -/

/-- New text for a piece of a text, which begins at a position. -/
structure Edit where
  start : Nat
  length : Nat
  new : Text
  deriving DecidableEq, Repr

/-- A match that a substitution comes to. -/
structure Trial (α : Type) where
  /-- The place from which the match was searched for. -/
  search : Place
  found : Match α
  /-- The context that the trial begins in. -/
  context : Context

namespace Trial

variable (replace : Replace α) (trial : Trial α)

def start : Place := trial.search.advance trial.found.skip

def stop : Place := trial.start.advance trial.found.length

def text : Text := trial.found.text trial.search.rest

/-- The text that replaces the match, none if it is rejected, or the error of the trial. -/
def verdict : Except CompileError (Option Text) :=
  ((replace trial.start trial.found.captures).run trial.context).1

def after : Context := ((replace trial.start trial.found.captures).run trial.context).2

/-- The place from which the next match is searched for: the end of a match that is replaced, and
one character further on if it is empty; the character after the start of one that is rejected. -/
def next? : Option Place :=
  match trial.verdict replace with
  | .ok (some _) =>
    if trial.found.length = 0 then Substitution.beyond trial.stop else some trial.stop
  | .ok none => Substitution.beyond trial.start
  | .error _ => none

def edit? : Option Edit :=
  match trial.verdict replace with
  | .ok (some new) => some ⟨trial.start.before.length, trial.found.length, new⟩
  | _ => none

end Trial

/-- The trials of a substitution that searches from a place in a context, and the context that they
end in. There are none beyond the end of the text, and none where no match is found. -/
inductive Trials (find : Matcher α) (replace : Replace α) :
    Option Place → Context → List (Trial α) → Context → Prop
  | beyond (context : Context) : Trials find replace none context [] context
  | exhausted {place : Place} (context : Context) (hfind : find place = none) :
      Trials find replace (some place) context [] context
  | tried {trial : Trial α} {later : List (Trial α)} {final : Context}
      (hfind : find trial.search = some trial.found)
      (hlater : Trials find replace (trial.next? replace) (trial.after replace) later final) :
      Trials find replace (some trial.search) trial.context (trial :: later) final

variable {find : Matcher α} {occurs : Place → Nat → α → Prop} {replace : Replace α}
  {trial : Trial α} {trials : List (Trial α)} {from? : Option Place} {context final : Context}

namespace Trial

theorem verdict_cases (replace : Replace α) (trial : Trial α) :
    (∃ error, trial.verdict replace = .error error ∧ trial.next? replace = none ∧
      trial.edit? replace = none) ∨
    (∃ new, trial.verdict replace = .ok (some new) ∧ 0 < trial.found.length ∧
      trial.next? replace = some trial.stop ∧
      trial.edit? replace = some ⟨trial.start.before.length, trial.found.length, new⟩) ∨
    ∃ new?, trial.verdict replace = .ok new? ∧ (new? ≠ none → trial.found.length = 0) ∧
      trial.next? replace = Substitution.beyond trial.start ∧
      trial.edit? replace = new?.map fun new => ⟨trial.start.before.length, 0, new⟩ := by
  unfold next? edit?
  cases trial.verdict replace with
  | error error => exact .inl ⟨error, rfl, rfl, rfl⟩
  | ok new? =>
    cases new? with
    | none => exact .inr (.inr ⟨none, rfl, fun h => absurd rfl h, rfl, rfl⟩)
    | some new =>
      rcases Nat.eq_zero_or_pos trial.found.length with hempty | hpos
      · have hstop : trial.stop = trial.start := by
          rw [stop, hempty]
          rfl
        exact .inr (.inr ⟨some new, rfl, fun _ => hempty, by simp [hempty, hstop],
          by simp [hempty]⟩)
      · exact .inr (.inl ⟨new, rfl, hpos, if_neg (Nat.ne_of_gt hpos), rfl⟩)

theorem edit?_eq_some_iff {edit : Edit} : trial.edit? replace = some edit ↔
    trial.verdict replace = .ok (some edit.new) ∧
      edit.start = trial.start.before.length ∧ edit.length = trial.found.length := by
  unfold edit?
  split
  · rename_i new hverdict
    rw [hverdict]
    constructor
    · rintro ⟨⟩
      exact ⟨rfl, rfl, rfl⟩
    · rintro ⟨hnew, hstart, hlength⟩
      cases hnew
      rw [← hstart, ← hlength]
  · rename_i hverdict
    exact iff_of_false (Option.some_ne_none _ ∘ Eq.symm) fun h => hverdict _ h.1

def IsWithin (trial : Trial α) : Prop :=
  trial.found.skip + trial.found.length ≤ trial.search.rest.length

theorem length_start (h : trial.IsWithin) :
    trial.start.before.length = trial.search.before.length + trial.found.skip :=
  Place.length_before_advance (Nat.le_of_add_right_le h)

theorem stop_eq (trial : Trial α) :
    trial.stop = trial.search.advance (trial.found.skip + trial.found.length) :=
  Place.advance_advance _ _ _

theorem length_stop (h : trial.IsWithin) :
    trial.stop.before.length = trial.start.before.length + trial.found.length := by
  rw [stop_eq, Place.length_before_advance h, length_start h, Nat.add_assoc]

theorem exists_next?_eq_advance (h : trial.IsWithin) {next : Place}
    (hnext : trial.next? replace = some next) :
    ∃ count, next = trial.search.advance count ∧ trial.found.skip < count ∧
      count ≤ trial.search.rest.length ∧
      (trial.edit? replace ≠ none → trial.found.skip + trial.found.length ≤ count) := by
  rcases verdict_cases replace trial with ⟨_, -, hnone, -⟩ | ⟨_, -, hpos, hstop, -⟩ |
    ⟨new?, -, hempty, hbeyond, hedit⟩
  · rw [hnone] at hnext
    cases hnext
  · rw [hstop] at hnext
    cases hnext
    exact ⟨_, stop_eq trial, by omega, h, fun _ => Nat.le_refl _⟩
  · rw [hbeyond, Substitution.beyond] at hnext
    split at hnext
    · cases hnext
    · rename_i hrest
      cases hnext
      have hlength : 0 < trial.start.rest.length := by
        rw [List.length_pos_iff]
        simpa [Place.atEnd] using hrest
      simp only [start, Place.advance, List.length_drop] at hlength
      refine ⟨_, Place.advance_advance _ _ _, Nat.lt_succ_self _, by omega, fun hedits => ?_⟩
      have hnew : new? ≠ none := by
        rintro rfl
        exact hedits hedit
      have hzero := hempty hnew
      omega

theorem length_start_lt (h : trial.IsWithin) {next : Place}
    (hnext : trial.next? replace = some next) :
    trial.start.before.length < next.before.length := by
  obtain ⟨count, rfl, hskip, hcount, -⟩ := exists_next?_eq_advance h hnext
  rw [Place.length_before_advance hcount, length_start h]
  exact Nat.add_lt_add_left hskip _

theorem length_stop_le (h : trial.IsWithin) {next : Place}
    (hnext : trial.next? replace = some next) (haccepted : trial.edit? replace ≠ none) :
    trial.stop.before.length ≤ next.before.length := by
  obtain ⟨count, rfl, -, hcount, hstop⟩ := exists_next?_eq_advance h hnext
  rw [Place.length_before_advance hcount, length_stop h, length_start h, Nat.add_assoc]
  exact Nat.add_le_add_left (hstop haccepted) _

/-- Unless a trial fails, the search goes on so far ahead that it passes over nothing but the match,
if that is accepted. -/
theorem exists_next?_of_lt (hok : ∀ error, trial.verdict replace ≠ .error error) {skip : Nat}
    (hlt : trial.found.skip < skip) (hskip : skip ≤ trial.search.rest.length)
    (haccepted : trial.edit? replace ≠ none → trial.found.skip + trial.found.length ≤ skip) :
    ∃ count ≤ skip, trial.next? replace = some (trial.search.advance count) := by
  rcases verdict_cases replace trial with ⟨error, herror, -, -⟩ | ⟨new, -, -, hstop, hedit⟩ |
    ⟨new?, -, -, hbeyond, -⟩
  · exact absurd herror (hok error)
  · exact ⟨_, haccepted (hedit ▸ Option.some_ne_none _), by rw [hstop, stop_eq]⟩
  · have hrest : trial.start.atEnd = false := by
      have hlength : 0 < trial.start.rest.length := by
        simp only [start, Place.advance, List.length_drop]
        omega
      rw [List.length_pos_iff] at hlength
      simpa [Place.atEnd] using hlength
    refine ⟨trial.found.skip + 1, hlt, ?_⟩
    rw [hbeyond, Substitution.beyond, hrest, if_neg Bool.false_ne_true, start,
      Place.advance_advance]

end Trial

namespace Trials

theorem eq_nil (h : Trials find replace none context trials final) :
    trials = [] ∧ final = context := by
  cases h
  exact ⟨rfl, rfl⟩

theorem exists_from (h : Trials find replace from? context trials final)
    (htrial : trial ∈ trials) : ∃ place, from? = some place := by
  cases h with
  | beyond => cases htrial
  | exhausted => cases htrial
  | tried => exact ⟨_, rfl⟩

theorem from_eq (h : Trials find replace from? context (trial :: trials) final) :
    from? = some trial.search := by
  cases h
  rfl

theorem found (h : Trials find replace from? context trials final) :
    ∀ trial ∈ trials, find trial.search = some trial.found := by
  induction h with
  | beyond => simp
  | exhausted => simp
  | tried hfind _ ih => exact List.forall_mem_cons.mpr ⟨hfind, ih⟩

theorem isWithin (hfind : find.IsLeftmost occurs)
    (h : Trials find replace from? context trials final) : ∀ trial ∈ trials, trial.IsWithin :=
  fun trial htrial => hfind.within _ _ (h.found trial htrial)

theorem from_le (hfind : find.IsLeftmost occurs)
    (h : Trials find replace from? context trials final) {place : Place}
    (hfrom : from? = some place) :
    ∀ trial ∈ trials, trial.search.text = place.text ∧
      place.before.length ≤ trial.search.before.length := by
  induction h generalizing place with
  | beyond => simp
  | exhausted => simp
  | @tried first later final hfound hlater ih =>
    cases hfrom
    refine List.forall_mem_cons.mpr ⟨⟨rfl, Nat.le_refl _⟩, fun trial htrial => ?_⟩
    obtain ⟨next, hnext⟩ := hlater.exists_from htrial
    obtain ⟨count, rfl, -, hcount, -⟩ :=
      Trial.exists_next?_eq_advance (hfind.within _ _ hfound) hnext
    have hbehind := ih hnext trial htrial
    rw [Place.text_advance, Place.length_before_advance hcount] at hbehind
    exact ⟨hbehind.1, by omega⟩

theorem pairwise (hfind : find.IsLeftmost occurs)
    (h : Trials find replace from? context trials final) :
    trials.Pairwise fun first later =>
      first.start.before.length < later.search.before.length ∧
      (first.edit? replace ≠ none →
        first.stop.before.length ≤ later.search.before.length) := by
  induction h with
  | beyond => exact List.Pairwise.nil
  | exhausted => exact List.Pairwise.nil
  | @tried first later final hfound hlater ih =>
    refine List.Pairwise.cons (fun trial htrial => ?_) ih
    have hwithin : first.IsWithin := hfind.within _ _ hfound
    obtain ⟨next, hnext⟩ := hlater.exists_from htrial
    have hbehind := (hlater.from_le hfind hnext trial htrial).2
    exact ⟨Nat.lt_of_lt_of_le (Trial.length_start_lt hwithin hnext) hbehind,
      fun haccepted => Nat.le_trans (Trial.length_stop_le hwithin hnext haccepted) hbehind⟩

theorem pairwise_edits (hfind : find.IsLeftmost occurs)
    (h : Trials find replace from? context trials final) :
    (trials.filterMap (·.edit? replace)).Pairwise fun first later =>
      first.start < later.start ∧ first.start + first.length ≤ later.start := by
  rw [List.pairwise_filterMap]
  refine (h.pairwise hfind).imp_of_mem ?_
  intro first later hfirst hlater hbehind edit hedit other hother
  obtain ⟨-, hstart, hlength⟩ := Trial.edit?_eq_some_iff.mp hedit
  obtain ⟨-, hstart', -⟩ := Trial.edit?_eq_some_iff.mp hother
  have haccepted := hbehind.2 (hedit ▸ Option.some_ne_none edit)
  rw [Trial.length_stop (h.isWithin hfind first hfirst)] at haccepted
  have hlater' := Trial.length_start (h.isWithin hfind later hlater)
  omega

/-- After a match that is rejected the search goes on at the character after its start. -/
theorem isChain_rejected (h : Trials find replace from? context trials final) :
    trials.IsChain fun first later =>
      first.verdict replace = .ok none → later.search = first.start.advance 1 := by
  induction h with
  | beyond => exact .nil
  | exhausted => exact .nil
  | @tried first later final hfound hlater ih =>
    cases later with
    | nil => exact .singleton first
    | cons second later =>
      refine .cons_cons (fun hrejected => ?_) ih
      have hnext : first.next? replace = Substitution.beyond first.start := by
        rw [Trial.next?, hrejected]
      rw [hlater.from_eq, Substitution.beyond] at hnext
      split at hnext
      · cases hnext
      · exact Option.some.inj hnext

theorem le_of_mem_edits (hfind : find.IsLeftmost occurs)
    (h : Trials find replace from? context trials final) {place : Place}
    (hfrom : from? = some place) :
    ∀ edit ∈ trials.filterMap (·.edit? replace), place.before.length ≤ edit.start := by
  intro edit hmem
  obtain ⟨trial, htrial, hedit⟩ := List.mem_filterMap.mp hmem
  have hsearch := (h.from_le hfind hfrom trial htrial).2
  rw [(Trial.edit?_eq_some_iff.mp hedit).2.1, Trial.length_start (h.isWithin hfind trial htrial)]
  exact Nat.le_trans hsearch (Nat.le_add_right _ _)

theorem length_le (hfind : find.IsLeftmost occurs)
    (h : Trials find replace from? context trials final) {place : Place}
    (hfrom : from? = some place) : trials.length ≤ place.rest.length + 1 := by
  induction h generalizing place with
  | beyond => exact Nat.zero_le _
  | exhausted => exact Nat.zero_le _
  | @tried first later final hfound hlater ih =>
    cases hfrom
    rw [List.length_cons]
    cases hnext : first.next? replace with
    | none =>
      rw [hnext] at hlater
      rw [hlater.eq_nil.1, List.length_nil]
      omega
    | some next =>
      obtain ⟨count, rfl, hskip, hcount, -⟩ :=
        Trial.exists_next?_eq_advance (hfind.within _ _ hfound) hnext
      have hlater' := ih hnext
      simp only [Place.advance, List.length_drop] at hlater'
      omega

/-- Each search begins further on, so that there is an end to them. -/
theorem exists_of_isLeftmost (hfind : find.IsLeftmost occurs) (replace : Replace α) (place : Place)
    (context : Context) :
    ∃ trials final, Trials find replace (some place) context trials final := by
  cases hfound : find place with
  | none => exact ⟨[], context, .exhausted context hfound⟩
  | some found =>
    let first : Trial α := ⟨place, found, context⟩
    have hwithin : first.IsWithin := hfind.within _ _ hfound
    obtain ⟨later, final, hlater⟩ : ∃ later final,
        Trials find replace (first.next? replace) (first.after replace) later final := by
      cases hnext : first.next? replace with
      | none => exact ⟨[], _, .beyond _⟩
      | some next =>
        obtain ⟨count, rfl, hskip, hcount, -⟩ := Trial.exists_next?_eq_advance hwithin hnext
        have hshorter : (first.search.advance count).rest.length < place.rest.length := by
          have hcount' : count ≤ place.rest.length := hcount
          show (place.rest.drop count).length < place.rest.length
          rw [List.length_drop]
          omega
        exact exists_of_isLeftmost hfind replace _ _
    exact ⟨first :: later, final, .tried hfound hlater⟩
termination_by place.rest.length

/-- If no trial fails, what occurs from a place on begins a match that is tried, or begins within a
match that is accepted. -/
theorem tried_or_accepted (hfind : find.IsLeftmost occurs)
    (h : Trials find replace from? context trials final)
    (hok : ∀ trial ∈ trials, ∀ error, trial.verdict replace ≠ .error error) {place : Place}
    (hfrom : from? = some place) {skip length : Nat} {captures : α}
    (hskip : skip ≤ place.rest.length) (hoccurs : occurs (place.advance skip) length captures) :
    ∃ trial ∈ trials, trial.start = place.advance skip ∨
      trial.edit? replace ≠ none ∧
        trial.start.before.length < place.before.length + skip ∧
        place.before.length + skip < trial.stop.before.length := by
  induction h generalizing place skip with
  | beyond => cases hfrom
  | exhausted context hnone =>
    cases hfrom
    exact absurd hoccurs (hfind.nowhere _ hnone skip hskip _ _)
  | @tried first later final hfound hlater ih =>
    cases hfrom
    have hwithin : first.IsWithin := hfind.within _ _ hfound
    have hstart := Trial.length_start hwithin
    have hstop := Trial.length_stop hwithin
    rcases Nat.lt_trichotomy skip first.found.skip with hlt | rfl | hgt
    · exact absurd hoccurs (hfind.first _ _ hfound skip hlt _ _)
    · exact ⟨first, List.mem_cons_self, .inl rfl⟩
    · by_cases hinside : first.edit? replace ≠ none ∧ skip < first.found.skip + first.found.length
      · exact ⟨first, List.mem_cons_self, .inr ⟨hinside.1, by omega, by omega⟩⟩
      · obtain ⟨count, hcount, hnext⟩ := Trial.exists_next?_of_lt
          (hok first List.mem_cons_self) hgt hskip
          fun hedit => Nat.not_lt.mp fun hlt => hinside ⟨hedit, hlt⟩
        have hplace : (first.search.advance count).advance (skip - count) =
            first.search.advance skip := by
          rw [Place.advance_advance, Nat.add_sub_cancel' hcount]
        have hlength : skip - count ≤ (first.search.advance count).rest.length := by
          simp only [Place.advance, List.length_drop]
          omega
        obtain ⟨trial, htrial, hcase⟩ := ih (fun trial htrial =>
          hok trial (List.mem_cons_of_mem _ htrial)) hnext hlength (hplace ▸ hoccurs)
        rw [hplace, Place.length_before_advance (by omega), Nat.add_assoc,
          Nat.add_sub_cancel' hcount] at hcase
        exact ⟨trial, List.mem_cons_of_mem _ htrial, hcase⟩

end Trials

end TemplateCompiler
