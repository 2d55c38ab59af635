import TemplateCompiler.Proofs.ContentSites
import TemplateCompiler.Proofs.MatchTrials

/-!
# What a substitution comes to

The text that a substitution comes to is the text with new text for the matches that are accepted:
all that is not in them stays, and stands there once.
-/
namespace TemplateCompiler

/-! ## Edits of a text -/

namespace Text

variable {text : Text} {start middle : Nat} {edits : List Edit}

/-- The text from a position on, with new text for the pieces that are edited. -/
def edited (text : Text) (start : Nat) : List Edit → Text
  | [] => text.drop start
  | edit :: edits =>
    (text.take edit.start).drop start ++ edit.new ++ edited text (edit.start + edit.length) edits

theorem drop_eq_append (h : start ≤ middle) :
    text.drop start = (text.take middle).drop start ++ text.drop middle := by
  rw [List.drop_take, ← Nat.add_sub_cancel' h, ← List.drop_drop, Nat.add_sub_cancel_left,
    List.take_append_drop]

theorem edited_eq_append (h : start ≤ middle) (hedits : ∀ edit ∈ edits, middle ≤ edit.start) :
    text.edited start edits = (text.take middle).drop start ++ text.edited middle edits := by
  cases edits with
  | nil => exact drop_eq_append h
  | cons edit edits =>
    have hkept := @drop_eq_append (text.take edit.start) _ _ h
    rw [List.take_take, Nat.min_eq_left (hedits edit List.mem_cons_self)] at hkept
    rw [edited, edited, hkept, List.append_assoc, List.append_assoc, List.append_assoc]

end Text

namespace Place

theorem length_text (place : Place) :
    place.text.length = place.before.length + place.rest.length := by
  rw [text, List.length_append, List.length_reverse]

theorem drop_take_text (place : Place) (count : Nat) :
    (place.text.take (place.before.length + count)).drop place.before.length =
      place.rest.take count := by
  rw [List.drop_take, Nat.add_sub_cancel_left, text, ← List.length_reverse, List.drop_left]

end Place

/-! ## The run of a substitution -/

variable {α : Type} {find : Matcher α} {occurs : Place → Nat → α → Prop} {replace : Replace α}
  {trial : Trial α} {trials : List (Trial α)} {from? : Option Place} {context final : Context}

theorem Trial.drop_take_text (h : trial.IsWithin) :
    (trial.search.text.take trial.start.before.length).drop trial.search.before.length =
      trial.found.skipped trial.search.rest := by
  rw [length_start h, Place.drop_take_text]
  rfl

theorem Trial.outcome_snd {new? : Option Text} (h : trial.verdict replace = .ok new?) :
    (Substitution.outcome trial.start trial.found.length new?).2 = trial.next? replace := by
  unfold next?
  rw [h]
  cases new? with
  | none => rfl
  | some new =>
    simp only [Substitution.outcome, stop]
    split
    · rename_i hempty
      rw [hempty]
      rfl
    · rfl

namespace Substitution

/-- What a search from a place on comes to, and nothing beyond the end. -/
def resume (find : Matcher α) (replace : Replace α) : Option Place → Pass Text
  | none => pure []
  | some place => substituteFrom find replace place

theorem run_of_error (hfound : find trial.search = some trial.found) {error : CompileError}
    (hverdict : trial.verdict replace = .error error) :
    (substituteFrom find replace trial.search).run trial.context =
      (.error (reporting trial.start trial.text error), trial.after replace) := by
  have hrun : (replace trial.start trial.found.captures).run trial.context =
      (.error error, trial.after replace) := Prod.ext hverdict rfl
  have hstart : trial.search.advance trial.found.skip = trial.start := rfl
  rw [substituteFrom, hfound]
  simp only [hstart]
  rw [Pass.run_bind, Pass.run_mapError, hrun]
  rfl

theorem run_of_ok (hfind : find.IsLeftmost occurs) (hfound : find trial.search = some trial.found)
    {new? : Option Text} (hverdict : trial.verdict replace = .ok new?) :
    (substituteFrom find replace trial.search).run trial.context =
      ((trial.found.skipped trial.search.rest ++
          (outcome trial.start trial.found.length new?).1 ++ ·) <$>
        resume find replace (trial.next? replace)).run (trial.after replace) := by
  have hrun : (replace trial.start trial.found.captures).run trial.context =
      (.ok new?, trial.after replace) := Prod.ext hverdict rfl
  have hstart : trial.search.advance trial.found.skip = trial.start := rfl
  have houtcome : outcome trial.start trial.found.length new? =
      ((outcome trial.start trial.found.length new?).1, trial.next? replace) :=
    Prod.ext rfl (Trial.outcome_snd hverdict)
  rw [substituteFrom, hfound]
  simp only [hstart]
  rw [Pass.run_bind, Pass.run_mapError, hrun]
  simp only [Except.mapError]
  rw [houtcome]
  cases hnext : trial.next? replace with
  | none => simp only [resume, map_pure, List.append_nil]
  | some next =>
    obtain ⟨count, rfl, hskip, hcount, -⟩ :=
      Trial.exists_next?_eq_advance (hfind.within _ _ hfound) hnext
    have hshorter : (trial.search.advance count).rest.length < trial.search.rest.length := by
      simp only [Place.advance, List.length_drop]
      omega
    simp only [if_pos hshorter, map_eq_pure_bind]
    rfl

/-- What is copied from a place on, if these edits are to come. -/
def resumed : Option Place → List Edit → Text
  | none, _ => []
  | some place, edits => place.text.edited place.before.length edits

variable {edits : List Edit}

theorem take_append_resumed {place : Place}
    (hedits : ∀ next, beyond place = some next → ∀ edit ∈ edits, next.before.length ≤ edit.start)
    (hnone : beyond place = none → edits = []) :
    place.rest.take 1 ++ resumed (beyond place) edits =
      place.text.edited place.before.length edits := by
  obtain ⟨before, rest⟩ := place
  cases rest with
  | nil =>
    rw [hnone rfl, Text.edited, Directive.Content.drop_text]
    rfl
  | cons c rest =>
    have hbeyond : beyond ⟨before, c :: rest⟩ = some ⟨c :: before, rest⟩ := rfl
    rw [Text.edited_eq_append (Nat.le_succ _) fun edit => hedits _ hbeyond edit,
      Place.drop_take_text ⟨before, c :: rest⟩ 1, hbeyond, resumed, Place.text_shift]
    rfl

/-- After a trial that does not fail, the text up to the next search is copied with the edit that
the trial comes to. -/
theorem copied_append_resumed (hwithin : trial.IsWithin) {new? : Option Text}
    (hverdict : trial.verdict replace = .ok new?)
    (hedits : ∀ next, trial.next? replace = some next →
      ∀ edit ∈ edits, next.before.length ≤ edit.start)
    (hnone : trial.next? replace = none → edits = []) :
    trial.found.skipped trial.search.rest ++
        (outcome trial.start trial.found.length new?).1 ++ resumed (trial.next? replace) edits =
      trial.search.text.edited trial.search.before.length
        ((trial.edit? replace).toList ++ edits) := by
  have htext : trial.start.text = trial.search.text := Place.text_advance _ _
  have hskipped := Trial.drop_take_text hwithin
  have hedits' : ∀ edit ∈ edits, trial.start.before.length ≤ edit.start := by
    intro edit hmem
    cases hnext : trial.next? replace with
    | none =>
      rw [hnone hnext] at hmem
      cases hmem
    | some next =>
      exact Nat.le_trans (Nat.le_of_lt (Trial.length_start_lt hwithin hnext))
        (hedits next hnext edit hmem)
  rcases Trial.verdict_cases replace trial with ⟨_, herror, -, -⟩ |
    ⟨new, hnew, hpos, hstop, hedit⟩ | ⟨accepted?, hnew, hempty, hbeyond, hedit⟩
  · rw [herror] at hverdict
    cases hverdict
  · obtain rfl : some new = new? := Except.ok.inj (hnew.symm.trans hverdict)
    have hstopText : trial.stop.text = trial.search.text := by
      rw [Trial.stop_eq, Place.text_advance]
    rw [hstop, hedit, outcome, if_neg (Nat.ne_of_gt hpos), resumed, hstopText,
      Trial.length_stop hwithin, Option.toList_some, List.singleton_append, Text.edited, hskipped]
  · obtain rfl : new? = accepted? := Except.ok.inj (hverdict.symm.trans hnew)
    rw [hbeyond] at hedits hnone ⊢
    have hgoOn := take_append_resumed hedits hnone
    rw [htext] at hgoOn
    cases new? with
    | none =>
      have hstart : trial.search.before.length ≤ trial.start.before.length := by
        rw [Trial.length_start hwithin]
        exact Nat.le_add_right _ _
      have hkept := @Text.edited_eq_append trial.search.text _ _ _ hstart hedits'
      rw [hedit, outcome, List.append_assoc, hgoOn, Option.map_none, Option.toList_none,
        List.nil_append, hkept, hskipped]
    | some new =>
      rw [hedit, outcome, if_pos (hempty (Option.some_ne_none new)), List.append_assoc,
        List.append_assoc, hgoOn, Option.map_some, Option.toList_some, List.singleton_append,
        Text.edited, hskipped, Nat.add_zero, List.append_assoc]

end Substitution

theorem Trials.run_resume (hfind : find.IsLeftmost occurs)
    (h : Trials find replace from? context trials final) :
    ((∀ trial ∈ trials, ∀ error, trial.verdict replace ≠ .error error) →
      (Substitution.resume find replace from?).run context =
        (.ok (Substitution.resumed from? (trials.filterMap (·.edit? replace))), final)) ∧
    ∀ trial ∈ trials, ∀ error, trial.verdict replace = .error error →
      (Substitution.resume find replace from?).run context =
        (.error (Substitution.reporting trial.start trial.text error), final) := by
  induction h with
  | beyond => exact ⟨fun _ => rfl, by simp⟩
  | @exhausted place context hnone =>
    refine ⟨fun _ => ?_, by simp⟩
    show (Substitution.substituteFrom find replace place).run context = _
    rw [Substitution.substituteFrom, hnone, List.filterMap_nil, Substitution.resumed, Text.edited,
      Directive.Content.drop_text]
    rfl
  | @tried first later final hfound hlater ih =>
    have hwithin : first.IsWithin := hfind.within _ _ hfound
    show (_ → (Substitution.substituteFrom find replace first.search).run first.context = _) ∧
      ∀ trial ∈ first :: later, ∀ error, trial.verdict replace = .error error →
        (Substitution.substituteFrom find replace first.search).run first.context = _
    cases hverdict : first.verdict replace with
    | error error =>
      have hnext : first.next? replace = none := by
        rw [Trial.next?, hverdict]
      rw [hnext] at hlater
      obtain ⟨rfl, rfl⟩ := hlater.eq_nil
      refine ⟨fun hok => absurd hverdict (hok first List.mem_cons_self error), ?_⟩
      rw [List.forall_mem_singleton]
      rintro error' herror
      cases hverdict.symm.trans herror
      exact Substitution.run_of_error hfound hverdict
    | ok new? =>
      rw [Substitution.run_of_ok hfind hfound hverdict, Pass.run_map]
      refine ⟨fun hok => ?_, fun trial htrial error herror => ?_⟩
      · have hcopied := Substitution.copied_append_resumed hwithin hverdict
          (fun next hnext => hlater.le_of_mem_edits hfind hnext) fun hnext => by
            rw [hnext] at hlater
            rw [hlater.eq_nil.1, List.filterMap_nil]
        have hedits : (first :: later).filterMap (·.edit? replace) =
            (first.edit? replace).toList ++ later.filterMap (·.edit? replace) := by
          rw [List.filterMap_cons]
          cases first.edit? replace <;> rfl
        rw [ih.1 fun trial htrial => hok trial (List.mem_cons_of_mem _ htrial), hedits,
          Substitution.resumed, ← hcopied]
        rfl
      · rcases List.mem_cons.mp htrial with rfl | hmem
        · cases hverdict.symm.trans herror
        · rw [ih.2 trial hmem error herror]
          rfl

/-- The error of a trial is reported with the span and the text of the match, unless it has its
own. -/
theorem Trial.reporting_eq (trial : Trial α) (error : CompileError) :
    Substitution.reporting trial.start trial.text error =
      { error with
        span := if error.span.isEmpty then ⟨trial.start.offset, trial.stop.offset⟩ else error.span
        fragment := some (error.fragment.getD trial.text.trim) } := by
  have hspan : Span.ofText trial.start.offset trial.text =
      ⟨trial.start.offset, trial.stop.offset⟩ := by
    rw [Trial.stop, Place.offset_advance]
    rfl
  rw [Substitution.reporting, hspan, CompileError.locate]
  split <;> rfl

/-- Let a matcher find the leftmost matches, and let each match be replaced, rejected or end the
substitution with an error. There is an end to the trials. Each lies within the text and begins
behind the start of the one before, one after a rejected match at the next character, and none
before the end of an accepted match; so the accepted matches lie apart. If no trial fails, the
result is the text with the accepted matches replaced and nothing else changed, and whatever occurs
in the text was tried or begins within an accepted match. If a trial fails, its error is reported
with the span of the match unless it has one. -/
theorem substitute_replaces_accepted {find : Matcher α} {occurs : Place → Nat → α → Prop}
    (hfind : find.IsLeftmost occurs) (replace : Replace α) (text : Text) (context : Context) :
    (∃ trials final, Trials find replace (some (Place.start text)) context trials final) ∧
    ∀ trials final, Trials find replace (some (Place.start text)) context trials final →
      let edits := trials.filterMap (·.edit? replace)
      trials.length ≤ text.length + 1 ∧
      (∀ trial ∈ trials, trial.search.text = text ∧ trial.IsWithin) ∧
      (trials.Pairwise fun first later =>
        first.start.before.length < later.search.before.length ∧
        (first.edit? replace ≠ none →
          first.stop.before.length ≤ later.search.before.length)) ∧
      (trials.IsChain fun first later =>
        first.verdict replace = .ok none → later.search = first.start.advance 1) ∧
      (edits.Pairwise fun first later =>
        first.start < later.start ∧ first.start + first.length ≤ later.start) ∧
      (∀ edit ∈ edits, edit.start + edit.length ≤ text.length) ∧
      ((∀ trial ∈ trials, ∀ error, trial.verdict replace ≠ .error error) →
        (substitute find replace text).run context = (.ok (text.edited 0 edits), final) ∧
        (edits = [] → (substitute find replace text).run context = (.ok text, final)) ∧
        ∀ position ≤ text.length, ∀ length captures,
          occurs ((Place.start text).advance position) length captures →
          ∃ trial ∈ trials, trial.start.before.length = position ∨
            trial.edit? replace ≠ none ∧ trial.start.before.length < position ∧
              position < trial.stop.before.length) ∧
      ∀ trial ∈ trials, ∀ error, trial.verdict replace = .error error →
        (substitute find replace text).run context =
          (.error { error with
            span := if error.span.isEmpty then ⟨trial.start.offset, trial.stop.offset⟩
              else error.span
            fragment := some (error.fragment.getD trial.text.trim) }, final) := by
  refine ⟨Trials.exists_of_isLeftmost hfind replace _ context, fun trials final h => ?_⟩
  intro edits
  obtain ⟨hok, herror⟩ := h.run_resume hfind
  have hwithin (trial : Trial α) (htrial : trial ∈ trials) :
      trial.search.text = text ∧ trial.IsWithin :=
    ⟨(h.from_le hfind rfl trial htrial).1, h.isWithin hfind trial htrial⟩
  refine ⟨h.length_le hfind rfl, hwithin, h.pairwise hfind, h.isChain_rejected,
    h.pairwise_edits hfind, fun edit hmem => ?_, fun hnone => ⟨hok hnone, fun hempty => ?_, ?_⟩,
    fun trial htrial error hfails => ?_⟩
  · obtain ⟨trial, htrial, hedit⟩ := List.mem_filterMap.mp hmem
    obtain ⟨-, hstart, hlength⟩ := Trial.edit?_eq_some_iff.mp hedit
    obtain ⟨rfl, hinside⟩ := hwithin trial htrial
    rw [hstart, hlength, Trial.length_start hinside, Place.length_text, Nat.add_assoc]
    exact Nat.add_le_add_left hinside _
  · have hrun := hok hnone
    rw [show trials.filterMap (·.edit? replace) = [] from hempty] at hrun
    exact hrun
  · intro position hposition length captures hoccurs
    obtain ⟨trial, htrial, hcase⟩ := h.tried_or_accepted hfind hnone rfl hposition hoccurs
    rw [show (Place.start text).before.length + position = position from Nat.zero_add _] at hcase
    refine ⟨trial, htrial, hcase.imp (fun hstart => ?_) id⟩
    rw [hstart, Place.length_before_advance hposition]
    exact Nat.zero_add _
  · rw [← Trial.reporting_eq]
    exact herror trial htrial error hfails

/-- Two matches are rejected because a word stands before them, and the third one, which begins
within the second, is accepted. -/
theorem substitute_replaces_accepted_of_content :
    let pattern := Directive.Content.pattern
    let text := "a@content  @content b".toList
    Matcher.IsLeftmost (Matcher.leftmost pattern) (fun place length captures =>
      pattern place = some (length, captures)) ∧
    ∃ trials, trials.length = 3 ∧
      Trials (Matcher.leftmost pattern) Directive.Content.replace (some (Place.start text))
        Context.initial trials Context.initial ∧
      (substitute (Matcher.leftmost pattern) Directive.Content.replace text).run Context.initial =
        (.ok "a@content  <?php echo $my->getContent() ?> b".toList, Context.initial) := by
  intro pattern text
  have hfind := Matcher.isLeftmost_leftmost Directive.Content.isWithin_pattern
  let start := Place.start text
  let first : Trial Directive.Content := ⟨start, ⟨1, 10, ⟨[], [' ', ' ']⟩⟩, Context.initial⟩
  let second : Trial Directive.Content :=
    ⟨start.advance 2, ⟨7, 11, ⟨[' ', ' '], [' ']⟩⟩, Context.initial⟩
  let third : Trial Directive.Content :=
    ⟨start.advance 10, ⟨0, 10, ⟨[' '], [' ']⟩⟩, Context.initial⟩
  have htrials : Trials (Matcher.leftmost pattern) Directive.Content.replace (some start)
      Context.initial [first, second, third] Context.initial := by
    have hfound : Matcher.leftmost pattern first.search = some first.found := by decide +kernel
    have hfound' : Matcher.leftmost pattern second.search = some second.found := by decide +kernel
    have hfound'' : Matcher.leftmost pattern third.search = some third.found := by decide +kernel
    have hnone : Matcher.leftmost pattern (start.advance 20) = none := by decide +kernel
    exact .tried hfound (.tried hfound' (.tried hfound'' (.exhausted _ hnone)))
  have hok : ∀ trial ∈ [first, second, third], ∀ error,
      trial.verdict Directive.Content.replace ≠ .error error := by
    simp only [List.forall_mem_cons]
    exact ⟨fun error => nofun, fun error => nofun, fun error => nofun, nofun⟩
  obtain ⟨-, hrun⟩ := substitute_replaces_accepted hfind Directive.Content.replace text
    Context.initial
  obtain ⟨-, -, -, -, -, -, hdone, -⟩ := hrun _ _ htrials
  have hedited : Text.edited text 0 ([first, second, third].filterMap
      (·.edit? Directive.Content.replace)) =
        "a@content  <?php echo $my->getContent() ?> b".toList := by decide +kernel
  refine ⟨hfind, _, rfl, htrials, ?_⟩
  rw [(hdone hok).1, hedited]

end TemplateCompiler
