import TemplateCompiler.Proofs.Moments

/-!
# What passes keep and give

A property of contexts that a pass keeps however it ends, and what is known of the value it gives
if it succeeds. Both are read off a pass piece by piece. The last section counts a character: a
pass that puts nothing with it in place of what it finds gives back no more of it than it got.
-/
namespace TemplateCompiler

namespace Pass

variable {α β : Type} {kept : Context → Prop} {given : α → Prop} {given' : β → Prop}

/-- Begun in a context with a property, a pass ends in one; and what it gives is as stated. -/
def Gives (kept : Context → Prop) (given : α → Prop) (pass : Pass α) : Prop :=
  ∀ context, kept context → kept (pass.run context).2 ∧
    ∀ value, (pass.run context).1 = .ok value → given value

theorem Gives.of_run {pass : Pass α} (h : Gives kept given pass) {context after : Context}
    {result : Except CompileError α} (hrun : pass.run context = (result, after))
    (hcontext : kept context) : kept after ∧ ∀ value, result = .ok value → given value := by
  have hgives := h context hcontext
  rwa [hrun] at hgives

theorem gives_pure {value : α} (h : given value) : Gives kept given (pure value) := by
  intro context hcontext
  refine ⟨hcontext, ?_⟩
  rintro _ ⟨⟩
  exact h

theorem Gives.mono {given₁ : α → Prop} {pass : Pass α} (h : Gives kept given pass)
    (hgiven : ∀ value, given value → given₁ value) :
    Gives kept given₁ pass := fun context hcontext =>
  ⟨(h context hcontext).1, fun value hvalue => hgiven value ((h context hcontext).2 value hvalue)⟩

theorem Gives.bind {pass : Pass α} {next : α → Pass β} (hpass : Gives kept given pass)
    (hnext : ∀ value, given value → Gives kept given' (next value)) :
    Gives kept given' (pass >>= next) := by
  intro context hcontext
  obtain ⟨hafter, hgiven⟩ := hpass context hcontext
  rw [run_bind]
  rcases hrun : pass.run context with ⟨error | value, after⟩ <;> rw [hrun] at hafter hgiven
  · refine ⟨hafter, ?_⟩
    rintro _ ⟨⟩
  · exact hnext value (hgiven value rfl) after hafter

theorem Gives.mapError {pass : Pass α} (h : Gives kept given pass)
    (f : CompileError → CompileError) : Gives kept given (mapError f pass) := by
  intro context hcontext
  obtain ⟨hafter, hgiven⟩ := h context hcontext
  rw [run_mapError]
  rcases hrun : pass.run context with ⟨error | value, after⟩ <;> rw [hrun] at hafter hgiven
  · refine ⟨hafter, ?_⟩
    rintro _ ⟨⟩
  · exact ⟨hafter, hgiven⟩

/-- A property that has nothing to do with the level is kept across a level of nesting. -/
theorem Gives.nested {pass : Pass α} (h : Gives kept given pass)
    (hlevel : ∀ context level, kept context → kept { context with level := level }) :
    Gives kept given (nested pass) := by
  intro context hcontext
  obtain ⟨hafter, hgiven⟩ := h _ (hlevel context (context.level + 1) hcontext)
  rw [run_nested]
  exact ⟨hlevel _ _ hafter, hgiven⟩

theorem gives_ofContext {step : Context → Except CompileError α}
    (h : ∀ context value, kept context → step context = .ok value → given value) :
    Gives kept given (ofContext step) := fun context hcontext =>
  ⟨hcontext, fun value hvalue => h context value hcontext hvalue⟩

theorem gives_update {step : Context → Except CompileError Context}
    (h : ∀ context after, kept context → step context = .ok after → kept after) :
    Gives kept (fun _ => True) (update step) := by
  intro context hcontext
  refine ⟨?_, fun _ _ => trivial⟩
  cases hstep : step context with
  | error error =>
    rw [run_update_error hstep]
    exact hcontext
  | ok after =>
    rw [run_update_ok hstep]
    exact h context after hcontext hstep

theorem keeps_sweepFrom {step : Place → Nat → Pass Move}
    (h : ∀ place fresh, Gives kept (fun _ => True) (step place fresh)) (before pending : Text)
    (busy : Nat) (keeping : Bool) (text : Text) :
    Gives kept (fun _ => True) (Sweep.sweepFrom step before pending busy keeping text) := by
  induction text generalizing before pending busy keeping with
  | nil => exact gives_pure trivial
  | cons c rest ih =>
    cases busy with
    | succ busy => exact ih _ _ _ _
    | zero =>
      refine (h _ _).bind fun move _ => ?_
      cases move with
      | keep more => exact ih _ _ _ _
      | replace claimed more new => exact (ih _ _ _ _).bind fun _ _ => gives_pure trivial

/-- Passes that do the same in every context with a property. -/
def SameOn (kept : Context → Prop) (pass pass' : Pass α) : Prop :=
  ∀ context, kept context → pass.run context = pass'.run context

theorem SameOn.bind {pass pass' : Pass α} {next next' : α → Pass β} (h : SameOn kept pass pass')
    (hgives : Gives kept given pass)
    (hnext : ∀ value, given value → SameOn kept (next value) (next' value)) :
    SameOn kept (pass >>= next) (pass' >>= next') := by
  intro context hcontext
  rw [run_bind, run_bind, ← h context hcontext]
  obtain ⟨hafter, hgiven⟩ := hgives context hcontext
  rcases hrun : pass.run context with ⟨error | value, after⟩
  · rfl
  · rw [hrun] at hafter hgiven
    exact hnext value (hgiven value rfl) after hafter

theorem sameOn_refl (pass : Pass α) : SameOn kept pass pass := fun _ _ => rfl

theorem SameOn.mapError {pass pass' : Pass α} (h : SameOn kept pass pass')
    (f : CompileError → CompileError) : SameOn kept (mapError f pass) (mapError f pass') := by
  intro context hcontext
  rw [run_mapError, run_mapError, h context hcontext]

theorem SameOn.nested {pass pass' : Pass α} (h : SameOn kept pass pass')
    (hlevel : ∀ context level, kept context → kept { context with level := level }) :
    SameOn kept (nested pass) (nested pass') := by
  intro context hcontext
  rw [run_nested, run_nested, h _ (hlevel context _ hcontext)]

theorem sameOn_sweepFrom {step step' : Place → Nat → Pass Move}
    (h : ∀ place fresh, SameOn kept (step place fresh) (step' place fresh))
    (hgives : ∀ place fresh, Gives kept (fun _ => True) (step place fresh))
    (before pending : Text) (busy : Nat) (keeping : Bool) (text : Text) :
    SameOn kept (Sweep.sweepFrom step before pending busy keeping text)
      (Sweep.sweepFrom step' before pending busy keeping text) := by
  induction text generalizing before pending busy keeping with
  | nil => exact sameOn_refl _
  | cons c rest ih =>
    cases busy with
    | succ busy => exact ih _ _ _ _
    | zero =>
      refine (h _ _).bind (hgives _ _) fun move _ => ?_
      cases move with
      | keep more => exact ih _ _ _ _
      | replace claimed more new =>
        intro context hcontext
        rw [run_bind, run_bind, ih _ _ _ _ context hcontext]

end Pass

theorem Sweep.Reaches.kept {kept : Context → Prop} {step : Place → Nat → Pass Move}
    {before pending text : Text} {busy fresh : Nat} {keeping : Bool} {context moment : Context}
    {place : Place} (h : Reaches step before pending busy keeping text context place fresh moment)
    (hstep : ∀ place fresh, Pass.Gives kept (fun _ => True) (step place fresh))
    (hcontext : kept context) : kept moment := by
  induction h with
  | here => exact hcontext
  | skip _ ih => exact ih hcontext
  | keep hrun _ ih => exact ih ((hstep _ _).of_run hrun hcontext).1
  | replace hrun _ ih => exact ih ((hstep _ _).of_run hrun hcontext).1

/-! ## Counting a character -/

namespace Pass

variable {α : Type} {kept : Context → Prop} {x : Char}

/-- Whether a move at the start of a text puts in no more of a character than it takes out. -/
def AddsNone (x : Char) (rest : Text) : Move → Prop
  | .keep _ => True
  | .replace _ more new => new.count x ≤ (rest.take (more + 1)).count x

/-- While characters are passed over after a replacement, only those behind them count. -/
theorem gives_sweepFrom {step : Place → Nat → Pass Move}
    (h : ∀ place fresh, Gives kept (AddsNone x place.rest) (step place fresh))
    (before pending : Text) (busy : Nat) (keeping : Bool) (text : Text) :
    Gives kept (fun swept => swept.count x ≤
        pending.count x + (if keeping then text else text.drop busy).count x)
      (Sweep.sweepFrom step before pending busy keeping text) := by
  induction text generalizing before pending busy keeping with
  | nil =>
    refine gives_pure ?_
    rw [List.count_reverse]
    exact Nat.le_add_right _ _
  | cons c rest ih =>
    cases busy with
    | succ busy =>
      refine (ih _ _ _ _).mono fun swept hswept => ?_
      cases keeping with
      | false => exact hswept
      | true =>
        simp only [if_true, List.count_cons] at hswept ⊢
        omega
    | zero =>
      refine (h ⟨before, c :: rest⟩ _).bind fun move hmove => ?_
      have hall : (if keeping then c :: rest else (c :: rest).drop 0) = c :: rest := by
        cases keeping <;> rfl
      rw [hall]
      cases move with
      | keep more =>
        refine (ih _ _ _ _).mono fun swept hswept => ?_
        simp only [if_true, List.count_cons] at hswept ⊢
        omega
      | replace claimed more new =>
        refine (ih _ _ _ _).bind fun swept hswept => gives_pure ?_
        have hnew : new.count x ≤ ((c :: rest).take (more + 1)).count x := hmove
        have hparts := congrArg (List.count x) (List.take_append_drop (more + 1) (c :: rest))
        have hpending := (List.drop_sublist claimed pending).count_le x
        simp only [Bool.false_eq_true, if_false, List.count_nil, List.count_append,
          List.count_reverse, List.drop_succ_cons] at hswept hparts ⊢
        omega

theorem gives_sweep {step : Place → Nat → Pass Move}
    (h : ∀ place fresh, Gives kept (AddsNone x place.rest) (step place fresh)) (text : Text) :
    Gives kept (fun swept => swept.count x ≤ text.count x) (sweep step text) := by
  refine (gives_sweepFrom h [] [] 0 true text).mono fun swept hswept => ?_
  simpa using hswept

theorem count_outcome (start : Place) (length : Nat) {new : Option Text}
    (hnew : ∀ text, new = some text → x ∉ text) :
    (Substitution.outcome start length new).1.count x +
      ((Substitution.outcome start length new).2.map fun next => next.rest.count x).getD 0 ≤
        start.rest.count x := by
  have hparts (n : Nat) := congrArg (List.count x) (List.take_append_drop n start.rest)
  have hbeyond : (start.rest.take 1).count x +
      ((Substitution.beyond start).map fun next => next.rest.count x).getD 0 ≤
        start.rest.count x := by
    have hone := hparts 1
    rw [List.count_append] at hone
    unfold Substitution.beyond
    split
    · simp only [Option.map_none, Option.getD_none]
      omega
    · simp only [Option.map_some, Option.getD_some, Place.advance]
      omega
  cases new with
  | none => exact hbeyond
  | some text =>
    have hnone := List.count_eq_zero.mpr (hnew text rfl)
    by_cases hempty : length = 0
    · simp only [Substitution.outcome, if_pos hempty, List.count_append, hnone, Nat.zero_add]
      exact hbeyond
    · have hlength := hparts length
      rw [List.count_append] at hlength
      simp only [Substitution.outcome, if_neg hempty, Option.map_some, Option.getD_some,
        Place.advance, hnone]
      omega

theorem gives_substituteFrom {find : Matcher α} {replace : Replace α}
    (h : ∀ place found, find place = some found →
      Gives kept (fun new => ∀ text, new = some text → x ∉ text)
        (replace (place.advance found.skip) found.captures)) (place : Place) :
    Gives kept (fun text => text.count x ≤ place.rest.count x)
      (Substitution.substituteFrom find replace place) := by
  rw [Substitution.substituteFrom]
  split
  · exact gives_pure (Nat.le_refl _)
  · rename_i found hfound
    refine ((h place found hfound).mapError _).bind fun new hnew => ?_
    have hcount := count_outcome (place.advance found.skip) found.length hnew
    have hparts := congrArg (List.count x) (List.take_append_drop found.skip place.rest)
    have hstart : (place.advance found.skip).rest = place.rest.drop found.skip := rfl
    rw [hstart] at hcount
    rw [List.count_append] at hparts
    split
    · rename_i copied houtcome
      rw [houtcome] at hcount
      refine gives_pure ?_
      simp only [Match.skipped, List.count_append, Option.map_none, Option.getD_none] at hcount ⊢
      omega
    · rename_i copied next houtcome
      rw [houtcome] at hcount
      simp only [Option.map_some, Option.getD_some] at hcount
      split
      · refine (gives_substituteFrom h next).bind fun text htext => gives_pure ?_
        simp only [Match.skipped, List.count_append]
        omega
      · refine gives_pure ?_
        simp only [Match.skipped, List.count_append]
        omega
termination_by place.rest.length

theorem gives_substitute {find : Matcher α} {replace : Replace α}
    (h : ∀ place found, find place = some found →
      Gives kept (fun new => ∀ text, new = some text → x ∉ text)
        (replace (place.advance found.skip) found.captures)) (text : Text) :
    Gives kept (fun replaced => replaced.count x ≤ text.count x) (substitute find replace text) :=
  gives_substituteFrom h (Place.start text)

end Pass

end TemplateCompiler
