import TemplateCompiler.Proofs.Collecting

/-!
# Contexts on the way

A pass that fails may have declared something before. To say that nothing of it is lost, the
contexts that a pass comes to on its way are described step by step, and each of them is shown to
be kept in the context that the pass ends with, however it ends.
-/
namespace TemplateCompiler

open Pass

/-- All that is bound and pushed in a context is so in a later one, in the same order. -/
def Context.KeptIn (context later : Context) : Prop :=
  context.bindings <+: later.bindings ∧ context.prolog <+: later.prolog

theorem Context.KeptIn.refl (context : Context) : context.KeptIn context :=
  ⟨List.prefix_refl _, List.prefix_refl _⟩

theorem Context.KeptIn.trans {first second third : Context} (h : first.KeptIn second)
    (h' : second.KeptIn third) : first.KeptIn third :=
  ⟨h.1.trans h'.1, h.2.trans h'.2⟩

variable {α β : Type} {floor : Nat} {allowed : Declaration → Prop}

namespace Pass

theorem Collects.level_eq {pass : Pass α} (h : Collects floor allowed pass)
    {context after : Context} {result : Except CompileError α}
    (hrun : pass.run context = (result, after)) (hlevel : floor ≤ context.level) :
    after.level = context.level := by
  obtain ⟨result', declared, -, hcollects⟩ := h context.bindings
  rw [hcollects context.level context.prolog hlevel, Context.enactAll_eq] at hrun
  have hafter := congrArg (fun run => run.2.level) hrun
  exact hafter.symm

theorem Collects.level_run {pass : Pass α} (h : Collects floor allowed pass) {context : Context}
    (hlevel : floor ≤ context.level) : (pass.run context).2.level = context.level :=
  h.level_eq rfl hlevel

theorem Collects.keptIn_run {pass : Pass α} (h : Collects floor allowed pass) {context : Context}
    (hlevel : floor ≤ context.level) : context.KeptIn (pass.run context).2 := by
  obtain ⟨result, declared, -, hrun⟩ := h context.bindings
  rw [hrun context.level context.prolog hlevel, Context.enactAll_eq]
  exact ⟨List.prefix_append _ _, List.prefix_append _ _⟩

theorem keptIn_run_bind {pass : Pass α} {next : α → Pass β} {context : Context}
    (h : ∀ value, Collects floor allowed (next value))
    (hlevel : floor ≤ (pass.run context).2.level) :
    (pass.run context).2.KeptIn ((pass >>= next).run context).2 := by
  rw [run_bind]
  rcases hpass : pass.run context with ⟨error | value, after⟩
  · exact Context.KeptIn.refl after
  · rw [hpass] at hlevel
    exact (h value).keptIn_run hlevel

end Pass

namespace Substitution

variable {find : Matcher α} {replace : Replace α}

/-- A search that begins at a place in a context comes to a later place in the context `moment`,
after the matches before that place. -/
inductive Reaches (find : Matcher α) (replace : Replace α) : Place → Context → Context → Prop
  | here (place : Place) (context : Context) : Reaches find replace place context context
  | next {place next : Place} {context after moment : Context} {found : Match α}
      {new : Option Text} {copied : Text} (hfound : find place = some found)
      (hreplace : (replace (place.advance found.skip) found.captures).run context =
        (.ok new, after))
      (houtcome : outcome (place.advance found.skip) found.length new = (copied, some next))
      (hshorter : next.rest.length < place.rest.length)
      (hrest : Reaches find replace next after moment) : Reaches find replace place context moment

theorem Reaches.keptIn {place : Place} {context moment : Context}
    (h : Reaches find replace place context moment)
    (hreplace : ∀ place captures, Collects floor allowed (replace place captures))
    (hlevel : floor ≤ context.level) :
    moment.KeptIn ((substituteFrom find replace place).run context).2 := by
  induction h with
  | here place context => exact (collects_substituteFrom hreplace place).keptIn_run hlevel
  | @next place next context after moment found new copied hfound hnew houtcome hshorter _ ih =>
    have hafter := (hreplace _ _).level_eq hnew hlevel
    have hrest : ((substituteFrom find replace place).run context).2 =
        ((substituteFrom find replace next).run after).2 := by
      have hmapped (f : CompileError → CompileError) :
          (Pass.mapError f (replace (place.advance found.skip) found.captures)).run context =
            (.ok new, after) := by
        rw [run_mapError, hnew]
        rfl
      rw [substituteFrom, hfound]
      simp only [run_bind, hmapped, houtcome, if_pos hshorter]
      rcases (substituteFrom find replace next).run after with ⟨_ | _, _⟩ <;> rfl
    rw [hrest]
    exact ih (by omega)

end Substitution

namespace Sweep

variable {step : Place → Nat → Pass Move}

/-- A sweep in a context comes to take its step at a place in the context `moment`. -/
inductive Reaches (step : Place → Nat → Pass Move) :
    (before pending : Text) → (busy : Nat) → (keeping : Bool) → (text : Text) → Context →
      (place : Place) → (fresh : Nat) → (moment : Context) → Prop
  | here (before pending : Text) (keeping : Bool) (c : Char) (rest : Text) (context : Context) :
      Reaches step before pending 0 keeping (c :: rest) context ⟨before, c :: rest⟩ pending.length
        context
  | skip {before pending rest : Text} {busy : Nat} {keeping : Bool} {c : Char}
      {context moment : Context} {place : Place} {fresh : Nat}
      (h : Reaches step (c :: before) (if keeping then c :: pending else pending) busy keeping rest
        context place fresh moment) :
      Reaches step before pending (busy + 1) keeping (c :: rest) context place fresh moment
  | keep {before pending rest : Text} {keeping : Bool} {c : Char}
      {context after moment : Context} {place : Place} {fresh more : Nat}
      (hstep : (step ⟨before, c :: rest⟩ pending.length).run context = (.ok (.keep more), after))
      (h : Reaches step (c :: before) (c :: pending) more true rest after place fresh moment) :
      Reaches step before pending 0 keeping (c :: rest) context place fresh moment
  | replace {before pending rest new : Text} {keeping : Bool} {c : Char}
      {context after moment : Context} {place : Place} {fresh claimed more : Nat}
      (hstep : (step ⟨before, c :: rest⟩ pending.length).run context =
        (.ok (.replace claimed more new), after))
      (h : Reaches step (c :: before) [] more false rest after place fresh moment) :
      Reaches step before pending 0 keeping (c :: rest) context place fresh moment

theorem Reaches.level_eq {before pending text : Text} {busy fresh : Nat} {keeping : Bool}
    {context moment : Context} {place : Place}
    (h : Reaches step before pending busy keeping text context place fresh moment)
    (hstep : ∀ place fresh, Collects floor allowed (step place fresh))
    (hlevel : floor ≤ context.level) : moment.level = context.level := by
  induction h with
  | here => rfl
  | skip _ ih => exact ih hlevel
  | @keep before pending rest keeping c context after moment place fresh more hrun _ ih
  | @replace before pending rest new keeping c context after moment place fresh claimed more hrun
      _ ih =>
    have hafter := (hstep _ _).level_eq hrun hlevel
    rw [ih (by omega), hafter]

theorem Reaches.keptIn {before pending text : Text} {busy fresh : Nat} {keeping : Bool}
    {context moment : Context} {place : Place}
    (h : Reaches step before pending busy keeping text context place fresh moment)
    (hstep : ∀ place fresh, Collects floor allowed (step place fresh))
    (hlevel : floor ≤ context.level) :
    ((step place fresh).run moment).2.KeptIn
      ((sweepFrom step before pending busy keeping text).run context).2 := by
  induction h with
  | here before pending keeping c rest context =>
    refine @keptIn_run_bind _ _ floor allowed _ _ context (fun move => ?_) ?_
    · cases move with
      | keep more => exact collects_sweepFrom hstep _ _ _ _ _
      | replace claimed more new =>
        exact (collects_sweepFrom hstep _ _ _ _ _).bind fun _ => collects_pure _
    · rw [(hstep _ _).level_run hlevel]
      exact hlevel
  | skip _ ih => exact ih hlevel
  | @keep before pending rest keeping c context after moment place fresh more hrun _ ih =>
    have hafter := (hstep _ _).level_eq hrun hlevel
    rw [sweepFrom, run_bind, hrun]
    exact ih (by omega)
  | @replace before pending rest new keeping c context after moment place fresh claimed more hrun
      _ ih =>
    have hafter := (hstep _ _).level_eq hrun hlevel
    rw [sweepFrom, run_bind, hrun]
    refine (ih (by omega)).trans ?_
    exact @keptIn_run_bind _ _ 0 allowed _ _ after (fun _ => collects_pure _) (Nat.zero_le _)

end Sweep

end TemplateCompiler
