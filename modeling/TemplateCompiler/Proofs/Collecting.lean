import TemplateCompiler.Substitution
import TemplateCompiler.Sweep

/-!
# Passes that collect

While a compile runs, its context only grows: aliases are bound and statements are pushed. What a
pass does so depends on the bindings alone, never on the statements collected before nor on how
deep the pass is nested. `Pass.Collects` says this of a pass, and is kept by everything that
passes are made of, so that it can be read off a pass piece by piece.
-/
namespace TemplateCompiler

theorem eq_ok_of_toOption {ε α : Type} {result : Except ε α} {value : α}
    (h : result.toOption = some value) : result = .ok value := by
  cases result with
  | error error => cases h
  | ok found =>
    cases h
    rfl

/-- A change that a compile may make to its context. -/
inductive Declaration
  /-- Binds an alias, and imports it if it says so. -/
  | bound (binding : Binding)
  | statement (text : Text)

namespace Declaration

/-- The bindings added, by the key of their alias. -/
def bindings : Declaration → List (Text × Binding)
  | bound binding => [(Name.aliasKey binding.name, binding)]
  | statement _ => []

def statements : Declaration → List Text
  | bound binding => if binding.imported then [binding.statement] else []
  | statement text => [text]

end Declaration

namespace Context

def enact (context : Context) : Declaration → Context
  | .bound binding => context.add binding
  | .statement text => context.push text

def enactAll (context : Context) (declared : List Declaration) : Context :=
  declared.foldl enact context

theorem enact_eq (context : Context) (declaration : Declaration) :
    context.enact declaration = ⟨context.bindings ++ declaration.bindings, context.level,
      context.prolog ++ declaration.statements⟩ := by
  cases declaration with
  | statement text => simp [enact, push, Declaration.bindings, Declaration.statements]
  | bound binding =>
    by_cases h : binding.imported <;>
      simp [enact, add, push, Declaration.bindings, Declaration.statements, h]

theorem enactAll_eq (context : Context) (declared : List Declaration) :
    context.enactAll declared = ⟨context.bindings ++ declared.flatMap Declaration.bindings,
      context.level, context.prolog ++ declared.flatMap Declaration.statements⟩ := by
  induction declared generalizing context with
  | nil => simp [enactAll]
  | cons declaration declared ih =>
    have hrest := ih (context.enact declaration)
    unfold enactAll at hrest ⊢
    rw [List.foldl_cons, hrest, enact_eq]
    simp

theorem enactAll_append (context : Context) (first second : List Declaration) :
    context.enactAll (first ++ second) = (context.enactAll first).enactAll second :=
  List.foldl_append

/-- A declaration of an alias fails, changes nothing or adds one binding; which of these, depends
on the bindings alone. -/
theorem declare_eq (bindings : List (Text × Binding)) (name target : Text) :
    ∃ outcome : Except CompileError (List Declaration), ∀ level prolog,
      declare ⟨bindings, level, prolog⟩ name target =
        outcome.map (enactAll ⟨bindings, level, prolog⟩) := by
  cases hpath : HandlerPath.canonical? target with
  | none => exact ⟨.error (.ofCause (.invalidTarget target)), by simp [declare, hpath, Except.map]⟩
  | some path =>
    have hbinding (level : Nat) (prolog : List Text) :
        binding? ⟨bindings, level, prolog⟩ name = bindings.lookup (Name.aliasKey name) := rfl
    cases hbound : bindings.lookup (Name.aliasKey name) with
    | some bound =>
      by_cases h : Text.equalIgnoringAsciiCase bound.target path
      · exact ⟨.ok [], by simp [declare, hpath, hbinding, hbound, h, Except.map, enactAll]⟩
      · exact ⟨.error (.ofCause (.aliasConflict name bound.target path)),
          by simp [declare, hpath, hbinding, hbound, h, Except.map]⟩
    | none =>
      have hshadowing (level : Nat) (prolog : List Text) :
          shadowing? ⟨bindings, level, prolog⟩ name path = shadowing? ⟨bindings, 0, []⟩ name path :=
        rfl
      cases hconflict : shadowing? ⟨bindings, 0, []⟩ name path with
      | some conflict => exact ⟨.error (.ofCause conflict),
          by simp [declare, hpath, hbinding, hbound, hshadowing, hconflict, Except.map]⟩
      | none => exact ⟨.ok [.bound ⟨name, path, !name.isEmpty⟩],
          by simp [declare, hpath, hbinding, hbound, hshadowing, hconflict, Except.map, enactAll,
            enact]⟩

end Context

namespace Pass

theorem run_bind {α β : Type} (pass : Pass α) (next : α → Pass β) (context : Context) :
    (pass >>= next).run context =
      match pass.run context with
      | (.ok value, after) => (next value).run after
      | (.error error, after) => (.error error, after) := by
  show (ExceptT.bindCont next (pass.run context).1).run (pass.run context).2 = _
  rcases pass.run context with ⟨_ | _, after⟩ <;> rfl

theorem run_nested {α : Type} (pass : Pass α) (context : Context) :
    (nested pass).run context =
      ((pass.run { context with level := context.level + 1 }).1,
        { (pass.run { context with level := context.level + 1 }).2 with
          level := (pass.run { context with level := context.level + 1 }).2.level - 1 }) := rfl

theorem run_mapError {α : Type} (f : CompileError → CompileError) (pass : Pass α)
    (context : Context) :
    (mapError f pass).run context = ((pass.run context).1.mapError f, (pass.run context).2) := rfl

theorem run_bind_ok {α β : Type} {pass : Pass α} {next : α → Pass β} {context after : Context}
    {result : β} (h : (pass >>= next).run context = (.ok result, after)) :
    ∃ value reached, pass.run context = (.ok value, reached) ∧
      (next value).run reached = (.ok result, after) := by
  rw [run_bind] at h
  split at h
  · rename_i value reached hpass
    exact ⟨value, reached, hpass, h⟩
  · cases h

theorem run_mapError_ok {α : Type} {f : CompileError → CompileError} {pass : Pass α}
    {context after : Context} {value : α}
    (h : (mapError f pass).run context = (.ok value, after)) :
    pass.run context = (.ok value, after) := by
  rw [run_mapError] at h
  rcases hpass : pass.run context with ⟨error | found, reached⟩ <;> rw [hpass] at h <;> cases h
  rfl

theorem run_update_ok {step : Context → Except CompileError Context} {context after : Context}
    (h : step context = .ok after) : (update step).run context = (.ok (), after) := by
  unfold update
  rw [ExceptT.run_mk, h]

theorem run_update_error {step : Context → Except CompileError Context} {context : Context}
    {error : CompileError} (h : step context = .error error) :
    (update step).run context = (.error error, context) := by
  unfold update
  rw [ExceptT.run_mk, h]

/-- Whether a pass, at any level from `floor` on, has a result and makes declarations that follow
from the bindings alone; all of these are `allowed`. -/
def Collects {α : Type} (floor : Nat) (allowed : Declaration → Prop) (pass : Pass α) : Prop :=
  ∀ bindings, ∃ result declared, (∀ declaration ∈ declared, allowed declaration) ∧
    ∀ level prolog, floor ≤ level →
      pass.run ⟨bindings, level, prolog⟩ =
        (result, Context.enactAll ⟨bindings, level, prolog⟩ declared)

variable {α β : Type} {floor : Nat} {allowed : Declaration → Prop}

theorem collects_pure (value : α) : Collects floor allowed (pure value) :=
  fun _ => ⟨.ok value, [], by simp, fun _ _ _ => rfl⟩

theorem Collects.mono {floor' : Nat} {allowed' : Declaration → Prop} {pass : Pass α}
    (h : Collects floor allowed pass) (hfloor : floor ≤ floor')
    (hallowed : ∀ declaration, allowed declaration → allowed' declaration) :
    Collects floor' allowed' pass := by
  intro bindings
  obtain ⟨result, declared, hdeclared, hrun⟩ := h bindings
  refine ⟨result, declared, fun d hd => hallowed d (hdeclared d hd), ?_⟩
  intro level prolog hlevel
  exact hrun level prolog (Nat.le_trans hfloor hlevel)

theorem Collects.bind {pass : Pass α} {next : α → Pass β} (hpass : Collects floor allowed pass)
    (hnext : ∀ value, Collects floor allowed (next value)) :
    Collects floor allowed (pass >>= next) := by
  intro bindings
  obtain ⟨result, declared, hdeclared, hrun⟩ := hpass bindings
  cases result with
  | error error =>
    refine ⟨.error error, declared, hdeclared, ?_⟩
    intro level prolog hlevel
    rw [run_bind, hrun level prolog hlevel]
  | ok value =>
    obtain ⟨result, later, hlater, hrun'⟩ :=
      hnext value (bindings ++ declared.flatMap Declaration.bindings)
    refine ⟨result, declared ++ later, ?_, ?_⟩
    · intro d hd
      rcases List.mem_append.mp hd with hd | hd
      · exact hdeclared d hd
      · exact hlater d hd
    · intro level prolog hlevel
      rw [run_bind, hrun level prolog hlevel, Context.enactAll_append,
        Context.enactAll_eq ⟨bindings, level, prolog⟩]
      exact hrun' level _ hlevel

theorem collects_ofContext {step : Context → Except CompileError α}
    (h : ∀ bindings level prolog, step ⟨bindings, level, prolog⟩ = step ⟨bindings, 0, []⟩) :
    Collects floor allowed (ofContext step) := by
  intro bindings
  refine ⟨step ⟨bindings, 0, []⟩, [], by simp, ?_⟩
  intro level prolog _
  rw [← h bindings level prolog]
  rfl

theorem collects_update {step : Context → Except CompileError Context}
    (h : ∀ bindings, ∃ outcome : Except CompileError (List Declaration),
      (∀ declared, outcome = .ok declared → ∀ declaration ∈ declared, allowed declaration) ∧
      ∀ level prolog, step ⟨bindings, level, prolog⟩ =
        outcome.map (Context.enactAll ⟨bindings, level, prolog⟩)) :
    Collects floor allowed (update step) := by
  intro bindings
  obtain ⟨outcome, hallowed, hstep⟩ := h bindings
  cases outcome with
  | error error =>
    refine ⟨.error error, [], by simp, ?_⟩
    intro level prolog _
    exact run_update_error (hstep level prolog)
  | ok declared =>
    refine ⟨.ok (), declared, hallowed declared rfl, ?_⟩
    intro level prolog _
    exact run_update_ok (hstep level prolog)

theorem Collects.mapError {pass : Pass α} (h : Collects floor allowed pass)
    (f : CompileError → CompileError) : Collects floor allowed (mapError f pass) := by
  intro bindings
  obtain ⟨result, declared, hdeclared, hrun⟩ := h bindings
  refine ⟨result.mapError f, declared, hdeclared, ?_⟩
  intro level prolog hlevel
  rw [run_mapError, hrun level prolog hlevel]

theorem Collects.nested {floor' : Nat} {pass : Pass α} (h : Collects floor allowed pass)
    (hfloor : floor ≤ floor' + 1) : Collects floor' allowed (nested pass) := by
  intro bindings
  obtain ⟨result, declared, hdeclared, hrun⟩ := h bindings
  refine ⟨result, declared, hdeclared, ?_⟩
  intro level prolog hlevel
  rw [run_nested, hrun (level + 1) prolog (by omega), Context.enactAll_eq, Context.enactAll_eq]
  simp

theorem collects_sweepFrom {step : Place → Nat → Pass Move}
    (h : ∀ place fresh, Collects floor allowed (step place fresh)) (before pending : Text)
    (busy : Nat) (keeping : Bool) (text : Text) :
    Collects floor allowed (Sweep.sweepFrom step before pending busy keeping text) := by
  induction text generalizing before pending busy keeping with
  | nil => exact collects_pure _
  | cons c rest ih =>
    cases busy with
    | succ busy => exact ih _ _ _ _
    | zero =>
      refine (h _ _).bind fun move => ?_
      cases move with
      | keep more => exact ih _ _ _ _
      | replace claimed more new => exact (ih _ _ _ _).bind fun swept => collects_pure _

theorem collects_sweep {step : Place → Nat → Pass Move}
    (h : ∀ place fresh, Collects floor allowed (step place fresh)) (text : Text) :
    Collects floor allowed (sweep step text) :=
  collects_sweepFrom h _ _ _ _ _

theorem collects_substituteFrom {find : Matcher α} {replace : Replace α}
    (h : ∀ place captures, Collects floor allowed (replace place captures)) (place : Place) :
    Collects floor allowed (Substitution.substituteFrom find replace place) := by
  rw [Substitution.substituteFrom]
  split
  · exact collects_pure _
  · rename_i found hfound
    refine ((h _ _).mapError _).bind fun new => ?_
    split
    · exact collects_pure _
    · split
      · exact (collects_substituteFrom h _).bind fun rest => collects_pure _
      · exact collects_pure _
termination_by place.rest.length

theorem collects_substitute {find : Matcher α} {replace : Replace α}
    (h : ∀ place captures, Collects floor allowed (replace place captures)) (text : Text) :
    Collects floor allowed (substitute find replace text) :=
  collects_substituteFrom h _

end Pass

end TemplateCompiler
