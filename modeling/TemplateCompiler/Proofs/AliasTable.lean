import TemplateCompiler.Proofs.Collecting

/-!
# Runs of declarations

What holds of the bindings of a context after any sequence of declarations, those that fail
included. A declaration adds one binding at the end or leaves the context alone, so an invariant
has one case to look at, that of a binding added. The first invariant is that the bindings form a
table: each stands under the key of its alias, no key occurs twice, and the statements collected
are the imports.
-/
namespace TemplateCompiler

theorem Keyed.lookup_of_mem {α : Type} {entries : List (Text × α)}
    (h : (entries.map (·.1)).Nodup) {entry : Text × α} (hentry : entry ∈ entries) :
    entries.lookup entry.1 = some entry.2 := by
  obtain ⟨before, after, hsplit⟩ := List.append_of_mem hentry
  rw [hsplit, List.map_append, List.map_cons, List.nodup_append] at h
  refine List.lookup_eq_some_iff.mpr ⟨before, after, hsplit, ?_⟩
  intro other hother
  have hother : other.1 ≠ entry.1 :=
    h.2.2 other.1 (List.mem_map_of_mem hother) entry.1 List.mem_cons_self
  exact bne_iff_ne.mpr hother.symm

namespace Context

/-- The context after a declaration, which leaves it alone if it fails. -/
def attempt (context : Context) (name target : Text) : Context :=
  ((Pass.update fun context => context.declare name target).run context).2

def attemptAll (context : Context) (declarations : List (Text × Text)) : Context :=
  declarations.foldl (fun context declaration => context.attempt declaration.1 declaration.2)
    context

@[simp] theorem bindings_add (context : Context) (binding : Binding) :
    (context.add binding).bindings = context.bindings ++ [(Name.aliasKey binding.name, binding)] :=
  congrArg bindings (enact_eq context (.bound binding))

@[simp] theorem prolog_add (context : Context) (binding : Binding) :
    (context.add binding).prolog =
      context.prolog ++ if binding.imported then [binding.statement] else [] :=
  congrArg prolog (enact_eq context (.bound binding))

theorem declare_cases {context after : Context} {name target : Text}
    (h : context.declare name target = .ok after) :
    ∃ path, HandlerPath.canonical? target = some path ∧
      ((∃ bound, context.binding? name = some bound ∧
          Text.equalIgnoringAsciiCase bound.target path ∧ after = context) ∨
        (context.binding? name = none ∧ context.shadowing? name path = none ∧
          after = context.add ⟨name, path, !name.isEmpty⟩)) := by
  unfold declare at h
  split at h
  · cases h
  · rename_i path hpath
    refine ⟨path, hpath, ?_⟩
    split at h
    · rename_i bound hbound
      split at h
      · rename_i hsame
        cases h
        exact Or.inl ⟨bound, hbound, hsame, rfl⟩
      · cases h
    · rename_i hfree
      split at h
      · cases h
      · rename_i hclear
        cases h
        exact Or.inr ⟨hfree, hclear, rfl⟩

theorem attempt_cases (context : Context) (name target : Text) :
    context.attempt name target = context ∨
      ∃ path, HandlerPath.canonical? target = some path ∧ context.binding? name = none ∧
        context.shadowing? name path = none ∧
        context.attempt name target = context.add ⟨name, path, !name.isEmpty⟩ := by
  unfold attempt
  cases h : context.declare name target with
  | error error => exact Or.inl (by rw [Pass.run_update_error h])
  | ok after =>
    rw [Pass.run_update_ok h]
    obtain ⟨path, hpath, ⟨_, _, _, hsame⟩ | ⟨hfree, hclear, hadded⟩⟩ := declare_cases h
    · exact Or.inl hsame
    · exact Or.inr ⟨path, hpath, hfree, hclear, hadded⟩

/-- What holds at the start and of every context to which a binding is added, holds in the end. -/
theorem attemptAll_induction {motive : Context → Prop} {context : Context}
    {declarations : List (Text × Text)} (start : motive context)
    (add : ∀ context, ∀ declaration ∈ declarations, ∀ path, motive context →
      HandlerPath.canonical? declaration.2 = some path →
      context.binding? declaration.1 = none → context.shadowing? declaration.1 path = none →
      motive (context.add ⟨declaration.1, path, !declaration.1.isEmpty⟩)) :
    motive (context.attemptAll declarations) := by
  induction declarations generalizing context with
  | nil => exact start
  | cons declaration declarations ih =>
    have hlater := fun context later hlater =>
      add context later (List.mem_cons_of_mem declaration hlater)
    refine @ih (context.attempt declaration.1 declaration.2) ?_ hlater
    rcases context.attempt_cases declaration.1 declaration.2 with
      hsame | ⟨path, hpath, hfree, hclear, hadded⟩
    · rwa [hsame]
    · rw [hadded]
      exact add context declaration List.mem_cons_self path start hpath hfree hclear

/-- The bindings stand under the keys of their aliases, one under each, and the statements
collected are those of the bindings to be imported. -/
structure Tabled (context : Context) : Prop where
  key_eq : ∀ entry ∈ context.bindings, entry.1 = Name.aliasKey entry.2.name
  nodup : (context.bindings.map (·.1)).Nodup
  prolog_eq : context.prolog = (context.bindings.filter (·.2.imported)).map (·.2.statement)

theorem tabled_initial : initial.Tabled where
  key_eq := by simp [initial]
  nodup := by simp [initial]
  prolog_eq := rfl

theorem ne_key_of_lookup {bindings : List (Text × Binding)} {key : Text}
    (h : bindings.lookup key = none) : ∀ entry ∈ bindings, entry.1 ≠ key := by
  intro entry hentry hkey
  have := List.lookup_eq_none_iff.mp h entry hentry
  simp [hkey] at this

theorem Tabled.add {context : Context} (h : context.Tabled) {binding : Binding}
    (hfree : context.binding? binding.name = none) : (context.add binding).Tabled where
  key_eq := by
    intro entry hentry
    rw [bindings_add, List.mem_append, List.mem_singleton] at hentry
    rcases hentry with hentry | rfl
    · exact h.key_eq entry hentry
    · rfl
  nodup := by
    rw [bindings_add, List.map_append, List.nodup_append]
    refine ⟨h.nodup, by simp, ?_⟩
    intro old hold new hnew
    obtain ⟨entry, hentry, rfl⟩ := List.mem_map.mp hold
    rw [List.mem_singleton.mp hnew]
    exact ne_key_of_lookup hfree entry hentry
  prolog_eq := by
    rw [prolog_add, bindings_add, h.prolog_eq, List.filter_append, List.map_append]
    cases hbinding : binding.imported <;> simp [hbinding]

theorem attemptAll_tabled (declarations : List (Text × Text)) :
    (initial.attemptAll declarations).Tabled :=
  attemptAll_induction tabled_initial fun _ _ _ _ h _ hfree _ => h.add hfree

theorem Tabled.lookup_eq {context : Context} (h : context.Tabled) {entry : Text × Binding}
    (hentry : entry ∈ context.bindings) : context.bindings.lookup entry.1 = some entry.2 :=
  Keyed.lookup_of_mem h.nodup hentry

end Context

end TemplateCompiler
