import TemplateCompiler.Proofs.AliasTable
import TemplateCompiler.Proofs.CanonicalPath

/-!
# What declarations leave behind

The bindings of a context only grow, at the end, so an alias that is bound keeps its target, its
spelling and its import for good, and that of the runtime stays bound. A declaration of an alias
that is bound already changes nothing, whether it succeeds or not.
-/
namespace TemplateCompiler

namespace Context

theorem attempt_of_error {context : Context} {name target : Text} {error : CompileError}
    (h : context.declare name target = .error error) : context.attempt name target = context := by
  unfold attempt
  rw [Pass.run_update_error h]

theorem attempt_of_ok {context after : Context} {name target : Text}
    (h : context.declare name target = .ok after) : context.attempt name target = after := by
  unfold attempt
  rw [Pass.run_update_ok h]

theorem declare_of_bound {context : Context} {name target : Text} {bound : Binding}
    (h : context.binding? name = some bound) (after : Context) :
    context.declare name target = .ok after ↔ after = context ∧
      ∃ path, HandlerPath.canonical? target = some path ∧
        Text.equalIgnoringAsciiCase bound.target path := by
  unfold declare
  cases hpath : HandlerPath.canonical? target with
  | none => simp
  | some path =>
    by_cases hsame : Text.equalIgnoringAsciiCase bound.target path
    · simpa [h, hsame] using eq_comm
    · simp [h, hsame]

theorem attempt_of_bound {context : Context} {name target : Text} {bound : Binding}
    (h : context.binding? name = some bound) : context.attempt name target = context := by
  rcases context.attempt_cases name target with hsame | ⟨_, _, hfree, _⟩
  · exact hsame
  · rw [h] at hfree
    cases hfree

theorem bindings_prefix_attemptAll (context : Context) (declarations : List (Text × Text)) :
    context.bindings <+: (context.attemptAll declarations).bindings := by
  refine @attemptAll_induction (fun after => context.bindings <+: after.bindings) context
    declarations (List.prefix_refl _) ?_
  intro after _ _ _ hprefix _ _ _
  rw [bindings_add]
  exact hprefix.trans (List.prefix_append _ _)

theorem lookup_of_prefix {first later : List (Text × Binding)} (h : first <+: later) {key : Text}
    {bound : Binding} (hbound : first.lookup key = some bound) : later.lookup key = some bound := by
  obtain ⟨added, rfl⟩ := h
  rw [List.lookup_append, hbound, Option.some_or]

def TargetsCanonical (context : Context) : Prop :=
  ∀ entry ∈ context.bindings, HandlerPath.canonical? entry.2.target = some entry.2.target

theorem attemptAll_targetsCanonical (declarations : List (Text × Text)) :
    (initial.attemptAll declarations).TargetsCanonical := by
  apply attemptAll_induction
  · simp only [TargetsCanonical, initial, List.mem_singleton, forall_eq]
    decide +kernel
  · intro context declaration _ path htargets hpath _ _ entry hentry
    rw [bindings_add, List.mem_append, List.mem_singleton] at hentry
    rcases hentry with hentry | rfl
    · exact htargets entry hentry
    · exact HandlerPath.canonical?_of_canonical? hpath

end Context

/-- The table of aliases over a run of declarations, seen from any of them. One that fails leaves
the context alone. One of a bound alias succeeds exactly for the same target, letter case aside,
and leaves the context alone too; one of an alias not bound before adds to the end of the table, and
nothing in the table changes later. Each key is that of its alias and stands there once, each
target is canonical, the runtime stays bound, and the preamble has the statements of the imports in
the order of the table. -/
theorem declarations_keep_table (earlier : List (Text × Text)) (name target : Text)
    (later : List (Text × Text)) :
    let context := Context.initial.attemptAll earlier
    let after := context.attempt name target
    (∀ error, context.declare name target = .error error → after = context) ∧
    (∀ bound, context.binding? name = some bound → after = context ∧
      ((∃ result, context.declare name target = .ok result) ↔
        ∃ path, HandlerPath.canonical? target = some path ∧
          Text.equalIgnoringAsciiCase bound.target path)) ∧
    (∀ result, context.binding? name = none → context.declare name target = .ok result →
      after = result ∧ ∃ path, HandlerPath.canonical? target = some path ∧
        after.bindings = context.bindings ++
          [(Name.aliasKey name, ⟨name, path, !name.isEmpty⟩)]) ∧
    (∀ key bound, context.bindings.lookup key = some bound →
      (after.attemptAll later).bindings.lookup key = some bound) ∧
    context.bindings <+: (after.attemptAll later).bindings ∧
    (context.bindings.map (·.1)).Nodup ∧
    (∀ entry ∈ context.bindings, entry.1 = Name.aliasKey entry.2.name ∧
      HandlerPath.canonical? entry.2.target = some entry.2.target) ∧
    context.bindings.lookup "_h".toList = some ⟨"_h".toList, "hyperblade".toList, false⟩ ∧
    context.prolog = (context.bindings.filter (·.2.imported)).map fun entry =>
      "use ".toList ++ entry.2.target ++ " as ".toList ++ entry.2.importName ++ [';'] := by
  intro context after
  have htable : context.Tabled := Context.attemptAll_tabled earlier
  have hkept : context.bindings <+: (after.attemptAll later).bindings :=
    context.bindings_prefix_attemptAll ((name, target) :: later)
  refine ⟨fun error => Context.attempt_of_error, ?_, ?_, ?_, hkept, htable.nodup, ?_, ?_,
    htable.prolog_eq⟩
  · intro bound hbound
    refine ⟨Context.attempt_of_bound hbound, ?_⟩
    simp only [Context.declare_of_bound hbound, exists_eq_left]
  · intro result hfree hresult
    have hafter : after = result := Context.attempt_of_ok hresult
    obtain ⟨path, hpath, ⟨bound, hbound, -⟩ | ⟨-, -, hadded⟩⟩ := Context.declare_cases hresult
    · rw [hfree] at hbound
      cases hbound
    · refine ⟨hafter, path, hpath, ?_⟩
      rw [hafter, hadded, Context.bindings_add]
  · intro key bound hbound
    exact Context.lookup_of_prefix hkept hbound
  · intro entry hentry
    exact ⟨htable.key_eq entry hentry,
      Context.attemptAll_targetsCanonical earlier entry hentry⟩
  · have hfirst : Context.initial.bindings.lookup "_h".toList =
        some ⟨"_h".toList, "hyperblade".toList, false⟩ := by decide
    exact Context.lookup_of_prefix (Context.initial.bindings_prefix_attemptAll earlier) hfirst

end TemplateCompiler
