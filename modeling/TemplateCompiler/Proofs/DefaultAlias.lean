import TemplateCompiler.Keyed
import TemplateCompiler.Proofs.ImportNames

/-!
# The default alias

The default alias is bound under the empty key and not imported, and no other alias has the key
that the last segment of its target would have. This is what declarations keep, in whatever order
they come, as long as no alias is made of dashes only: such an alias has the empty key too, and is
not taken for the default one.
-/
namespace TemplateCompiler

namespace Context

/-- The default alias is not imported and apart from all others. -/
structure DefaultApart (context : Context) : Prop where
  plain : ∀ default, context.bindings.lookup [] = some default → default.imported = false
  apart : ∀ default, context.bindings.lookup [] = some default → ∀ entry ∈ context.bindings,
    entry.1 ≠ [] → entry.1 ≠ HandlerPath.key (HandlerPath.terminal default.target)

theorem defaultApart_initial : initial.DefaultApart := by
  have hnone : initial.bindings.lookup [] = none := rfl
  constructor <;> intro default hdefault <;> rw [hnone] at hdefault <;> cases hdefault

theorem lookup_add (context : Context) (binding : Binding) (key : Text) :
    (context.add binding).bindings.lookup key = (context.bindings.lookup key).or
      (if key = Name.aliasKey binding.name then some binding else none) := by
  rw [bindings_add, List.lookup_append]
  congr 1
  rw [Keyed.lookup_cons]
  rfl

theorem DefaultApart.add_default {context : Context} {path : Text}
    (hfree : context.binding? [] = none) (hclear : context.shadowing? [] path = none) :
    (context.add ⟨[], path, false⟩).DefaultApart := by
  have hbound : (context.add ⟨[], path, false⟩).bindings.lookup [] = some ⟨[], path, false⟩ := by
    have hnone : context.bindings.lookup [] = none := hfree
    rw [lookup_add, hnone]
    rfl
  constructor
  · intro default hdefault
    rw [hbound, Option.some.injEq] at hdefault
    rw [← hdefault]
  · intro default hdefault entry hentry hnamed
    rw [hbound, Option.some.injEq] at hdefault
    rw [← hdefault]
    rw [bindings_add, List.mem_append, List.mem_singleton] at hentry
    rcases hentry with hentry | rfl
    · simp only [shadowing?, List.isEmpty_nil, if_true, Option.map_eq_none_iff] at hclear
      exact ne_key_of_lookup hclear entry hentry
    · exact absurd rfl hnamed

theorem DefaultApart.add_named {context : Context} (h : context.DefaultApart) {binding : Binding}
    (hname : Name.aliasKey binding.name ≠ [])
    (hclear : context.shadowing? binding.name binding.target = none) :
    (context.add binding).DefaultApart := by
  have hlookup : (context.add binding).bindings.lookup [] = context.bindings.lookup [] := by
    rw [lookup_add, if_neg (Ne.symm hname), Option.or_none]
  constructor
  · intro default hdefault
    rw [hlookup] at hdefault
    exact h.plain default hdefault
  · intro default hdefault entry hentry hnamed
    rw [hlookup] at hdefault
    rw [bindings_add, List.mem_append, List.mem_singleton] at hentry
    rcases hentry with hentry | rfl
    · exact h.apart default hdefault entry hentry hnamed
    · have hwritten : binding.name.isEmpty = false := by
        cases hcases : binding.name with
        | nil => exact absurd (by rw [hcases]; rfl) hname
        | cons c rest => rfl
      intro hkey
      simp [shadowing?, hwritten, hdefault, ← hkey] at hclear

theorem attemptAll_defaultApart {declarations : List (Text × Text)}
    (h : ∀ declaration ∈ declarations, Name.aliasKey declaration.1 = [] → declaration.1 = []) :
    (initial.attemptAll declarations).DefaultApart := by
  apply attemptAll_induction defaultApart_initial
  intro context declaration hdeclaration path hapart _ hfree hclear
  by_cases hkey : Name.aliasKey declaration.1 = []
  · have hempty := h declaration hdeclaration hkey
    rw [hempty] at hfree hclear ⊢
    exact DefaultApart.add_default hfree hclear
  · exact hapart.add_named hkey hclear

end Context

/-- After any declarations of aliases other than dashes, the default alias is not imported and no
other key is that of the last segment of its target. What the preamble imports has a key, and a
name too if the alias is more than dashes and underscores. -/
theorem default_alias_apart (declarations : List (Text × Text))
    (h : ∀ declaration ∈ declarations, Name.aliasKey declaration.1 = [] → declaration.1 = []) :
    let context := Context.initial.attemptAll declarations
    (∀ default, context.bindings.lookup [] = some default →
      default.imported = false ∧ ∀ entry ∈ context.bindings, entry.1 ≠ [] →
        entry.1 ≠ HandlerPath.key (HandlerPath.terminal default.target)) ∧
    ∀ statement ∈ context.prolog, ∃ entry ∈ context.bindings, entry.1 ≠ [] ∧
      statement = entry.2.statement ∧
      (entry.2.importName = [] → ∀ c ∈ entry.2.name, c = '-' ∨ c = '_' ∨ c = ' ') := by
  intro context
  have htable : context.Tabled := Context.attemptAll_tabled declarations
  have hapart : context.DefaultApart := Context.attemptAll_defaultApart h
  refine ⟨fun default hdefault => ⟨hapart.plain default hdefault, hapart.apart default hdefault⟩,
    ?_⟩
  intro statement hstatement
  rw [htable.prolog_eq] at hstatement
  obtain ⟨entry, hentry, rfl⟩ := List.mem_map.mp hstatement
  obtain ⟨hbound, himported⟩ := List.mem_filter.mp hentry
  refine ⟨entry, hbound, ?_, rfl, Binding.eq_separator_of_importName_eq_nil⟩
  intro hkey
  have hdefault := htable.lookup_eq hbound
  rw [hkey] at hdefault
  simp [hapart.plain entry.2 hdefault] at himported

/-- Once the default alias is bound to `my\Util`, no alias is `util`, though one was declared. -/
theorem default_alias_apart_of_util :
    let context := Context.initial.attemptAll [("thing".toList, "other.Thing".toList),
      ([], "my.Util".toList), ("util".toList, "other.Thing".toList)]
    context.bindings.lookup [] = some ⟨[], "my\\Util".toList, false⟩ ∧
      ∀ entry ∈ context.bindings, entry.1 ≠ [] → entry.1 ≠ "util".toList := by
  intro context
  have hdefault : context.bindings.lookup [] = some ⟨[], "my\\Util".toList, false⟩ := by
    decide +kernel
  have hkey : HandlerPath.key (HandlerPath.terminal "my\\Util".toList) = "util".toList := by
    decide +kernel
  refine ⟨hdefault, ?_⟩
  rw [← hkey]
  exact ((default_alias_apart _ (by decide +kernel)).1 _ hdefault).2

/-- A dash is bound as the default alias is, and yet imported, under no name; nor is it kept from
a target that reads like an alias. -/
theorem default_alias_imported_of_dash :
    let context := Context.initial.attemptAll
      [("util".toList, "A".toList), (['-'], "B\\Util".toList)]
    (∃ default, context.bindings.lookup [] = some default ∧ default.imported ∧
      ∃ entry ∈ context.bindings, entry.1 ≠ [] ∧
        entry.1 = HandlerPath.key (HandlerPath.terminal default.target)) ∧
      "use B\\Util as ;".toList ∈ context.prolog :=
  ⟨⟨⟨['-'], "B\\Util".toList, true⟩, by decide +kernel, rfl, by decide +kernel⟩,
    by decide +kernel⟩

end TemplateCompiler
