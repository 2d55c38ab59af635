import TemplateCompiler.Text.Basic

/-!
# Entries by key

A list of entries in the order in which their keys were first put. To put a key again changes its
value and not its place.
-/
namespace TemplateCompiler.Keyed

def put {α : Type} (key : Text) (value : α) : List (Text × α) → List (Text × α)
  | [] => [(key, value)]
  | entry :: entries =>
    if entry.1 = key then (key, value) :: entries else entry :: put key value entries

theorem lookup_cons {α : Type} (key other : Text) (value : α) (entries : List (Text × α)) :
    ((key, value) :: entries).lookup other =
      if other = key then some value else entries.lookup other := by
  by_cases h : other = key
  · simp [h]
  · simp [List.lookup_cons, h, beq_eq_false_iff_ne.2 h]

@[simp] theorem lookup_put {α : Type} (key other : Text) (value : α) (entries : List (Text × α)) :
    (put key value entries).lookup other =
      if other = key then some value else entries.lookup other := by
  induction entries with
  | nil => simp [put, lookup_cons]
  | cons entry entries ih =>
    obtain ⟨first, old⟩ := entry
    unfold put
    split
    · rename_i same
      simp only at same
      subst same
      by_cases h : other = first <;> simp [lookup_cons, h]
    · rename_i differs
      by_cases h : other = first
      · simp [h, differs]
      · simp [lookup_cons, h, ih]

end TemplateCompiler.Keyed
