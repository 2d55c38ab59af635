import TemplateCompiler.Text.Place

/-!
# Sweeping a text

A pass that reads its constructs by hand goes over a text once. At each place it says whether to
keep what follows or to put something else there; a replacement may also take back characters
that were kept since the last one.
-/
namespace TemplateCompiler

/-- What to do at a place with the next character and `more` after it. -/
inductive Move
  | keep (more : Nat)
  /-- Puts a text there, and drops the last `claimed` characters kept. -/
  | replace (claimed more : Nat) (new : Text)
  deriving DecidableEq, Repr

namespace Sweep

/-- Sweeps a text that follows `before`. The characters in `pending`, last one first, were kept
since the last replacement; the next `busy` characters are kept or dropped without a look. -/
def sweepFrom {m : Type → Type} [Monad m] (step : Place → Nat → m Move) (before pending : Text)
    (busy : Nat) (keeping : Bool) : Text → m Text
  | [] => pure pending.reverse
  | c :: rest =>
    match busy with
    | busy + 1 =>
      sweepFrom step (c :: before) (if keeping then c :: pending else pending) busy keeping rest
    | 0 => do
      match ← step ⟨before, c :: rest⟩ pending.length with
      | .keep more => sweepFrom step (c :: before) (c :: pending) more true rest
      | .replace claimed more new =>
        let swept ← sweepFrom step (c :: before) [] more false rest
        return (pending.drop claimed).reverse ++ new ++ swept

end Sweep

/-- Sweeps a text. A step is told the number of characters kept since the last replacement. -/
def sweep {m : Type → Type} [Monad m] (step : Place → Nat → m Move) (text : Text) : m Text :=
  Sweep.sweepFrom step [] [] 0 true text

end TemplateCompiler
