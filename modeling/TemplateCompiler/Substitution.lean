import TemplateCompiler.CompileError
import TemplateCompiler.Context
import TemplateCompiler.Text.Place

/-!
# Substitution

A pass that finds its constructs by a pattern replaces each match by what it is told to. A match
may also be rejected; then the search goes on one character after where the match began, and may
find another match that begins within the rejected one.
-/
namespace TemplateCompiler

/-- A match, relative to the place where the search began. -/
structure Match (α : Type) where
  /-- The number of characters before the match. -/
  skip : Nat
  length : Nat
  captures : α
  deriving DecidableEq, Repr

namespace Match

/-- The text before a match that was searched for in `rest`. -/
def skipped {α : Type} (found : Match α) (rest : Text) : Text := rest.take found.skip

def text {α : Type} (found : Match α) (rest : Text) : Text :=
  (rest.drop found.skip).take found.length

end Match

/-- Finds the first match at or after a place. -/
abbrev Matcher (α : Type) := Place → Option (Match α)

namespace Matcher

/-- Tries a pattern at one place after the other, the end of the text included. -/
def leftmost {α : Type} (pattern : Place → Option (Nat × α)) (place : Place) : Option (Match α) :=
  go place.before place.rest
where
  go (before : Text) : Text → Option (Match α)
    | [] => (pattern ⟨before, []⟩).map fun (length, captures) => ⟨0, length, captures⟩
    | c :: rest =>
      match pattern ⟨before, c :: rest⟩ with
      | some (length, captures) => some ⟨0, length, captures⟩
      | none => (go (c :: before) rest).map fun found => { found with skip := found.skip + 1 }

end Matcher

/-- What to do with a match that begins at a place: replace it by a text, or reject it. -/
abbrev Replace (α : Type) := Place → α → Pass (Option Text)

namespace Substitution

/-- The place and the text of a match, as an error reports them. -/
def reporting (place : Place) (text : Text) (error : CompileError) : CompileError :=
  (error.locate (Span.ofText place.offset text)).blame text.trim

/-- The place one character further on, if the text goes on. -/
def beyond (place : Place) : Option Place :=
  if place.atEnd then none else some (place.advance 1)

/-- What replaces a match that begins at `start`, and where the search goes on. The character
after an empty match and the first one of a rejected match are copied. -/
def outcome (start : Place) (length : Nat) : Option Text → Text × Option Place
  | some new =>
    if length = 0 then (new ++ start.rest.take 1, beyond start)
    else (new, some (start.advance length))
  | none => (start.rest.take 1, beyond start)

def substituteFrom {α : Type} (find : Matcher α) (replace : Replace α) (place : Place) :
    Pass Text :=
  match find place with
  | none => pure place.rest
  | some found => do
    let start := place.advance found.skip
    let new ← Pass.mapError (reporting start (found.text place.rest)) (replace start found.captures)
    match outcome start found.length new with
    | (copied, none) => return found.skipped place.rest ++ copied
    | (copied, some next) =>
      if next.rest.length < place.rest.length then
        return found.skipped place.rest ++ copied ++ (← substituteFrom find replace next)
      else return found.skipped place.rest ++ copied ++ next.rest
termination_by place.rest.length

end Substitution

def substitute {α : Type} (find : Matcher α) (replace : Replace α) (text : Text) : Pass Text :=
  Substitution.substituteFrom find replace (Place.start text)

end TemplateCompiler
