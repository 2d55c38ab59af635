import TemplateCompiler.Directive.Pattern

/-!
# Alias declarations

A line may end in a directive `@use(Target)` or `@use(Target as name)`. It binds the alias and is
replaced by the white space before it.
-/
namespace TemplateCompiler.Directive

structure Use where
  lead : Text
  target : Text
  /-- Empty for the default alias. -/
  name : Text
  deriving DecidableEq, Repr

namespace Use

/-- The closing parenthesis and the blanks after it, at the end of a line; what follows them. -/
def closing? : Text → Option Text
  | ')' :: rest =>
    let after := rest.dropWhile Text.isSpaceOrTab
    if isLineEnd after then some after else none
  | _ => none

/-- A name after `as`, up to the end of the directive; what follows that. -/
def named? (text : Text) : Option (Text × Text) :=
  (Text.after? ['a', 's'] text).bind fun spaced =>
  let rest := spaced.trimStart
  if rest.length = spaced.length || (rest.takeWhile isNameChar).isEmpty then none
  else (closing? (Text.trimStart (rest.dropWhile isNameChar))).map fun after =>
    (rest.takeWhile isNameChar, after)

def ending? (text : Text) : Option (Text × Text) :=
  let rest := text.trimStart
  (named? rest).orElse fun _ => (closing? rest).map fun after => ([], after)

/-- The shortest target that leaves a proper ending, that ending's name, and what follows. -/
def target? : Text → Option (Text × Text × Text)
  | [] => none
  | c :: rest =>
    if Unicode.isWhitespace c then none
    else match ending? rest with
      | some (name, after) => some ([c], name, after)
      | none => (target? rest).map fun (target, more) => (c :: target, more)

/-- The directive at a place, with the white space before it. -/
def pattern (place : Place) : Option (Nat × Use) :=
  let lead := place.rest.takeWhile Unicode.isWhitespace
  (Text.after? "@use".toList place.rest.trimStart).bind fun rest =>
  (Text.after? ['('] rest.trimStart).bind fun rest =>
  (target? rest.trimStart).map fun (target, name, after) =>
  (lengthUpTo place after, ⟨lead, target, name⟩)

/-- Binds the alias. A directive glued to a word is text. -/
def replace : Replace Use := fun place use =>
  if place.previous.any isWordChar then pure none
  else do
    Pass.update fun context => context.declare use.name use.target
    return some use.lead

end Use

def uses (text : Text) : Pass Text := substitute (Matcher.leftmost Use.pattern) Use.replace text

end TemplateCompiler.Directive
