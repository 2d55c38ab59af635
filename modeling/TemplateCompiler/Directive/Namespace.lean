import TemplateCompiler.Directive.Pattern

/-!
# Namespace attributes

An attribute `xmlns:name="target"` binds an alias and is removed, with the white space after it.
-/
namespace TemplateCompiler.Directive

structure Namespace where
  name : Text
  target : Text
  deriving DecidableEq, Repr

namespace Namespace

def quoted? : Text → Option (Text × Text)
  | [] => none
  | mark :: rest =>
    if mark = '"' ∨ mark = '\'' then
      match rest.dropWhile (· != mark) with
      | [] => none
      | _ :: after => some (rest.takeWhile (· != mark), after)
    else none

/-- The attribute at a place where no word goes on. -/
def pattern (place : Place) : Option (Nat × Namespace) :=
  if place.previous.any Unicode.isWordConstituent then none
  else
    (Text.after? "xmlns:".toList place.rest).bind fun rest =>
    let name := rest.takeWhile isNameChar
    if name.isEmpty then none
    else
      (Text.after? ['='] (Text.trimStart (rest.dropWhile isNameChar))).bind fun rest =>
      (quoted? rest.trimStart).map fun (target, after) =>
      (lengthUpTo place after.trimStart, ⟨name, target⟩)

def replace : Replace Namespace := fun _ found => do
  Pass.update fun context => context.declare found.name found.target
  return some []

end Namespace

def namespaces (text : Text) : Pass Text :=
  substitute (Matcher.leftmost Namespace.pattern) Namespace.replace text

end TemplateCompiler.Directive
