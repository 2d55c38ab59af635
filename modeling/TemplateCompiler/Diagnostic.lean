import TemplateCompiler.CompileError

/-!
# Diagnostics

A compile error is shown at the first occurrence of its fragment in the template. The span of the
error is no guide, because it belongs to the text of the pass that failed.
-/
namespace TemplateCompiler

namespace CompileError

def position? (error : CompileError) (source : Text) : Option (Nat × Nat) :=
  (error.fragment.filter fun fragment => !fragment.isEmpty).bind fun fragment =>
  (Text.cut? fragment source).map fun (before, _) => (before.size, fragment.size)

/-- The kind and the message in one line. -/
def shown (error : CompileError) : Text := error.kind.code.toList ++ ": ".toList ++ error.message

/-- Where the error is shown, as line and column counted from 1. -/
def lineAndColumn? (error : CompileError) (source : Text) : Option Position :=
  (error.position? source).map fun (start, _) => ((LineIndex.ofText source).position start).shown

end CompileError

structure Label where
  text : Text
  start : Nat
  size : Nat
  deriving DecidableEq, Repr

/-- A compile error attached to its template. -/
structure Diagnostic where
  shown : Text
  code : Text
  labels : List Label
  deriving DecidableEq, Repr

def Diagnostic.ofError (source : Text) (error : CompileError) : Diagnostic :=
  ⟨error.shown, "hyperblade::compile".toList,
    (error.position? source).toList.map fun (start, size) => ⟨"here".toList, start, size⟩⟩

end TemplateCompiler
