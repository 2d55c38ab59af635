import TemplateCompiler.Substitution
import TemplateCompiler.Unicode.Word

/-!
# What the patterns of directives have in common

Line ends are `\r\n`, `\n` and `\r`.
-/
namespace TemplateCompiler.Directive

/-- The characters of the names that a pattern can capture. -/
def isNameChar (c : Char) : Bool := Unicode.isWordConstituent c || c == '-'

def isLineStart (place : Place) : Bool :=
  match place.previous with
  | none => true
  | some '\n' => true
  | some '\r' => place.peek != some '\n'
  | some _ => false

/-- Whether a line ends where a text starts that follows no carriage return. -/
def isLineEnd : Text → Bool
  | [] => true
  | c :: _ => c == '\n' || c == '\r'

def isWordEnd (text : Text) : Bool := !text.head?.any Unicode.isWordConstituent

def lengthUpTo (place : Place) (after : Text) : Nat := place.rest.length - after.length

end TemplateCompiler.Directive
