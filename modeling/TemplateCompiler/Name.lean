import TemplateCompiler.Text.Basic
import TemplateCompiler.Unicode.Number
import TemplateCompiler.Unicode.Case

/-!
# Names

Word and name characters, the spellings of a name in generated code, the keys under which aliases
are looked up, and the paths of handlers.
-/
namespace TemplateCompiler

def isWordChar (c : Char) : Bool := Unicode.isAlphanumeric c || c == '_'

/-- Word characters and the dash, which joins the words of a name. -/
def isNameChar (c : Char) : Bool := isWordChar c || c == '-'

namespace Name

def capitalize : Text → Text
  | [] => []
  | c :: rest => Unicode.upper c ++ rest

def uncapitalize : Text → Text
  | [] => []
  | c :: rest => Unicode.lower c ++ rest

/-- The words of a name joined, each with its first letter upper-cased: `super-field` becomes
`SuperField`. -/
def studly (name : Text) : Text :=
  (Text.split (fun c => c == '-' || c == '_' || c == ' ') name).flatMap capitalize

/-- The same with the first letter lower-cased: `super-field` becomes `superField`. -/
def camel (name : Text) : Text := uncapitalize (studly name)

/-- Two aliases are the same if they differ in letter case and dashes only. -/
def aliasKey (name : Text) : Text := (name.filter (· != '-')).flatMap Unicode.lower

end Name

/-- Separates the segments of a canonical handler path. -/
def pathSeparator : Char := '\\'

namespace HandlerPath

def isSeparator (c : Char) : Bool := c == '\\' || c == '.' || c == '/'

def isSegment (segment : Text) : Bool := !segment.isEmpty && segment.all isWordChar

/-- The segments of a path are joined by any separator and may follow backslashes; the canonical
path joins them by backslashes alone. -/
def canonical? (path : Text) : Option Text :=
  let segments := Text.split isSeparator ((Text.trim path).dropWhile (· == pathSeparator))
  if segments.all isSegment then some (Text.join [pathSeparator] segments) else none

/-- The last segment, which names the handler within its namespace. -/
def terminal (path : Text) : Text :=
  (path.reverse.takeWhile (· != pathSeparator)).reverse

/-- Handlers are looked up by their path without regard to letter case. -/
def key (path : Text) : Text := Unicode.lowerText path

end HandlerPath

end TemplateCompiler
