import TemplateCompiler.Text.Basic

/-!
# Markers

The texts that delimit calls in a template, and those of the host engine that show that a piece
of text still has to be run.
-/
namespace TemplateCompiler

structure Markers where
  /-- Begins a call. -/
  call : Text := ['@', '@']
  /-- The characters that may stand between the qualifier and the method of a call. -/
  separators : List Char := [':', '.']
  /-- Begins the content of a block. -/
  body : Char := ':'
  /-- Follows the call marker in the tag that ends a block. -/
  endKeyword : Text := ['e', 'n', 'd']
  /-- The echo tags of the host engine. -/
  echo : Text × Text := (['\x7b', '\x7b'], ['\x7d', '\x7d'])
  /-- The echo tags of the host engine that do not escape. -/
  raw : Text × Text := (['\x7b', '!', '!'], ['!', '!', '\x7d'])
  /-- Begins code of the host language. -/
  code : Text := ['<', '?']
  deriving DecidableEq, Repr, Inhabited

namespace Markers

def isSeparator (markers : Markers) (c : Char) : Bool := markers.separators.contains c

/-- Whether a text holds code to run, generated already or still to be compiled by the host
engine. -/
def isDynamic (markers : Markers) (text : Text) : Bool :=
  text.contains markers.code || text.contains markers.echo.1 || text.contains markers.raw.1

end Markers

end TemplateCompiler
