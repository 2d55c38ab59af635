import TemplateCompiler.Name

/-!
# Signatures

The declared parameters of a method or constructor. A parameter is written `name`, or `name?`
when a call may leave it out.
-/
namespace TemplateCompiler

structure Param where
  name : Text
  optional : Bool
  deriving DecidableEq, Repr

namespace Param

/-- Reads a declaration; a dollar sign before the name is left out. -/
def parse? (text : Text) : Option Param :=
  let declared := text.trim
  let (name, optional) :=
    if declared.getLast? = some '?' then (declared.dropLast, true) else (declared, false)
  let name := match name with
    | '$' :: name => name
    | name => name
  if !name.isEmpty && name.all isWordChar then some ⟨name, optional⟩ else none

def shown (param : Param) : Text := param.name ++ if param.optional then ['?'] else []

end Param

abbrev Signature := List Param

namespace Signature

/-- Reads one declaration after another; an error is the first text that declares nothing. -/
def parse : List Text → Except Text Signature
  | [] => .ok []
  | text :: texts =>
    match Param.parse? text with
    | none => .error text
    | some param => (parse texts).map (param :: ·)

/-- The number of parameters that a call must supply. -/
def required (signature : Signature) : Nat := signature.countP (!·.optional)

/-- Whether a call with so many arguments passes enough of them and not too many. -/
def accepts (signature : Signature) (count : Nat) : Bool :=
  required signature ≤ count && count ≤ signature.length

end Signature

end TemplateCompiler
