import TemplateCompiler.Directive.Pattern

/-!
# Content directives

The directive `@content` is replaced by code that writes the content of a layout. The white space
around it stays.
-/
namespace TemplateCompiler.Directive

/-- The white space around a content directive. -/
structure Content where
  lead : Text
  trail : Text
  deriving DecidableEq, Repr

namespace Content

def keyword : Text := "@content".toList

def code : Text := "<?php echo $my->getContent() ?>".toList

def pattern (place : Place) : Option (Nat × Content) :=
  (Text.after? keyword place.rest.trimStart).bind fun rest =>
  if isWordEnd rest then
    some (lengthUpTo place rest.trimStart,
      ⟨place.rest.takeWhile Unicode.isWhitespace, rest.takeWhile Unicode.isWhitespace⟩)
  else none

/-- A directive glued to a word is text, and so is one that follows an `@`. -/
def replace : Replace Content := fun place found =>
  if place.previous.any fun c => isWordChar c || (c == '@' && found.lead.isEmpty) then pure none
  else pure (some (found.lead ++ code ++ found.trail))

end Content

def contents (text : Text) : Pass Text :=
  substitute (Matcher.leftmost Content.pattern) Content.replace text

end TemplateCompiler.Directive
