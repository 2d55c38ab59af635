import TemplateCompiler.Context
import TemplateCompiler.Markup.Element
import TemplateCompiler.Sweep

/-!
# Promotion of plain tags

A plain tag with a directive whose qualifier is bound becomes a component for plain markup, so
that the directive applies to it too.
-/
namespace TemplateCompiler.Promotion

def htmlName : Text := "_h:html".toList

/-- Whether a tag has no qualifier and a directive with a bound one. -/
def isPromotable (context : Context) (tag : Tag) : Bool :=
  tag.qualifier.isNone && tag.directives.any fun directive => (context.binding? directive.1).isSome

/-- The component's tag up to its end, with the name of the plain tag as its first attribute. -/
def opening (tag : Tag) : Text :=
  '<' :: htmlName ++ " tag=\"".toList ++ tag.name ++ '"' :: tag.attributeText

def empty (tag : Tag) : Text := opening tag ++ " />".toList

/-- The component for an element whose content was promoted. -/
def full (tag : Tag) (content : Text) : Text :=
  opening tag ++ '>' :: content ++ "</".toList ++ htmlName ++ ['>']

def step (context : Context) (nested : Text → Text) (place : Place) (_ : Nat) : Id Move :=
  match Tag.parse? place.rest with
  | none => .keep 0
  | some (tag, after) =>
    if isPromotable context tag then
      if tag.selfClosing || Tag.isVoidName tag.name then
        .replace 0 (tag.written.length - 1) (empty tag)
      else match Element.ofTag? tag after with
        | none => .keep 0
        | some (element, _) =>
          .replace 0 (element.written.length - 1) (full tag (nested element.content))
    else .keep 0

end Promotion

/-- Promotes the plain tags of a text. Content is shorter than the text that holds it. -/
def promote (context : Context) (text : Text) : Text :=
  Id.run <| sweep (Promotion.step context fun content =>
    if content.length < text.length then promote context content else content) text
termination_by text.length

end TemplateCompiler
