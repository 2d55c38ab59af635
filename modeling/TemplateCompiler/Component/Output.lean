import TemplateCompiler.Component.Construction
import TemplateCompiler.Sweep
import TemplateCompiler.Text.Layout

/-!
# Components

Every element whose name has a qualifier is a component and becomes one output statement. Its
content is compiled first, without the indentation of the element.
-/
namespace TemplateCompiler.Component

/-- The content without the line break right after the opening tag and the white space that
follows it. -/
def skipLineBreak (content : Text) : Text :=
  match content with
  | '\r' :: '\n' :: rest => Text.trimStart rest
  | '\n' :: rest => Text.trimStart rest
  | content => content

def code (options : Options) (indent : Text) (construction : Construction) (compiled : Text) :
    Text :=
  match Code.Content.classify options.markers compiled with
  | .literal content =>
    Code.output options.mode indent indent (construction.code (Code.singleQuoted content.trim))
  | .dynamic content =>
    Code.buffered options.mode indent indent content indent (construction.code Code.captured)

/-- The qualifier of a tag that is a component. -/
def qualifier? (tag : Tag) : Option Text := tag.qualifier.filter fun name => !isXmlName name

def step (environment : Environment) (nested : Text → Pass Text) (place : Place) (fresh : Nat) :
    Pass Move :=
  match Tag.parse? place.rest with
  | none => pure (.keep 0)
  | some (tag, after) =>
    match qualifier? tag with
    | none => pure (.keep 0)
    | some qualifier =>
      match Element.ofTag? tag after with
      | none => pure (.keep 0)
      | some (element, _) => do
        let construction ← Pass.mapError
          (fun error => (error.locate (Span.ofText place.offset tag.written)).blame tag.written)
          (Pass.ofContext fun context => Construction.ofTag environment context qualifier tag)
        let indent := Layout.lineIndent place.before fresh
        let content := skipLineBreak element.content
        let compiled ← Pass.mapError
          (·.shift (place.offset + tag.written.size + (element.content.size - content.size)))
          (nested (Layout.dedent indent content))
        return .replace indent.length (element.written.length - 1)
          (code environment.options indent construction compiled)

end Component

/-- Replaces the components of a text, on a level of nesting of their own. Content is shorter
than the text that holds it. -/
def componentCalls (environment : Environment) (text : Text) : Pass Text :=
  Pass.nested <| sweep (Component.step environment fun content =>
    if content.length < text.length then componentCalls environment content
    else pure content) text
termination_by text.length

def components (environment : Environment) (context : Context) (text : Text) :
    Except CompileError Text :=
  ((componentCalls environment text).run context).1

end TemplateCompiler
