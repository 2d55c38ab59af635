import TemplateCompiler.Code.Output
import TemplateCompiler.Context
import TemplateCompiler.Interpolation
import TemplateCompiler.Keyed
import TemplateCompiler.Markup.Element
import TemplateCompiler.Markup.Entity

/-!
# Construction of components

A component's tag becomes an expression that constructs its handler with a map of the attributes,
the content and the calling scope. Attributes that are directives become mixins, in order.
-/
namespace TemplateCompiler

/-- The handler and the parameters that a component's tag stands for. -/
structure Construction where
  symbol : Text
  /-- The expressions of the attributes by name. -/
  attributes : List (Text × Text)
  mixins : List Text
  deriving DecidableEq, Repr

namespace Construction

def code (construction : Construction) (content : Text) : Text :=
  let attributes := construction.attributes.map fun (name, value) =>
    Code.singleQuoted name ++ "=>".toList ++ value
  let mixins := if construction.mixins.isEmpty then []
    else "->mixin(".toList ++ Text.join [','] construction.mixins ++ [')']
  "(new ".toList ++ construction.symbol ++ "([".toList ++ Text.join [','] attributes ++
    "],".toList ++ content ++ ",get_defined_vars()))".toList ++ mixins ++ "->run()".toList

def valueCode (markers : Markers) : AttributeValue → Except CompileError Text
  | .quoted _ text => Interpolation.compile markers.echo (Entity.decode text)
  | .unquoted text => Interpolation.compile markers.echo (Entity.decode text)
  | .bare text => .ok text
  | .flag => .ok "true".toList

/-- The expression that constructs the handler of a directive, which takes one value. -/
def mixinCode (environment : Environment) (context : Context) (qualifier name value : Text) :
    Except CompileError Text :=
  match environment.resolve context qualifier name with
  | .error error => .error error
  | .ok mixin =>
    if mixin.handler.constructor.any fun signature => Signature.accepts signature 1 then
      .ok ("new ".toList ++ mixin.symbol ++ '(' :: value ++ [')'])
    else
      .error (.ofCause (.constructorArity mixin.handler.path 1 mixin.handler.constructorLength))

/-- Adds an attribute, as a mixin if it is a directive. -/
def add (environment : Environment) (context : Context) (construction : Construction)
    (attr : Attribute) : Except CompileError Construction :=
  match valueCode environment.options.markers attr.value with
  | .error error => .error error
  | .ok value =>
    match attr.directive? with
    | some (qualifier, name) =>
      (mixinCode environment context qualifier name value).map fun mixin =>
        { construction with mixins := construction.mixins ++ [mixin] }
    | none =>
      .ok { construction with attributes := Keyed.put attr.name value construction.attributes }

def addAll (environment : Environment) (context : Context) (construction : Construction) :
    List Attribute → Except CompileError Construction
  | [] => .ok construction
  | attr :: attributes =>
    match add environment context construction attr with
    | .error error => .error error
    | .ok construction => addAll environment context construction attributes

/-- The qualifier of tags that stand for plain markup, unless the template binds it. -/
def htmlQualifier : Text := "html".toList

/-- The qualifier and the name by which a tag's handler is found, and the attribute that names a
plain element. -/
def subject (context : Context) (qualifier name : Text) : Text × Text × List (Text × Text) :=
  if Name.aliasKey qualifier = htmlQualifier && (context.binding? qualifier).isNone then
    (Binding.runtime.name, "html".toList, [("tag".toList, Code.singleQuoted name)])
  else (qualifier, name, [])

def ofTag (environment : Environment) (context : Context) (qualifier : Text) (tag : Tag) :
    Except CompileError Construction :=
  let (qualifier, name, attributes) := subject context qualifier tag.name
  match environment.resolve context qualifier name with
  | .error error => .error error
  | .ok resolved =>
    if resolved.handler.constructorLength = Handler.componentParameters.length then
      addAll environment context ⟨resolved.symbol, attributes, []⟩ tag.attributes
    else
      .error (.ofCause (.constructorArity resolved.handler.path
        Handler.componentParameters.length resolved.handler.constructorLength))

end Construction

end TemplateCompiler
