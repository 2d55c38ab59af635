import TemplateCompiler.Handler.Registry
import TemplateCompiler.Options

/-!
# The context of a compile

One context lives through a compile and all compiles nested in it. It holds the aliases declared
so far, the statements collected for the preamble, and the level of nesting, which decides who
emits the preamble.
-/
namespace TemplateCompiler

/-- What does not change during a compile. -/
structure Environment where
  registry : Registry
  options : Options
  deriving Repr

structure Binding where
  /-- The alias as first written; empty for the default one. -/
  name : Text
  target : Text
  /-- Whether the preamble imports the target under this alias. -/
  imported : Bool
  deriving DecidableEq, Repr

namespace Binding

/-- The alias as the name of an import: in camel case, and with a capital if the last segment of
the target has one. -/
def importName (binding : Binding) : Text :=
  let name := Name.camel binding.name
  if (HandlerPath.terminal binding.target).head?.any Unicode.isUppercase then Name.capitalize name
  else name

def symbol (binding : Binding) : Text :=
  if binding.imported then binding.importName else pathSeparator :: binding.target

def statement (binding : Binding) : Text :=
  "use ".toList ++ binding.target ++ " as ".toList ++ binding.importName ++ [';']

def runtime : Binding := ⟨"_h".toList, runtimeNamespace, false⟩

end Binding

structure Context where
  /-- The bindings by the key of their alias, in order of declaration. -/
  bindings : List (Text × Binding)
  level : Nat
  prolog : List Text
  deriving DecidableEq, Repr

namespace Context

/-- A fresh context, in which only the alias of the runtime is bound. -/
def initial : Context := ⟨[(Name.aliasKey Binding.runtime.name, Binding.runtime)], 0, []⟩

def binding? (context : Context) (name : Text) : Option Binding :=
  context.bindings.lookup (Name.aliasKey name)

/-- The binding of an alias, which has to be declared. -/
def binding (context : Context) (name : Text) : Except CompileError Binding :=
  match context.binding? name with
  | some binding => .ok binding
  | none => .error (.ofCause (.unboundAlias name))

/-- The conflict between the default alias and a named one that reads the same in generated code
as the last segment of its target. -/
def shadowing? (context : Context) (name target : Text) : Option ErrorCause :=
  if name.isEmpty then
    (context.bindings.lookup (HandlerPath.key (HandlerPath.terminal target))).map fun named =>
      .aliasConflict named.name named.target target
  else
    (context.bindings.lookup []).bind fun default =>
      if HandlerPath.key (HandlerPath.terminal default.target) = Name.aliasKey name then
        some (.aliasConflict name default.target target)
      else none

def push (context : Context) (statement : Text) : Context :=
  { context with prolog := context.prolog ++ [statement] }

/-- Adds a binding and, if it is imported, the statement for that. -/
def add (context : Context) (binding : Binding) : Context :=
  let context := { context with
    bindings := context.bindings ++ [(Name.aliasKey binding.name, binding)] }
  if binding.imported then context.push binding.statement else context

/-- Binds an alias, empty for the default one, to a target. To bind it again to the same target
does nothing, so that a piece of text may be compiled twice. -/
def declare (context : Context) (name target : Text) : Except CompileError Context :=
  match HandlerPath.canonical? target with
  | none => .error (.ofCause (.invalidTarget target))
  | some target =>
    match context.binding? name with
    | some bound =>
      if Text.equalIgnoringAsciiCase bound.target target then .ok context
      else .error (.ofCause (.aliasConflict name bound.target target))
    | none =>
      match context.shadowing? name target with
      | some conflict => .error (.ofCause conflict)
      | none => .ok (context.add ⟨name, target, !name.isEmpty⟩)

/-- The statements of the preamble as code, for the outermost compile only, and the context
without them. -/
def takePreamble (context : Context) : Option Text × Context :=
  if context.level = 1 ∧ context.prolog ≠ [] then
    (some ("<?php\n".toList ++ Text.join ['\n'] context.prolog ++ "\n?>\n".toList),
      { context with prolog := [] })
  else (none, context)

end Context

/-- A handler as found for a construct, and how generated code refers to it. -/
structure Resolved where
  symbol : Text
  handler : Handler
  deriving Repr

namespace Environment

def resolve (environment : Environment) (context : Context) (qualifier name : Text) :
    Except CompileError Resolved :=
  match context.binding qualifier with
  | .error error => .error error
  | .ok binding =>
    let type := Name.studly name
    let path := binding.target ++ pathSeparator :: type
    match environment.registry.get? path with
    | none => .error (.ofCause (.handlerNotFound path))
    | some handler =>
      .ok ⟨if binding.imported then binding.importName ++ pathSeparator :: type
        else pathSeparator :: handler.path, handler⟩

def resolveAlias (environment : Environment) (context : Context) (name : Text) :
    Except CompileError Resolved :=
  match context.binding name with
  | .error error => .error error
  | .ok binding =>
    match environment.registry.get? binding.target with
    | none => .error (.ofCause (.handlerNotFound binding.target))
    | some handler => .ok ⟨binding.symbol, handler⟩

end Environment

/-- A step of a compile that may fail. What it did to the context before it failed stays. -/
abbrev Pass := ExceptT CompileError (StateM Context)

namespace Pass

def ofContext {α : Type} (step : Context → Except CompileError α) : Pass α :=
  ExceptT.mk fun context => (step context, context)

/-- Runs a step that changes the context if it succeeds. -/
def update (step : Context → Except CompileError Context) : Pass Unit :=
  ExceptT.mk fun context =>
    match step context with
    | .ok context => (.ok (), context)
    | .error error => (.error error, context)

/-- Runs a step one level deeper, and returns to the level before it however it ends. -/
def nested {α : Type} (step : Pass α) : Pass α :=
  ExceptT.mk fun context =>
    let (result, after) := step.run { context with level := context.level + 1 }
    (result, { after with level := after.level - 1 })

def takePreamble : Pass (Option Text) :=
  ExceptT.mk fun context =>
    let (preamble, context) := context.takePreamble
    (.ok preamble, context)

def mapError {α : Type} (f : CompileError → CompileError) (step : Pass α) : Pass α :=
  ExceptT.mk fun context =>
    let (result, after) := step.run context
    (result.mapError f, after)

end Pass

end TemplateCompiler
