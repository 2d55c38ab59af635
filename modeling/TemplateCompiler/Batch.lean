import TemplateCompiler.Compiler
import TemplateCompiler.Configuration
import TemplateCompiler.Report

/-!
# Batches

A batch finds the templates under its roots, compiles them one after another with one compiler,
and writes their compiled forms. It is run as a whole: templates are neither compiled at the same
time nor watched for changes.
-/
namespace TemplateCompiler

structure Batch where
  arguments : Arguments
  /-- The paths of the command line, made absolute. -/
  roots : List Path
  configuration : Configuration
  compiler : Compiler

/-- A template, with the root that its place in the output is relative to. -/
structure Template where
  path : Path
  root : Path
  deriving DecidableEq, Repr

namespace Template

/-- Adds a template unless its path is there. -/
def add (templates : List Template) (template : Template) : List Template :=
  if templates.any fun other => other.path.same template.path then templates
  else templates ++ [template]

/-- Adds a template; if its path is there, the new root counts. -/
def put (templates : List Template) (template : Template) : List Template :=
  if templates.any fun other => other.path.same template.path then
    templates.map fun other =>
      if other.path.same template.path then { other with root := template.root } else other
  else templates ++ [template]

end Template

namespace Batch

variable {m : Type → Type} [Monad m] [FileAccess m]

/-- Where the search for the manifest begins: at the first root, or above it if that is no
directory. -/
def workspace (current : Path) : List Path → m Path
  | [] => return current
  | root :: _ => do
    return if ← FileAccess.isDirectory root then root else root.parent?.getD current

def new (current : Path) (arguments : Arguments) : m (Except ConfigurationError Batch) := do
  let roots := arguments.paths.map current.join
  return (← Configuration.load (← workspace current roots) arguments).map fun configuration =>
    let environment := configuration.environment
    ⟨arguments, roots, configuration, Compiler.new environment.registry environment.options⟩

/-- Whether a file under a root is to be compiled. Patterns to ignore are seen from the root. -/
def isTemplateUnder (configuration : Configuration) (root path : Path) : Bool :=
  (configuration.templateExtension? path).isSome &&
    configuration.shouldProcess ((path.relativeTo? root).getD path)

/-- Adds the templates of one root to those found. A root that is itself a file is not ignored. -/
def addRoot (configuration : Configuration) (templates : List Template) (root : Path) :
    m (List Template) := do
  if ← FileAccess.isFile root then
    return if (configuration.templateExtension? root).isSome then
      Template.put templates ⟨root, root.parent?.getD root⟩
    else templates
  else
    let files ← FileAccess.filesUnder root
    return (files.filter (isTemplateUnder configuration root)).foldl
      (fun templates path => Template.add templates ⟨path, root⟩) templates

def templates (batch : Batch) : m (List Template) :=
  batch.roots.foldlM (addRoot batch.configuration) []

def writeCompiled (configuration : Configuration) (template : Template) (compiled : Text) :
    m Outcome := do
  match configuration.outputPath? template.root template.path with
  | none => return .failed .noOutput
  | some target =>
    let created ← match target.parent? with
      | none => pure (.ok ())
      | some directory => do
        pure ((← FileAccess.createDirectories directory).mapError
          (Failure.directoryNotCreated directory))
    match created with
    | .error failure => return .failed failure
    | .ok () =>
      match ← FileAccess.writeText target compiled with
      | .ok () => return .written target
      | .error error => return .failed (.notWritten target error)

/-- Compiles one template and writes the result. -/
def process (configuration : Configuration) (compiler : Compiler) (template : Template) :
    m (Outcome × Compiler) := do
  match ← FileAccess.readText template.path with
  | .error error => return (.failed (.unreadable error), compiler)
  | .ok source =>
    let (result, compiler) := compiler.compile source
    match result with
    | .error error => return (.rejected source error, compiler)
    | .ok compiled => return (← writeCompiled configuration template compiled, compiler)

def compileAll (configuration : Configuration) (compiler : Compiler) :
    List Template → m (List (Path × Outcome) × Compiler)
  | [] => return ([], compiler)
  | template :: templates => do
    let (outcome, compiler) ← process configuration compiler template
    let (outcomes, compiler) ← compileAll configuration compiler templates
    return ((template.path, outcome) :: outcomes, compiler)

/-- Compiles every template once. The batch that is returned keeps the compiler's results. -/
def run (batch : Batch) : m (Report × Batch) := do
  let (outcomes, compiler) ←
    compileAll batch.configuration batch.compiler (← batch.templates)
  let report := ⟨outcomes, compiler.cache.hits, compiler.cache.misses⟩
  return (report, { batch with compiler := compiler })

end Batch

end TemplateCompiler
