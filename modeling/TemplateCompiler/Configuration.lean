import TemplateCompiler.CommandLine
import TemplateCompiler.Context
import TemplateCompiler.Files.Access
import TemplateCompiler.Glob
import TemplateCompiler.Manifest

/-!
# Configuration

The configuration of a run comes from a manifest and the command line. It says how templates are
compiled, which files are templates and where their compiled forms are written.
-/
namespace TemplateCompiler

structure Configuration where
  /-- The manifest's path, if there is a manifest. -/
  source : Option Path
  environment : Environment
  /-- The endings of the names of templates. -/
  extensions : List Text
  ignorePatterns : List Text
  /-- The globs of the patterns. -/
  ignored : List Glob
  /-- Where compiled files go; if missing, next to their templates. -/
  outDir : Option Path

inductive ConfigurationError
  | unreadable (path : Path)
  | unparsable (path : Path)
  | invalidHandler (error : CompileError)
  | invalidPattern (pattern : Text)
  deriving DecidableEq, Repr

def ConfigurationError.message : ConfigurationError → Text
  | .unreadable path => "Failed to read ".toList ++ path
  | .unparsable path => "Failed to parse ".toList ++ path
  | .invalidHandler error => "Invalid handler in configuration: ".toList ++ error.message
  | .invalidPattern pattern => "Invalid ignore pattern `".toList ++ pattern ++ "`".toList

namespace Configuration

def manifestName : Text := "hyperblade.json".toList

def compiledExtension : Text := ".php".toList

def usualExtensions : List Text := [".hyper.php".toList]

def usualIgnorePatterns : List Text :=
  ["**/vendor/**", "**/node_modules/**", "**/.git/**"].map String.toList

/-- Reads the globs of patterns; an error is the first pattern that is none. -/
def globs : List Text → Except ConfigurationError (List Glob)
  | [] => .ok []
  | pattern :: patterns =>
    match Glob.parse? pattern with
    | none => .error (.invalidPattern pattern)
    | some glob => (globs patterns).map (glob :: ·)

/-- Brings together a manifest and the command line. Paths in the manifest are seen from its
directory, or from the workspace if there is no manifest. -/
def ofManifest (workspace : Path) (arguments : Arguments) (source : Option Path)
    (manifest : Manifest) : Except ConfigurationError Configuration := do
  let registry ← match Registry.builtin.extend manifest.handlers with
    | (registry, none) => pure registry
    | (_, some error) => throw (.invalidHandler error)
  let options := manifest.options
  let options := if arguments.compact then { options with mode := .compact } else options
  let patterns := usualIgnorePatterns ++ manifest.ignore ++ arguments.ignore
  let ignored ← globs patterns
  let directory := (source.bind Path.parent?).getD workspace
  return {
    source := source
    environment := ⟨registry, options⟩
    extensions := if manifest.extensions.isEmpty then usualExtensions else manifest.extensions
    ignorePatterns := patterns
    ignored := ignored
    outDir := arguments.outDir.orElse fun _ => manifest.outDir.map directory.join }

/-! ## Templates -/

/-- What stands before an extension in a name, if the name is more than the extension. -/
def stem? (extension name : Text) : Option Text :=
  ((Text.after? extension.reverse name.reverse).map List.reverse).filter fun stem => !stem.isEmpty

/-- The name of a path as a stem and the first extension of templates that it carries. -/
def template? (configuration : Configuration) (path : Path) : Option (Text × Text) :=
  (path.fileName?).bind fun name =>
  configuration.extensions.findSome? fun extension =>
    (stem? extension name).map fun stem => (stem, extension)

def templateExtension? (configuration : Configuration) (path : Path) : Option Text :=
  (configuration.template? path).map (·.2)

def isIgnored (configuration : Configuration) (path : Path) : Bool :=
  configuration.ignored.any fun glob => glob.matchesPath path

def shouldProcess (configuration : Configuration) (path : Path) : Bool :=
  (configuration.templateExtension? path).isSome && !configuration.isIgnored path

/-- The name of the compiled form of a template: its extension is replaced. If that is its own
name, the compiled form is marked as such. -/
def compiledName (stem extension : Text) : Text :=
  if stem ++ compiledExtension = stem ++ extension then
    stem ++ ".compiled".toList ++ compiledExtension
  else stem ++ compiledExtension

def outputDirectory (configuration : Configuration) (root path : Path) : Path :=
  match configuration.outDir with
  | some outDir => outDir.join (((path.parent?.getD root).relativeTo? root).getD [])
  | none => path.parent?.getD []

def outputPath? (configuration : Configuration) (root path : Path) : Option Path :=
  (configuration.template? path).map fun (stem, extension) =>
    (configuration.outputDirectory root path).join (compiledName stem extension)

/-! ## Loading -/

section

variable {m : Type → Type} [Monad m] [FileAccess m]

/-- The manifest of a directory, or of the nearest directory above it that has one. -/
def findManifest (directory : Path) : m (Option Path) := first directory.ancestors
where
  first : List Path → m (Option Path)
    | [] => return none
    | directory :: above => do
      let candidate := directory.join manifestName
      if ← FileAccess.isFile candidate then return some candidate else first above

def readManifest (path : Path) : m (Except ConfigurationError Manifest) := do
  match ← FileAccess.readText path with
  | .error _ => return .error (.unreadable path)
  | .ok text =>
    match Manifest.parse? text with
    | some manifest => return .ok manifest
    | none => return .error (.unparsable path)

/-- Loads the manifest that the command line names, or else the one found from the workspace
upwards. -/
def load (workspace : Path) (arguments : Arguments) :
    m (Except ConfigurationError Configuration) := do
  let source ← match arguments.config with
    | some path => pure (some path)
    | none => findManifest workspace
  match source with
  | none => return ofManifest workspace arguments none {}
  | some path =>
    return (← readManifest path).bind (ofManifest workspace arguments (some path))

end

end Configuration

end TemplateCompiler
