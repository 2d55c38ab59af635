import TemplateCompiler.Handler.Registry
import TemplateCompiler.Json
import TemplateCompiler.Keyed
import TemplateCompiler.Options
import TemplateCompiler.Path

/-!
# Manifests

A manifest is the configuration of a project in JSON: the handlers of its templates, and how and
where they are compiled.
-/
namespace TemplateCompiler

structure Manifest where
  /-- Handlers under the paths as they are written. -/
  handlers : List Handler := []
  echoTags : Option (Text × Text) := none
  callMarker : Option Text := none
  mode : Option OutputMode := none
  /-- The endings of the names of templates. -/
  extensions : List Text := []
  ignore : List Text := []
  /-- As seen from the manifest's directory. -/
  outDir : Option Path := none
  deriving DecidableEq, Repr

namespace Manifest

def param? (json : Json) : Option Param := json.text?.bind Param.parse?

def signature? : Json → Option Signature := Json.list? param?

/-- The entries of an object by key; of a key that is repeated, the last value counts. -/
def table? {α : Type} (f : Text → Json → Option α) (json : Json) : Option (List (Text × α)) :=
  (json.keyed?).bind fun entries =>
  (entries.mapM fun entry => (f entry.1 entry.2).map fun value => (entry.1, value)).map
    fun entries => entries.foldl (fun table entry => Keyed.put entry.1 entry.2 table) []

def valueOr? {α : Type} (default : α) (f : Json → Option α) : Option Json → Option α
  | none => some default
  | some json => f json

def handler? (path : Text) (json : Json) : Option Handler :=
  (json.fields? ["constructor".toList, "methods".toList]).bind fun
    | [constructor, methods] =>
      (valueOr? none (Json.optional? signature?) constructor).bind fun constructor =>
      (valueOr? [] (table? fun _ => signature?) methods).map fun methods =>
      ⟨path, constructor, methods⟩
    | _ => none

def handlers? (json : Json) : Option (List Handler) :=
  (table? handler? json).map fun table => table.map (·.2)

def pair? : Json → Option (Text × Text)
  | .array [first, second] =>
    first.text?.bind fun first => second.text?.map fun second => (first, second)
  | _ => none

/-- A mode by its name, which may also be the only key of an object, with nothing in it. -/
def mode? (json : Json) : Option OutputMode :=
  let name := match json with
    | .object [(name, .null)] => name
    | json => json.text?
  name.bind fun name =>
    if name = "pretty".toList then some .pretty
    else if name = "compact".toList then some .compact
    else none

def fieldNames : List Text :=
  ["handlers", "contentTags", "macroPrefix", "outputMode", "extensions", "ignore", "outDir"].map
    String.toList

def ofJson? (json : Json) : Option Manifest :=
  (json.fields? fieldNames).bind fun
    | [handlers, echoTags, callMarker, mode, extensions, ignore, outDir] => do
      let handlers ← valueOr? [] handlers? handlers
      let echoTags ← valueOr? none (Json.optional? pair?) echoTags
      let callMarker ← valueOr? none (Json.optional? Json.text?) callMarker
      let mode ← valueOr? none (Json.optional? mode?) mode
      let extensions ← valueOr? [] (Json.list? Json.text?) extensions
      let ignore ← valueOr? [] (Json.list? Json.text?) ignore
      let outDir ← valueOr? none (Json.optional? Json.text?) outDir
      return ⟨handlers, echoTags, callMarker, mode, extensions, ignore, outDir⟩
    | _ => none

def parse? (text : Text) : Option Manifest := (Json.parse? text).bind ofJson?

def options (manifest : Manifest) : Options :=
  let usual : Options := {}
  { usual with
    markers := { usual.markers with
      call := manifest.callMarker.getD usual.markers.call
      echo := manifest.echoTags.getD usual.markers.echo }
    mode := manifest.mode.getD usual.mode }

end Manifest

end TemplateCompiler
