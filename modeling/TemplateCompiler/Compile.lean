import TemplateCompiler.Call.Block
import TemplateCompiler.Call.Simple
import TemplateCompiler.Component.Output
import TemplateCompiler.Component.Promotion
import TemplateCompiler.Directive.Config
import TemplateCompiler.Directive.Content
import TemplateCompiler.Directive.Namespace
import TemplateCompiler.Directive.Use

/-!
# Compiling a template

The passes over a template, in order. The content of a block is compiled by all passes before the
call of the block is made, in the same context; the outermost compile puts the preamble in front.
-/
namespace TemplateCompiler

namespace BlockCall

/-- The arguments written in a head, as they follow the content. -/
def furtherArguments (head : Head) : Text :=
  let arguments := (head.argumentText.getD []).trim
  if arguments.isEmpty then [] else ", ".toList ++ arguments

def code (options : Options) (lead : Text) (call : ResolvedCall) (head : Head) (compiled : Text) :
    Text :=
  let indent := Layout.indentOf lead
  match Code.Content.classify options.markers compiled with
  | .literal content =>
    Code.output options.mode lead indent
      (call.code (Code.singleQuoted content ++ furtherArguments head))
  | .dynamic content =>
    Code.buffered options.mode lead indent content []
      (call.code (Code.captured ++ furtherArguments head))

/-- Replaces the block at a place, if there is one; `entries` are the blocks of the text by
place. -/
def step (environment : Environment) (nested : Text → Pass Text) (entries : List (Option Block))
    (place : Place) (fresh : Nat) : Pass Move :=
  match entries[place.before.length]?.join with
  | none => pure (.keep 0)
  | some block =>
    match Layout.lead? place.before fresh with
    | none => pure (.keep 0)
    | some lead => do
      let compiled ← Pass.mapError (·.shift (place.offset + block.opening.size))
        (nested block.content.trimEnd)
      let call ← Pass.mapError
        (fun error =>
          (error.locate (Span.ofText place.offset block.written)).blame block.head.written)
        (Pass.ofContext fun context => block.head.resolve environment context 1)
      return .replace lead.length (block.written.length - 1)
        (code environment.options lead call block.head compiled)

end BlockCall

/-- Replaces the blocks of a text, whose content is compiled by `nested`. -/
def blockCalls (environment : Environment) (nested : Text → Pass Text) (text : Text) : Pass Text :=
  sweep (BlockCall.step environment nested (Block.entries environment.options.markers none text))
    text

/-- The passes in order; the content of blocks is compiled by `nested`. -/
def passes (environment : Environment) (nested : Text → Pass Text) : List (Text → Pass Text) :=
  [Directive.uses, Directive.namespaces, Directive.configBlocks, Directive.contents,
    fun text => Pass.ofContext fun context => simpleCalls environment context text,
    blockCalls environment nested,
    fun text => Pass.ofContext fun context => .ok (promote context text),
    componentCalls environment]

def runPasses (passes : List (Text → Pass Text)) (text : Text) : Pass Text :=
  passes.foldlM (fun text pass => pass text) text

/-- The compile of what is nested deeper than a compile may go. It goes on without end; if it had an
end, the text would be left as it is. -/
def endless (text : Text) : {compiled : Text // compiled = text} :=
  have : Nonempty {compiled : Text // compiled = text} := ⟨⟨text, rfl⟩⟩
  let goOn (inner : Text) : Id (Text ⊕ {compiled : Text // compiled = text}) := pure (.inl inner)
  Id.run (repeatM goOn text)

/-- Compiles a text whose blocks nest at most so deep. -/
def compileWithin (environment : Environment) : (depth : Nat) → Text → Pass Text
  | 0, text => pure (endless text).val
  | depth + 1, text => Pass.nested do
    let text ← runPasses (passes environment (compileWithin environment depth)) text
    let preamble ← Pass.takePreamble
    return preamble.getD [] ++ text

/-- Compiles a text in a context. With the usual call marker compiles nest less deep than the text
has characters. Another marker may show up in generated code, so that the content of blocks is
compiled again and again; a compile that goes deeper than this is taken to be one without end. -/
def compile (environment : Environment) (text : Text) : Pass Text :=
  compileWithin environment (text.length + 1) text

def compileTemplate (environment : Environment) (source : Text) : Except CompileError Text :=
  ((compile environment source).run Context.initial).1

end TemplateCompiler
