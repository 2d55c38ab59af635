import TemplateCompiler.Call.Resolve
import TemplateCompiler.Code.Output
import TemplateCompiler.Sweep
import TemplateCompiler.Text.Layout

/-!
# Simple calls

A head without a body is a simple call and becomes one output statement.
-/
namespace TemplateCompiler.SimpleCall

def isNameEnd : Text → Bool
  | [] => true
  | c :: _ => c == '(' || Unicode.isWhitespace c

/-- Whether what follows a head makes it more than a simple call. -/
def goesOn (markers : Markers) (after : Text) : Bool :=
  after.trimStart.head?.any fun c => c == markers.body || c == '('

def code (mode : OutputMode) (lead : Text) (call : ResolvedCall) (head : Head) : Text :=
  Code.output mode lead (Layout.indentOf lead) (call.code (head.argumentText.getD []))

def step (environment : Environment) (context : Context) (place : Place) (fresh : Nat) :
    Except CompileError Move :=
  let markers := environment.options.markers
  if place.previous.any isWordChar then .ok (.keep 0)
  else match Head.parse? markers place.rest with
    | none => .ok (.keep 0)
    | some (head, after) =>
      if head.isEndTag markers then .ok (.keep (head.opener.length - 1))
      else if !isNameEnd (place.rest.drop head.opener.length) || goesOn markers after then
        .ok (.keep 0)
      else match Layout.lead? place.before fresh with
        | none => .ok (.keep 0)
        | some lead =>
          match head.resolve environment context 0 with
          | .error error =>
            .error ((error.locate (Span.ofText place.offset head.written)).blame head.written)
          | .ok call =>
            .ok (.replace lead.length (head.written.length - 1)
              (code environment.options.mode lead call head))

end SimpleCall

def simpleCalls (environment : Environment) (context : Context) (text : Text) :
    Except CompileError Text :=
  sweep (SimpleCall.step environment context) text

end TemplateCompiler
