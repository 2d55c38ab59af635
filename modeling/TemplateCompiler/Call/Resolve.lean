import TemplateCompiler.Call.Head
import TemplateCompiler.Context

/-!
# Resolving calls

A call is checked against the declaration of its method before code is made of it.
-/
namespace TemplateCompiler

/-- A call whose method is declared and gets the arguments it requires. -/
structure ResolvedCall where
  symbol : Text
  method : Text
  deriving DecidableEq, Repr

namespace ResolvedCall

def code (call : ResolvedCall) (arguments : Text) : Text :=
  call.symbol ++ "::".toList ++ call.method ++ '(' :: arguments ++ [')']

end ResolvedCall

namespace Head

def argumentCount (head : Head) : Nat := (head.argumentText.map Code.countArguments).getD 0

/-- Resolves the call of a head that passes `extra` arguments besides those written in it. -/
def resolve (environment : Environment) (context : Context) (head : Head) (extra : Nat) :
    Except CompileError ResolvedCall :=
  match environment.resolveAlias context (head.qualifierName.getD []) with
  | .error error => .error error
  | .ok resolved =>
    let method := Name.camel head.method
    match resolved.handler.method? method with
    | none => .error (.ofCause (.methodNotFound resolved.handler.path method))
    | some signature =>
      let given := head.argumentCount + extra
      if given < signature.required then
        .error (.ofCause (.arity head.written.trim resolved.handler.path method signature.required
          given))
      else .ok ⟨resolved.symbol, method⟩

end Head

end TemplateCompiler
