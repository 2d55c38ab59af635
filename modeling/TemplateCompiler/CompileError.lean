import TemplateCompiler.Text.Number
import TemplateCompiler.Text.Span

/-!
# Compile errors

An error has a cause, from which its kind and its message follow, the span where it was noticed
and the fragment of the template that is to blame. Span and fragment are filled in on the way out
of the construct that failed; the first to be set is the most precise and stays.
-/
namespace TemplateCompiler

inductive ErrorKind
  | invalidTarget
  | aliasConflict
  | unboundAlias
  | handlerNotFound
  | constructorArity
  | arity
  | interpolation
  | malformedDirective
  deriving DecidableEq, Repr

def ErrorKind.code : ErrorKind → String
  | invalidTarget => "invalid-target"
  | aliasConflict => "alias-conflict"
  | unboundAlias => "unbound-alias"
  | handlerNotFound => "handler-not-found"
  | constructorArity => "constructor-arity"
  | arity => "arity"
  | interpolation => "interpolation-syntax"
  | malformedDirective => "malformed-directive"

inductive ErrorCause
  /-- The target of a declaration is no handler path. -/
  | invalidTarget (target : Text)
  /-- An alias is bound to another target already. -/
  | aliasConflict (name existing requested : Text)
  | unboundAlias (name : Text)
  | handlerNotFound (path : Text)
  | methodNotFound (path method : Text)
  /-- A constructor takes another number of arguments than its use requires. -/
  | constructorArity (path : Text) (expected found : Nat)
  /-- A call passes fewer arguments than its method requires. -/
  | arity (call path method : Text) (required given : Nat)
  /-- The expression that an attribute value becomes is malformed. -/
  | interpolation (value expression : Text)
  | malformedDirective (directive line : Text)
  | other (kind : ErrorKind) (message : Text)
  deriving DecidableEq, Repr

namespace ErrorCause

def kind : ErrorCause → ErrorKind
  | invalidTarget _ => .invalidTarget
  | aliasConflict _ _ _ => .aliasConflict
  | unboundAlias _ => .unboundAlias
  | handlerNotFound _ => .handlerNotFound
  | methodNotFound _ _ => .handlerNotFound
  | constructorArity _ _ _ => .constructorArity
  | arity _ _ _ _ _ => .arity
  | interpolation _ _ => .interpolation
  | malformedDirective _ _ => .malformedDirective
  | other kind _ => kind

def ticked (text : Text) : Text := "`".toList ++ text ++ "`".toList

/-- A number of arguments in words. -/
def arguments (count : Nat) : Text :=
  Text.ofNat count ++ (if count = 1 then " argument" else " arguments").toList

def message : ErrorCause → Text
  | invalidTarget target => "Invalid namespace or class name: ".toList ++ ticked target
  | aliasConflict name existing requested =>
    "Alias ".toList ++ ticked (if name.isEmpty then "(default)".toList else name) ++
      " is already bound to ".toList ++ ticked existing ++ " and cannot be bound to ".toList ++
      ticked requested
  | unboundAlias name =>
    if name.isEmpty then
      "No default namespace was declared; use `@use(Target)` to declare one".toList
    else "Alias ".toList ++ ticked name ++ " was not declared with `@use` or `xmlns:`".toList
  | handlerNotFound path => "Handler ".toList ++ ticked path ++ " is not registered".toList
  | methodNotFound path method =>
    "Handler ".toList ++ ticked path ++ " has no method ".toList ++ ticked method
  | constructorArity path expected found =>
    "The constructor of ".toList ++ ticked path ++ " must take ".toList ++ arguments expected ++
      ", it takes ".toList ++ Text.ofNat found
  | arity call path method required given =>
    "Error on macro call ".toList ++ ticked call ++ ": ".toList ++
      ticked (path ++ "::".toList ++ method) ++ " requires at least ".toList ++
      arguments required ++ ", this call passes ".toList ++ Text.ofNat given
  | interpolation value expression =>
    "Syntax error on interpolated attribute value ".toList ++ ticked value ++
      "; compiled expression: ".toList ++ ticked expression
  | malformedDirective directive line =>
    "Malformed line in ".toList ++ ticked ('@' :: directive) ++ " block: ".toList ++
      ticked line.trim
  | other _ message => message

/-- The fragment that a cause names by itself. -/
def fragment : ErrorCause → Option Text
  | invalidTarget target => some target
  | arity call _ _ _ _ => some call
  | interpolation value _ => some value
  | malformedDirective _ line => some line.trim
  | _ => none

end ErrorCause

structure CompileError where
  cause : ErrorCause
  span : Span
  fragment : Option Text
  deriving DecidableEq, Repr

namespace CompileError

def ofCause (cause : ErrorCause) : CompileError := ⟨cause, ⟨0, 0⟩, cause.fragment⟩

def kind (error : CompileError) : ErrorKind := error.cause.kind

def message (error : CompileError) : Text := error.cause.message

/-- Sets the span, unless there is one. -/
def locate (error : CompileError) (span : Span) : CompileError :=
  if error.span.isEmpty then { error with span := span } else error

/-- Moves the span, if there is one, into the text that holds the failing one at an offset. -/
def shift (error : CompileError) (offset : Nat) : CompileError :=
  if error.span.isEmpty then error else { error with span := error.span.shift offset }

/-- Sets the fragment, unless there is one. -/
def blame (error : CompileError) (fragment : Text) : CompileError :=
  { error with fragment := error.fragment.getD fragment }

@[simp] theorem cause_locate (error : CompileError) (span : Span) :
    (error.locate span).cause = error.cause := by
  unfold locate
  split <;> rfl

@[simp] theorem cause_shift (error : CompileError) (offset : Nat) :
    (error.shift offset).cause = error.cause := by
  unfold shift
  split <;> rfl

@[simp] theorem cause_blame (error : CompileError) (fragment : Text) :
    (error.blame fragment).cause = error.cause := rfl

theorem cause_blame_locate (error : CompileError) (span : Span) (fragment : Text) :
    ((error.locate span).blame fragment).cause = error.cause := by
  rw [cause_blame, cause_locate]

end CompileError

end TemplateCompiler
