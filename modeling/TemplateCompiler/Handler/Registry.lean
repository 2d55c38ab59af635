import TemplateCompiler.CompileError
import TemplateCompiler.Handler.Signature

/-!
# Handlers and their registry

Calls and components are checked against declared handlers. The registry finds a handler by its
path, in any of the accepted spellings and without regard to letter case.
-/
namespace TemplateCompiler

structure Handler where
  path : Text
  /-- Missing for a handler that is never constructed. -/
  constructor : Option Signature
  /-- The static methods in order of declaration. -/
  methods : List (Text × Signature)
  deriving DecidableEq, Repr

/-- The namespace of the handlers that come with the compiler. -/
def runtimeNamespace : Text := "hyperblade".toList

namespace Handler

def componentParameters : Signature :=
  ["attrs", "content", "scope"].map fun name => ⟨name.toList, false⟩

def component (path : Text) : Handler := ⟨path, some componentParameters, []⟩

/-- The component for plain markup. -/
def html : Handler := component (runtimeNamespace ++ "\\Html".toList)

/-- The method of a name; if there is none, the first that differs in letter case only. -/
def method? (handler : Handler) (name : Text) : Option Signature :=
  (handler.methods.lookup name).orElse fun _ =>
    (handler.methods.find? fun entry => Text.equalIgnoringAsciiCase entry.1 name).map (·.2)

/-- The number of parameters of the constructor, none counting as zero. -/
def constructorLength (handler : Handler) : Nat := (handler.constructor.map (·.length)).getD 0

end Handler

/-- Handlers by the key of their path; no key occurs twice. -/
structure Registry where
  entries : List (Text × Handler)
  deriving Repr

namespace Registry

def empty : Registry := ⟨[]⟩

def get? (registry : Registry) (path : Text) : Option Handler :=
  (HandlerPath.canonical? path).bind fun path => registry.entries.lookup (HandlerPath.key path)

def contains (registry : Registry) (path : Text) : Bool := (registry.get? path).isSome

def size (registry : Registry) : Nat := registry.entries.length

/-- Adds a handler under its own path, in place of the one of the same key. -/
def insert (registry : Registry) (handler : Handler) : Registry :=
  let key := HandlerPath.key handler.path
  ⟨(key, handler) :: registry.entries.filter (·.1 != key)⟩

/-- Adds a handler under the canonical form of its path, if there is one. -/
def register (registry : Registry) (handler : Handler) : Except CompileError Registry :=
  match HandlerPath.canonical? handler.path with
  | some path => .ok (registry.insert { handler with path := path })
  | none => .error (.ofCause (.invalidTarget handler.path))

/-- Registers handlers up to the first that fails, and says what was registered and the error. -/
def extend (registry : Registry) : List Handler → Registry × Option CompileError
  | [] => (registry, none)
  | handler :: handlers =>
    match registry.register handler with
    | .ok registry => registry.extend handlers
    | .error error => (registry, some error)

def builtin : Registry := empty.insert Handler.html

def handlers (registry : Registry) : List Handler :=
  (registry.entries.map (·.2)).mergeSort fun a b => Text.le a.path b.path

end Registry

end TemplateCompiler
