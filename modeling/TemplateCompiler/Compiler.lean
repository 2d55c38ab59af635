import TemplateCompiler.Cache
import TemplateCompiler.Compile

/-!
# Compilers

A compiler keeps its results as long as its handlers and options stay the same.
-/
namespace TemplateCompiler

structure Compiler where
  environment : Environment
  cache : Cache
  deriving Repr

namespace Compiler

def new (registry : Registry) (options : Options) : Compiler := ⟨⟨registry, options⟩, Cache.empty⟩

def default : Compiler := new Registry.builtin {}

def setRegistry (compiler : Compiler) (registry : Registry) : Compiler :=
  ⟨{ compiler.environment with registry := registry }, compiler.cache.clear⟩

def setOptions (compiler : Compiler) (options : Options) : Compiler :=
  ⟨{ compiler.environment with options := options }, compiler.cache.clear⟩

def caching (compiler : Compiler) : Bool := compiler.environment.options.caching

def lookup (compiler : Compiler) (source : Text) : Option Text × Compiler :=
  if compiler.caching then
    let (found, cache) := compiler.cache.find source
    (found, { compiler with cache := cache })
  else (none, compiler)

def store (compiler : Compiler) (source compiled : Text) : Compiler :=
  if compiler.caching then { compiler with cache := compiler.cache.insert source compiled }
  else compiler

/-- Compiles a source that was not found, and keeps the result. -/
def compileAnew (compiler : Compiler) (source : Text) : Except CompileError Text × Compiler :=
  match compileTemplate compiler.environment source with
  | .ok compiled => (.ok compiled, compiler.store source compiled)
  | .error error => (.error error, compiler)

/-- Compiles a source, or finds it among the results. -/
def compile (compiler : Compiler) (source : Text) : Except CompileError Text × Compiler :=
  match compiler.lookup source with
  | (some compiled, compiler) => (.ok compiled, compiler)
  | (none, compiler) => compiler.compileAnew source

end Compiler

end TemplateCompiler
