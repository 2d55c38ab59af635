import TemplateCompiler.Text.Basic

/-!
# Cache of results

Compiled text by source text. Look-ups are counted as hits and misses.
-/
namespace TemplateCompiler

structure Cache where
  entries : List (Text × Text)
  hits : Nat
  misses : Nat
  deriving DecidableEq, Repr

namespace Cache

def empty : Cache := ⟨[], 0, 0⟩

def size (cache : Cache) : Nat := cache.entries.length

/-- The compiled form of a source, and the cache with the look-up counted. -/
def find (cache : Cache) (source : Text) : Option Text × Cache :=
  match cache.entries.lookup source with
  | some compiled => (some compiled, { cache with hits := cache.hits + 1 })
  | none => (none, { cache with misses := cache.misses + 1 })

/-- Keeps a result, in place of an earlier one for the same source. -/
def insert (cache : Cache) (source compiled : Text) : Cache :=
  { cache with entries := (source, compiled) :: cache.entries.filter (·.1 != source) }

/-- Drops all results and goes on counting. -/
def clear (cache : Cache) : Cache := { cache with entries := [] }

end Cache

end TemplateCompiler
