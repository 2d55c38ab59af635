/-!
# Ranges of code points

A property of characters is given by the sorted ranges of the code points that have it. The
tables of this folder start at U+0080; what holds below is said in the predicates.
-/
namespace TemplateCompiler.Unicode

def inRanges (ranges : List (Nat × Nat)) (c : Char) : Bool :=
  ranges.any fun range => range.1 ≤ c.toNat && c.toNat ≤ range.2

/-- Whether the code point of `c` is met when counting from `first` to `last` by `step`,
for one of the given triples. -/
def inRuns (runs : List (Nat × Nat × Nat)) (c : Char) : Bool :=
  runs.any fun (first, last, step) =>
    first ≤ c.toNat && c.toNat ≤ last && (c.toNat - first) % step == 0

def isAscii (c : Char) : Bool := c.toNat < 0x80

end TemplateCompiler.Unicode
