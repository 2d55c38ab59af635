import TemplateCompiler.Markers

/-!
# Options
-/
namespace TemplateCompiler

inductive OutputMode
  /-- With the white space of the construct, and indented like it. -/
  | pretty
  /-- As bare echo statements. -/
  | compact
  deriving DecidableEq, Repr

structure Options where
  markers : Markers := {}
  mode : OutputMode := .pretty
  useCache : Bool := true
  deriving DecidableEq, Repr

/-- Whether results may be served from a cache. Pretty output is for finding faults, so it is
always compiled anew. -/
def Options.caching (options : Options) : Bool := options.useCache && options.mode == .compact

end TemplateCompiler
