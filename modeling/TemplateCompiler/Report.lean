import TemplateCompiler.CommandLine
import TemplateCompiler.Diagnostic
import TemplateCompiler.Files.Access
import TemplateCompiler.Json

/-!
# Reports

The outcome of a run for each template, and what is printed of it: lines for people, or one JSON
object per line.
-/
namespace TemplateCompiler

/-- Why a template is not compiled, other than an error in it. -/
inductive Failure
  | unreadable (error : FileError)
  | noOutput
  | directoryNotCreated (directory : Path) (error : FileError)
  | notWritten (file : Path) (error : FileError)
  deriving DecidableEq, Repr

def Failure.message : Failure → Text
  | .unreadable error => "Failed to read: ".toList ++ error.message
  | .noOutput => "No output path for this file".toList
  | .directoryNotCreated directory error =>
    "Failed to create ".toList ++ directory ++ ": ".toList ++ error.message
  | .notWritten file error => "Failed to write ".toList ++ file ++ ": ".toList ++ error.message

inductive Outcome
  | written (target : Path)
  | rejected (source : Text) (error : CompileError)
  | failed (failure : Failure)
  deriving DecidableEq, Repr

def Outcome.isError : Outcome → Bool
  | .written _ => false
  | _ => true

structure Tally where
  files : Nat
  written : Nat
  errors : Nat
  deriving DecidableEq, Repr

structure Report where
  /-- The templates with their outcomes, in the order in which they were found. -/
  outcomes : List (Path × Outcome)
  /-- The look-ups of the compiler's cache so far. -/
  hits : Nat
  misses : Nat
  deriving DecidableEq, Repr

namespace Report

def tally (report : Report) : Tally :=
  ⟨report.outcomes.length, report.outcomes.countP (!·.2.isError),
    report.outcomes.countP (·.2.isError)⟩

/-- The outcomes without the errors that exceed a limit. -/
def limited : Option Nat → List (Path × Outcome) → List (Path × Outcome)
  | _, [] => []
  | limit, entry :: entries =>
    if entry.2.isError then
      match limit with
      | none => entry :: limited none entries
      | some 0 => limited (some 0) entries
      | some (n + 1) => entry :: limited (some n) entries
    else entry :: limited limit entries

/-- The outcomes that are reported. -/
def shown (report : Report) (arguments : Arguments) : List (Path × Outcome) :=
  limited arguments.maxErrors report.outcomes

/-- The number of errors that exceed the limit. -/
def hidden (report : Report) (arguments : Arguments) : Nat :=
  report.tally.errors - (report.shown arguments).countP (·.2.isError)

/-! ## JSON -/

/-- The object for an outcome, if it is an error. -/
def event? (file : Path) : Outcome → Option Json
  | .written _ => none
  | .rejected source error =>
    let position := error.lineAndColumn? source
    some (.ofEntries [
      ("column", .ofOption (fun p => .ofNat p.column) position),
      ("file", .ofText file),
      ("fragment", .ofOption .ofText error.fragment),
      ("kind", .ofText error.kind.code.toList),
      ("line", .ofOption (fun p => .ofNat p.line) position),
      ("message", .ofText error.message),
      ("type", .ofText "error".toList)])
  | .failed failure =>
    some (.ofEntries [
      ("file", .ofText file),
      ("message", .ofText failure.message),
      ("type", .ofText "failure".toList)])

def Tally.event (tally : Tally) (milliseconds : Nat) : Json :=
  .ofEntries [
    ("duration_ms", .ofNat milliseconds),
    ("errors", .ofNat tally.errors),
    ("files", .ofNat tally.files),
    ("type", .ofText "summary".toList),
    ("written", .ofNat tally.written)]

/-- The objects for the errors that are reported, and for the whole run. -/
def events (report : Report) (arguments : Arguments) (milliseconds : Nat) : List Json :=
  (report.shown arguments).filterMap (fun (file, outcome) => event? file outcome) ++
    [Tally.event report.tally milliseconds]

/-! ## Lines -/

def coloured (code : Nat) (text : Text) : Text :=
  "\x1b[".toList ++ Text.ofNat code ++ 'm' :: text ++ "\x1b[0m".toList

def red : Nat := 31

def green : Nat := 32

def plural (n : Nat) : Text := if n = 1 then [] else ['s']

def duration (milliseconds : Nat) : Text := Text.ofNat milliseconds ++ "ms".toList

/-- The lines for an outcome; that a file is written is said on demand only. -/
def outcomeLines (verbose : Bool) (file : Path) : Outcome → List Text
  | .written target => if verbose then [file ++ " -> ".toList ++ target] else []
  | .rejected source error =>
    let diagnostic := Diagnostic.ofError source error
    [coloured red diagnostic.code ++ ": ".toList ++ file ++ ": ".toList ++ diagnostic.shown]
  | .failed failure =>
    [coloured red "error".toList ++ ": ".toList ++ file ++ ": ".toList ++ failure.message]

/-- The line about time and cache, after an empty one. -/
def timingLines (report : Report) (milliseconds : Nat) : List Text :=
  [[], "Timing: ".toList ++ duration milliseconds ++ " (cache: ".toList ++
    Text.ofNat report.hits ++ " hits, ".toList ++ Text.ofNat report.misses ++ " misses)".toList]

def summaryLines (report : Report) (arguments : Arguments) (milliseconds : Nat) : List Text :=
  let tally := report.tally
  let hidden := report.hidden arguments
  [] ::
    if tally.errors = 0 then
      [coloured green ['✓'] ++ " Compiled ".toList ++ Text.ofNat tally.written ++
        " template".toList ++ plural tally.written ++ " (".toList ++ duration milliseconds ++ [')']]
    else
      [coloured red ['✗'] ++ " Found ".toList ++ Text.ofNat tally.errors ++ " error".toList ++
        plural tally.errors ++ " in ".toList ++ Text.ofNat tally.files ++ " files".toList] ++
      (if hidden = 0 then [] else ["  (".toList ++ Text.ofNat hidden ++ " not shown)".toList]) ++
      ["Time: ".toList ++ duration milliseconds]

def outputLines (report : Report) (arguments : Arguments) (milliseconds : Nat) : List Text :=
  match arguments.report with
  | .human => []
  | .json => (report.events arguments milliseconds).map Json.render

def errorLines (report : Report) (arguments : Arguments) (milliseconds : Nat) : List Text :=
  let human (lines : List Text) : List Text := if arguments.report = .human then lines else []
  human ((report.shown arguments).flatMap fun (file, outcome) =>
      outcomeLines arguments.verbose file outcome) ++
    (if arguments.timings then report.timingLines milliseconds else []) ++
    human (report.summaryLines arguments milliseconds)

end Report

end TemplateCompiler
