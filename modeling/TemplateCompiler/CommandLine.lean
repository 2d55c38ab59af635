import TemplateCompiler.Path
import TemplateCompiler.Text.Number

/-!
# Command line

The words of a command line are flags, settings with a value, and paths. A value that is a word of
its own is judged only when the next flag or setting comes, or at the end.
-/
namespace TemplateCompiler

inductive ReportFormat
  | human
  | json
  deriving DecidableEq, Repr

structure Arguments where
  paths : List Path := []
  config : Option Path := none
  outDir : Option Path := none
  compact : Bool := false
  report : ReportFormat := .human
  watch : Bool := false
  timings : Bool := false
  maxErrors : Option Nat := none
  ignore : List Text := []
  verbose : Bool := false
  preserveWatchOutput : Bool := false
  deriving DecidableEq, Repr

/-- Why a command line asks for nothing that can be done. -/
inductive UsageError
  | unknownArgument
  /-- A value is missing, empty or not among the allowed ones. -/
  | invalidValue
  /-- A value is no number of the allowed size. -/
  | valueValidation
  /-- A flag or setting is repeated. -/
  | argumentConflict
  /-- A flag has a value. -/
  | tooManyValues
  | displayHelp
  | displayVersion
  deriving DecidableEq, Repr

namespace CommandLine

inductive Flag
  | compact
  | watch
  | timings
  | verbose
  | preserveWatchOutput
  | help
  | version
  deriving DecidableEq, Repr

inductive Setting
  | config
  | outDir
  | report
  | maxErrors
  | ignore
  deriving DecidableEq, Repr

inductive Choice
  | flag (flag : Flag)
  | setting (setting : Setting)
  deriving DecidableEq, Repr

/-- The choices with their long names and, if they have one, their letter. -/
def choices : List (String × Option Char × Choice) :=
  [("config", some 'c', .setting .config), ("out-dir", some 'o', .setting .outDir),
    ("compact", none, .flag .compact), ("output", none, .setting .report),
    ("watch", some 'w', .flag .watch), ("timings", none, .flag .timings),
    ("max-errors", none, .setting .maxErrors), ("ignore", none, .setting .ignore),
    ("verbose", some 'v', .flag .verbose),
    ("preserve-watch-output", none, .flag .preserveWatchOutput), ("help", some 'h', .flag .help),
    ("version", some 'V', .flag .version)]

def Choice.ofName? (name : Text) : Option Choice :=
  (choices.find? fun entry => entry.1.toList == name).map (·.2.2)

def Choice.ofLetter? (letter : Char) : Option Choice :=
  (choices.find? fun entry => entry.2.1 == some letter).map (·.2.2)

/-- Values that are not judged yet. -/
inductive Pending
  | paths (paths : List Path)
  | setting (setting : Setting) (value : Option Text)
  deriving DecidableEq, Repr

structure Reading where
  arguments : Arguments := {}
  /-- The choices made so far. -/
  made : List Choice := []
  pending : Option Pending := none
  /-- Set after two dashes alone: all that follows is paths. -/
  onlyPaths : Bool := false
  deriving DecidableEq, Repr

end CommandLine

namespace Arguments

open CommandLine

def raise (arguments : Arguments) : Flag → Except UsageError Arguments
  | .compact => .ok { arguments with compact := true }
  | .watch => .ok { arguments with watch := true }
  | .timings => .ok { arguments with timings := true }
  | .verbose => .ok { arguments with verbose := true }
  | .preserveWatchOutput => .ok { arguments with preserveWatchOutput := true }
  | .help => .error .displayHelp
  | .version => .error .displayVersion

/-- A path, which must not be empty. -/
def path (value : Text) : Except UsageError Path :=
  if value.isEmpty then .error .invalidValue else .ok value

def reportFormat (value : Text) : Except UsageError ReportFormat :=
  if value = "human".toList then .ok .human
  else if value = "json".toList then .ok .json
  else .error .invalidValue

/-- A number of errors, which fits into 64 bits. -/
def errorLimit (value : Text) : Except UsageError Nat :=
  match Text.number? 10 value with
  | some n => if n < UInt64.size then .ok n else .error .valueValidation
  | none => .error .valueValidation

def set (arguments : Arguments) (setting : Setting) (value : Text) :
    Except UsageError Arguments :=
  match setting with
  | .config => (path value).map fun path => { arguments with config := some path }
  | .outDir => (path value).map fun path => { arguments with outDir := some path }
  | .report => (reportFormat value).map fun format => { arguments with report := format }
  | .maxErrors => (errorLimit value).map fun limit => { arguments with maxErrors := some limit }
  | .ignore => .ok { arguments with ignore := arguments.ignore ++ [value] }

end Arguments

namespace CommandLine

namespace Reading

/-- Records a choice. Only patterns to ignore may be given more than once. -/
def make (reading : Reading) (choice : Choice) : Except UsageError Reading :=
  if choice ∈ reading.made ∧ choice ≠ .setting .ignore then .error .argumentConflict
  else .ok { reading with made := choice :: reading.made }

def assign (reading : Reading) (setting : Setting) (value : Text) :
    Except UsageError Reading := do
  let reading ← reading.make (.setting setting)
  let arguments ← reading.arguments.set setting value
  return { reading with arguments := arguments }

def settle (reading : Reading) : Except UsageError Reading :=
  let settled := { reading with pending := none }
  match reading.pending with
  | none => .ok settled
  | some (.paths paths) =>
    if paths.any List.isEmpty then .error .invalidValue
    else .ok { settled with
      arguments := { reading.arguments with paths := reading.arguments.paths ++ paths } }
  | some (.setting _ none) => .error .invalidValue
  | some (.setting setting (some value)) => settled.assign setting value

/-- Reads a flag. Help and the version are asked for before repetition counts. -/
def flag (reading : Reading) (flag : Flag) : Except UsageError Reading := do
  let reading ← reading.settle
  let arguments ← reading.arguments.raise flag
  let reading ← reading.make (.flag flag)
  return { reading with arguments := arguments }

def await (reading : Reading) (setting : Setting) : Except UsageError Reading :=
  reading.settle.map fun reading => { reading with pending := some (.setting setting none) }

def attach (reading : Reading) (setting : Setting) (value : Text) : Except UsageError Reading :=
  reading.settle.bind fun reading => reading.assign setting value

/-- Reads a path, which joins the paths right before it. -/
def path (reading : Reading) (path : Path) : Except UsageError Reading :=
  match reading.pending with
  | some (.paths paths) => .ok { reading with pending := some (.paths (paths ++ [path])) }
  | _ => reading.settle.map fun reading => { reading with pending := some (.paths [path]) }

def long (reading : Reading) (written : Text) : Except UsageError Reading :=
  let (name, value) := match Text.cut? ['='] written with
    | some (name, value) => (name, some value)
    | none => (written, none)
  match Choice.ofName? name, value with
  | none, _ => .error .unknownArgument
  | some (.flag _), some _ => .error .tooManyValues
  | some (.flag flag), none => reading.flag flag
  | some (.setting setting), some value => reading.attach setting value
  | some (.setting setting), none => reading.await setting

/-- Reads letters. A setting takes the rest as its value, without an equals sign before it. -/
def letters (reading : Reading) : Text → Except UsageError Reading
  | [] => .ok reading
  | letter :: rest =>
    match Choice.ofLetter? letter with
    | none => .error .unknownArgument
    | some (.flag flag) => (reading.flag flag).bind fun reading => reading.letters rest
    | some (.setting setting) =>
      match rest with
      | [] => reading.await setting
      | '=' :: value => reading.attach setting value
      | value => reading.attach setting value

def word (reading : Reading) (word : Text) : Except UsageError Reading :=
  if reading.onlyPaths then reading.path word
  else match word with
    | ['-', '-'] => .ok { reading with onlyPaths := true }
    | '-' :: '-' :: written => reading.long written
    | '-' :: letter :: letters => reading.letters (letter :: letters)
    | word =>
      match reading.pending with
      | some (.setting setting none) =>
        .ok { reading with pending := some (.setting setting (some word)) }
      | _ => reading.path word

end Reading

end CommandLine

/-- Reads a command line. Without a path, the current directory is meant. -/
def Arguments.parse (words : List Text) : Except UsageError Arguments := do
  let reading ← words.foldlM CommandLine.Reading.word {}
  let arguments := (← reading.settle).arguments
  return if arguments.paths.isEmpty then { arguments with paths := [['.']] } else arguments

end TemplateCompiler
