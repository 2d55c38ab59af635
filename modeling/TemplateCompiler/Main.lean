import TemplateCompiler.Batch

/-!
# The program

Runs a batch on the disk. Nothing is decided here but the code that the program exits with.
-/
namespace TemplateCompiler.Main

def fileError : IO.Error → FileError
  | .noFileOrDirectory .. => .notFound
  | .alreadyExists .. => .alreadyExists
  | .inappropriateType _ code _ => if code = 21 then .isADirectory else .notADirectory
  | .invalidArgument _ 36 _ => .nameTooLong
  | error => .other (toString error).toList

def attempt {α : Type} (path : Path) (action : IO α) : IO (Except FileError α) := do
  match FileError.ofPath? path with
  | some error => return .error error
  | none => try return .ok (← action) catch error => return .error (fileError error)

def kind? (path : Path) : IO (Option IO.FS.FileType) := do
  if path.isEmpty then return none
  try return some (← ((← IO.currentDir) / String.ofList path).metadata).type
  catch _ => return none

/-- The files under a directory; what cannot be read is passed over. -/
partial def filesUnder (path : Path) : IO (List Path) := do
  let entries ← try ((← IO.currentDir) / String.ofList path).readDir catch _ => pure #[]
  let names := entries.toList.map fun entry => entry.fileName.toList
  let found ← (names.mergeSort Text.le).mapM fun name => do
    let path := path.join name
    match ← kind? path with
    | some .dir => filesUnder path
    | some .file => return [path]
    | _ => return []
  return found.flatten

instance : FileAccess IO where
  isFile path := return (← kind? path) == some .file
  isDirectory path := return (← kind? path) == some .dir
  filesUnder := filesUnder
  read path := attempt path do IO.FS.readBinFile ((← IO.currentDir) / String.ofList path)
  createDirectory path :=
    attempt path do IO.FS.createDir ((← IO.currentDir) / String.ofList path)
  write path content :=
    attempt path do IO.FS.writeBinFile ((← IO.currentDir) / String.ofList path) content

def help : String :=
  "Compile hyperblade templates into PHP for a Blade-style engine

Usage: hyperblade [OPTIONS] [PATHS]...

Arguments:
  [PATHS]...  Template files or directories to compile [default: .]

Options:
  -c, --config <CONFIG>        Path to hyperblade.json
  -o, --out-dir <OUT_DIR>      Directory compiled files are written to
                               (default: next to each template)
      --compact                Emit compact output without indentation
      --output <OUTPUT>        Output format [default: human] [possible values: human, json]
  -w, --watch                  Recompile templates when they change
      --timings                Show timing information
      --max-errors <N>         Maximum number of errors to show
      --ignore <IGNORE>        Ignore patterns (glob)
  -v, --verbose                Verbose output
      --preserve-watch-output  Preserve watch output (don't clear screen)
  -h, --help                   Print help
  -V, --version                Print version"

def usageMessage : UsageError → String
  | .unknownArgument => "error: unexpected argument"
  | .invalidValue => "error: a value is missing or invalid"
  | .valueValidation => "error: a value is no number"
  | .argumentConflict => "error: an argument cannot be used multiple times"
  | .tooManyValues => "error: an argument takes no value"
  | .displayHelp => help
  | .displayVersion => "hyperblade 0.1.0"

/-- Runs a batch once, prints its report and says whether all went well. -/
def runBatch (batch : Batch) : IO Bool := do
  let start ← IO.monoMsNow
  let (report, _) ← batch.run
  let milliseconds := (← IO.monoMsNow) - start
  for line in report.outputLines batch.arguments milliseconds do IO.println (String.ofList line)
  for line in report.errorLines batch.arguments milliseconds do IO.eprintln (String.ofList line)
  return report.tally.errors = 0

def run (words : List String) : IO UInt32 := do
  match Arguments.parse (words.map String.toList) with
  | .error .displayHelp => IO.println help; return 0
  | .error .displayVersion => IO.println (usageMessage .displayVersion); return 0
  | .error error => IO.eprintln (usageMessage error); return 2
  | .ok arguments =>
    match ← Batch.new (toString (← IO.currentDir)).toList arguments with
    | .error error =>
      IO.eprintln (String.ofList error.message)
      return 1
    | .ok batch => return if ← runBatch batch then 0 else 1

end TemplateCompiler.Main

def main (words : List String) : IO UInt32 := TemplateCompiler.Main.run words
