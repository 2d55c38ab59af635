import TemplateCompiler.Path

/-!
# Access to files

What a run needs of the place where its files are. A run is written once for every such place: a
tree of files that is a value, or the disk.
-/
namespace TemplateCompiler

inductive FileError
  | notFound
  | alreadyExists
  | notADirectory
  | isADirectory
  /-- The bytes read are no text. -/
  | notText
  | nameTooLong
  /-- No path holds a null character. -/
  | nullInPath
  | other (message : Text)
  deriving DecidableEq, Repr

def FileError.message : FileError → Text
  | .notFound => "No such file or directory (os error 2)".toList
  | .alreadyExists => "File exists (os error 17)".toList
  | .notADirectory => "Not a directory (os error 20)".toList
  | .isADirectory => "Is a directory (os error 21)".toList
  | .notText => "stream did not contain valid UTF-8".toList
  | .nameTooLong => "File name too long (os error 36)".toList
  | .nullInPath => "file name contained an unexpected NUL byte".toList
  | .other message => message

def pathLimit : Nat := 4095

def nameLimit : Nat := 255

/-- What is wrong with a path wherever it leads. -/
def FileError.ofPath? (path : Path) : Option FileError :=
  if path.any (· == '\x00') then some .nullInPath
  else if path.isEmpty then some .notFound
  else if pathLimit < path.size then some .nameTooLong
  else none

class FileAccess (m : Type → Type) where
  isFile : Path → m Bool
  isDirectory : Path → m Bool
  /-- The files under a directory, at any depth. -/
  filesUnder : Path → m (List Path)
  read : Path → m (Except FileError ByteArray)
  /-- Creates a directory in one that exists. -/
  createDirectory : Path → m (Except FileError Unit)
  write : Path → ByteArray → m (Except FileError Unit)

namespace FileAccess

def decode (bytes : ByteArray) : Except FileError Text :=
  match bytes.utf8Decode? with
  | some chars => .ok chars.toList
  | none => .error .notText

variable {m : Type → Type} [Monad m] [FileAccess m]

def readText (path : Path) : m (Except FileError Text) := do
  return (← read path).bind decode

def writeText (path : Path) (text : Text) : m (Except FileError Unit) :=
  write path (String.ofList text).toUTF8

/-- Creates the first of the given paths as a directory; the others are the paths above it, and
those that are missing are created first. The last one is never created. -/
def createFirst : List Path → m (Except FileError Unit)
  | [] => return .ok ()
  | [_] => return .ok ()
  | path :: above => do
    let orThere (error : FileError) : m (Except FileError Unit) := do
      return if ← isDirectory path then .ok () else .error error
    match ← createDirectory path with
    | .ok () => return .ok ()
    | .error .notFound =>
      match ← createFirst above with
      | .error error => return .error error
      | .ok () =>
        match ← createDirectory path with
        | .ok () => return .ok ()
        | .error error => orThere error
    | .error error => orThere error

/-- Creates a directory with the ones above it, unless it is there. -/
def createDirectories (path : Path) : m (Except FileError Unit) := createFirst path.ancestors

end FileAccess

end TemplateCompiler
