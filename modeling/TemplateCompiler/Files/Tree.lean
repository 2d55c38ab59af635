import TemplateCompiler.Files.Access

/-!
# Trees of files

A tree of files as a value, with the current directory from which relative paths start. A path is
followed piece by piece; all but the last piece must lead to directories. There are no links: what
is in the tree has one location.
-/
namespace TemplateCompiler

/-- Where a file or directory is: the names on the way from it up to the root. -/
abbrev Location := List Text

inductive Node
  | directory
  | file (content : ByteArray)

structure FileTree where
  /-- What there is below the root. -/
  nodes : List (Location × Node)
  current : Location

namespace FileTree

def node? (tree : FileTree) (location : Location) : Option Node :=
  if location.isEmpty then some .directory else tree.nodes.lookup location

def isDirectoryAt (tree : FileTree) (location : Location) : Bool :=
  match tree.node? location with
  | some .directory => true
  | _ => false

/-- Follows the pieces of a path. The last one need not lead to anything. -/
def follow (tree : FileTree) (location : Location) : List Text → Except FileError Location
  | [] => .ok location
  | piece :: pieces =>
    match tree.node? location with
    | none => .error .notFound
    | some (.file _) => .error .notADirectory
    | some .directory =>
      if Path.isSilent piece then tree.follow location pieces
      else if piece = ['.', '.'] then tree.follow location.tail pieces
      else if nameLimit < piece.size then .error .nameTooLong
      else tree.follow (piece :: location) pieces

def locate (tree : FileTree) (path : Path) : Except FileError Location :=
  match FileError.ofPath? path with
  | some error => .error error
  | none => tree.follow (if path.isAbsolute then [] else tree.current) path.parts.2

def find (tree : FileTree) (path : Path) : Except FileError (Location × Node) :=
  (tree.locate path).bind fun location =>
  match tree.node? location with
  | some node => .ok (location, node)
  | none => .error .notFound

def isFile (tree : FileTree) (path : Path) : Bool :=
  match tree.find path with
  | .ok (_, .file _) => true
  | _ => false

def isDirectory (tree : FileTree) (path : Path) : Bool :=
  match tree.find path with
  | .ok (_, .directory) => true
  | _ => false

/-- The names that lead from a location down to one below it. -/
def namesBelow? (top location : Location) : Option (List Text) :=
  if location.drop (location.length - top.length) = top ∧ location ≠ top then
    some (location.take (location.length - top.length)).reverse
  else none

/-- The files under a directory in the order of their paths. -/
def filesUnder (tree : FileTree) (path : Path) : List Path :=
  match tree.find path with
  | .ok (top, .directory) =>
    let below := tree.nodes.filterMap fun
      | (location, .file _) =>
        (namesBelow? top location).map fun names => names.foldl Path.join path
      | (_, .directory) => none
    below.mergeSort Text.le
  | _ => []

def read (tree : FileTree) (path : Path) : Except FileError ByteArray :=
  (tree.find path).bind fun
  | (_, .file content) => .ok content
  | (_, .directory) => .error .isADirectory

/-- Puts a node at a location, in place of what is there. -/
def put (tree : FileTree) (location : Location) (node : Node) : FileTree :=
  { tree with nodes := (location, node) :: tree.nodes.filter (·.1 != location) }

def createDirectory (tree : FileTree) (path : Path) : Except FileError FileTree :=
  (tree.locate path).bind fun location =>
  match tree.node? location with
  | some _ => .error .alreadyExists
  | none => .ok (tree.put location .directory)

def write (tree : FileTree) (path : Path) (content : ByteArray) : Except FileError FileTree :=
  (tree.locate path).bind fun location =>
  if tree.isDirectoryAt location then .error .isADirectory
  else .ok (tree.put location (.file content))

def change (result : Except FileError FileTree) : StateM FileTree (Except FileError Unit) :=
  fun tree =>
    match result with
    | .ok tree => (.ok (), tree)
    | .error error => (.error error, tree)

instance : FileAccess (StateM FileTree) where
  isFile path tree := (tree.isFile path, tree)
  isDirectory path tree := (tree.isDirectory path, tree)
  filesUnder path tree := (tree.filesUnder path, tree)
  read path tree := (tree.read path, tree)
  createDirectory path tree := change (tree.createDirectory path) tree
  write path content tree := change (tree.write path content) tree

end FileTree

end TemplateCompiler
