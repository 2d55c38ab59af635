import TemplateCompiler.Text.Basic

/-!
# Paths

A path is a text whose pieces are separated by slashes. Empty pieces and single dots say nothing,
but for a dot at the start of a relative path. Paths are kept as written, and compared and taken
apart by what their pieces say.
-/
namespace TemplateCompiler

abbrev Path := Text

namespace Path

inductive Origin
  | root
  /-- The current directory, written as a dot. -/
  | dot
  | unwritten
  deriving DecidableEq, Repr

def isSilent (piece : Text) : Bool := piece.isEmpty || piece == ['.']

def isAbsolute (path : Path) : Bool := path.head? == some '/'

/-- The origin of a path and the pieces after it. -/
def parts (path : Path) : Origin × List Text :=
  match Text.split (· == '/') path with
  | [] => (.unwritten, [])
  | piece :: pieces =>
    if path.isAbsolute then (.root, pieces)
    else if piece = ['.'] then (.dot, pieces)
    else (.unwritten, piece :: pieces)

def ofParts (origin : Origin) (pieces : List Text) : Path :=
  match origin, pieces with
  | .root, pieces => '/' :: Text.join ['/'] pieces
  | .dot, [] => ['.']
  | .dot, pieces => '.' :: '/' :: Text.join ['/'] pieces
  | .unwritten, pieces => Text.join ['/'] pieces

/-- The pieces that say something. -/
def names (path : Path) : List Text := path.parts.2.filter (!isSilent ·)

/-- Whether two paths say the same. -/
def same (a b : Path) : Bool := a.parts.1 == b.parts.1 && a.names == b.names

/-- The second path as seen from the first. -/
def join (base path : Path) : Path :=
  if path.isAbsolute || base.isEmpty then path
  else if base.getLast? = some '/' then base ++ path
  else base ++ '/' :: path

def fileName? (path : Path) : Option Text := path.names.getLast?.filter (· != ['.', '.'])

/-- The pieces without the silent ones at the end. -/
def trimPieces (pieces : List Text) : List Text := (pieces.reverse.dropWhile isSilent).reverse

/-- The path without its last name, as far as it is written. -/
def parent? (path : Path) : Option Path :=
  let (origin, pieces) := path.parts
  match trimPieces pieces with
  | [] => if origin = .dot then some [] else none
  | pieces => some (ofParts origin (trimPieces pieces.dropLast))

def afterNames? : List Text → List Text → Option (List Text)
  | [], pieces => some pieces
  | name :: names, pieces =>
    match pieces.dropWhile isSilent with
    | [] => none
    | piece :: pieces => if piece = name then afterNames? names pieces else none

/-- The part of a path that follows a base. -/
def relativeTo? (path base : Path) : Option Path :=
  let (origin, pieces) := path.parts
  if base.parts.1 = .unwritten ∧ base.names = [] then
    some (ofParts origin (trimPieces pieces))
  else if base.parts.1 = origin then
    (afterNames? base.names pieces).map fun pieces =>
      Text.join ['/'] (trimPieces (pieces.dropWhile isSilent))
  else none

/-- The path and the paths above it, nearest first. -/
def ancestors (path : Path) : List Path := go (path.length + 1) path
where
  go : Nat → Path → List Path
    | 0, _ => []
    | n + 1, path =>
      path :: match path.parent? with
        | none => []
        | some above => go n above

end Path

end TemplateCompiler
