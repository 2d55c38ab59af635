import TemplateCompiler.Call.Head
import TemplateCompiler.Text.Place

/-!
# Blocks

A block is a head, the body marker, content and the tag that ends it, which names the qualifier
and the method again. Where the opener of a block shows up within its content and begins a block
of its own, that block is passed over as a whole; so blocks of one name pair up innermost first.

The blocks of a text are found from its end backwards: whatever the content of a block may hold
is known when its opener is reached.
-/
namespace TemplateCompiler

/-- The rest of a qualifier and its separator, as the tag that ends a block repeats them. -/
def Head.echoedQualifier? (markers : Markers) (name : Option Text) (text : Text) :
    Option (Text × Text) :=
  match name with
  | none => some ([], text)
  | some name => (Text.after? name text).bind fun
    | separator :: rest =>
      if markers.isSeparator separator then some (name ++ [separator], rest) else none
    | [] => none

/-- Whether a text that follows a name makes it a longer name, or the qualifier of another. -/
def Head.extendsName (markers : Markers) : Text → Bool
  | [] => false
  | c :: rest => isNameChar c || (markers.isSeparator c && rest.head?.any isNameChar)

/-- The tag that ends a block with the given head, if the text starts with it, and what
follows. -/
def Head.endTag? (markers : Markers) (head : Head) (text : Text) : Option (Text × Text) :=
  (Text.after? markers.call text).bind fun keyword =>
  (Text.after? markers.endKeyword keyword).bind fun named =>
  (echoedQualifier? markers head.qualifierName (named.dropWhile Text.isSpaceOrTab)).bind
    fun (qualifier, method) =>
  (Text.after? head.method method).bind fun after =>
  if extendsName markers after then none
  else some (markers.call ++ markers.endKeyword ++ named.takeWhile Text.isSpaceOrTab ++
    qualifier ++ head.method, after)

structure Block where
  head : Head
  /-- The body marker and the white space around it. -/
  lead : Text
  content : Text
  closing : Text
  deriving DecidableEq, Repr

namespace Block

def opening (block : Block) : Text := block.head.written ++ block.lead

def written (block : Block) : Text := block.opening ++ block.content ++ block.closing

/-- The body marker after a head, with the white space around it, and what follows. -/
def lead? (markers : Markers) (text : Text) : Option (Text × Text) :=
  match text.dropWhile Unicode.isWhitespace with
  | c :: rest =>
    if c = markers.body then
      some (text.takeWhile Unicode.isWhitespace ++ c :: rest.takeWhile Unicode.isWhitespace,
        rest.dropWhile Unicode.isWhitespace)
    else none
  | [] => none

/-- The content of a block up to the tag that ends it, that tag, and what follows. The list
`later` holds for each place of the text the block that begins there; `skip` characters belong to
a block that is passed over. -/
def content? (markers : Markers) (head : Head) :
    (skip : Nat) → Text → (later : List (Option Block)) → Option (Text × Text × Text)
  | _, [], _ => none
  | skip + 1, c :: rest, later =>
    (content? markers head skip rest later.tail).map fun (content, more) => (c :: content, more)
  | 0, c :: rest, later =>
    match if Text.startsWith (c :: rest) head.opener then later.head?.join else none with
    | some nested =>
      (content? markers head (nested.written.length - 1) rest later.tail).map
        fun (content, more) => (c :: content, more)
    | none =>
      match head.endTag? markers (c :: rest) with
      | some (closing, after) => some ([], closing, after)
      | none =>
        (content? markers head 0 rest later.tail).map fun (content, more) => (c :: content, more)

/-- The block at the start of a text, given the blocks that begin at each place of the text. -/
def parse? (markers : Markers) (text : Text) (later : List (Option Block)) : Option Block :=
  (Head.parse? markers text).bind fun (head, afterHead) =>
  if head.isEndTag markers then none
  else (lead? markers afterHead).bind fun (lead, rest) =>
  (content? markers head 0 rest (later.drop (head.written ++ lead).length)).map
    fun (content, closing, _) => ⟨head, lead, content, closing⟩

/-- For each place of a text the block that begins there. A marker glued to a word begins
none; `previous` is the character before the text. -/
def entries (markers : Markers) (previous : Option Char) : Text → List (Option Block)
  | [] => []
  | c :: rest =>
    let later := entries markers (some c) rest
    (if previous.any isWordChar then none else parse? markers (c :: rest) (none :: later)) :: later

/-- The blocks of a text that stands at an offset, with the offsets where they begin. -/
def located (offset : Nat) : Text → List (Option Block) → List (Nat × Block)
  | c :: rest, entry :: later =>
    (entry.map fun block => (offset, block)).toList ++ located (offset + c.utf8Size) rest later
  | _, _ => []

def startingFrom (markers : Markers) (place : Place) : List (Nat × Block) :=
  located place.offset place.rest (entries markers place.previous place.rest)

def at? (markers : Markers) (place : Place) : Option Block :=
  (entries markers place.previous place.rest).head?.join

end Block

end TemplateCompiler
