import TemplateCompiler.Directive.Pattern

/-!
# Configuration blocks

The lines between `@config` and `@endconfig` are entries `key: value`. A block is removed and
becomes one statement of the preamble.
-/
namespace TemplateCompiler.Directive

structure Entry where
  key : Text
  value : Text
  deriving DecidableEq, Repr

namespace Entry

/-- Whether nothing is left of a line but white space and at most one comma. -/
def isTail (text : Text) : Bool :=
  match text.trimStart with
  | [] => true
  | ',' :: rest => Text.isBlank rest
  | _ => false

/-- The shortest value, with at least its first character, after which only a tail is left. -/
def valueOf : Text → Text
  | [] => []
  | c :: rest => if isTail rest then [c] else c :: valueOf rest

def parse? (line : Text) : Option Entry :=
  let rest := line.trimStart
  let key := rest.takeWhile isNameChar
  if key.isEmpty then none
  else
    (Text.after? [':'] (Text.trimStart (rest.dropWhile isNameChar))).bind fun rest =>
    if rest.isBlank then none else some ⟨key, valueOf rest.trimStart⟩

def code (entry : Entry) : Text := '\'' :: entry.key ++ "' => ".toList ++ entry.value

end Entry

namespace Config

/-- The keyword that ends a block, at the start of a line; what follows it. -/
def ending? (place : Place) : Option Text :=
  if isLineStart place then
    (Text.after? "@endconfig".toList (place.rest.dropWhile Text.isSpaceOrTab)).bind fun after =>
    if isWordEnd after then some after else none
  else none

def body? (before : Text) : Text → Option (Text × Text)
  | [] => none
  | c :: rest =>
    match ending? ⟨before, c :: rest⟩ with
    | some after => some ([], after)
    | none => (body? (c :: before) rest).map fun (body, after) => (c :: body, after)

/-- The block at a place, with the white space after it. -/
def pattern (place : Place) : Option (Nat × Text) :=
  (Text.after? "@config".toList place.rest).bind fun rest =>
  let rest := rest.dropWhile Text.isSpaceOrTab
  if isLineEnd rest then
    (body? (place.advance (lengthUpTo place rest)).before rest).map fun (body, after) =>
    (lengthUpTo place after.trimStart, body)
  else none

/-- Reads the entries of a block, up to the first line that is none. -/
def entries : List Text → Except CompileError (List Entry)
  | [] => .ok []
  | line :: lines =>
    if line.isBlank then entries lines
    else match Entry.parse? line with
      | none => .error (.ofCause (.malformedDirective "config".toList line))
      | some entry => (entries lines).map (entry :: ·)

def statement (entries : List Entry) : Text :=
  "$my->config([".toList ++ Text.join ", ".toList (entries.map Entry.code) ++ "]);".toList

def replace : Replace Text := fun _ body => do
  Pass.update fun context =>
    (entries body.lines).map fun entries => context.push (statement entries)
  return some []

end Config

def configBlocks (text : Text) : Pass Text :=
  substitute (Matcher.leftmost Config.pattern) Config.replace text

end TemplateCompiler.Directive
