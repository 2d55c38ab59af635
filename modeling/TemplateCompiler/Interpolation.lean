import TemplateCompiler.Code.Expression
import TemplateCompiler.Code.Literal
import TemplateCompiler.CompileError
import TemplateCompiler.Markers
import TemplateCompiler.Name

/-!
# Interpolation

The text of an attribute with embedded expressions becomes one expression: literal text turns
into double-quoted strings, a variable after such a string becomes part of it, and all else is
joined by dots.
-/
namespace TemplateCompiler.Interpolation

inductive Part
  | text (body : Text)
  | reference (name : Text)
  deriving DecidableEq, Repr

/-- A piece of the expression; neighbours are joined by dots. -/
inductive Segment
  | string (parts : List Part)
  /-- An expression that stands for itself. -/
  | plain (code : Text)
  /-- An expression that is put in parentheses. -/
  | wrapped (code : Text)
  deriving DecidableEq, Repr

def Part.render : Part → Text
  | text body => Code.doubleQuotedBody body
  | reference name => '\x7b' :: name ++ ['\x7d']

def Segment.render : Segment → Text
  | string parts => '"' :: parts.flatMap Part.render ++ ['"']
  | plain code => code
  | wrapped code => '(' :: code ++ [')']

inductive Piece
  | literal (text : Text)
  | embedded (expression : Text)
  deriving DecidableEq, Repr

def isVariable : Text → Bool
  | '$' :: name => !name.isEmpty && name.all isWordChar
  | _ => false

/-- Adds to the last segment if that is a string, or else a new one. The segments are kept with
the last one first. -/
def pushPart (part : Part) : List Segment → List Segment
  | .string parts :: segments => .string (parts ++ [part]) :: segments
  | segments => .string [part] :: segments

def pushLiteral (text : Text) (segments : List Segment) : List Segment :=
  if text.isEmpty then segments else pushPart (.text text) segments

def pushExpression (expression : Text) (segments : List Segment) : List Segment :=
  if isVariable expression then
    match segments with
    | .string _ :: _ => pushPart (.reference expression) segments
    | segments => .plain expression :: segments
  else if expression.all isWordChar then .plain expression :: segments
  else .wrapped expression :: segments

def push (segments : List Segment) : Piece → List Segment
  | .literal text => pushLiteral text segments
  | .embedded expression => pushExpression expression segments

/-- The pieces up to the end of the first pair of tags, and what follows. Without a pair of tags
all is literal. A pair around nothing is literal too. -/
def step (tags : Text × Text) (text : Text) : List Piece × Text :=
  match Text.cut? tags.1 text with
  | none => ([.literal text], [])
  | some (before, opened) =>
    match Text.cut? tags.2 opened with
    | none => ([.literal text], [])
    | some (inner, after) =>
      let expression := inner.trim
      ([.literal before, if expression.isEmpty then .literal (tags.1 ++ inner ++ tags.2)
        else .embedded expression], after)

/-- The reading of a text whose steps get no further. It goes on without end; if it had an end, its
pieces would be those of the first step. -/
def standstill (tags : Text × Text) (first : List Piece) (text : Text) :
    {pieces : List Piece // pieces = first} :=
  have : Nonempty {pieces : List Piece // pieces = first} := ⟨⟨first, rfl⟩⟩
  let goOn (text : Text) : Id (Text ⊕ {pieces : List Piece // pieces = first}) :=
    pure (.inl (step tags text).2)
  Id.run (repeatM goOn text)

/-- The pieces of a text. Two empty tags are found at once and get the reading no further, so that
it does not end; those of the first step stand for the result that there is not. -/
def pieces (tags : Text × Text) (text : Text) : List Piece :=
  if text.isEmpty then []
  else
    let (first, after) := step tags text
    if after.length < text.length then first ++ pieces tags after
    else (standstill tags first after).val
termination_by text.length

def segments (tags : Text × Text) (text : Text) : List Segment :=
  ((pieces tags text).foldl push []).reverse

/-- The expression made of segments. One expression alone needs no parentheses, and no segment at
all stands for the empty string. -/
def render : List Segment → Text
  | [] => ['"', '"']
  | [.wrapped code] => code
  | segments => Text.join ['.'] (segments.map Segment.render)

def compile (tags : Text × Text) (value : Text) : Except CompileError Text :=
  let code := render (segments tags value)
  if Code.isExpression code then .ok code
  else .error (.ofCause (.interpolation value code))

end TemplateCompiler.Interpolation
