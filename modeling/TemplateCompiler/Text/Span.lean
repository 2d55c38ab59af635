import TemplateCompiler.Text.Basic

/-!
# Spans and positions

Byte ranges of a text, and the line and column of a byte offset. All of these are natural numbers;
numbers of 32 bits come to the same for texts of less than 2^32 bytes.
-/
namespace TemplateCompiler

/-- The bytes from `start` up to `stop`, which is left out. -/
structure Span where
  start : Nat
  stop : Nat
  deriving DecidableEq, Repr, Inhabited

namespace Span

def ofText (offset : Nat) (piece : Text) : Span := ⟨offset, offset + piece.size⟩

def isEmpty (span : Span) : Bool := span.start == span.stop

def shift (span : Span) (offset : Nat) : Span := ⟨span.start + offset, span.stop + offset⟩

end Span

/-- A line and the byte offset within it, both counted from 0. -/
structure Position where
  line : Nat
  column : Nat
  deriving DecidableEq, Repr, Inhabited

/-- The position counted from 1, as shown to people. -/
def Position.shown (position : Position) : Position := ⟨position.line + 1, position.column + 1⟩

/-- Where the lines of a text begin. -/
structure LineIndex where
  starts : List Nat
  size : Nat
  deriving Repr

namespace LineIndex

/-- The offsets just after the line feeds of a text that stands at an offset. -/
def startsFrom (offset : Nat) : Text → List Nat
  | [] => []
  | c :: rest =>
    let next := offset + c.utf8Size
    if c = '\n' then next :: startsFrom next rest else startsFrom next rest

def ofText (text : Text) : LineIndex := ⟨0 :: startsFrom 0 text, text.size⟩

def lineCount (index : LineIndex) : Nat := index.starts.length

/-- The position of a byte offset; an offset past the end counts as the end. -/
def position (index : LineIndex) (offset : Nat) : Position :=
  let offset := min offset index.size
  let begun := index.starts.takeWhile (· ≤ offset)
  ⟨begun.length - 1, offset - begun.getLast?.getD 0⟩

@[simp] theorem lineCount_ofText (text : Text) :
    (ofText text).lineCount = text.count '\n' + 1 := by
  have (offset : Nat) : (startsFrom offset text).length = text.count '\n' := by
    induction text generalizing offset with
    | nil => rfl
    | cons c text ih => by_cases h : c = '\n' <;> simp [startsFrom, h, ih]
  simp [lineCount, ofText, this]

end LineIndex

end TemplateCompiler
