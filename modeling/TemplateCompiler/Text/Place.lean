import TemplateCompiler.Text.Basic

/-!
# Places in a text

A place splits a text in two. What stands before it is kept in reverse, so that its nearest
character comes first; moving on takes characters from one side to the other.
-/
namespace TemplateCompiler

structure Place where
  /-- What stands before the place, the nearest character first. -/
  before : Text
  rest : Text
  deriving DecidableEq, Repr, Inhabited

namespace Place

def start (text : Text) : Place := ⟨[], text⟩

/-- The whole text, of which the place is a split. -/
def text (place : Place) : Text := place.before.reverse ++ place.rest

/-- The number of bytes before the place. -/
def offset (place : Place) : Nat := place.before.size

def atEnd (place : Place) : Bool := place.rest.isEmpty

def peek (place : Place) : Option Char := place.rest.head?

def previous (place : Place) : Option Char := place.before.head?

def advance (place : Place) (count : Nat) : Place :=
  ⟨(place.rest.take count).reverse ++ place.before, place.rest.drop count⟩

@[simp] theorem text_start (text : Text) : (start text).text = text := rfl

@[simp] theorem text_advance (place : Place) (count : Nat) :
    (place.advance count).text = place.text := by
  simp [text, advance]

theorem text_shift (before : Text) (c : Char) (rest : Text) :
    (⟨c :: before, rest⟩ : Place).text = (⟨before, c :: rest⟩ : Place).text := by
  simp [text]

theorem advance_start (place : Place) :
    (start place.text).advance place.before.length = place := by
  simp [start, advance, text]

theorem advance_advance (place : Place) (first second : Nat) :
    (place.advance first).advance second = place.advance (first + second) := by
  simp [advance, List.take_add, List.drop_drop]

theorem advance_cons (before rest : Text) (c : Char) (count : Nat) :
    (⟨before, c :: rest⟩ : Place).advance (count + 1) =
      (⟨c :: before, rest⟩ : Place).advance count := by
  simp [advance]

theorem offset_advance (place : Place) (count : Nat) :
    (place.advance count).offset = place.offset + Text.size (place.rest.take count) := by
  simp [offset, advance, Nat.add_comm]

/-- The place at a byte offset, where a character starts or the text ends. -/
def ofOffset? (text : Text) (offset : Nat) : Option Place :=
  go [] offset text
where
  go (before : Text) : Nat → Text → Option Place
    | 0, rest => some ⟨before, rest⟩
    | _ + 1, [] => none
    | n + 1, c :: rest =>
      if c.utf8Size ≤ n + 1 then go (c :: before) (n + 1 - c.utf8Size) rest else none

end Place

end TemplateCompiler
