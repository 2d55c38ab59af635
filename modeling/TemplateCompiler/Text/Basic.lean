import TemplateCompiler.Unicode.Whitespace

/-!
# Text

A text is the list of its characters, so that what follows a place in it is a list again. Sizes
are counted in bytes of UTF-8, the unit in which positions are reported.
-/
namespace TemplateCompiler

abbrev Text := List Char

namespace Text

/-- The size in bytes. -/
def size : Text → Nat
  | [] => 0
  | c :: text => c.utf8Size + size text

@[simp] theorem size_nil : size [] = 0 := rfl

@[simp] theorem size_cons (c : Char) (text : Text) :
    size (c :: text) = c.utf8Size + size text := rfl

@[simp] theorem size_append (a b : Text) : size (a ++ b) = size a + size b := by
  induction a with
  | nil => simp
  | cons c a ih => simp [ih, Nat.add_assoc]

@[simp] theorem size_reverse (a : Text) : size a.reverse = size a := by
  induction a with
  | nil => rfl
  | cons c a ih => simp [ih, Nat.add_comm]

theorem length_le_size (text : Text) : text.length ≤ text.size := by
  induction text with
  | nil => simp
  | cons c text ih =>
    have := c.utf8Size_pos
    simp only [List.length_cons, size_cons]
    omega

def trimStart (text : Text) : Text := text.dropWhile Unicode.isWhitespace

def trimEnd (text : Text) : Text := (text.reverse.dropWhile Unicode.isWhitespace).reverse

def trim (text : Text) : Text := trimEnd (trimStart text)

def isBlank (text : Text) : Bool := text.all Unicode.isWhitespace

/-- Spaces and tabs, the white space within a line. -/
def isSpaceOrTab (c : Char) : Bool := c == ' ' || c == '\t'

/-- What follows `lead` in a text that starts with it. -/
def after? : Text → Text → Option Text
  | [], text => some text
  | a :: lead, b :: text => if a = b then after? lead text else none
  | _ :: _, [] => none

theorem after?_eq_some_iff {lead text rest : Text} :
    after? lead text = some rest ↔ text = lead ++ rest := by
  induction lead generalizing text with
  | nil => simp [after?]
  | cons a lead ih =>
    cases text with
    | nil => simp [after?]
    | cons b text =>
      by_cases h : a = b
      · simp [after?, h, ih]
      · simp [after?, h, Ne.symm h]

@[simp] theorem after?_append (lead rest : Text) : after? lead (lead ++ rest) = some rest :=
  after?_eq_some_iff.2 rfl

def startsWith (text lead : Text) : Bool := (after? lead text).isSome

/-- Whether a text comes no later than another when texts are compared by their code points. -/
def le : Text → Text → Bool
  | [], _ => true
  | _ :: _, [] => false
  | a :: as, b :: bs => if a = b then le as bs else a.toNat < b.toNat

/-- What stands before and after the first occurrence of a pattern. -/
def cut? (pattern : Text) : Text → Option (Text × Text)
  | [] => if pattern.isEmpty then some ([], []) else none
  | c :: rest =>
    match after? pattern (c :: rest) with
    | some after => some ([], after)
    | none => (cut? pattern rest).map fun (before, after) => (c :: before, after)

def contains (text pattern : Text) : Bool := (cut? pattern text).isSome

theorem cut?_eq {pattern text before after : Text} (h : cut? pattern text = some (before, after)) :
    text = before ++ pattern ++ after := by
  induction text generalizing before after with
  | nil =>
    simp only [cut?] at h
    split at h
    · rename_i empty
      simp only [Option.some.injEq, Prod.mk.injEq] at h
      simp [← h.1, ← h.2, List.isEmpty_iff.1 empty]
    · exact absurd h (by simp)
  | cons c rest ih =>
    simp only [cut?] at h
    split at h
    · rename_i tail found
      simp only [Option.some.injEq, Prod.mk.injEq] at h
      rw [← h.1, ← h.2, List.nil_append]
      exact after?_eq_some_iff.1 found
    · obtain ⟨⟨b, a⟩, hb, e⟩ := Option.map_eq_some_iff.1 h
      simp only [Prod.mk.injEq] at e
      rw [ih hb, ← e.1, ← e.2]
      simp

def consFirst (c : Char) : List Text → List Text
  | [] => [[c]]
  | part :: parts => (c :: part) :: parts

@[simp] theorem flatten_consFirst (c : Char) (parts : List Text) :
    (consFirst c parts).flatten = c :: parts.flatten := by
  cases parts <;> rfl

/-- The parts between the characters that satisfy `isSeparator`: one more than these. -/
def split (isSeparator : Char → Bool) : Text → List Text
  | [] => [[]]
  | c :: rest =>
    if isSeparator c then [] :: split isSeparator rest else consFirst c (split isSeparator rest)

def join (separator : Text) (parts : List Text) : Text := separator.intercalate parts

/-- The lines of a text. A line feed ends a line, together with a carriage return before it;
after the last one there is a line only if something is left. -/
def lines (text : Text) : List Text :=
  let parts := split (· == '\n') text
  let ended := parts.dropLast.map fun line =>
    if line.getLast? = some '\r' then line.dropLast else line
  match parts.getLast? with
  | none | some [] => ended
  | some last => ended ++ [last]

def equalIgnoringAsciiCase (a b : Text) : Bool := a.map Char.toLower == b.map Char.toLower

end Text

end TemplateCompiler
