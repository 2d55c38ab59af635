import TemplateCompiler.Text.Number

/-!
# Character references

The references that an author is likely to write in an attribute: a few by name, all others by
number. What is no reference stays as it is.
-/
namespace TemplateCompiler.Entity

def named : List (String × Char) :=
  [("amp", '&'), ("lt", '<'), ("gt", '>'), ("quot", '"'), ("apos", '\''), ("nbsp", '\u00a0'),
    ("lbrace", '\x7b'), ("rbrace", '\x7d'), ("dollar", '$')]

def ofCode? (code : Nat) : Option Char := if code.isValidChar then some (Char.ofNat code) else none

/-- The character that the text between the ampersand and the semicolon refers to. -/
def char? : Text → Option Char
  | '#' :: 'x' :: digits => (Text.number? 16 digits).bind ofCode?
  | '#' :: 'X' :: digits => (Text.number? 16 digits).bind ofCode?
  | '#' :: digits => (Text.number? 10 digits).bind ofCode?
  | name => (named.find? fun entry => entry.1.toList == name).map (·.2)

/-- The character that the text after an ampersand refers to, and the length of the reference up
to its semicolon. -/
def reference? (text : Text) : Option (Char × Nat) :=
  (Text.cut? [';'] text).bind fun (name, _) =>
  (char? name).map fun c => (c, name.length + 1)

/-- Decodes a text of which the first `skip` characters belong to a reference. -/
def decodeFrom : (skip : Nat) → Text → Text
  | _, [] => []
  | skip + 1, _ :: rest => decodeFrom skip rest
  | 0, c :: rest =>
    if c = '&' then
      match reference? rest with
      | some (d, length) => d :: decodeFrom length rest
      | none => '&' :: decodeFrom 0 rest
    else c :: decodeFrom 0 rest

/-- Replaces each reference by the character it refers to, once. -/
def decode (text : Text) : Text := decodeFrom 0 text

end TemplateCompiler.Entity
