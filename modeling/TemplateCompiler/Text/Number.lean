import TemplateCompiler.Text.Basic

/-!
# Numbers in a text

Natural numbers are written with digits of a base up to sixteen.
-/
namespace TemplateCompiler.Text

def digitValue? (c : Char) : Option Nat :=
  if '0' ≤ c ∧ c ≤ '9' then some (c.toNat - '0'.toNat)
  else if 'a' ≤ c ∧ c ≤ 'f' then some (c.toNat - 'a'.toNat + 10)
  else if 'A' ≤ c ∧ c ≤ 'F' then some (c.toNat - 'A'.toNat + 10)
  else none

/-- The number written by the digits after a value. -/
def digitsFrom? (base value : Nat) : Text → Option Nat
  | [] => some value
  | c :: rest =>
    (digitValue? c).bind fun digit =>
    if digit < base then digitsFrom? base (base * value + digit) rest else none

/-- The number written in a base, with at least one digit and perhaps a plus sign. -/
def number? (base : Nat) (text : Text) : Option Nat :=
  let digits := match text with
    | '+' :: digits => digits
    | digits => digits
  if digits.isEmpty then none else digitsFrom? base 0 digits

def ofNat (n : Nat) : Text := Nat.toDigits 10 n

end TemplateCompiler.Text
