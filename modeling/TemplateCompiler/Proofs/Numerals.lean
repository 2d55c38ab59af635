import Mathlib.Data.List.Induction
import TemplateCompiler.Text.Number

/-!
# Numerals

A numeral writes a number digit by digit, the last digit being worth least. What is read as a number
is a numeral, or one with a plus sign in front.
-/
namespace TemplateCompiler.Text

variable {base value digit n : Nat} {c : Char} {text : Text}

/-- A character that writes a digit of a base. Letters may be small or capital. -/
def IsDigit (base : Nat) (c : Char) (digit : Nat) : Prop :=
  digit < base ∧ (c = digit.digitChar ∨ c = digit.digitChar.toUpper)

/-- A text that writes a number in a base. -/
inductive IsNumeral (base : Nat) : Text → Nat → Prop
  | single {c : Char} {digit : Nat} (h : IsDigit base c digit) : IsNumeral base [c] digit
  | append {text : Text} {n : Nat} {c : Char} {digit : Nat} (h : IsNumeral base text n)
      (hdigit : IsDigit base c digit) : IsNumeral base (text ++ [c]) (base * n + digit)

/-! ## Digits -/

theorem digitValue?_digitChar :
    ∀ digit < 16, digitValue? digit.digitChar = some digit ∧
      digitValue? digit.digitChar.toUpper = some digit := by
  decide

theorem eq_ofNat_of_le {first c : Char} (h : first ≤ c) :
    c = Char.ofNat (first.toNat + (c.toNat - first.toNat)) := by
  have hle : first.toNat ≤ c.toNat := UInt32.le_iff_toNat_le.mp h
  rw [Nat.add_sub_cancel' hle, Char.ofNat_toNat]

theorem toNat_le_of_le {last c : Char} (h : c ≤ last) : c.toNat ≤ last.toNat :=
  UInt32.le_iff_toNat_le.mp h

theorem digitChar_of_digit : ∀ digit < 10, Char.ofNat ('0'.toNat + digit) = digit.digitChar := by
  decide

theorem digitChar_of_letter : ∀ i < 6, Char.ofNat ('a'.toNat + i) = (i + 10).digitChar ∧
    Char.ofNat ('A'.toNat + i) = (i + 10).digitChar.toUpper := by
  decide

theorem digitValue?_eq_some_iff : digitValue? c = some digit ↔ IsDigit 16 c digit := by
  constructor
  · intro h
    unfold digitValue? at h
    split at h
    · rename_i hrun
      have hlast : c.toNat ≤ 57 := toNat_le_of_le hrun.2
      have hplace : c.toNat - 48 < 10 := by omega
      cases h
      refine ⟨Nat.lt_trans hplace (by decide), Or.inl ?_⟩
      exact (eq_ofNat_of_le hrun.1).trans (digitChar_of_digit _ hplace)
    · split at h
      · rename_i hrun
        have hlast : c.toNat ≤ 102 := toNat_le_of_le hrun.2
        have hplace : c.toNat - 97 < 6 := by omega
        cases h
        refine ⟨Nat.add_lt_add_right hplace 10, Or.inl ?_⟩
        exact (eq_ofNat_of_le hrun.1).trans (digitChar_of_letter _ hplace).1
      · split at h
        · rename_i hrun
          have hlast : c.toNat ≤ 70 := toNat_le_of_le hrun.2
          have hplace : c.toNat - 65 < 6 := by omega
          cases h
          refine ⟨Nat.add_lt_add_right hplace 10, Or.inr ?_⟩
          exact (eq_ofNat_of_le hrun.1).trans (digitChar_of_letter _ hplace).2
        · cases h
  · rintro ⟨hdigit, rfl | rfl⟩
    · exact (digitValue?_digitChar digit hdigit).1
    · exact (digitValue?_digitChar digit hdigit).2

theorem IsDigit.digitValue? (hbase : base ≤ 16) (h : IsDigit base c digit) :
    digitValue? c = some digit :=
  digitValue?_eq_some_iff.mpr ⟨Nat.lt_of_lt_of_le h.1 hbase, h.2⟩

/-! ## Numbers -/

theorem digitsFrom?_append (base value : Nat) (text : Text) (c : Char) :
    digitsFrom? base value (text ++ [c]) = (digitsFrom? base value text).bind fun n =>
      (digitValue? c).bind fun digit => if digit < base then some (base * n + digit) else none := by
  induction text generalizing value with
  | nil => rfl
  | cons first text ih =>
    rw [List.cons_append, digitsFrom?, digitsFrom?]
    cases digitValue? first with
    | none => rfl
    | some digit =>
      simp only [Option.bind_some]
      split
      · exact ih _
      · rfl

theorem IsNumeral.ne_nil (h : IsNumeral base text n) : text ≠ [] := by
  cases h with
  | single => exact List.cons_ne_nil _ _
  | append => exact List.append_ne_nil_of_right_ne_nil _ (List.cons_ne_nil _ _)

theorem IsNumeral.digitValue?_isSome (hbase : base ≤ 16) (h : IsNumeral base text n) :
    ∀ c ∈ text, (digitValue? c).isSome := by
  induction h with
  | single hdigit =>
    intro c hc
    rw [List.mem_singleton.mp hc, hdigit.digitValue? hbase]
    rfl
  | append _ hdigit ih =>
    intro c hc
    rcases List.mem_append.mp hc with hc | hc
    · exact ih c hc
    · rw [List.mem_singleton.mp hc, hdigit.digitValue? hbase]
      rfl

theorem IsNumeral.digitsFrom? (hbase : base ≤ 16) (h : IsNumeral base text n) :
    digitsFrom? base 0 text = some n := by
  induction h with
  | single hdigit =>
    rw [Text.digitsFrom?, hdigit.digitValue? hbase, Option.bind_some, if_pos hdigit.1,
      Text.digitsFrom?, Nat.mul_zero, Nat.zero_add]
  | append _ hdigit ih =>
    rw [digitsFrom?_append, ih, hdigit.digitValue? hbase]
    simp only [Option.bind_some, if_pos hdigit.1]

theorem isNumeral_of_digitsFrom? (hne : text ≠ []) (h : digitsFrom? base 0 text = some n) :
    IsNumeral base text n := by
  -- on the last digit, since that is where a numeral grows
  induction text using List.reverseRecOn generalizing n with
  | nil => exact absurd rfl hne
  | append_singleton text c ih =>
    rw [digitsFrom?_append] at h
    obtain ⟨m, hm, h⟩ := Option.bind_eq_some_iff.mp h
    obtain ⟨digit, hdigit, h⟩ := Option.bind_eq_some_iff.mp h
    split at h
    · rename_i hlt
      cases h
      have hdigit : IsDigit base c digit := ⟨hlt, (digitValue?_eq_some_iff.mp hdigit).2⟩
      cases text with
      | nil =>
        cases hm
        rw [Nat.mul_zero, Nat.zero_add]
        exact .single hdigit
      | cons first text => exact .append (ih (List.cons_ne_nil _ _) hm) hdigit
    · cases h

theorem number?_of_sign (base : Nat) (digits : Text) : number? base ('+' :: digits) =
    if digits.isEmpty then none else digitsFrom? base 0 digits := rfl

theorem number?_of_no_sign (h : ∀ digits, text ≠ '+' :: digits) :
    number? base text = if text.isEmpty then none else digitsFrom? base 0 text := by
  unfold number?
  simp only

/-- What is read as a number is a numeral, perhaps with a plus sign. -/
theorem number?_eq_some_iff (hbase : base ≤ 16) :
    number? base text = some n ↔
      IsNumeral base text n ∨ ∃ digits, text = '+' :: digits ∧ IsNumeral base digits n := by
  have hread (digits : Text) : (if digits.isEmpty then none else digitsFrom? base 0 digits) =
      some n ↔ IsNumeral base digits n := by
    constructor
    · intro h
      split at h
      · cases h
      · rename_i hne
        exact isNumeral_of_digitsFrom? (by simpa using hne) h
    · intro h
      rw [if_neg (by simpa using h.ne_nil)]
      exact h.digitsFrom? hbase
  by_cases hsign : ∃ digits, text = '+' :: digits
  · obtain ⟨digits, rfl⟩ := hsign
    have hplus : ¬IsNumeral base ('+' :: digits) n := fun h =>
      absurd (h.digitValue?_isSome hbase '+' List.mem_cons_self) (by decide)
    rw [number?_of_sign, hread]
    simp [hplus]
  · have hnone := not_exists.mp hsign
    rw [number?_of_no_sign hnone, hread]
    simp [hnone]

theorem isNumeral_toDigits (hbase : 1 < base) (n : Nat) :
    IsNumeral base (Nat.toDigits base n) n := by
  induction n using Nat.strongRecOn with
  | ind n ih =>
    rw [Nat.toDigits_eq_if hbase]
    split
    · rename_i hlt
      exact .single ⟨hlt, Or.inl rfl⟩
    · rename_i hge
      have hless : n / base < n := Nat.div_lt_self (by omega) hbase
      have hdigit : IsDigit base (n % base).digitChar (n % base) :=
        ⟨Nat.mod_lt _ (by omega), Or.inl rfl⟩
      have hnumeral := IsNumeral.append (ih _ hless) hdigit
      rwa [Nat.div_add_mod] at hnumeral

end TemplateCompiler.Text
