import TemplateCompiler.Proofs.SingleArguments

/-!
# Nested code

The grammar behind the outline of an expression: characters without a meaning of their own, string
literals, and groups in brackets that belong together. The scan with a stack of open brackets
accepts just the texts of this grammar, and the search for the end of an argument list passes over
each of them as a whole.
-/
namespace TemplateCompiler.Code

/-- The inside of a string literal. A backslash escapes the character behind it, and the first mark
that is not escaped would end the literal. -/
inductive IsStringBody (mark : Char) : Text → Prop
  | nil : IsStringBody mark []
  | escaped (c : Char) {rest : Text} (h : IsStringBody mark rest) :
      IsStringBody mark ('\\' :: c :: rest)
  | plain {c : Char} {rest : Text} (hslash : c ≠ '\\') (hmark : c ≠ mark)
      (h : IsStringBody mark rest) : IsStringBody mark (c :: rest)

/-- Code whose strings are terminated and whose brackets close each other, kind by kind. -/
inductive IsNested : Text → Prop
  | nil : IsNested []
  | char {c : Char} {rest : Text} (hquote : isQuote c = false) (hopening : isOpening c = false)
      (hclosing : isClosing c = false) (h : IsNested rest) : IsNested (c :: rest)
  | string {mark : Char} {body rest : Text} (hmark : isQuote mark) (hbody : IsStringBody mark body)
      (h : IsNested rest) : IsNested (mark :: (body ++ mark :: rest))
  | group {opening closing : Char} {inner rest : Text} (hpair : closerOf? opening = some closing)
      (hinner : IsNested inner) (h : IsNested rest) :
      IsNested (opening :: (inner ++ closing :: rest))

variable {single : Bool} {text lead : Text} {mark opening closing : Char} {expected : List Char}
  {quoting : Quoting}

/-! ## The scan accepts the grammar -/

theorem closerOf?_cases (h : closerOf? opening = some closing) :
    (opening = '(' ∧ closing = ')') ∨ (opening = '[' ∧ closing = ']') ∨
      (opening = '{' ∧ closing = '}') := by
  unfold closerOf? at h
  split at h
  · rename_i hround
    cases h
    exact Or.inl ⟨hround, rfl⟩
  · split at h
    · rename_i hsquare
      cases h
      exact Or.inr (Or.inl ⟨hsquare, rfl⟩)
    · split at h
      · rename_i hcurly
        cases h
        exact Or.inr (Or.inr ⟨hcurly, rfl⟩)
      · cases h

theorem isQuote_of_closerOf? (h : closerOf? opening = some closing) : isQuote opening = false := by
  rcases closerOf?_cases h with ⟨rfl, -⟩ | ⟨rfl, -⟩ | ⟨rfl, -⟩ <;> rfl

namespace Scan

theorem step_pair_opening (h : closerOf? opening = some closing) (expected : List Char) :
    step single ⟨.outside, expected⟩ opening = some ⟨.outside, closing :: expected⟩ := by
  rcases closerOf?_cases h with ⟨rfl, rfl⟩ | ⟨rfl, rfl⟩ | ⟨rfl, rfl⟩ <;> rfl

theorem step_pair_closing (h : closerOf? opening = some closing) (expected : List Char) :
    step single ⟨.outside, closing :: expected⟩ closing = some ⟨.outside, expected⟩ := by
  rcases closerOf?_cases h with ⟨rfl, rfl⟩ | ⟨rfl, rfl⟩ | ⟨rfl, rfl⟩ <;> rfl

theorem step_other {c : Char} (hopening : isOpening c = false) (hclosing : isClosing c = false)
    (expected : List Char) :
    step false ⟨.outside, expected⟩ c = some ⟨Quoting.next .outside c, expected⟩ := by
  rw [isOpening_eq, Option.isSome_eq_false_iff, Option.isNone_iff_eq_none] at hopening
  simp [step, hopening, hclosing]

end Scan

theorem IsStringBody.staysInside (h : IsStringBody mark text) : StaysInside single mark text := by
  induction h with
  | nil => exact fun _ => rfl
  | escaped c h ih =>
    intro expected
    rw [Scan.read_cons, Scan.step_inside single Quoting.noConfusion, Option.bind_some,
      Scan.read_cons, Quoting.next, if_pos rfl, Scan.step_inside single Quoting.noConfusion]
    exact ih expected
  | @plain c rest hslash hmark h ih =>
    have hchar : StaysInside single mark [c] := .of_ne (by simp [hslash, hmark])
    exact hchar.append ih

theorem IsNested.isNeutral (h : IsNested text) : IsNeutral false text := by
  induction h with
  | nil => exact .nil false
  | @char c rest hquote hopening hclosing h ih =>
    intro expected
    rw [Scan.read_cons, Scan.step_other hopening hclosing, Quoting.next, hquote]
    exact ih expected
  | @string mark body rest hmark hbody h ih =>
    have hliteral : IsNeutral false (mark :: body ++ [mark]) := hbody.staysInside.isNeutral hmark
    simpa using hliteral.append ih
  | group hpair hinner h ihinner ih =>
    intro expected
    rw [Scan.read_cons, Scan.step_pair_opening hpair, Option.bind_some, Scan.read_append, ihinner,
      Option.bind_some, Scan.read_cons, Scan.step_pair_closing hpair]
    exact ih expected

/-! ## What the scan accepts is in the grammar -/

/-- A text that closes the brackets that are open before it, the innermost one first. -/
def Closes : List Char → Text → Prop
  | [], text => IsNested text
  | closing :: expected, text =>
    ∃ inner rest, text = inner ++ closing :: rest ∧ IsNested inner ∧ Closes expected rest

/-- A text that ends the string it begins in, if any, and goes on as `after` says. -/
def GoesOn (after : Text → Prop) : Quoting → Text → Prop
  | .outside, text => after text
  | .inside mark, text =>
    ∃ body rest, text = body ++ mark :: rest ∧ IsStringBody mark body ∧ after rest
  | .escaped mark, text =>
    ∃ c body rest, text = c :: (body ++ mark :: rest) ∧ IsStringBody mark body ∧ after rest

theorem Closes.append_left (h : Closes expected text)
    (hlead : ∀ rest, IsNested rest → IsNested (lead ++ rest)) : Closes expected (lead ++ text) := by
  cases expected with
  | nil => exact hlead text h
  | cons closing expected =>
    obtain ⟨inner, rest, rfl, hinner, hrest⟩ := h
    exact ⟨lead ++ inner, rest, (List.append_assoc _ _ _).symm, hlead inner hinner, hrest⟩

/-- A bracket that opens in front makes a group of what closes it. -/
theorem Closes.group (hpair : closerOf? opening = some closing)
    (h : Closes (closing :: expected) text) : Closes expected (opening :: text) := by
  obtain ⟨inner, rest, rfl, hinner, hrest⟩ := h
  have hgroup : Closes expected (opening :: (inner ++ [closing]) ++ rest) :=
    hrest.append_left fun after hafter => by simpa using IsNested.group hpair hinner hafter
  simpa using hgroup

theorem Closes.string (hmark : isQuote mark) (h : GoesOn (Closes expected) (.inside mark) text) :
    Closes expected (mark :: text) := by
  obtain ⟨body, rest, rfl, hbody, hrest⟩ := h
  have hliteral : Closes expected (mark :: (body ++ [mark]) ++ rest) :=
    hrest.append_left fun after hafter => by simpa using IsNested.string hmark hbody hafter
  simpa using hliteral

/-- A string goes on as its next character has it. -/
theorem GoesOn.cons {after : Text → Prop} {c : Char} (hinside : quoting ≠ .outside)
    (h : GoesOn after (quoting.next c) text) : GoesOn after quoting (c :: text) := by
  cases quoting with
  | outside => exact absurd rfl hinside
  | escaped mark =>
    obtain ⟨body, rest, rfl, hbody, hrest⟩ := h
    exact ⟨c, body, rest, rfl, hbody, hrest⟩
  | inside mark =>
    rw [Quoting.next] at h
    split at h
    · rename_i hslash
      obtain ⟨d, body, rest, rfl, hbody, hrest⟩ := h
      exact ⟨'\\' :: d :: body, rest, by simp [hslash], .escaped d hbody, hrest⟩
    · rename_i hslash
      split at h
      · rename_i hmark
        exact ⟨[], text, by simp [hmark], .nil, h⟩
      · rename_i hmark
        obtain ⟨body, rest, rfl, hbody, hrest⟩ := h
        exact ⟨c :: body, rest, rfl, .plain hslash hmark hbody, hrest⟩

/-- A scan that ends outside everything has closed what was open when it began. -/
theorem goesOn_of_read (h : Scan.read false ⟨quoting, expected⟩ text = some Scan.start) :
    GoesOn (Closes expected) quoting text := by
  induction text generalizing quoting expected with
  | nil =>
    cases h
    exact IsNested.nil
  | cons c text ih =>
    rw [Scan.read_cons] at h
    obtain ⟨⟨between, expected'⟩, hstep, hrest⟩ := Option.bind_eq_some_iff.mp h
    have hgoes := ih hrest
    rcases Scan.step_cases hstep with ⟨hinside, hafter⟩ | ⟨houtside, ⟨closing, hpair, hafter⟩ |
      ⟨-, -, opened, hopened, hafter⟩ | ⟨hcloser, hclosing, -, hafter⟩⟩
    · cases hafter
      exact hgoes.cons hinside
    · cases hafter
      cases houtside
      exact Closes.group hpair hgoes
    · cases hafter
      cases houtside
      cases hopened
      exact ⟨[], text, rfl, .nil, hgoes⟩
    · cases hafter
      cases houtside
      cases hquote : isQuote c with
      | true =>
        rw [Quoting.next, if_pos hquote] at hgoes
        exact Closes.string hquote hgoes
      | false =>
        rw [Quoting.next, hquote] at hgoes
        have hopening : isOpening c = false := by
          rw [isOpening_eq, hcloser]
          rfl
        have hchar : Closes expected ([c] ++ text) :=
          Closes.append_left hgoes fun _ => .char hquote hopening hclosing
        exact hchar

theorem isBalanced_iff_isNested : isBalanced text ↔ IsNested text := by
  rw [isBalanced_iff]
  exact ⟨goesOn_of_read, fun h => h.isNeutral []⟩

/-- Nested code that begins with a bracket begins with a group. -/
theorem IsNested.of_opening (hpair : closerOf? opening = some closing)
    (h : IsNested (opening :: text)) :
    ∃ inner rest, text = inner ++ closing :: rest ∧ IsNested inner ∧ IsNested rest := by
  cases h with
  | char hquote hopening =>
    rw [isOpening_eq, hpair] at hopening
    cases hopening
  | string hmark =>
    rw [isQuote_of_closerOf? hpair] at hmark
    cases hmark
  | group hpair' hinner hrest =>
    rw [hpair] at hpair'
    cases hpair'
    exact ⟨_, _, rfl, hinner, hrest⟩

/-! ## Expressions -/

/-- An operator at the end lacks its right operand. `++` and `--` need none. -/
def EndsInOperator (code : Text) : Prop :=
  (∃ c ∈ "+-*/%.=<>&|^?:,".toList, [c] <:+ code) ∧ ¬['+', '+'] <:+ code ∧ ¬['-', '-'] <:+ code

/-- An operator at the start lacks its left operand. The point of a decimal fraction is none. -/
def BeginsWithOperator (code : Text) : Prop :=
  (∃ c ∈ "*/%.=<>&|^?:,".toList, [c] <+: code) ∧ ¬∃ d, d.isDigit ∧ ['.', d] <+: code

theorem exists_prefix_iff {operators : List Char} {c : Char} {rest : Text} :
    (∃ operator ∈ operators, [operator] <+: c :: rest) ↔ c ∈ operators := by
  simp [List.cons_prefix_cons]

theorem hasDanglingEnd_iff {code : Text} : hasDanglingEnd code ↔ EndsInOperator code := by
  unfold EndsInOperator hasDanglingEnd isOpenOperator
  generalize "+-*/%.=<>&|^?:,".toList = operators
  simp only [← List.reverse_prefix, List.reverse_cons, List.reverse_nil, List.nil_append,
    List.singleton_append]
  split
  · rename_i c d before hcode
    rw [hcode, exists_prefix_iff]
    simp [List.cons_prefix_cons, @eq_comm Char _ c, @eq_comm Char _ d, and_assoc, not_and_or,
      -not_and]
  · rename_i c hcode
    rw [hcode, exists_prefix_iff]
    simp [List.cons_prefix_cons]
  · rename_i hcode
    rw [hcode]
    simp

theorem hasDanglingStart_iff {code : Text} : hasDanglingStart code ↔ BeginsWithOperator code := by
  unfold BeginsWithOperator hasDanglingStart isInfixOperator
  have hpoint : '.' ∈ "*/%.=<>&|^?:,".toList := by decide
  generalize "*/%.=<>&|^?:,".toList = operators at *
  split
  · rename_i d rest
    rw [exists_prefix_iff]
    simp [hpoint, List.cons_prefix_cons]
  · rename_i c rest hfraction
    rw [exists_prefix_iff]
    have hnone : ¬∃ d : Char, d.isDigit ∧ ['.', d] <+: c :: rest := by
      rintro ⟨d, -, after, hcode⟩
      cases hcode
      exact hfraction d after rfl rfl
    rw [and_iff_left hnone]
    exact List.contains_iff_mem
  · simp

/-- The check of an expression accepts what its grammar describes: code that is nested and neither
begins nor ends in an operator that lacks an operand. All nested code is also taken for one list of
arguments when it stands in the brackets of a call. -/
theorem isExpression_iff_grammar (code : Text) :
    (isExpression code ↔ code.trim ≠ [] ∧ IsNested code.trim ∧ ¬EndsInOperator code.trim ∧
      ¬BeginsWithOperator code.trim) ∧
    (IsNested code → group? ('(' :: code ++ [')']) = some ('(' :: code ++ [')'], [])) := by
  constructor
  · rw [← hasDanglingEnd_iff, ← hasDanglingStart_iff, ← isBalanced_iff_isNested]
    simp [isExpression, and_assoc]
  · intro hnested
    exact group?_of_isBalanced rfl rfl (isBalanced_iff_isNested.mpr hnested) []

end TemplateCompiler.Code
