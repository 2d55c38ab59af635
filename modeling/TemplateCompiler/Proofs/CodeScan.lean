import TemplateCompiler.Code.Expression
import TemplateCompiler.Code.Literal
import TemplateCompiler.Proofs.CanonicalPath

/-!
# Scanning code

Code is scanned for strings, brackets and, where it is one argument of a list, commas outside both.
A scan of two texts one after the other is that of the first and then that of the second, so code is
well formed if its parts leave the scan where it was. Brackets that a text does not close itself
do not matter to it: what is open around it stays open.
-/
namespace TemplateCompiler.Code

/-- Where a scan stands: with respect to quoted strings, and the brackets that have to close, the
innermost one first. -/
structure Scan where
  quoting : Quoting
  expected : List Char
  deriving DecidableEq

def isPassed (c : Char) : Bool := !(isQuote c || isOpening c || isClosing c || c == ',')

namespace Scan

def start : Scan := ⟨.outside, []⟩

/-- A scan ends at a bracket that does not close the innermost one, and that of a single argument
at a comma outside strings and brackets. -/
def step (single : Bool) (scan : Scan) (c : Char) : Option Scan :=
  if scan.quoting = .outside then
    match closerOf? c with
    | some closing => some ⟨.outside, closing :: scan.expected⟩
    | none =>
      if isClosing c then
        if scan.expected.head? = some c then some ⟨.outside, scan.expected.tail⟩ else none
      else if single ∧ c = ',' ∧ scan.expected = [] then none
      else some ⟨scan.quoting.next c, scan.expected⟩
  else some ⟨scan.quoting.next c, scan.expected⟩

def read (single : Bool) (scan : Scan) (text : Text) : Option Scan := text.foldlM (step single) scan

variable {single : Bool} {scan after : Scan} {c : Char} {text first second : Text}

@[simp] theorem read_nil (single : Bool) (scan : Scan) : scan.read single [] = some scan := rfl

theorem read_cons (single : Bool) (scan : Scan) (c : Char) (text : Text) :
    scan.read single (c :: text) = (scan.step single c).bind (·.read single text) :=
  List.foldlM_cons

theorem read_append (single : Bool) (scan : Scan) (first second : Text) :
    scan.read single (first ++ second) = (scan.read single first).bind (·.read single second) :=
  List.foldlM_append

theorem step_cases (h : scan.step single c = some after) :
    (scan.quoting ≠ .outside ∧ after = ⟨scan.quoting.next c, scan.expected⟩) ∨
    (scan.quoting = .outside ∧
      ((∃ closing, closerOf? c = some closing ∧ after = ⟨.outside, closing :: scan.expected⟩) ∨
      (closerOf? c = none ∧ isClosing c ∧
        ∃ expected, scan.expected = c :: expected ∧ after = ⟨.outside, expected⟩) ∨
      (closerOf? c = none ∧ isClosing c = false ∧ ¬(single ∧ c = ',' ∧ scan.expected = []) ∧
        after = ⟨Quoting.next .outside c, scan.expected⟩))) := by
  unfold step at h
  split at h
  · rename_i houtside
    refine Or.inr ⟨houtside, ?_⟩
    split at h
    · rename_i closing hcloser
      cases h
      exact Or.inl ⟨closing, hcloser, rfl⟩
    · rename_i hcloser
      split at h
      · rename_i hclosing
        split at h
        · rename_i hhead
          cases h
          obtain ⟨expected, hexpected⟩ := List.head?_eq_some_iff.mp hhead
          exact Or.inr (Or.inl ⟨hcloser, hclosing, expected, hexpected, by rw [hexpected]; rfl⟩)
        · cases h
      · rename_i hclosing
        split at h
        · cases h
        · rename_i hcomma
          cases h
          rw [houtside]
          exact Or.inr (Or.inr ⟨hcloser, by simpa using hclosing, hcomma, rfl⟩)
  · rename_i hinside
    cases h
    exact Or.inl ⟨hinside, rfl⟩

theorem step_inside (single : Bool) {quoting : Quoting} (h : quoting ≠ .outside)
    (expected : List Char) (c : Char) :
    step single ⟨quoting, expected⟩ c = some ⟨quoting.next c, expected⟩ := if_neg h

theorem step_opening (single : Bool) (expected : List Char) :
    step single ⟨.outside, expected⟩ '(' = some ⟨.outside, ')' :: expected⟩ := rfl

theorem step_closing (single : Bool) (expected : List Char) :
    step single ⟨.outside, expected⟩ ')' =
      if expected.head? = some ')' then some ⟨.outside, expected.tail⟩ else none := rfl

theorem step_passed (single : Bool) (expected : List Char) (h : isPassed c) :
    step single ⟨.outside, expected⟩ c = some ⟨.outside, expected⟩ := by
  simp only [isPassed, Bool.not_eq_true', Bool.or_eq_false_iff, beq_eq_false_iff_ne] at h
  obtain ⟨⟨⟨hquote, hopening⟩, hclosing⟩, hcomma⟩ := h
  have hcloser : closerOf? c = none := by
    simp only [isOpening, Bool.or_eq_false_iff, beq_eq_false_iff_ne] at hopening
    obtain ⟨⟨hround, hsquare⟩, hcurly⟩ := hopening
    rw [closerOf?, if_neg hround, if_neg hsquare, if_neg hcurly]
  have hnext : Quoting.next .outside c = .outside := by
    rw [Quoting.next, hquote]
    rfl
  unfold step
  rw [if_pos rfl, hcloser]
  simp only [hclosing, Bool.false_eq_true, if_false, hnext]
  rw [if_neg fun h => hcomma h.2.1]

end Scan

theorem next_outside_of_bracket {c : Char}
    (h : (∃ closing, closerOf? c = some closing) ∨ isClosing c) :
    Quoting.next .outside c = .outside := by
  have hquote : isQuote c = false := by
    rw [isQuote, Bool.or_eq_false_iff, beq_eq_false_iff_ne, beq_eq_false_iff_ne]
    constructor <;>
    · rintro rfl
      rcases h with ⟨_, h⟩ | h <;> cases h
  rw [Quoting.next, hquote]
  rfl

namespace Scan

variable {single : Bool} {scan after : Scan} {c : Char} {text first second : Text}

theorem quoting_of_step (h : scan.step single c = some after) :
    after.quoting = scan.quoting.next c := by
  rcases step_cases h with ⟨-, rfl⟩ | ⟨houtside, ⟨closing, hcloser, rfl⟩ |
    ⟨-, hclosing, _, -, rfl⟩ | ⟨-, -, -, rfl⟩⟩
  · rfl
  · rw [houtside, next_outside_of_bracket (Or.inl ⟨closing, hcloser⟩)]
  · rw [houtside, next_outside_of_bracket (Or.inr hclosing)]
  · rw [houtside]

theorem quoting_of_read (h : scan.read single text = some after) :
    after.quoting = text.foldl Quoting.next scan.quoting := by
  induction text generalizing scan with
  | nil =>
    cases h
    rfl
  | cons c text ih =>
    rw [read_cons] at h
    obtain ⟨between, hstep, hrest⟩ := Option.bind_eq_some_iff.mp h
    rw [ih hrest, quoting_of_step hstep, List.foldl_cons]

/-- What is open around a text makes no difference to its scan, unless the text has commas that
count only while nothing is open around them. -/
theorem step_below {inner : Bool} {base : List Char} (hbase : base = [] → single → inner)
    (h : scan.step inner c = some after) :
    step single ⟨scan.quoting, scan.expected ++ base⟩ c =
      some ⟨after.quoting, after.expected ++ base⟩ := by
  rcases step_cases h with ⟨hinside, rfl⟩ | ⟨houtside, ⟨closing, hcloser, rfl⟩ |
    ⟨hcloser, hclosing, expected, hhead, rfl⟩ | ⟨hcloser, hclosing, hcomma, rfl⟩⟩
  · exact step_inside single hinside _ c
  · unfold step
    rw [if_pos houtside, hcloser]
    rfl
  · unfold step
    rw [if_pos houtside, hcloser]
    simp only [hclosing, if_true, hhead, List.cons_append, List.head?_cons, List.tail_cons]
  · have hpassed : ¬(single ∧ c = ',' ∧ scan.expected ++ base = []) := by
      rintro ⟨hsingle, hc, hnil⟩
      obtain ⟨hexpected, hbase'⟩ := List.append_eq_nil_iff.mp hnil
      exact hcomma ⟨hbase hbase' hsingle, hc, hexpected⟩
    unfold step
    rw [if_pos houtside, hcloser]
    simp only [hclosing, Bool.false_eq_true, if_false, houtside]
    rw [if_neg hpassed]

theorem read_below {inner : Bool} {base : List Char} (hbase : base = [] → single → inner)
    (h : scan.read inner text = some after) :
    read single ⟨scan.quoting, scan.expected ++ base⟩ text =
      some ⟨after.quoting, after.expected ++ base⟩ := by
  induction text generalizing scan with
  | nil =>
    cases h
    rfl
  | cons c text ih =>
    rw [read_cons] at h
    obtain ⟨between, hstep, hrest⟩ := Option.bind_eq_some_iff.mp h
    rw [read_cons, step_below hbase hstep, Option.bind_some]
    exact ih hrest

theorem read_bracketed (h : start.read false text = some after) (expected : List Char) :
    read single ⟨.outside, expected⟩ ('(' :: text ++ [')']) =
      step single ⟨after.quoting, after.expected ++ ')' :: expected⟩ ')' := by
  have hinside : read single ⟨.outside, ')' :: expected⟩ text =
      some ⟨after.quoting, after.expected ++ ')' :: expected⟩ :=
    read_below (fun hnil => absurd hnil (List.cons_ne_nil ')' expected)) h
  rw [List.cons_append, read_cons, step_opening, Option.bind_some, read_append, hinside,
    Option.bind_some, read_cons]
  exact Option.bind_fun_some _

end Scan

/-- The brackets and strings of a text are in order exactly if a scan of it ends where it began. -/
theorem balancedFrom_iff {quoting : Quoting} {expected : List Char} {text : Text} :
    balancedFrom quoting expected text ↔
      Scan.read false ⟨quoting, expected⟩ text = some Scan.start := by
  induction text generalizing quoting expected with
  | nil => simp [balancedFrom, Scan.start]
  | cons c text ih =>
    rw [Scan.read_cons]
    unfold balancedFrom Scan.step
    by_cases houtside : quoting = .outside
    · rw [if_pos houtside, if_pos houtside]
      cases closerOf? c with
      | some closing => exact ih
      | none =>
        cases isClosing c with
        | false => simpa [houtside] using ih
        | true =>
          cases expected with
          | nil => simp
          | cons closing expected =>
            by_cases hclosing : closing = c
            · simpa [hclosing] using ih
            · simp [hclosing]
    · rw [if_neg houtside, if_neg houtside]
      exact ih

theorem isBalanced_iff {text : Text} :
    isBalanced text ↔ Scan.read false Scan.start text = some Scan.start :=
  balancedFrom_iff

/-! ## Texts that leave a scan as it was -/

/-- Whether a scan is where it was after a text, if that is outside strings. -/
def IsNeutral (single : Bool) (text : Text) : Prop :=
  ∀ expected, Scan.read single ⟨.outside, expected⟩ text = some ⟨.outside, expected⟩

/-- What has a meaning for a scan outside strings. -/
def marks : List Char := ['\'', '"', '(', '[', '{', ')', ']', '}', ',']

variable {single : Bool} {text first second : Text} {parts : List Text}

theorem all_isPassed {p : Char → Bool} (hnone : marks.any p = false) (h : text.all p) :
    text.all isPassed := by
  refine List.all_eq_true.mpr fun c hc => ?_
  have hmark : c ∉ marks := fun hmem =>
    List.any_eq_false.mp hnone c hmem (List.all_eq_true.mp h c hc)
  simpa [isPassed, isQuote, isOpening, isClosing, marks, and_assoc] using hmark

namespace IsNeutral

theorem nil (single : Bool) : IsNeutral single [] := fun _ => rfl

theorem append (hfirst : IsNeutral single first) (hsecond : IsNeutral single second) :
    IsNeutral single (first ++ second) := by
  intro expected
  rw [Scan.read_append, hfirst, Option.bind_some, hsecond]

theorem flatMap {α : Type} {f : α → Text} {parts : List α}
    (h : ∀ part ∈ parts, IsNeutral single (f part)) : IsNeutral single (parts.flatMap f) := by
  induction parts with
  | nil => exact nil single
  | cons part parts ih =>
    rw [List.forall_mem_cons] at h
    rw [List.flatMap_cons]
    exact h.1.append (ih h.2)

theorem of_read {inner : Bool} (hinner : single → inner)
    (h : Scan.read inner Scan.start text = some Scan.start) : IsNeutral single text :=
  fun _ => Scan.read_below (fun _ => hinner) h

theorem of_isPassed (h : text.all isPassed) : IsNeutral single text := by
  intro expected
  induction text with
  | nil => rfl
  | cons c text ih =>
    rw [List.all_cons, Bool.and_eq_true] at h
    rw [Scan.read_cons, Scan.step_passed single expected h.1, Option.bind_some]
    exact ih h.2

theorem of_isBlank (h : text.isBlank) : IsNeutral single text :=
  of_isPassed (all_isPassed (by decide) h)

theorem join (h : ∀ part ∈ parts, IsNeutral single part) {separator : Text}
    (hseparator : IsNeutral single separator) :
    IsNeutral single (Text.join separator parts) := by
  induction parts with
  | nil => exact nil single
  | cons first parts ih =>
    rw [List.forall_mem_cons] at h
    cases parts with
    | nil =>
      rw [Text.join_singleton]
      exact h.1
    | cons second parts =>
      rw [Text.join_cons_cons]
      exact h.1.append (hseparator.append (ih h.2))

theorem bracketed (h : isBalanced text) : IsNeutral single ('(' :: text ++ [')']) := by
  intro expected
  rw [Scan.read_bracketed (isBalanced_iff.mp h)]
  rfl

end IsNeutral

/-! ## String literals -/

def StaysInside (single : Bool) (mark : Char) (text : Text) : Prop :=
  ∀ expected, Scan.read single ⟨.inside mark, expected⟩ text = some ⟨.inside mark, expected⟩

namespace StaysInside

variable {mark : Char}

theorem append (hfirst : StaysInside single mark first) (hsecond : StaysInside single mark second) :
    StaysInside single mark (first ++ second) := by
  intro expected
  rw [Scan.read_append, hfirst, Option.bind_some, hsecond]

theorem flatMap {α : Type} {f : α → Text} {parts : List α}
    (h : ∀ part ∈ parts, StaysInside single mark (f part)) :
    StaysInside single mark (parts.flatMap f) := by
  induction parts with
  | nil => exact fun _ => rfl
  | cons part parts ih =>
    rw [List.forall_mem_cons] at h
    rw [List.flatMap_cons]
    exact h.1.append (ih h.2)

theorem of_ne (h : ∀ c ∈ text, c ≠ '\\' ∧ c ≠ mark) : StaysInside single mark text := by
  intro expected
  induction text with
  | nil => rfl
  | cons c text ih =>
    rw [List.forall_mem_cons] at h
    have hnext : Quoting.next (.inside mark) c = .inside mark := by
      rw [Quoting.next, if_neg h.1.1, if_neg h.1.2]
    rw [Scan.read_cons, Scan.step_inside single Quoting.noConfusion, hnext, Option.bind_some]
    exact ih h.2

theorem escape {special : Char → Bool} (hslash : special '\\') (hmark : special mark)
    (text : Text) : StaysInside single mark (Code.escape special text) := by
  refine flatMap fun c _ => ?_
  split
  · exact fun _ => rfl
  · rename_i hplain
    refine of_ne fun d hd => ?_
    cases List.mem_singleton.mp hd
    constructor
    · rintro rfl
      exact hplain hslash
    · rintro rfl
      exact hplain hmark

theorem isNeutral (hmark : isQuote mark) (h : StaysInside single mark text) :
    IsNeutral single (mark :: text ++ [mark]) := by
  intro expected
  have hopening : Scan.step single ⟨.outside, expected⟩ mark = some ⟨.inside mark, expected⟩ := by
    rw [isQuote, Bool.or_eq_true, beq_iff_eq, beq_iff_eq] at hmark
    rcases hmark with rfl | rfl <;> cases single <;> rfl
  have hclosing : Scan.step single ⟨.inside mark, expected⟩ mark = some ⟨.outside, expected⟩ := by
    rw [isQuote, Bool.or_eq_true, beq_iff_eq, beq_iff_eq] at hmark
    rcases hmark with rfl | rfl <;> rfl
  rw [List.cons_append, Scan.read_cons, hopening, Option.bind_some, Scan.read_append, h,
    Option.bind_some, Scan.read_cons, hclosing, Option.bind_some, Scan.read_nil]

end StaysInside

theorem isNeutral_singleQuoted (text : Text) : IsNeutral single (singleQuoted text) :=
  StaysInside.isNeutral rfl (StaysInside.escape rfl rfl text)

end TemplateCompiler.Code
