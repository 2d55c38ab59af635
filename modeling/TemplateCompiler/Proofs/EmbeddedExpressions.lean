import Mathlib
import TemplateCompiler.Proofs.CodeScan
import TemplateCompiler.Proofs.InterpolatedSegments

/-!
# Embedded expressions and brackets

What is checked of an attribute text is the one expression it compiles to. Literal text, quotes and
joining dots do nothing to the brackets of that, so they match among the embedded expressions, each
of them in brackets of its own. An expression may then close what another one has opened: all of
them are balanced alone exactly if none has a closing bracket too many.
-/
namespace TemplateCompiler

namespace Code

variable {single : Bool} {text : Text} {expected : List Char} {after : Scan}

theorem isBalanced_of_isPassed (h : text.all isPassed) : isBalanced text :=
  isBalanced_iff.mpr (IsNeutral.of_isPassed h [])

theorem isBalanced_of_trim (h : isBalanced text.trim) : isBalanced text := by
  obtain ⟨before, behind, hbefore, hbehind, htext⟩ := text.exists_trim
  have htrim : IsNeutral false text.trim := IsNeutral.of_read id (isBalanced_iff.mp h)
  have hneutral := ((IsNeutral.of_isBlank hbefore).append htrim).append (.of_isBlank hbehind)
  rw [← htext] at hneutral
  exact isBalanced_iff.mpr (hneutral [])

def bracketed (code : Text) : Text := '(' :: code ++ [')']

/-- Whether the strings that begin in a text end in it. -/
def EndsStrings (text : Text) : Prop := text.foldl Quoting.next .outside = .outside

namespace EndsStrings

theorem append {first second : Text} (hfirst : EndsStrings first) (hsecond : EndsStrings second) :
    EndsStrings (first ++ second) := by
  unfold EndsStrings at *
  rw [List.foldl_append, hfirst, hsecond]

theorem bracketed (h : EndsStrings text) : EndsStrings (Code.bracketed text) := by
  have hopening : EndsStrings ['('] := rfl
  have hclosing : EndsStrings [')'] := rfl
  exact (hopening.append h).append hclosing

theorem flatMap_bracketed {codes : List Text} (h : ∀ code ∈ codes, EndsStrings code) :
    EndsStrings (codes.flatMap Code.bracketed) := by
  induction codes with
  | nil => rfl
  | cons code codes ih =>
    rw [List.forall_mem_cons] at h
    rw [List.flatMap_cons]
    exact h.1.bracketed.append (ih h.2)

end EndsStrings

/-- The strings that a scan is in begin with a quote. -/
def Quoting.IsMarked : Quoting → Prop
  | outside => True
  | inside mark => isQuote mark
  | escaped mark => isQuote mark

theorem Quoting.isMarked_outside : Quoting.IsMarked .outside := trivial

theorem Quoting.IsMarked.next {quoting : Quoting} (h : quoting.IsMarked) (c : Char) :
    (quoting.next c).IsMarked := by
  cases quoting with
  | outside =>
    rw [Quoting.next]
    split
    · rename_i hquote
      exact hquote
    · trivial
  | inside mark =>
    rw [Quoting.next]
    split
    · exact h
    · split
      · trivial
      · exact h
  | escaped mark => exact h

theorem Quoting.IsMarked.foldl {quoting : Quoting} (h : quoting.IsMarked) (text : Text) :
    (text.foldl Quoting.next quoting).IsMarked := by
  induction text generalizing quoting with
  | nil => exact h
  | cons c text ih => exact ih (h.next c)

theorem Quoting.IsMarked.outside_of_unquoted {quoting : Quoting} (h : quoting.IsMarked)
    (hquote : ∀ c ∈ text, isQuote c = false)
    (hend : text.foldl Quoting.next quoting = .outside) : quoting = .outside := by
  induction text generalizing quoting with
  | nil => exact hend
  | cons c text ih =>
    rw [List.forall_mem_cons] at hquote
    have hnext := ih (h.next c) hquote.2 hend
    cases quoting with
    | outside => rfl
    | escaped mark => cases hnext
    | inside mark =>
      exfalso
      rw [Quoting.next] at hnext
      split at hnext
      · cases hnext
      · split at hnext
        · rename_i hc
          have hmark : isQuote c := hc ▸ h
          rw [hquote.1] at hmark
          cases hmark
        · cases hnext

theorem isQuote_of_isClosing {c : Char} (h : isClosing c) : isQuote c = false := by
  simp only [isClosing, Bool.or_eq_true, beq_iff_eq] at h
  rcases h with (rfl | rfl) | rfl <;> rfl

/-- What lacks nothing but closing brackets is scanned to the end. -/
theorem read_of_closing {closing : Text} (hclosing : closing.all isClosing)
    (h : isBalanced (text ++ closing)) :
    ∃ expected, Scan.read false Scan.start text = some ⟨.outside, expected⟩ := by
  have hscan := isBalanced_iff.mp h
  rw [Scan.read_append] at hscan
  obtain ⟨⟨quoting, expected⟩, hread, hrest⟩ := Option.bind_eq_some_iff.mp hscan
  have hquoting : quoting = text.foldl Quoting.next .outside := Scan.quoting_of_read hread
  have houtside : quoting = .outside := by
    have hmarked := Quoting.isMarked_outside.foldl text
    rw [← hquoting] at hmarked
    refine hmarked.outside_of_unquoted (fun c hc => ?_) (Scan.quoting_of_read hrest).symm
    exact isQuote_of_isClosing (List.all_eq_true.mp hclosing c hc)
  exact ⟨expected, houtside ▸ hread⟩

/-- In brackets of its own, a text leaves as many brackets open as it does alone. -/
theorem length_of_read_bracketed {opened : List Char}
    (h : Scan.read false Scan.start text = some ⟨.outside, opened⟩)
    (hread : Scan.read false ⟨.outside, expected⟩ (bracketed text) = some after) :
    after.quoting = .outside ∧ after.expected.length = opened.length + expected.length := by
  rw [bracketed, Scan.read_bracketed h, Scan.step_closing] at hread
  split at hread
  · cases hread
    simp
  · cases hread

theorem length_le_of_read_flatMap {codes : List Text}
    (h : ∀ code ∈ codes, ∃ opened, Scan.read false Scan.start code = some ⟨.outside, opened⟩)
    (hread : Scan.read false ⟨.outside, expected⟩ (codes.flatMap bracketed) = some after) :
    expected.length ≤ after.expected.length ∧
      (after.expected.length ≤ expected.length → ∀ code ∈ codes, isBalanced code) := by
  induction codes generalizing expected with
  | nil =>
    cases hread
    exact ⟨le_rfl, fun _ _ hmem => (List.not_mem_nil hmem).elim⟩
  | cons code codes ih =>
    rw [List.forall_mem_cons] at h
    obtain ⟨⟨opened, hopened⟩, hcodes⟩ := h
    rw [List.flatMap_cons, Scan.read_append] at hread
    obtain ⟨⟨quoting, between⟩, hfirst, hrest⟩ := Option.bind_eq_some_iff.mp hread
    obtain ⟨houtside, hlength⟩ := length_of_read_bracketed hopened hfirst
    simp only at houtside hlength
    subst houtside
    obtain ⟨hgrows, hall⟩ := ih hcodes hrest
    refine ⟨by omega, fun hle => ?_⟩
    -- What this text left open would still be open at the end.
    have hnil : opened = [] := List.eq_nil_of_length_eq_zero (by omega)
    rw [hnil] at hopened
    exact List.forall_mem_cons.mpr ⟨isBalanced_iff.mpr hopened, hall (by omega)⟩

end Code

namespace Interpolation

variable {tags : Text × Text} {value code : Text} {segment : Segment} {single : Bool}

def Piece.expression? : Piece → Option Text
  | literal _ => none
  | embedded expression => some expression

def expressions (tags : Text × Text) (value : Text) : List Text :=
  (pieces tags value).filterMap Piece.expression?

def Segment.expressions (segment : Segment) : List Text :=
  segment.pieces.filterMap Piece.expression?

theorem expressions_eq (tags : Text × Text) (value : Text) :
    expressions tags value = (segments tags value).flatMap Segment.expressions := by
  have hliteral : (fun piece : Piece => if decide (piece ≠ .literal []) then piece.expression?
      else none) = Piece.expression? := by
    funext piece
    cases piece with
    | literal text => exact ite_self none
    | embedded expression => rfl
  have hsegments := congrArg (List.filterMap Piece.expression?) (flatMap_segments tags value)
  rw [List.filterMap_flatMap, List.filterMap_filter, hliteral] at hsegments
  exact hsegments.symm

theorem isVariable_cases {name : Text} (h : isVariable name) :
    ∃ word : Text, name = '$' :: word ∧ word.all isWordChar := by
  unfold isVariable at h
  split at h
  · rename_i word
    rw [Bool.and_eq_true] at h
    exact ⟨word, rfl, h.2⟩
  · cases h

theorem isPassed_of_isVariable {name : Text} (h : isVariable name) : name.all Code.isPassed := by
  obtain ⟨word, rfl, hword⟩ := isVariable_cases h
  rw [List.all_cons, Code.all_isPassed (by decide) hword]
  rfl

namespace Segment

theorem isPassed_of_plain (h : (plain code).IsProper) : code.all Code.isPassed := by
  rcases h with h | h
  · exact isPassed_of_isVariable h
  · exact Code.all_isPassed (by decide) h

theorem isNeutral_string {parts : List Part} (h : (string parts).IsProper) :
    Code.IsNeutral single (string parts).render := by
  refine Code.StaysInside.isNeutral rfl (Code.StaysInside.flatMap fun part hpart => ?_)
  cases part with
  | text body => exact Code.StaysInside.escape rfl rfl body
  | reference name =>
    obtain ⟨word, rfl, hword⟩ := isVariable_cases (h name hpart)
    have hmarks : ['\\', '"'].any isWordChar = false := by decide
    have hinside : Code.StaysInside single '"' word := by
      refine Code.StaysInside.of_ne fun c hc => ?_
      have hc : isWordChar c := List.all_eq_true.mp hword c hc
      constructor <;>
      · rintro rfl
        exact List.any_eq_false.mp hmarks _ (by simp) hc
    have hopening : Code.StaysInside single '"' ['\x7b', '$'] := .of_ne (by simp)
    have hclosing : Code.StaysInside single '"' ['\x7d'] := .of_ne (by simp)
    exact (hopening.append hinside).append hclosing

/-- A segment disturbs no scan if it is no expression that is not balanced. -/
theorem isNeutral_render (h : segment.IsProper)
    (hwrapped : ∀ code, segment = .wrapped code → Code.isBalanced code) :
    Code.IsNeutral single segment.render := by
  cases segment with
  | string parts => exact isNeutral_string h
  | plain code => exact .of_isPassed (isPassed_of_plain h)
  | wrapped code => exact .bracketed (hwrapped code rfl)

theorem isBalanced_of_mem_expressions (h : segment.IsProper) {expression : Text}
    (hmem : expression ∈ segment.expressions) (hwrapped : segment ≠ .wrapped expression) :
    Code.isBalanced expression := by
  cases segment with
  | string parts =>
    obtain ⟨piece, hpiece, hfound⟩ := List.mem_filterMap.mp hmem
    obtain ⟨part, hpart, rfl⟩ := List.mem_map.mp hpiece
    cases part with
    | text body => cases hfound
    | reference name =>
      cases hfound
      exact Code.isBalanced_of_isPassed (isPassed_of_isVariable (h _ hpart))
  | plain code =>
    cases List.mem_singleton.mp hmem
    exact Code.isBalanced_of_isPassed (isPassed_of_plain h)
  | wrapped code =>
    cases List.mem_singleton.mp hmem
    exact absurd rfl hwrapped

theorem read_render (h : segment.IsProper) (expected : List Char) :
    Code.Scan.read false ⟨.outside, expected⟩ segment.render =
      Code.Scan.read false ⟨.outside, expected⟩ (segment.expressions.flatMap Code.bracketed) := by
  by_cases hwrapped : ∃ code, segment = .wrapped code
  · obtain ⟨code, rfl⟩ := hwrapped
    exact congrArg _ (List.append_nil _).symm
  · rw [not_exists] at hwrapped
    have hexpressions : Code.IsNeutral false (segment.expressions.flatMap Code.bracketed) :=
      .flatMap fun expression hmem =>
        .bracketed (isBalanced_of_mem_expressions h hmem (hwrapped expression))
    rw [isNeutral_render h fun code hcode => absurd hcode (hwrapped code), hexpressions]

end Segment

variable {parts : List Segment}

theorem read_join (h : ∀ segment ∈ parts, segment.IsProper)
    (hstrings : ∀ expression ∈ parts.flatMap Segment.expressions, Code.EndsStrings expression)
    (expected : List Char) :
    Code.Scan.read false ⟨.outside, expected⟩ (Text.join ['.'] (parts.map Segment.render)) =
      Code.Scan.read false ⟨.outside, expected⟩
        ((parts.flatMap Segment.expressions).flatMap Code.bracketed) := by
  induction parts generalizing expected with
  | nil => rfl
  | cons first parts ih =>
    rw [List.forall_mem_cons] at h
    rw [List.flatMap_cons, List.forall_mem_append] at hstrings
    have hrest := ih h.2 hstrings.2
    rw [List.flatMap_cons, List.flatMap_append]
    cases parts with
    | nil => simpa [Text.join_singleton] using Segment.read_render h.1 expected
    | cons second parts =>
      have hdot : Code.IsNeutral false ['.'] := .of_isPassed (by decide)
      rw [List.map_cons, List.map_cons, Text.join_cons_cons, Code.Scan.read_append,
        Segment.read_render h.1, Code.Scan.read_append]
      refine Option.bind_congr fun after hafter => ?_
      -- The next segment is scanned as it is alone only outside strings.
      have houtside : after.quoting = .outside := (Code.Scan.quoting_of_read hafter).trans
        (Code.EndsStrings.flatMap_bracketed hstrings.1)
      obtain ⟨quoting, opened⟩ := after
      subst houtside
      rw [Code.Scan.read_append, hdot, Option.bind_some]
      exact hrest opened

theorem render_cases (parts : List Segment) :
    parts = [] ∨ (∃ code, parts = [.wrapped code]) ∨
      render parts = Text.join ['.'] (parts.map Segment.render) := by
  unfold render
  split
  · exact Or.inl rfl
  · exact Or.inr (Or.inl ⟨_, rfl⟩)
  · exact Or.inr (Or.inr rfl)

theorem isBalanced_of_compile (h : compile tags value = .ok code) : Code.isBalanced code := by
  have hexpression := (compile_eq_ok_iff.mp h).2
  unfold Code.isExpression at hexpression
  simp only [Bool.and_eq_true] at hexpression
  exact Code.isBalanced_of_trim hexpression.1.1.2

theorem isBalanced_expressions (h : compile tags value = .ok code)
    (hstrings : ∀ expression ∈ expressions tags value, Code.EndsStrings expression) :
    Code.isBalanced ((expressions tags value).flatMap Code.bracketed) := by
  have hbalanced := isBalanced_of_compile h
  rw [← (compile_eq_ok_iff.mp h).1] at hbalanced
  rw [expressions_eq] at hstrings ⊢
  rcases render_cases (segments tags value) with hnil | ⟨expression, hwrapped⟩ | hjoin
  · rw [hnil]
    rfl
  · rw [hwrapped] at hbalanced ⊢
    have hbracketed : Code.IsNeutral false (Code.bracketed expression) := .bracketed hbalanced
    have happend : [Segment.wrapped expression].flatMap Segment.expressions = [expression] := rfl
    rw [happend, List.flatMap_singleton]
    exact Code.isBalanced_iff.mpr (hbracketed [])
  · rw [hjoin] at hbalanced
    have hread := read_join (fun _ hmem => isProper_of_mem_segments hmem) hstrings []
    rw [Code.isBalanced_iff] at hbalanced ⊢
    exact hread.symm.trans hbalanced

/-- Expressions that close no bracket they have not opened cannot lack a closing one. -/
theorem isBalanced_of_closing (h : compile tags value = .ok code)
    (hopen : ∀ expression ∈ expressions tags value,
      ∃ closing : Text, closing.all Code.isClosing ∧ Code.isBalanced (expression ++ closing)) :
    ∀ expression ∈ expressions tags value, Code.isBalanced expression := by
  have hread : ∀ expression ∈ expressions tags value, ∃ opened,
      Code.Scan.read false Code.Scan.start expression = some ⟨.outside, opened⟩ := by
    intro expression hmem
    obtain ⟨closing, hclosing, hbalanced⟩ := hopen expression hmem
    exact Code.read_of_closing hclosing hbalanced
  have hstrings : ∀ expression ∈ expressions tags value, Code.EndsStrings expression := by
    intro expression hmem
    obtain ⟨opened, hopened⟩ := hread expression hmem
    exact (Code.Scan.quoting_of_read hopened).symm
  have hall := Code.isBalanced_iff.mp (isBalanced_expressions h hstrings)
  exact (Code.length_le_of_read_flatMap hread hall).2 le_rfl

/-- In a text that compiles, literal text and other expressions can make up for an expression that
is not balanced. One that stands alone is balanced, though. If all expressions end their strings,
their brackets match, each expression in brackets of its own. And all of them are balanced alone
exactly if each lacks nothing but closing brackets. -/
theorem compiled_expressions_balanced (h : compile tags value = .ok code) :
    (∀ expression, merged (pieces tags value) = [.embedded expression] →
      Code.isBalanced expression) ∧
    ((∀ expression ∈ expressions tags value, Code.EndsStrings expression) →
      Code.isBalanced ((expressions tags value).flatMap Code.bracketed)) ∧
    ((∀ expression ∈ expressions tags value, Code.isBalanced expression) ↔
      ∀ expression ∈ expressions tags value,
        ∃ closing : Text, closing.all Code.isClosing ∧
          Code.isBalanced (expression ++ closing)) := by
  refine ⟨?_, isBalanced_expressions h, ?_, isBalanced_of_closing h⟩
  · intro expression halone
    have hcode := (compile_eq_ok_iff.mp h).1
    rw [render_of_merged halone] at hcode
    exact hcode ▸ isBalanced_of_compile h
  · intro hbalanced expression hmem
    refine ⟨[], rfl, ?_⟩
    rw [List.append_nil]
    exact hbalanced expression hmem

/-- Two calls and a variable in one value. -/
theorem compiled_expressions_balanced_of_calls :
    let tags := ({} : Markers).echo
    let value := "\x7b\x7b f('(') \x7d\x7d-\x7b\x7b $b \x7d\x7d\x7b\x7b g([1]) \x7d\x7d".toList
    compile tags value = .ok "(f('(')).\"-\x7b$b\x7d\".(g([1]))".toList ∧
      (∀ expression ∈ expressions tags value, Code.EndsStrings expression) ∧
      Code.isBalanced ((expressions tags value).flatMap Code.bracketed) ∧
      ∀ expression ∈ ["f('(')".toList, "$b".toList, "g([1])".toList],
        Code.isBalanced expression := by
  intro tags value
  have hcode : compile tags value = .ok "(f('(')).\"-\x7b$b\x7d\".(g([1]))".toList := by
    subst value tags
    cbv
  have hexpressions : expressions tags value =
      ["f('(')".toList, "$b".toList, "g([1])".toList] := by
    subst value tags
    cbv
  have hstrings : ∀ expression ∈ expressions tags value, Code.EndsStrings expression := by
    rw [hexpressions]
    unfold Code.EndsStrings
    decide +kernel
  obtain ⟨-, htogether, halone⟩ := compiled_expressions_balanced hcode
  refine ⟨hcode, hstrings, htogether hstrings, ?_⟩
  rw [hexpressions] at halone
  refine halone.mpr fun expression hmem => ⟨[], rfl, ?_⟩
  revert expression
  decide +kernel

/-- A bracket is closed by another expression, and a string by literal text. -/
theorem compiled_expressions_malformed :
    let tags := ({} : Markers).echo
    (compile tags "\x7b\x7b f( \x7d\x7d\x7b\x7b ) \x7d\x7d".toList = .ok "(f().())".toList ∧
      expressions tags "\x7b\x7b f( \x7d\x7d\x7b\x7b ) \x7d\x7d".toList = ["f(".toList, [')']] ∧
      Code.isBalanced "f(".toList = false ∧ Code.isBalanced [')'] = false) ∧
    (compile tags "\x7b\x7b f(\" \x7d\x7d))\"".toList = .ok "(f(\").\"))\\\"\"".toList ∧
      expressions tags "\x7b\x7b f(\" \x7d\x7d))\"".toList = ["f(\"".toList] ∧
      Code.isBalanced "f(\"".toList = false) := by
  refine ⟨⟨?_, ?_, ?_, ?_⟩, ?_, ?_, ?_⟩ <;> cbv

end Interpolation

end TemplateCompiler
