import TemplateCompiler.Proofs.EmbeddedExpressions
import TemplateCompiler.Proofs.PathPieces

/-!
# Joining dots and decimal points

The segments of an interpolated text are joined by dots. Words stand there without parentheses, and
so do numbers, which take the dot next to them for their decimal point. That happens just where an
embedded expression is a word that begins with a digit.
-/
namespace TemplateCompiler.Interpolation

def BeginsWithDigit (text : Text) : Prop := text.head?.any Char.isDigit

instance (text : Text) : Decidable (BeginsWithDigit text) :=
  inferInstanceAs (Decidable (_ = true))

def lastWord (text : Text) : Text := (text.reverse.takeWhile isWordChar).reverse

/-- A dot between two texts can be taken for a decimal point if the word before it is a number, that
is, begins with a digit, or if a digit follows. -/
def CanBeDecimalPoint (before after : Text) : Prop :=
  BeginsWithDigit (lastWord before) ∨ BeginsWithDigit after

def joined (segments : List Segment) : Text := Text.join ['.'] (segments.map Segment.render)

variable {tags : Text × Text} {value code word : Text} {segment : Segment}
  {built first second : List Segment}

/-! ## Words -/

theorem all_lastWord (text : Text) : (lastWord text).all isWordChar := by
  rw [lastWord, List.all_reverse]
  exact List.all_takeWhile

theorem lastWord_of_word (h : word.all isWordChar) : lastWord word = word := by
  have hreverse : word.reverse.takeWhile isWordChar = word.reverse := by
    rw [List.takeWhile_eq_self_iff]
    simpa using h
  rw [lastWord, hreverse, List.reverse_reverse]

theorem lastWord_concat {c : Char} (h : isWordChar c = false) (text : Text) :
    lastWord (text ++ [c]) = [] := by
  simp [lastWord, h]

theorem lastWord_append_cons {c : Char} (h : isWordChar c = false) (text word : Text) :
    lastWord (text ++ c :: word) = lastWord word := by
  have hreverse : (text ++ c :: word).reverse = word.reverse ++ c :: text.reverse := by simp
  rw [lastWord, hreverse, (Text.takeWhile_append_cons h _ _).1]
  rfl

/-! ## Segments next to a dot -/

theorem joined_append (hfirst : first ≠ []) (hsecond : second ≠ []) :
    joined (first ++ second) = joined first ++ '.' :: joined second := by
  unfold joined
  rw [List.map_append, Text.join_append (by simpa using hfirst) (by simpa using hsecond),
    List.append_assoc]
  rfl

theorem joined_singleton (segment : Segment) : joined [segment] = segment.render :=
  Text.join_singleton _ _

theorem joined_cons {rest : List Segment} (h : rest ≠ []) (segment : Segment) :
    joined (segment :: rest) = segment.render ++ '.' :: joined rest := by
  have happend := joined_append (List.cons_ne_nil segment []) h
  rwa [joined_singleton] at happend

theorem beginsWithDigit_joined (segment : Segment) (rest : List Segment) :
    BeginsWithDigit (joined (segment :: rest)) ↔
      ∃ word, segment = .plain word ∧ BeginsWithDigit word := by
  have hrender : BeginsWithDigit segment.render ↔
      ∃ word, segment = .plain word ∧ BeginsWithDigit word := by
    cases segment with
    | plain code => simp [Segment.render]
    | string parts => simp [Segment.render, BeginsWithDigit]
    | wrapped code => simp [Segment.render, BeginsWithDigit]
  rw [← hrender]
  cases rest with
  | nil => rw [joined_singleton]
  | cons other rest =>
    rw [joined_cons (List.cons_ne_nil other rest)]
    cases segment.render with
    | nil => simp [BeginsWithDigit]
    | cons c code => rfl

theorem beginsWithDigit_lastWord_joined (rest : List Segment) (segment : Segment) :
    BeginsWithDigit (lastWord (joined (rest ++ [segment]))) ↔
      ∃ word, segment = .plain word ∧ BeginsWithDigit (lastWord word) := by
  have hjoined : lastWord (joined (rest ++ [segment])) = lastWord segment.render := by
    cases rest with
    | nil => rw [List.nil_append, joined_singleton]
    | cons other rest =>
      rw [joined_append (List.cons_ne_nil other rest) (List.cons_ne_nil segment []),
        lastWord_append_cons (by decide), joined_singleton]
  rw [hjoined]
  cases segment with
  | plain code => simp [Segment.render]
  | string parts =>
    have hnone : lastWord (Segment.string parts).render = [] := lastWord_concat (by decide) _
    simp [hnone, BeginsWithDigit]
  | wrapped code =>
    have hnone : lastWord (Segment.wrapped code).render = [] := lastWord_concat (by decide) _
    simp [hnone, BeginsWithDigit]

/-- Which dots can be taken for decimal points depends on the segments next to them. -/
theorem canBeDecimalPoint_iff (hfirst : first ≠ []) (hsecond : second ≠ []) :
    CanBeDecimalPoint (joined first) (joined second) ↔
      (∃ word, first.getLast? = some (.plain word) ∧ BeginsWithDigit (lastWord word)) ∨
      ∃ word, second.head? = some (.plain word) ∧ BeginsWithDigit word := by
  obtain ⟨front, last, rfl⟩ := (List.eq_nil_or_concat' first).resolve_left hfirst
  obtain ⟨next, rest, rfl⟩ := List.exists_cons_of_ne_nil hsecond
  rw [CanBeDecimalPoint, beginsWithDigit_lastWord_joined, beginsWithDigit_joined]
  simp

/-! ## Embedded words -/

def WrapsNoWord (segments : List Segment) : Prop :=
  ∀ word, .wrapped word ∈ segments → word.all isWordChar = false

namespace WrapsNoWord

theorem cons (h : WrapsNoWord built) (hsegment : ∀ word, segment ≠ .wrapped word) :
    WrapsNoWord (segment :: built) := by
  intro word hmem
  rcases List.mem_cons.mp hmem with hfirst | hmem
  · exact absurd hfirst.symm (hsegment word)
  · exact h word hmem

theorem pushPart (h : WrapsNoWord built) (part : Part) :
    WrapsNoWord (Interpolation.pushPart part built) := by
  unfold Interpolation.pushPart
  split
  · rename_i parts rest
    have hrest : WrapsNoWord rest := fun word hmem => h word (List.mem_cons_of_mem _ hmem)
    exact hrest.cons fun _ => Segment.noConfusion
  · exact h.cons fun _ => Segment.noConfusion

theorem push (h : WrapsNoWord built) (piece : Piece) :
    WrapsNoWord (Interpolation.push built piece) := by
  cases piece with
  | literal text =>
    rw [Interpolation.push, pushLiteral]
    split
    · exact h
    · exact h.pushPart _
  | embedded expression =>
    rw [Interpolation.push]
    unfold pushExpression
    split
    · split
      · exact h.pushPart _
      · exact h.cons fun _ => Segment.noConfusion
    · split
      · exact h.cons fun _ => Segment.noConfusion
      · rename_i hword
        intro word hmem
        rcases List.mem_cons.mp hmem with hfirst | hmem
        · cases hfirst
          simpa using hword
        · exact h word hmem

theorem foldl_push (h : WrapsNoWord built) (pieces : List Piece) :
    WrapsNoWord (pieces.foldl Interpolation.push built) := by
  induction pieces generalizing built with
  | nil => exact h
  | cons piece pieces ih => exact ih (h.push piece)

end WrapsNoWord

theorem wrapsNoWord_segments (tags : Text × Text) (value : Text) :
    WrapsNoWord (segments tags value) := by
  have hnil : WrapsNoWord [] := fun _ hmem => (List.not_mem_nil hmem).elim
  intro word hmem
  exact hnil.foldl_push (pieces tags value) word (List.mem_reverse.mp hmem)

theorem not_beginsWithDigit_of_isVariable (h : isVariable word) : ¬BeginsWithDigit word := by
  obtain ⟨name, rfl, -⟩ := isVariable_cases h
  exact Bool.false_ne_true

theorem mem_expressions_of_plain (h : .plain word ∈ segments tags value) :
    word ∈ expressions tags value := by
  rw [expressions_eq]
  exact List.mem_flatMap.mpr ⟨_, h, List.mem_singleton_self word⟩

theorem plain_mem_segments (h : word ∈ expressions tags value) (hword : word.all isWordChar)
    (hdigit : BeginsWithDigit word) : .plain word ∈ segments tags value := by
  rw [expressions_eq] at h
  obtain ⟨segment, hsegment, hmem⟩ := List.mem_flatMap.mp h
  have hproper := isProper_of_mem_segments hsegment
  cases segment with
  | plain code =>
    cases List.mem_singleton.mp hmem
    exact hsegment
  | wrapped code =>
    cases List.mem_singleton.mp hmem
    have hnone := wrapsNoWord_segments tags value word hsegment
    rw [hword] at hnone
    cases hnone
  | string parts =>
    obtain ⟨piece, hpiece, hfound⟩ := List.mem_filterMap.mp hmem
    obtain ⟨part, hpart, rfl⟩ := List.mem_map.mp hpiece
    cases part with
    | text body => cases hfound
    | reference name =>
      cases hfound
      exact absurd hdigit (not_beginsWithDigit_of_isVariable (hproper _ hpart))

theorem plain_begins_with_no_digit_iff (tags : Text × Text) (value : Text) :
    (∀ word, .plain word ∈ segments tags value → ¬BeginsWithDigit word) ↔
      ∀ expression ∈ expressions tags value, expression.all isWordChar →
        ¬BeginsWithDigit expression := by
  constructor
  · intro h expression hmem hword hdigit
    exact h expression (plain_mem_segments hmem hword hdigit) hdigit
  · intro h word hmem hdigit
    rcases isProper_of_mem_segments hmem with hvariable | hword
    · exact not_beginsWithDigit_of_isVariable hvariable hdigit
    · exact h word (mem_expressions_of_plain hmem) hword hdigit

theorem lastWord_of_isProper (h : (Segment.plain word).IsProper) :
    word = lastWord word ∨ word = '$' :: lastWord word := by
  rcases h with hvariable | hword
  · obtain ⟨name, rfl, hname⟩ := isVariable_cases hvariable
    have hdollar : isWordChar '$' = false := by decide
    have hlast : lastWord ([] ++ '$' :: name) = lastWord name :=
      lastWord_append_cons hdollar [] name
    rw [lastWord_of_word hname] at hlast
    exact Or.inr (congrArg ('$' :: ·) hlast.symm)
  · exact Or.inl (lastWord_of_word hword).symm

/-! ## Compiled values -/

theorem compile_eq_joined (h : compile tags value = .ok code)
    (hsegments : segments tags value = first ++ second) (hfirst : first ≠ [])
    (hsecond : second ≠ []) : code = joined first ++ '.' :: joined second := by
  have hlength : 1 < (segments tags value).length := by
    have hpos := List.length_pos_iff.mpr hfirst
    have hpos' := List.length_pos_iff.mpr hsecond
    rw [hsegments, List.length_append]
    omega
  rw [← joined_append hfirst hsecond, ← hsegments, ← (compile_eq_ok_iff.mp h).1]
  rcases render_cases (segments tags value) with hnil | ⟨expression, hwrapped⟩ | hjoin
  · rw [hnil] at hlength
    cases hlength
  · rw [hwrapped] at hlength
    exact absurd hlength (lt_irrefl 1)
  · exact hjoin

theorem not_canBeDecimalPoint_of_names
    (hnames : ∀ expression ∈ expressions tags value, ∀ name : Text, name.all isWordChar →
      expression = name ∨ expression = '$' :: name → ¬BeginsWithDigit name)
    (hsegments : segments tags value = first ++ second) (hfirst : first ≠ [])
    (hsecond : second ≠ []) : ¬CanBeDecimalPoint (joined first) (joined second) := by
  intro hpoint
  rcases (canBeDecimalPoint_iff hfirst hsecond).mp hpoint with ⟨word, hlast, hdigit⟩ |
    ⟨word, hhead, hdigit⟩
  · have hmem : .plain word ∈ segments tags value := by
      rw [hsegments]
      exact List.mem_append_left _ (List.mem_of_getLast? hlast)
    exact hnames word (mem_expressions_of_plain hmem) (lastWord word) (all_lastWord word)
      (lastWord_of_isProper (isProper_of_mem_segments hmem)) hdigit
  · have hmem : .plain word ∈ segments tags value := by
      rw [hsegments]
      exact List.mem_append_right _ (List.mem_of_head? hhead)
    rcases isProper_of_mem_segments hmem with hvariable | hword
    · exact not_beginsWithDigit_of_isVariable hvariable hdigit
    · exact hnames word (mem_expressions_of_plain hmem) word hword (Or.inl rfl) hdigit

/-- No segment without parentheses begins with a digit just if no embedded word does. A dot between
segments can be taken for a decimal point just if there is such a segment next to it, or a variable
in front of it whose name begins with a digit. So if no embedded word and no name of a variable
begins with a digit, all joining dots are what they are meant to be. -/
theorem joining_dots_are_no_decimal_points (h : compile tags value = .ok code) :
    ((∀ word, .plain word ∈ segments tags value → ¬BeginsWithDigit word) ↔
      ∀ expression ∈ expressions tags value, expression.all isWordChar →
        ¬BeginsWithDigit expression) ∧
    (∀ first second, segments tags value = first ++ second → first ≠ [] → second ≠ [] →
      code = joined first ++ '.' :: joined second ∧
      (CanBeDecimalPoint (joined first) (joined second) ↔
        (∃ word, first.getLast? = some (.plain word) ∧ BeginsWithDigit (lastWord word)) ∨
        ∃ word, second.head? = some (.plain word) ∧ BeginsWithDigit word)) ∧
    ((∀ expression ∈ expressions tags value, ∀ name : Text, name.all isWordChar →
        expression = name ∨ expression = '$' :: name → ¬BeginsWithDigit name) →
      ∀ first second, segments tags value = first ++ second → first ≠ [] → second ≠ [] →
        ¬CanBeDecimalPoint (joined first) (joined second)) := by
  refine ⟨plain_begins_with_no_digit_iff tags value, ?_, ?_⟩
  · intro first second hsegments hfirst hsecond
    exact ⟨compile_eq_joined h hsegments hfirst hsecond, canBeDecimalPoint_iff hfirst hsecond⟩
  · intro hnames first second
    exact not_canBeDecimalPoint_of_names hnames

/-- A constant between a string and a variable. -/
theorem joining_dots_are_no_decimal_points_of_constant :
    let tags := ({} : Markers).echo
    let value := "n-\x7b\x7b COUNT \x7d\x7d\x7b\x7b $b5 \x7d\x7d".toList
    compile tags value = .ok "\"n-\".COUNT.$b5".toList ∧
      (∀ word, .plain word ∈ segments tags value → ¬BeginsWithDigit word) ∧
      ¬CanBeDecimalPoint "\"n-\".COUNT".toList "$b5".toList := by
  intro tags value
  have hcode : compile tags value = .ok "\"n-\".COUNT.$b5".toList := by
    subst value tags
    cbv
  have hexpressions : expressions tags value = ["COUNT".toList, "$b5".toList] := by
    subst value tags
    cbv
  have hsegments : segments tags value = [.string [.text "n-".toList], .plain "COUNT".toList] ++
      [.plain "$b5".toList] := by
    subst value tags
    cbv
  have hnames : ∀ expression ∈ expressions tags value, ∀ name : Text, name.all isWordChar →
      expression = name ∨ expression = '$' :: name → ¬BeginsWithDigit name := by
    intro expression hmem name hword hname
    rw [hexpressions] at hmem
    simp only [List.mem_cons, List.not_mem_nil, or_false] at hmem
    rcases hmem with rfl | rfl
    · rcases hname with rfl | hname
      · decide
      · have hhead : some 'C' = some '$' := congrArg List.head? hname
        cases hhead
    · rcases hname with rfl | hname
      · decide
      · have hrest : "b5".toList = name := congrArg List.tail hname
        rw [← hrest]
        decide
  obtain ⟨hwords, -, hdots⟩ := joining_dots_are_no_decimal_points hcode
  refine ⟨hcode, hwords.mpr fun expression hmem hword => ?_, ?_⟩
  · exact hnames expression hmem expression hword (Or.inl rfl)
  · exact hdots hnames _ _ hsegments (by simp) (by simp)

/-- A number is put next to the dot as it is, and takes it for its decimal point. -/
theorem joining_dots_are_decimal_points :
    let tags := ({} : Markers).echo
    (compile tags "a\x7b\x7b 5 \x7d\x7d".toList = .ok "\"a\".5".toList ∧
      segments tags "a\x7b\x7b 5 \x7d\x7d".toList = [.string [.text ['a']], .plain ['5']] ∧
      CanBeDecimalPoint "\"a\"".toList ['5']) ∧
    (compile tags "\x7b\x7b 5 \x7d\x7da".toList = .ok "5.\"a\"".toList ∧
      segments tags "\x7b\x7b 5 \x7d\x7da".toList = [.plain ['5'], .string [.text ['a']]] ∧
      CanBeDecimalPoint ['5'] "\"a\"".toList) := by
  refine ⟨⟨?_, ?_, ?_⟩, ?_, ?_, ?_⟩
  · cbv
  · cbv
  · exact Or.inr rfl
  · cbv
  · cbv
  · exact Or.inl rfl

end TemplateCompiler.Interpolation
