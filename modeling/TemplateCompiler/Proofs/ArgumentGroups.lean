import TemplateCompiler.Proofs.NestedCode

/-!
# Argument groups

The search for the end of a bracketed group counts brackets of all kinds alike. What it finds is
the shortest group at the start of a text when every bracket is taken for a round one. If there is
a group whose brackets match kind by kind, then that is what is found. Otherwise the bracket at the
end may be of another kind than the one at the start.
-/
namespace TemplateCompiler.Code

def toRound (c : Char) : Char := if isOpening c then '(' else if isClosing c then ')' else c

/-- Code that is nested if brackets of all kinds count alike. -/
def IsNestedAlike (text : Text) : Prop := IsNested (text.map toRound)

def IsGroup (text : Text) : Prop :=
  ∃ opening inner closing, text = opening :: inner ++ [closing] ∧
    closerOf? opening = some closing ∧ IsNested inner

def IsGroupAlike (text : Text) : Prop :=
  ∃ opening inner closing, text = opening :: inner ++ [closing] ∧
    isOpening opening ∧ isClosing closing ∧ IsNestedAlike inner

structure IsShortestPrefix (kind : Text → Prop) (text piece : Text) : Prop where
  at_start : piece <+: text
  of_kind : kind piece
  shortest : ∀ other, other <+: text → kind other → piece.length ≤ other.length

variable {text group after rest : Text} {quoting : Quoting} {depth : Nat} {c opening closing : Char}

/-! ## Brackets of all kinds alike -/

theorem toRound_of_opening (h : isOpening c) : toRound c = '(' := if_pos h

theorem toRound_of_closing (h : isClosing c) : toRound c = ')' := by
  simp only [isClosing, Bool.or_eq_true, beq_iff_eq] at h
  rcases h with (rfl | rfl) | rfl <;> rfl

theorem toRound_of_neither (hopening : isOpening c = false) (hclosing : isClosing c = false) :
    toRound c = c := by
  simp [toRound, hopening, hclosing]

theorem bracket_cases (c : Char) :
    (isOpening c ∧ isClosing c = false) ∨ (isOpening c = false ∧ isClosing c) ∨
      (isOpening c = false ∧ isClosing c = false) := by
  cases hopening : isOpening c with
  | true => exact Or.inl ⟨rfl, isClosing_of_isOpening hopening⟩
  | false => cases isClosing c <;> simp

@[simp] theorem isOpening_toRound (c : Char) : isOpening (toRound c) = isOpening c := by
  rcases bracket_cases c with ⟨hopening, -⟩ | ⟨hopening, hclosing⟩ | ⟨hopening, hclosing⟩
  · rw [toRound_of_opening hopening, hopening]
    rfl
  · rw [toRound_of_closing hclosing, hopening]
    rfl
  · rw [toRound_of_neither hopening hclosing]

@[simp] theorem isClosing_toRound (c : Char) : isClosing (toRound c) = isClosing c := by
  rcases bracket_cases c with ⟨hopening, hclosing⟩ | ⟨-, hclosing⟩ | ⟨hopening, hclosing⟩
  · rw [toRound_of_opening hopening, hclosing]
    rfl
  · rw [toRound_of_closing hclosing, hclosing]
    rfl
  · rw [toRound_of_neither hopening hclosing]

theorem Quoting.IsMarked.next_bracket (h : quoting.IsMarked)
    (hbracket : isOpening c ∨ isClosing c) :
    quoting.next c = match quoting with
      | .escaped mark => .inside mark
      | other => other := by
  have hquote : isQuote c = false := by
    simp only [isOpening, isClosing, Bool.or_eq_true, beq_iff_eq] at hbracket
    rcases hbracket with ((rfl | rfl) | rfl) | ((rfl | rfl) | rfl) <;> rfl
  have hslash : c ≠ '\\' := by
    rintro rfl
    revert hbracket
    decide
  cases quoting with
  | outside => simp [Quoting.next, hquote]
  | escaped mark => rfl
  | inside mark =>
    have hmark : c ≠ mark := by
      rintro rfl
      rw [show isQuote c from h] at hquote
      cases hquote
    simp [Quoting.next, hslash, hmark]

theorem Quoting.IsMarked.next_toRound (h : quoting.IsMarked) (c : Char) :
    quoting.next (toRound c) = quoting.next c := by
  by_cases hbracket : isOpening c ∨ isClosing c
  · rw [h.next_bracket hbracket, h.next_bracket (by simpa using hbracket)]
  · simp only [not_or, Bool.not_eq_true] at hbracket
    rw [toRound_of_neither hbracket.1 hbracket.2]

/-- The end of a group is where it would be if all brackets were round. -/
theorem closeGroup?_toRound (h : quoting.IsMarked) (depth : Nat) (text : Text) :
    closeGroup? quoting depth (text.map toRound) =
      (closeGroup? quoting depth text).map fun found =>
        (found.1.map toRound, found.2.map toRound) := by
  induction text generalizing quoting depth with
  | nil => rfl
  | cons c text ih =>
    unfold closeGroup?
    simp only [List.map_cons, isOpening_toRound, isClosing_toRound, h.next_toRound]
    split
    · match depth with
      | 0 => rfl
      | 1 => rfl
      | depth + 2 =>
        simp only [ih Quoting.isMarked_outside, Option.map_map]
        rfl
    · rw [ih (h.next c), Option.map_map, Option.map_map]
      rfl

/-- What is found ends in the bracket that closes the outermost one. Up to there all that is opened
is closed, if the brackets are taken for round ones. -/
theorem read_of_closeGroup? (hmarked : quoting.IsMarked)
    (h : closeGroup? quoting (depth + 1) text = some (group, after)) :
    ∃ inner closing, group = inner ++ [closing] ∧ isClosing closing ∧
      Scan.read false ⟨quoting, List.replicate depth ')'⟩ (inner.map toRound) =
        some Scan.start := by
  induction text generalizing quoting depth group with
  | nil => cases h
  | cons c text ih =>
    unfold closeGroup? at h
    split at h
    · rename_i hc
      obtain ⟨rfl, hclosing⟩ := hc
      cases depth with
      | zero =>
        cases h
        exact ⟨[], c, rfl, hclosing, rfl⟩
      | succ depth =>
        obtain ⟨found, hfound, heq⟩ := Option.map_eq_some_iff.mp h
        cases heq
        obtain ⟨inner, closing, hgroup, hlast, hread⟩ := ih Quoting.isMarked_outside hfound
        refine ⟨c :: inner, closing, by rw [hgroup]; rfl, hlast, ?_⟩
        rw [List.map_cons, toRound_of_closing hclosing, Scan.read_cons]
        exact hread
    · rename_i hc
      obtain ⟨found, hfound, heq⟩ := Option.map_eq_some_iff.mp h
      cases heq
      rw [← apply_ite (· + 1)] at hfound
      obtain ⟨inner, closing, hgroup, hlast, hread⟩ := ih (hmarked.next c) hfound
      refine ⟨c :: inner, closing, by rw [hgroup]; rfl, hlast, ?_⟩
      rw [List.map_cons, Scan.read_cons]
      by_cases hinside : quoting = .outside
      · subst hinside
        rcases bracket_cases c with ⟨hopening, -⟩ | ⟨-, hclosing⟩ | ⟨hopening, hclosing⟩
        · rw [if_pos ⟨rfl, hopening⟩, hmarked.next_bracket (Or.inl hopening)] at hread
          rw [toRound_of_opening hopening, Scan.step_opening]
          exact hread
        · exact absurd ⟨rfl, hclosing⟩ hc
        · rw [if_neg (by simp [hopening])] at hread
          rw [toRound_of_neither hopening hclosing, Scan.step_other hopening hclosing]
          exact hread
      · rw [if_neg fun h => hinside h.1] at hread
        rw [Scan.step_inside false hinside, hmarked.next_toRound]
        exact hread

/-! ## Groups -/

theorem isGroupAlike_of_group? (hopening : isOpening opening)
    (h : group? (opening :: rest) = some (group, after)) : IsGroupAlike group := by
  rw [group?_cons hopening] at h
  obtain ⟨found, hfound, heq⟩ := Option.map_eq_some_iff.mp h
  cases heq
  obtain ⟨inner, closing, hgroup, hclosing, hread⟩ :=
    read_of_closeGroup? Quoting.isMarked_outside hfound
  have hinner : IsNestedAlike inner := isBalanced_iff_isNested.mp (isBalanced_iff.mpr hread)
  exact ⟨opening, inner, closing, by rw [hgroup]; rfl, hopening, hclosing, hinner⟩

theorem IsNested.alike (h : IsNested text) : IsNestedAlike text := by
  have hopening : isOpening '(' := rfl
  have hclosing : isClosing ')' := rfl
  have hgroup := group?_of_isBalanced hopening hclosing (isBalanced_iff_isNested.mpr h) []
  obtain ⟨opening, inner, closing, hsame, -, -, hinner⟩ := isGroupAlike_of_group? hopening hgroup
  have htext : text ++ [')'] = inner ++ [closing] := (List.cons.inj hsame).2
  rw [(List.append_inj' htext rfl).1]
  exact hinner

theorem IsGroup.alike (h : IsGroup text) : IsGroupAlike text := by
  obtain ⟨opening, inner, closing, htext, hpair, hinner⟩ := h
  have hclosing : isClosing closing := by
    rcases closerOf?_cases hpair with ⟨-, rfl⟩ | ⟨-, rfl⟩ | ⟨-, rfl⟩ <;> rfl
  exact ⟨opening, inner, closing, htext, isOpening_of_closerOf? hpair, hclosing, hinner.alike⟩

theorem IsGroup.isBalanced (h : IsGroup text) : isBalanced text := by
  obtain ⟨opening, inner, closing, rfl, hpair, hinner⟩ := h
  exact isBalanced_iff_isNested.mpr (.group hpair hinner .nil)

theorem IsGroup.closerOf?_eq (h : IsGroup (opening :: text ++ [closing])) :
    closerOf? opening = some closing := by
  obtain ⟨first, inner, last, hsame, hpair, -⟩ := h
  obtain ⟨rfl, hrest⟩ := List.cons.inj hsame
  obtain ⟨-, hlast⟩ := List.append_inj' hrest rfl
  cases hlast
  exact hpair

theorem group?_of_toRound
    (h : group? ((group ++ after).map toRound) = some (group.map toRound, after.map toRound)) :
    group? (group ++ after) = some (group, after) := by
  have hround := closeGroup?_toRound Quoting.isMarked_outside 0 (group ++ after)
  rw [group?] at h
  rw [h] at hround
  obtain ⟨found, hfound, heq⟩ := Option.map_eq_some_iff.mp hround.symm
  have hlength : group.length = found.1.length := by
    simpa using (congrArg (List.length ·.1) heq).symm
  obtain ⟨hgroup, hafter⟩ := List.append_inj (closeGroup?_eq hfound).1 hlength
  rw [group?, hfound, hgroup, hafter]

theorem group?_of_isNestedAlike (hopening : isOpening opening) (hclosing : isClosing closing)
    (h : IsNestedAlike text) (after : Text) :
    group? (opening :: text ++ closing :: after) = some (opening :: text ++ [closing], after) := by
  have hwhole : (opening :: text ++ [closing]) ++ after = opening :: text ++ closing :: after := by
    simp
  rw [← isOpening_toRound] at hopening
  rw [← isClosing_toRound] at hclosing
  have hround := group?_of_isBalanced hopening hclosing (isBalanced_iff_isNested.mpr h)
    (after.map toRound)
  rw [← hwhole]
  apply group?_of_toRound
  simpa using hround

theorem IsGroupAlike.group?_append (h : IsGroupAlike group) (after : Text) :
    group? (group ++ after) = some (group, after) := by
  obtain ⟨opening, inner, closing, rfl, hopening, hclosing, hinner⟩ := h
  rw [List.append_assoc]
  exact group?_of_isNestedAlike hopening hclosing hinner after

theorem IsGroupAlike.eq_of_group? (h : IsGroupAlike group) (hstart : group <+: text)
    {found : Text} (hfound : group? text = some (found, after)) : group = found := by
  obtain ⟨behind, rfl⟩ := hstart
  rw [h.group?_append] at hfound
  cases hfound
  rfl

/-- The bracket that ends a group is of the right kind if the whole is balanced. -/
theorem isGroup_of_isBalanced (hopening : isOpening opening)
    (hfound : group? (opening :: rest) = some (group, after)) (h : isBalanced group) :
    IsGroup group := by
  obtain ⟨first, found, last, rfl, -, -, -⟩ := isGroupAlike_of_group? hopening hfound
  have hfirst : first = opening := (List.cons.inj (closeGroup?_eq hfound).1).1.symm
  subst hfirst
  rw [isOpening_eq, Option.isSome_iff_exists] at hopening
  obtain ⟨closing, hpair⟩ := hopening
  obtain ⟨inner, behind, hinner, hnested, -⟩ :=
    IsNested.of_opening hpair (isBalanced_iff_isNested.mp h)
  -- The group that the first bracket begins in nested code is found, so it is all of it.
  have hgroup : IsGroup (first :: inner ++ [closing]) :=
    ⟨first, inner, closing, rfl, hpair, hnested⟩
  have hstart : first :: inner ++ [closing] <+: first :: rest := by
    rw [(closeGroup?_eq hfound).1]
    have hsame : found ++ [last] ++ after = inner ++ closing :: behind ++ after :=
      congrArg (· ++ after) hinner
    exact ⟨behind ++ after, by simpa using hsame.symm⟩
  rw [← hgroup.alike.eq_of_group? hstart hfound]
  exact hgroup

/-! ## Shortest groups -/

theorem isShortestPrefix_of_group? (hfound : group? text = some (group, after))
    {kind : Text → Prop} (hkind : kind group) (halike : ∀ piece, kind piece → IsGroupAlike piece) :
    IsShortestPrefix kind text group := by
  refine ⟨⟨after, (closeGroup?_eq hfound).1.symm⟩, hkind, fun other hstart hother => ?_⟩
  rw [(halike other hother).eq_of_group? hstart hfound]

theorem group?_eq_some_iff (hopening : isOpening opening) :
    group? (opening :: rest) = some (group, after) ↔
      opening :: rest = group ++ after ∧
        IsShortestPrefix IsGroupAlike (opening :: rest) group := by
  constructor
  · intro hfound
    have hgroup := isGroupAlike_of_group? hopening hfound
    exact ⟨(closeGroup?_eq hfound).1,
      isShortestPrefix_of_group? hfound hgroup fun _ => id⟩
  · rintro ⟨htext, hshortest⟩
    rw [htext]
    exact hshortest.of_kind.group?_append after

theorem group?_eq_none_iff (hopening : isOpening opening) :
    group? (opening :: rest) = none ↔ ∀ piece, piece <+: opening :: rest → ¬IsGroupAlike piece := by
  constructor
  · rintro hnone piece ⟨behind, htext⟩ hpiece
    rw [← htext, hpiece.group?_append] at hnone
    cases hnone
  · intro hnone
    by_contra hfound
    obtain ⟨found, hfound⟩ := Option.ne_none_iff_exists'.mp hfound
    exact hnone found.1 ⟨found.2, (closeGroup?_eq hfound).1.symm⟩
      (isGroupAlike_of_group? hopening hfound)

theorem isShortestPrefix_isGroup_iff (hopening : isOpening opening) :
    opening :: rest = group ++ after ∧ IsShortestPrefix IsGroup (opening :: rest) group ↔
      group? (opening :: rest) = some (group, after) ∧ isBalanced group := by
  constructor
  · rintro ⟨htext, hshortest⟩
    rw [htext]
    exact ⟨hshortest.of_kind.alike.group?_append after, hshortest.of_kind.isBalanced⟩
  · rintro ⟨hfound, hbalanced⟩
    have hgroup := isGroup_of_isBalanced hopening hfound hbalanced
    exact ⟨(closeGroup?_eq hfound).1,
      isShortestPrefix_of_group? hfound hgroup fun _ => IsGroup.alike⟩

end TemplateCompiler.Code

namespace TemplateCompiler

theorem Head.group?_of_parse? {markers : Markers} {text after gap group : Text} {head : Head}
    (h : parse? markers text = some (head, after))
    (harguments : head.arguments = some (gap, group)) :
    ∃ rest, Code.group? ('(' :: rest) = some (group, after) := by
  obtain ⟨named, -, h⟩ := Option.bind_eq_some_iff.mp h
  obtain ⟨⟨qualifier, method, rest⟩, -, h⟩ := Option.bind_eq_some_iff.mp h
  obtain ⟨⟨arguments, behind⟩, hfound, heq⟩ := Option.map_eq_some_iff.mp h
  cases heq
  simp only at harguments
  subst harguments
  unfold arguments? at hfound
  split at hfound
  · rename_i body hbody
    obtain ⟨found, hgroup, heq⟩ := Option.map_eq_some_iff.mp hfound
    cases heq
    exact ⟨body, hgroup⟩
  · cases hfound

theorem Head.exists_argumentText {markers : Markers} {text after gap group : Text} {head : Head}
    (h : parse? markers text = some (head, after))
    (harguments : head.arguments = some (gap, group)) :
    ∃ inner closing, group = '(' :: inner ++ [closing] ∧ head.argumentText = some inner ∧
      Code.isClosing closing ∧ Code.IsNestedAlike inner ∧
      (Code.isBalanced group → closing = ')') := by
  obtain ⟨rest, hgroup⟩ := group?_of_parse? h harguments
  obtain ⟨first, inner, closing, rfl, -, hclosing, hinner⟩ := Code.isGroupAlike_of_group? rfl hgroup
  have hfirst : '(' = first := (List.cons.inj (Code.closeGroup?_eq hgroup).1).1
  subst hfirst
  refine ⟨inner, closing, rfl, ?_, hclosing, hinner, fun hbalanced => ?_⟩
  · simp [argumentText, harguments]
  · have hpair := (Code.isGroup_of_isBalanced rfl hgroup hbalanced).closerOf?_eq
    cases hpair
    rfl

/-- At an opening bracket, the end that is found is that of the shortest piece that is a group when
brackets of all kinds count alike, and none is found if there is no such piece. The shortest piece
whose brackets match kind by kind is found too, and what is found is such a piece just if it is
balanced. For the arguments of a head this means that what is taken away at their ends is a round
bracket and a closing one, which is round as well if the arguments are balanced. -/
theorem group?_ends_at_closing_bracket {opening : Char} (hopening : Code.isOpening opening)
    (rest : Text) :
    let text := opening :: rest
    (∀ group after, Code.group? text = some (group, after) ↔
      text = group ++ after ∧ Code.IsShortestPrefix Code.IsGroupAlike text group) ∧
    (Code.group? text = none ↔ ∀ piece, piece <+: text → ¬Code.IsGroupAlike piece) ∧
    (∀ group after, text = group ++ after ∧ Code.IsShortestPrefix Code.IsGroup text group ↔
      Code.group? text = some (group, after) ∧ Code.isBalanced group) ∧
    ∀ markers source head after gap group,
      Head.parse? markers source = some (head, after) → head.arguments = some (gap, group) →
      ∃ inner closing, group = '(' :: inner ++ [closing] ∧ head.argumentText = some inner ∧
        Code.isClosing closing ∧ Code.IsNestedAlike inner ∧
        (Code.isBalanced group → closing = ')') := by
  intro text
  refine ⟨fun group after => ?_, ?_, fun group after => ?_, ?_⟩
  · exact Code.group?_eq_some_iff hopening
  · exact Code.group?_eq_none_iff hopening
  · exact Code.isShortestPrefix_isGroup_iff hopening
  · intro markers source head after gap group
    exact Head.exists_argumentText

/-- A closing bracket in a string does not count, and square brackets end before the round ones. -/
theorem group?_ends_at_closing_bracket_of_call :
    let text := '(' :: "f(')'), [1]) + 2".toList
    let group := "(f(')'), [1])".toList
    Code.isOpening '(' ∧ Code.group? text = some (group, " + 2".toList) ∧ Code.isBalanced group ∧
      Code.IsShortestPrefix Code.IsGroup text group := by
  intro text group
  have hopening : Code.isOpening '(' := rfl
  have hfound : Code.group? text = some (group, " + 2".toList) := by
    subst group text
    decide +kernel
  have hbalanced : Code.isBalanced group := by
    subst group
    decide +kernel
  obtain ⟨-, -, hmatching, -⟩ :=
    group?_ends_at_closing_bracket hopening "f(')'), [1]) + 2".toList
  exact ⟨hopening, hfound, hbalanced, ((hmatching _ _).mpr ⟨hfound, hbalanced⟩).2⟩

/-- A square bracket ends a group that a round one begins, also where it is the argument list of a
call, although no piece of the text is a group whose brackets match. -/
theorem group?_ends_at_other_bracket :
    Code.group? "(x]".toList = some ("(x]".toList, []) ∧
      (¬∃ piece, piece <+: "(x]".toList ∧ Code.IsGroup piece) ∧
      (Head.parse? {} "@@a.b(x]".toList).bind (·.1.arguments) = some ([], "(x]".toList) := by
  have hfound : Code.group? "(x]".toList = some ("(x]".toList, []) := by decide +kernel
  refine ⟨hfound, ?_, by decide +kernel⟩
  rintro ⟨piece, hstart, hpiece⟩
  have hbalanced := hpiece.isBalanced
  rw [hpiece.alike.eq_of_group? hstart hfound] at hbalanced
  revert hbalanced
  decide +kernel

end TemplateCompiler
