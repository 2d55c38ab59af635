import TemplateCompiler.Directive.Use
import TemplateCompiler.Proofs.EndTags
import TemplateCompiler.Proofs.ImportNames
import TemplateCompiler.Proofs.PathSpellings
import TemplateCompiler.Proofs.Substituting
import TemplateCompiler.Text.Layout

/-!
# Lines that declare an alias

A directive `@use(Target as name)` at the end of a line is read as it is written: its target ends
where the alias begins and nowhere before, although letters of the target may read like the `as`
that stands between them. The alias is bound, the white space before the directive stays, and the
pass goes on behind the line as if the text began there.
-/
namespace TemplateCompiler

theorem Text.exists_front {text space : Text} (hspace : space.isBlank)
    (hglued : space = [] → ¬text.getLast?.any isWordChar) :
    ∃ front blank, text ++ space = front ++ blank ∧ blank.isBlank ∧
      (∀ c ∈ front.getLast?, Unicode.isWhitespace c = false) ∧
      (front.getLast?.any isWordChar → blank ≠ []) := by
  obtain ⟨front, blank, hsplit, -, hblank, hfront⟩ := exists_space (text ++ space)
  refine ⟨front, blank, hsplit, hblank, hfront, ?_⟩
  rintro hword rfl
  rw [List.append_nil] at hsplit
  cases space with
  | nil =>
    rw [List.append_nil] at hsplit
    exact hglued rfl (by rwa [hsplit])
  | cons c more =>
    rw [← hsplit, List.getLast?_append_cons] at hfront
    have hc := hfront _ (List.getLast?_eq_getLast_of_ne_nil (List.cons_ne_nil c more))
    rw [List.all_eq_true.mp hspace _ (List.getLast_mem _)] at hc
    cases hc

theorem Layout.lead?_of_space {front space : Text} (hspace : space.isBlank)
    (hfront : ∀ c ∈ front.getLast?, Unicode.isWhitespace c = false)
    (hglued : front.getLast?.any isWordChar → space ≠ []) :
    lead? (front ++ space).reverse (front ++ space).length =
      some (if front.getLast?.any isWordChar then space.tail else space) := by
  have htake : ((front ++ space).reverse.take (front ++ space).length).takeWhile
      Unicode.isWhitespace = space.reverse := by
    have hrest : front.reverse.head?.any Unicode.isWhitespace = false := by
      rw [List.head?_reverse]
      cases hlast : front.getLast? with
      | none => rfl
      | some c => exact hfront c hlast
    have hall : space.reverse.all Unicode.isWhitespace := by
      rwa [List.all_reverse]
    rw [List.take_of_length_le (by rw [List.length_reverse]), List.reverse_append]
    exact (Text.takeWhile_of_head? hall hrest).1
  have hdrop : ((front ++ space).reverse.drop space.reverse.length).head? = front.getLast? := by
    rw [List.reverse_append, List.drop_left, List.head?_reverse]
  unfold lead?
  simp only [htake, hdrop, List.reverse_reverse]
  split
  · rename_i hword
    cases space with
    | nil => exact absurd rfl (hglued hword)
    | cons c space => rfl
  · rfl

namespace Directive

theorem isWhitespace_of_isNameChar {c : Char} (h : isNameChar c) :
    Unicode.isWhitespace c = false :=
  Unicode.isWhitespace_of_codes (by decide +kernel) h

namespace Use

/-- Non-empty runs of word characters with one separator between any two of them. -/
def IsTarget (target : Text) : Prop :=
  ∀ segment ∈ Text.split HandlerPath.isSeparator target, HandlerPath.isSegment segment

instance (target : Text) : Decidable (IsTarget target) := List.decidableBAll _ _

/-- What stands behind the target; a directive without a name binds the default alias. -/
def writtenName (name : Text) : Text :=
  (if name = [] then [] else " as ".toList ++ name) ++ [')']

def written (target name : Text) : Text := "@use(".toList ++ (target ++ writtenName name)

variable {target name blanks rest : Text}

theorem IsTarget.ne_nil (h : IsTarget target) : target ≠ [] := by
  rintro rfl
  exact absurd (h [] List.mem_cons_self) (by decide)

theorem IsTarget.of_mem (h : IsTarget target) {c : Char} (hc : c ∈ target) :
    isWordChar c ∨ HandlerPath.isSeparator c := by
  by_cases hseparator : HandlerPath.isSeparator c
  · exact Or.inr hseparator
  · have hkept : c ∈ (Text.split HandlerPath.isSeparator target).flatten := by
      rw [Text.flatten_split, List.mem_filter]
      exact ⟨hc, by simpa using hseparator⟩
    obtain ⟨segment, hsegment, hc⟩ := List.mem_flatten.mp hkept
    exact Or.inl ((HandlerPath.isWordChar_of_isSegment (h segment hsegment)).2 c hc)

/-- The characters that a target may have: none of them is white space or closes the directive. -/
def IsTargetChar (c : Char) : Prop := Unicode.isWhitespace c = false ∧ c ≠ ')'

theorem IsTarget.isTargetChar (h : IsTarget target) {c : Char} (hc : c ∈ target) :
    IsTargetChar c := by
  rcases h.of_mem hc with hword | hseparator
  · refine ⟨isWhitespace_of_isWordChar hword, ?_⟩
    rintro rfl
    exact absurd hword (by decide)
  · have hmem : c ∈ ['\\', '.', '/'] := by
      simpa [HandlerPath.isSeparator, or_assoc] using hseparator
    have hchars : ['\\', '.', '/'].all fun d => !Unicode.isWhitespace d && d != ')' := by decide
    simpa [IsTargetChar] using List.all_eq_true.mp hchars c hmem

theorem isTargetChar_of_isNameChar {c : Char} (h : isNameChar c) : IsTargetChar c := by
  refine ⟨isWhitespace_of_isNameChar h, ?_⟩
  rintro rfl
  exact absurd h (by decide)

theorem IsTargetChar.trimStart {c : Char} (h : IsTargetChar c) (rest : Text) :
    Text.trimStart (c :: rest) = c :: rest := by
  rw [Text.trimStart, List.dropWhile_cons, h.1, if_neg Bool.false_ne_true]

/-! ## What is read behind a target -/

theorem closing?_of_ne {c : Char} (hc : c ≠ ')') (rest : Text) : closing? (c :: rest) = none := by
  unfold closing?
  split
  · rename_i heq
    exact absurd (List.cons.inj heq).1 hc
  · rfl

theorem closing?_written (hblanks : blanks.all Text.isSpaceOrTab) (hrest : isLineEnd rest) :
    closing? (')' :: (blanks ++ rest)) = some rest := by
  have hend : rest.dropWhile Text.isSpaceOrTab = rest := by
    cases rest with
    | nil => rfl
    | cons c rest =>
      have hbreak : c = '\n' ∨ c = '\r' := by simpa [isLineEnd] using hrest
      rcases hbreak with rfl | rfl <;> rfl
  have hafter : (blanks ++ rest).dropWhile Text.isSpaceOrTab = rest := by
    rw [List.dropWhile_append_of_pos (List.all_eq_true.mp hblanks), hend]
  simp only [closing?, hafter, hrest, if_true]

/-- A name needs white space between it and the `as`. -/
theorem named?_of_glued {text spaced : Text} (h : Text.after? ['a', 's'] text = some spaced)
    (hglued : spaced.trimStart = spaced) : named? text = none := by
  unfold named?
  rw [h, Option.bind_some]
  simp [hglued]

/-- An `as` that is the name itself does not introduce a name. -/
theorem named?_of_as {c : Char} {spaced : Text} (h : Text.trimStart spaced = 'a' :: 's' :: ' ' ::
    (c :: rest)) (hc : IsTargetChar c) : named? ('a' :: 's' :: spaced) = none := by
  have hname : ('a' :: 's' :: ' ' :: (c :: rest)).takeWhile isNameChar = "as".toList ∧
      ('a' :: 's' :: ' ' :: (c :: rest)).dropWhile isNameChar = ' ' :: (c :: rest) :=
    @Text.takeWhile_word isNameChar "as".toList (c :: rest) ' ' (by decide) (by decide)
  have hspace : Text.trimStart (' ' :: (c :: rest)) = c :: rest := by
    show Text.trimStart (c :: rest) = _
    exact hc.trimStart rest
  have hafter : Text.after? ['a', 's'] ('a' :: 's' :: spaced) = some spaced := rfl
  unfold named?
  rw [hafter, Option.bind_some]
  simp only [h, hname.2, hspace, closing?_of_ne hc.2, Option.map_none, ite_self]

theorem writtenName_cons (c : Char) (name : Text) :
    writtenName (c :: name) = ' ' :: 'a' :: 's' :: ' ' :: (c :: name ++ [')']) := rfl

theorem named?_written {c : Char} (hname : (c :: name).all isNameChar)
    (hblanks : blanks.all Text.isSpaceOrTab) (hrest : isLineEnd rest) :
    named? ('a' :: 's' :: ' ' :: (c :: name ++ ')' :: (blanks ++ rest))) =
      some (c :: name, rest) := by
  have hc := isTargetChar_of_isNameChar (List.all_eq_true.mp hname c List.mem_cons_self)
  have hafter : Text.after? ['a', 's'] ('a' :: 's' :: ' ' ::
      (c :: name ++ ')' :: (blanks ++ rest))) =
        some (' ' :: (c :: name ++ ')' :: (blanks ++ rest))) := rfl
  have hspace : Text.trimStart (' ' :: (c :: name ++ ')' :: (blanks ++ rest))) =
      c :: name ++ ')' :: (blanks ++ rest) := by
    show Text.trimStart (c :: name ++ ')' :: (blanks ++ rest)) = _
    exact hc.trimStart _
  obtain ⟨htake, hdrop⟩ := @Text.takeWhile_word isNameChar (c :: name) (blanks ++ rest) ')' hname
    (by decide)
  have htrim : Text.trimStart (')' :: (blanks ++ rest)) = ')' :: (blanks ++ rest) := rfl
  unfold named?
  rw [hafter, Option.bind_some]
  simp only [hspace, htake, hdrop, htrim, closing?_written hblanks hrest, Option.map_some]
  simp

theorem ending?_written (hname : name.all isNameChar) (hblanks : blanks.all Text.isSpaceOrTab)
    (hrest : isLineEnd rest) :
    ending? (writtenName name ++ (blanks ++ rest)) = some (name, rest) := by
  cases name with
  | nil =>
    have htrim : Text.trimStart (')' :: (blanks ++ rest)) = ')' :: (blanks ++ rest) := rfl
    have hnamed : named? (')' :: (blanks ++ rest)) = none := rfl
    show ending? (')' :: (blanks ++ rest)) = _
    simp only [ending?, htrim, hnamed, closing?_written hblanks hrest, Option.orElse_none,
      Option.map_some]
  | cons c name =>
    have hwritten : writtenName (c :: name) ++ (blanks ++ rest) =
        ' ' :: 'a' :: 's' :: ' ' :: (c :: name ++ ')' :: (blanks ++ rest)) := by
      rw [writtenName_cons]
      simp
    have htrim : Text.trimStart (' ' :: 'a' :: 's' :: ' ' ::
        (c :: name ++ ')' :: (blanks ++ rest))) =
          'a' :: 's' :: ' ' :: (c :: name ++ ')' :: (blanks ++ rest)) := rfl
    rw [hwritten]
    simp only [ending?, htrim, named?_written hname hblanks hrest, Option.orElse_some]

/-- What reads like an `as` at the end of a target is part of the target. -/
theorem named?_as_written (hname : name.all isNameChar) (rest : Text) :
    named? ('a' :: 's' :: (writtenName name ++ rest)) = none := by
  cases name with
  | nil => exact named?_of_glued rfl rfl
  | cons c name =>
    have hc := isTargetChar_of_isNameChar (List.all_eq_true.mp hname c List.mem_cons_self)
    rw [writtenName_cons]
    exact named?_of_as rfl hc

theorem named?_within {c : Char} {behind : Text} (htarget : ∀ d ∈ c :: behind, IsTargetChar d)
    (hname : name.all isNameChar) : named? (c :: behind ++ (writtenName name ++ rest)) = none := by
  cases hafter : Text.after? ['a', 's'] (c :: behind ++ (writtenName name ++ rest)) with
  | none => simp only [named?, hafter, Option.bind_none]
  | some spaced =>
    have htext := Text.after?_eq_some_iff.mp hafter
    obtain ⟨rfl, hbehind⟩ := List.cons.inj htext
    cases behind with
    | nil =>
      cases name with
      | nil => exact absurd (List.cons.inj hbehind).1 (by decide)
      | cons d name => exact absurd (List.cons.inj hbehind).1 (by decide)
    | cons d behind =>
      obtain ⟨rfl, rfl⟩ := List.cons.inj hbehind
      cases behind with
      | nil => exact named?_as_written hname rest
      | cons e behind =>
        have he : IsTargetChar e := htarget e (by simp)
        exact named?_of_glued hafter (he.trimStart _)

theorem ending?_within {c : Char} {behind : Text}
    (htarget : ∀ d ∈ c :: behind, IsTargetChar d) (hname : name.all isNameChar) :
    ending? (c :: behind ++ (writtenName name ++ rest)) = none := by
  have hfirst := htarget c List.mem_cons_self
  have htrim : Text.trimStart (c :: behind ++ (writtenName name ++ rest)) =
      c :: behind ++ (writtenName name ++ rest) := hfirst.trimStart _
  have hclosing : closing? (c :: behind ++ (writtenName name ++ rest)) = none :=
    closing?_of_ne hfirst.2 _
  simp only [ending?, htrim, named?_within htarget hname, hclosing, Option.map_none,
    Option.orElse_none]

theorem target?_written (htarget : ∀ c ∈ target, IsTargetChar c) (hne : target ≠ [])
    (hname : name.all isNameChar) (hblanks : blanks.all Text.isSpaceOrTab)
    (hrest : isLineEnd rest) :
    target? (target ++ (writtenName name ++ (blanks ++ rest))) = some (target, name, rest) := by
  induction target with
  | nil => exact absurd rfl hne
  | cons c behind ih =>
    have hblank : ¬Unicode.isWhitespace c := by
      rw [(htarget c List.mem_cons_self).1]
      exact Bool.false_ne_true
    have hbehind : ∀ d ∈ behind, IsTargetChar d := fun d hd => htarget d (List.mem_cons_of_mem c hd)
    rw [List.cons_append, target?, if_neg hblank]
    cases behind with
    | nil =>
      rw [List.nil_append, ending?_written hname hblanks hrest]
    | cons d behind =>
      rw [ending?_within hbehind hname]
      simp only [ih hbehind (List.cons_ne_nil d behind), Option.map_some]

/-- A directive that is written at the end of a line is matched, with the white space before it. -/
theorem pattern_written (htarget : IsTarget target) (hname : name.all isNameChar)
    (hblanks : blanks.all Text.isSpaceOrTab) (hrest : isLineEnd rest) {lead : Text}
    (hlead : lead.isBlank) (before : Text) :
    pattern ⟨before, lead ++ (written target name ++ (blanks ++ rest))⟩ =
      some ((lead ++ (written target name ++ blanks)).length, ⟨lead, target, name⟩) := by
  have hall := List.all_eq_true.mp hlead
  have htake : (lead ++ (written target name ++ (blanks ++ rest))).takeWhile
      Unicode.isWhitespace = lead := by
    rw [List.takeWhile_append_of_pos hall]
    exact List.append_nil lead
  have htrim : Text.trimStart (lead ++ (written target name ++ (blanks ++ rest))) =
      "@use".toList ++ '(' :: (target ++ (writtenName name ++ (blanks ++ rest))) := by
    rw [Text.trimStart, List.dropWhile_append_of_pos hall, written, List.append_assoc,
      List.append_assoc]
    rfl
  have hopen : Text.after? ['('] (Text.trimStart
      ('(' :: (target ++ (writtenName name ++ (blanks ++ rest))))) =
        some (target ++ (writtenName name ++ (blanks ++ rest))) := rfl
  have hfirst : Text.trimStart (target ++ (writtenName name ++ (blanks ++ rest))) =
      target ++ (writtenName name ++ (blanks ++ rest)) := by
    cases target with
    | nil => exact absurd rfl htarget.ne_nil
    | cons c behind => exact (htarget.isTargetChar List.mem_cons_self).trimStart _
  have hread := target?_written (fun c => htarget.isTargetChar) htarget.ne_nil hname hblanks hrest
  have hlength : lengthUpTo ⟨before, lead ++ (written target name ++ (blanks ++ rest))⟩ rest =
      (lead ++ (written target name ++ blanks)).length := by
    simp only [lengthUpTo, List.length_append]
    omega
  unfold pattern
  simp only [htake, htrim, Text.after?_append, Option.bind_some, hopen, hfirst, hread,
    Option.map_some, hlength]

/-! ## What a match takes in -/

theorem closing?_suffix {text after : Text} (h : closing? text = some after) : after <:+ text := by
  unfold closing? at h
  split at h
  · rename_i rest
    simp only at h
    split at h
    · cases h
      exact (List.dropWhile_suffix _).trans (List.suffix_cons _ _)
    · cases h
  · cases h

theorem named?_suffix {text after : Text} (h : named? text = some (name, after)) :
    after <:+ text := by
  obtain ⟨spaced, hspaced, h⟩ := Option.bind_eq_some_iff.mp h
  simp only at h
  split at h
  · cases h
  · obtain ⟨after, hclosing, hpair⟩ := Option.map_eq_some_iff.mp h
    cases hpair
    rw [Text.after?_eq_some_iff.mp hspaced]
    exact (closing?_suffix hclosing).trans ((List.dropWhile_suffix _).trans
      ((List.dropWhile_suffix _).trans ((List.dropWhile_suffix _).trans
        (List.suffix_append _ _))))

theorem ending?_suffix {text after : Text} (h : ending? text = some (name, after)) :
    after <:+ text := by
  refine List.IsSuffix.trans ?_ (List.dropWhile_suffix Unicode.isWhitespace)
  unfold ending? at h
  cases hnamed : named? text.trimStart with
  | some found =>
    simp only [hnamed, Option.orElse_some] at h
    cases h
    exact named?_suffix hnamed
  | none =>
    simp only [hnamed, Option.orElse_none] at h
    obtain ⟨after, hclosing, hpair⟩ := Option.map_eq_some_iff.mp h
    cases hpair
    exact closing?_suffix hclosing

theorem target?_suffix {text after : Text} (h : target? text = some (target, name, after)) :
    after <:+ text := by
  induction text generalizing target with
  | nil => cases h
  | cons c rest ih =>
    refine List.IsSuffix.trans ?_ (List.suffix_cons c rest)
    rw [target?] at h
    split at h
    · cases h
    · split at h
      · rename_i hending
        cases h
        exact ending?_suffix hending
      · obtain ⟨⟨behind, more⟩, hbehind, hpair⟩ := Option.map_eq_some_iff.mp h
        cases hpair
        exact ih hbehind

theorem length_of_pattern {place : Place} {length : Nat} {use : Use}
    (h : pattern place = some (length, use)) : 0 < length ∧ length ≤ place.rest.length := by
  obtain ⟨opened, hopened, h⟩ := Option.bind_eq_some_iff.mp h
  obtain ⟨inner, hinner, h⟩ := Option.bind_eq_some_iff.mp h
  obtain ⟨⟨target, name, after⟩, htarget, hpair⟩ := Option.map_eq_some_iff.mp h
  cases hpair
  have hstart : place.rest.trimStart.length ≤ place.rest.length :=
    (List.dropWhile_suffix _).length_le
  have hopen : opened.trimStart.length ≤ opened.length := (List.dropWhile_suffix _).length_le
  have hfirst : inner.trimStart.length ≤ inner.length := (List.dropWhile_suffix _).length_le
  have hafter := (target?_suffix htarget).length_le
  rw [Text.after?_eq_some_iff.mp hopened, List.length_append] at hstart
  rw [Text.after?_eq_some_iff.mp hinner, List.length_append] at hopen
  have hkeyword : "@use".toList.length = 4 := by decide
  unfold lengthUpTo
  simp only [List.length_singleton] at hopen
  omega

theorem pattern_eq_none_within {first : Text} {c : Char} (hc : Unicode.isWhitespace c = false)
    (hat : '@' ∉ first) (hmem : c ∈ first) (before rest : Text) :
    pattern ⟨before, first ++ rest⟩ = none := by
  have hnonblank : first.dropWhile Unicode.isWhitespace ≠ [] := by
    intro hnil
    have hparts := @List.takeWhile_append_dropWhile _ Unicode.isWhitespace first
    rw [hnil, List.append_nil] at hparts
    rw [← hparts] at hmem
    exact Text.not_mem_takeWhile hc first hmem
  have htrim : Text.trimStart (first ++ rest) = first.trimStart ++ rest :=
    Text.dropWhile_append_of_ne_nil hnonblank
  have hnone : Text.after? "@use".toList (first.trimStart ++ rest) = none :=
    Text.after?_eq_none hnonblank (fun hmem => hat ((List.dropWhile_suffix _).subset hmem)) rest
  simp only [pattern, htrim, hnone, Option.bind_none]

/-! ## What the pass does -/

variable {before lead : Text} {context after : Context} {use : Use} {error : CompileError}

theorem replace_of_glued (h : before.head?.any isWordChar) (rest : Text) (use : Use) :
    replace ⟨before, rest⟩ use = pure none :=
  if_pos h

theorem run_replace_of_ok (h : ¬before.head?.any isWordChar)
    (hdeclare : context.declare use.name use.target = .ok after) :
    (replace ⟨before, rest⟩ use).run context = (.ok (some use.lead), after) := by
  unfold replace Place.previous
  rw [if_neg h, Pass.run_bind, Pass.run_update_ok hdeclare]
  rfl

theorem run_replace_of_error (h : ¬before.head?.any isWordChar)
    (hdeclare : context.declare use.name use.target = .error error) :
    (replace ⟨before, rest⟩ use).run context = (.error error, context) := by
  unfold replace Place.previous
  rw [if_neg h, Pass.run_bind, Pass.run_update_error hdeclare]

theorem span_of_declare (h : context.declare use.name use.target = .error error) :
    error.span.isEmpty := by
  unfold Context.declare at h
  split at h
  · cases h
    rfl
  · split at h
    · split at h
      · cases h
      · cases h
        rfl
    · split at h
      · cases h
        rfl
      · cases h

theorem span_of_replace (place : Place) (use : Use) (context : Context) (error : CompileError)
    (h : ((replace place use).run context).1 = .error error) : error.span.isEmpty := by
  obtain ⟨before, rest⟩ := place
  by_cases hglued : before.head?.any isWordChar
  · rw [replace_of_glued hglued] at h
    cases h
  · cases hdeclare : context.declare use.name use.target with
    | error cause =>
      rw [run_replace_of_error hglued hdeclare] at h
      cases h
      exact span_of_declare hdeclare
    | ok after =>
      rw [run_replace_of_ok hglued hdeclare] at h
      cases h

/-- Behind a text that does not end in a word the pass does what it does on its own. -/
theorem run_behind {passed : Text} (h : ¬passed.getLast?.any isWordChar) (rest : Text)
    (context : Context) :
    (Substitution.substituteFrom (Matcher.leftmost pattern) replace ⟨passed.reverse, rest⟩).run
        context =
      (((uses rest).run context).1.mapError (·.shift passed.size),
        ((uses rest).run context).2) := by
  have hreplace (seen rest : Text) (use : Use) :
      replace ⟨seen ++ passed.reverse, rest⟩ use = replace ⟨seen, rest⟩ use := by
    have hprevious : (Place.previous ⟨seen ++ passed.reverse, rest⟩).any isWordChar =
        (Place.previous ⟨seen, rest⟩).any isWordChar := by
      cases seen with
      | nil =>
        show passed.reverse.head?.any isWordChar = false
        rw [List.head?_reverse]
        exact Bool.eq_false_iff.mpr h
      | cons c seen => rfl
    unfold replace
    rw [hprevious]
  rw [← Text.size_reverse]
  exact Substitution.run_append (fun _ _ _ => length_of_pattern) (fun _ _ => rfl) hreplace
    span_of_replace [] rest context

theorem isBlank_of_spaces (h : blanks.all Text.isSpaceOrTab) : blanks.isBlank := by
  refine List.all_eq_true.mpr fun c hc => ?_
  have hspace : c = ' ' ∨ c = '\t' := by
    simpa [Text.isSpaceOrTab] using List.all_eq_true.mp h c hc
  rcases hspace with rfl | rfl <;> decide

theorem not_word_behind (h : blanks.all Text.isSpaceOrTab) (text : Text) :
    ¬(text ++ ')' :: blanks).getLast?.any isWordChar := by
  rw [List.getLast?_append_cons]
  intro hword
  obtain ⟨c, hc, hword⟩ := (Option.any_eq_true _ _).mp hword
  rcases List.mem_cons.mp (List.mem_of_getLast? hc) with rfl | hblank
  · exact absurd hword (by decide)
  · have hspace := List.all_eq_true.mp (isBlank_of_spaces h) c hblank
    rw [isWhitespace_of_isWordChar hword] at hspace
    cases hspace

theorem exists_written (target name : Text) :
    ∃ inner, written target name = '@' :: (inner ++ [')']) :=
  ⟨"use(".toList ++ (target ++ if name = [] then [] else " as ".toList ++ name), by
    simp [written, writtenName]⟩

theorem run_written (htarget : IsTarget target) (hname : name.all isNameChar)
    (hblanks : blanks.all Text.isSpaceOrTab) (hrest : isLineEnd rest) {passed : Text}
    (hlead : lead.isBlank) (hpassed : ¬passed.getLast?.any isWordChar) (context : Context) :
    (∀ error, context.declare name target = .error error →
      (Substitution.substituteFrom (Matcher.leftmost pattern) replace
          ⟨passed.reverse, lead ++ (written target name ++ (blanks ++ rest))⟩).run context =
        (.error ((error.locate (Span.ofText passed.size
          (lead ++ (written target name ++ blanks)))).blame (written target name)), context)) ∧
    (∀ after, context.declare name target = .ok after →
      (Substitution.substituteFrom (Matcher.leftmost pattern) replace
          ⟨passed.reverse, lead ++ (written target name ++ (blanks ++ rest))⟩).run context =
        ((((uses rest).run after).1.map (lead ++ ·)).mapError
            (·.shift (Text.size (passed ++ (lead ++ (written target name ++ blanks))))),
          ((uses rest).run after).2)) := by
  have hglued : ¬passed.reverse.head?.any isWordChar := by
    rwa [List.head?_reverse]
  obtain ⟨inner, hinner⟩ := exists_written target name
  have hmatch := pattern_written htarget hname hblanks hrest hlead passed.reverse
  obtain ⟨hpos, hwithin⟩ := length_of_pattern hmatch
  have hwhole : lead ++ (written target name ++ (blanks ++ rest)) =
      (lead ++ (written target name ++ blanks)) ++ rest := by
    simp only [List.append_assoc]
  constructor
  · intro error herror
    have htrim : Text.trim (lead ++ (written target name ++ blanks)) = written target name := by
      rw [← List.append_assoc, Text.trim_between hlead (isBlank_of_spaces hblanks)]
      apply Text.trim_eq_self_of_ends
      · rw [hinner]
        rintro c ⟨⟩
        decide
      · rw [hinner, ← List.cons_append, List.getLast?_concat]
        rintro c ⟨⟩
        decide
    rw [Substitution.run_of_failed hmatch (run_replace_of_error hglued herror),
      Substitution.reporting]
    simp only [hwhole, List.take_left, htrim, Place.offset, Text.size_reverse]
  · intro after hafter
    have hbehind : ¬(passed ++ (lead ++ (written target name ++ blanks))).getLast?.any
        isWordChar := by
      have hend : passed ++ (lead ++ (written target name ++ blanks)) =
          (passed ++ (lead ++ '@' :: inner)) ++ ')' :: blanks := by
        rw [hinner]
        simp
      rw [hend]
      exact not_word_behind hblanks _
    rw [Substitution.run_of_accepted hmatch (run_replace_of_ok hglued hafter) hpos hwithin,
      Pass.run_map, Place.advance]
    simp only [hwhole, List.take_left, List.drop_left]
    rw [← List.reverse_append, run_behind hbehind]
    rcases (uses rest).run after with ⟨_ | _, _⟩ <;> rfl

theorem substituteFrom_front {front : Text} (hat : '@' ∉ front)
    (hfront : ∀ c ∈ front.getLast?, Unicode.isWhitespace c = false) (rest : Text) :
    Substitution.substituteFrom (Matcher.leftmost pattern) replace ⟨[], front ++ rest⟩ =
      (front ++ ·) <$> Substitution.substituteFrom (Matcher.leftmost pattern) replace
        ⟨front.reverse, rest⟩ := by
  have hnone (first : Text) (c : Char) (later : Text) (hpiece : front = first ++ c :: later) :
      pattern ⟨first.reverse ++ [], c :: (later ++ rest)⟩ = none := by
    have hlater : '@' ∉ c :: later := by
      rw [hpiece, List.mem_append, not_or] at hat
      exact hat.2
    have hlast : (c :: later).getLast (List.cons_ne_nil c later) ∈ front.getLast? := by
      rw [hpiece, List.getLast?_append_cons, List.getLast?_eq_getLast_of_ne_nil]
      rfl
    exact pattern_eq_none_within (hfront _ hlast) hlater (List.getLast_mem _) _ rest
  have hcopied :
      Substitution.substituteFrom (Matcher.leftmost pattern) replace ⟨[], front ++ rest⟩ =
      (front ++ ·) <$> Substitution.substituteFrom (Matcher.leftmost pattern) replace
        ⟨front.reverse ++ [], rest⟩ :=
    Substitution.substituteFrom_append (fun _ _ _ h => (length_of_pattern h).2) hnone
  rwa [List.append_nil] at hcopied

theorem run_first_space (htarget : IsTarget target) (hname : name.all isNameChar)
    (hblanks : blanks.all Text.isSpaceOrTab) (hrest : isLineEnd rest) {front : Text} {c : Char}
    (hblank : Text.isBlank (c :: lead)) (hword : front.getLast?.any isWordChar)
    (context : Context) :
    (Substitution.substituteFrom (Matcher.leftmost pattern) replace
        ⟨front.reverse, c :: (lead ++ (written target name ++ (blanks ++ rest)))⟩).run context =
      ((c :: ·) <$> Substitution.substituteFrom (Matcher.leftmost pattern) replace
        ⟨(front ++ [c]).reverse, lead ++ (written target name ++ (blanks ++ rest))⟩).run
          context := by
  have hglued : front.reverse.head?.any isWordChar := by
    rwa [List.head?_reverse]
  have hmatch := pattern_written htarget hname hblanks hrest hblank front.reverse
  rw [List.cons_append] at hmatch
  have hrejected : (replace ⟨front.reverse, c :: (lead ++ (written target name ++
      (blanks ++ rest)))⟩ ⟨c :: lead, target, name⟩).run context = (.ok none, context) := by
    rw [replace_of_glued hglued]
    rfl
  rw [Substitution.run_of_rejected hmatch hrejected, List.reverse_append]
  rfl

/-- The pass copies what stands before a directive, up to the white space that the directive
claims. -/
theorem run_reaches {text space : Text} (hat : '@' ∉ text) (hspace : space.isBlank)
    (hglued : space = [] → ¬text.getLast?.any isWordChar) (htarget : IsTarget target)
    (hname : name.all isNameChar) (hblanks : blanks.all Text.isSpaceOrTab)
    (hrest : isLineEnd rest) (context : Context) :
    ∃ passed lead, text ++ space = passed ++ lead ∧ lead.isBlank ∧
      Layout.lead? (text ++ space).reverse (text ++ space).length = some lead ∧
      ¬passed.getLast?.any isWordChar ∧
      (uses (text ++ (space ++ (written target name ++ (blanks ++ rest))))).run context =
        ((passed ++ ·) <$> Substitution.substituteFrom (Matcher.leftmost pattern) replace
          ⟨passed.reverse, lead ++ (written target name ++ (blanks ++ rest))⟩).run context := by
  obtain ⟨front, blank, hsplit, hblank, hfront, hword⟩ := Text.exists_front hspace hglued
  have hnone : '@' ∉ front := by
    have hboth : '@' ∉ text ++ space := by
      rw [List.mem_append, not_or]
      exact ⟨hat, Text.not_mem_of_all (by decide) (List.all_eq_true.mp hspace)⟩
    rw [hsplit, List.mem_append, not_or] at hboth
    exact hboth.1
  have hlead := Layout.lead?_of_space hblank hfront hword
  have hrun := substituteFrom_front hnone hfront
    (blank ++ (written target name ++ (blanks ++ rest)))
  have hstart : uses (text ++ (space ++ (written target name ++ (blanks ++ rest)))) =
      Substitution.substituteFrom (Matcher.leftmost pattern) replace
        ⟨[], front ++ (blank ++ (written target name ++ (blanks ++ rest)))⟩ := by
    rw [← List.append_assoc, hsplit, List.append_assoc]
    rfl
  rw [hstart, hrun, hsplit]
  by_cases hends : front.getLast?.any isWordChar
  · -- The pattern matches with all of the white space, is rejected, and matches again without the
    -- first character.
    cases blank with
    | nil => exact absurd rfl (hword hends)
    | cons c lead =>
      rw [hends, if_pos rfl] at hlead
      have hc : Unicode.isWhitespace c := List.all_eq_true.mp hblank c List.mem_cons_self
      have hfirst := run_first_space htarget hname hblanks hrest hblank hends context
      refine ⟨front ++ [c], lead, by simp, ?_, hlead, ?_, ?_⟩
      · exact List.all_eq_true.mpr fun d hd =>
          List.all_eq_true.mp hblank d (List.mem_cons_of_mem c hd)
      · rw [List.getLast?_concat]
        intro hword
        rw [isWhitespace_of_isWordChar hword] at hc
        cases hc
      · rw [Pass.run_map, List.cons_append, hfirst, Pass.run_map, Pass.run_map]
        rcases (Substitution.substituteFrom (Matcher.leftmost pattern) replace
          ⟨(front ++ [c]).reverse, lead ++ (written target name ++ (blanks ++ rest))⟩).run context
          with ⟨_ | _, _⟩
        · rfl
        · simp [Except.map]
  · rw [if_neg hends] at hlead
    exact ⟨front, blank, rfl, hblank, hlead, hends, rfl⟩

end Use

/-- A directive at the end of a line is read exactly as it is written, whatever its target and its
name read like. If the alias cannot be bound, the pass fails with that error, at the directive and
the white space that it claims. Otherwise the text before the directive stays, and behind the line
the pass does in the context with the alias what it does on its own. -/
theorem uses_reads_written {text space target name blanks rest : Text} (hat : '@' ∉ text)
    (hspace : space.isBlank) (hglued : space = [] → ¬text.getLast?.any isWordChar)
    (htarget : Use.IsTarget target) (hname : name.all isNameChar)
    (hblanks : blanks.all Text.isSpaceOrTab) (hrest : isLineEnd rest) (context : Context) :
    ∃ passed lead, text ++ space = passed ++ lead ∧
      Layout.lead? (text ++ space).reverse (text ++ space).length = some lead ∧
      (∀ error, context.declare name target = .error error →
        (uses (text ++ space ++ Use.written target name ++ blanks ++ rest)).run context =
          (.error ((error.locate (Span.ofText passed.size
            (lead ++ Use.written target name ++ blanks))).blame (Use.written target name)),
            context)) ∧
      (∀ after, context.declare name target = .ok after →
        (uses (text ++ space ++ Use.written target name ++ blanks ++ rest)).run context =
          ((((uses rest).run after).1.map (text ++ space ++ ·)).mapError
              (·.shift (Text.size (text ++ space ++ Use.written target name ++ blanks))),
            ((uses rest).run after).2)) := by
  obtain ⟨passed, lead, hsplit, hlead, hclaimed, hpassed, hrun⟩ :=
    Use.run_reaches hat hspace hglued htarget hname hblanks hrest context
  obtain ⟨hfails, hsucceeds⟩ :=
    Use.run_written htarget hname hblanks hrest hlead hpassed context
  have hsource : text ++ space ++ Use.written target name ++ blanks ++ rest =
      text ++ (space ++ (Use.written target name ++ (blanks ++ rest))) := by
    simp only [List.append_assoc]
  refine ⟨passed, lead, hsplit, hclaimed, ?_, ?_⟩
  · intro error herror
    rw [hsource, hrun, Pass.run_map, hfails error herror, List.append_assoc]
    rfl
  · intro after hafter
    rw [hsource, hrun, Pass.run_map, hsucceeds after hafter, hsplit]
    simp only [List.append_assoc]
    rcases (uses rest).run after with ⟨error | new, reached⟩
    · rfl
    · simp only [Except.map, Except.mapError]

/-- Behind a word, with an `as` wherever there can be one, and the end of the text behind a line
break. -/
theorem uses_reads_written_of_as :
    let target := "as\\as.x/as".toList
    let after := Context.initial.add ⟨"as".toList, "as\\as\\x\\as".toList, true⟩
    '@' ∉ "mail".toList ∧ Text.isBlank "\n  ".toList ∧
    ("\n  ".toList = [] → ¬"mail".toList.getLast?.any isWordChar) ∧ Use.IsTarget target ∧
    "as".toList.all isNameChar ∧ " \t".toList.all Text.isSpaceOrTab ∧ isLineEnd ['\n'] ∧
    Context.initial.declare "as".toList target = .ok after ∧
    (uses "mail\n  @use(as\\as.x/as as as) \t\n".toList).run Context.initial =
      (.ok "mail\n  \n".toList, after) := by
  intro target after
  have hat : '@' ∉ "mail".toList := by decide
  have hspace : Text.isBlank "\n  ".toList := by decide
  have hglued : "\n  ".toList = [] → ¬"mail".toList.getLast?.any isWordChar := by decide
  have htarget : Use.IsTarget target := by decide +kernel
  have hname : "as".toList.all isNameChar := by decide
  have hblanks : " \t".toList.all Text.isSpaceOrTab := by decide
  have hrest : isLineEnd ['\n'] := by decide
  have hdeclare : Context.initial.declare "as".toList target = .ok after := by decide +kernel
  have hline : (uses ['\n']).run after = (.ok ['\n'], after) := by
    unfold uses substitute
    rw [Substitution.substituteFrom]
    rfl
  obtain ⟨-, -, -, -, -, hsucceeds⟩ :=
    uses_reads_written hat hspace hglued htarget hname hblanks hrest Context.initial
  have hrun := hsucceeds after hdeclare
  rw [hline] at hrun
  exact ⟨hat, hspace, hglued, htarget, hname, hblanks, hrest, hdeclare, hrun⟩

end Directive

end TemplateCompiler
