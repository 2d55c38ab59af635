import TemplateCompiler.Component.Construction
import TemplateCompiler.Proofs.CallArguments
import TemplateCompiler.Proofs.EmbeddedExpressions

/-!
# Attribute values as arguments

The expression that an attribute text compiles to becomes an entry of an array, or the argument of
a constructor that was checked to take one. Expressions in brackets and string literals have no
commas that count, so the whole is one argument, but for an embedded expression that stands alone:
it is put there without brackets, and its commas are those of the list.
-/
namespace TemplateCompiler

namespace Code

variable {single : Bool} {scan after : Scan} {c : Char} {text rest : Text}

theorem isOpening_eq (c : Char) : isOpening c = (closerOf? c).isSome := by
  unfold closerOf?
  split
  · rename_i hc
    rw [hc]
    rfl
  · split
    · rename_i hc
      rw [hc]
      rfl
    · split
      · rename_i hc
        rw [hc]
        rfl
      · rename_i hround hsquare hcurly
        simp [isOpening, hround, hsquare, hcurly]

/-- The number of open brackets is what is counted where all kinds of brackets count alike. -/
theorem length_of_step (h : scan.step single c = some after) :
    after.expected.length = if scan.quoting = .outside then
      if isOpening c then scan.expected.length + 1
      else if isClosing c then scan.expected.length - 1 else scan.expected.length
    else scan.expected.length := by
  rw [isOpening_eq]
  rcases Scan.step_cases h with ⟨hinside, rfl⟩ | ⟨houtside, ⟨closing, hcloser, rfl⟩ |
    ⟨hcloser, hclosing, expected, hhead, rfl⟩ | ⟨hcloser, hclosing, -, rfl⟩⟩
  · rw [if_neg hinside]
  · rw [if_pos houtside, hcloser]
    rfl
  · rw [if_pos houtside, hcloser, hhead]
    simp [hclosing]
  · rw [if_pos houtside, hcloser]
    simp [hclosing]

theorem splitArgumentsFrom_cons (h : scan.step single c = some after) (rest : Text) :
    splitArgumentsFrom scan.quoting scan.expected.length (c :: rest) =
      if scan.quoting = .outside ∧ c = ',' ∧ scan.expected.length = 0 then
        [] :: splitArguments rest
      else Text.consFirst c (splitArgumentsFrom after.quoting after.expected.length rest) := by
  rw [splitArgumentsFrom, ← length_of_step h, ← Scan.quoting_of_step h]
  rfl

theorem eq_start_of_comma (hcomma : scan.quoting = .outside ∧ c = ',' ∧ scan.expected.length = 0) :
    scan = Scan.start ∧ scan.step true c = none ∧ scan.step false c = some Scan.start := by
  obtain ⟨quoting, expected⟩ := scan
  obtain ⟨houtside, rfl, hlength⟩ := hcomma
  simp only at houtside hlength
  rw [houtside, List.eq_nil_of_length_eq_zero hlength]
  exact ⟨rfl, rfl, rfl⟩

theorem splitArgumentsFrom_append (h : scan.read true text = some after)
    (hrest : splitArgumentsFrom after.quoting after.expected.length rest = [rest]) :
    splitArgumentsFrom scan.quoting scan.expected.length (text ++ rest) = [text ++ rest] := by
  induction text generalizing scan with
  | nil =>
    cases h
    exact hrest
  | cons c text ih =>
    rw [Scan.read_cons] at h
    obtain ⟨between, hstep, hread⟩ := Option.bind_eq_some_iff.mp h
    have hcomma : ¬(scan.quoting = .outside ∧ c = ',' ∧ scan.expected.length = 0) := by
      intro hcomma
      rw [(eq_start_of_comma hcomma).2.1] at hstep
      cases hstep
    rw [List.cons_append, splitArgumentsFrom_cons hstep, if_neg hcomma, ih hread]
    rfl

theorem consFirst_append {parts : List Text} (h : parts ≠ []) (more : List Text) :
    Text.consFirst c (parts ++ more) = Text.consFirst c parts ++ more := by
  cases parts with
  | nil => exact absurd rfl h
  | cons first parts => rfl

theorem splitArgumentsFrom_comma (h : scan.read false text = some Scan.start) (rest : Text) :
    splitArgumentsFrom scan.quoting scan.expected.length (text ++ ',' :: rest) =
      splitArgumentsFrom scan.quoting scan.expected.length text ++ splitArguments rest := by
  induction text generalizing scan with
  | nil =>
    cases h
    rfl
  | cons c text ih =>
    rw [Scan.read_cons] at h
    obtain ⟨between, hstep, hread⟩ := Option.bind_eq_some_iff.mp h
    rw [List.cons_append, splitArgumentsFrom_cons hstep, splitArgumentsFrom_cons hstep]
    split
    · rename_i hcomma
      rw [(eq_start_of_comma hcomma).2.2] at hstep
      cases hstep
      exact congrArg _ (ih hread)
    · rw [ih hread]
      exact consFirst_append (List.length_pos_iff.mp (length_splitArgumentsFrom_pos _ _ _)) _

theorem splitArguments_join {parts : List Text} (h : ∀ part ∈ parts, isBalanced part)
    (hne : parts ≠ []) :
    splitArguments (Text.join [','] parts) = parts.flatMap splitArguments := by
  induction parts with
  | nil => exact absurd rfl hne
  | cons first parts ih =>
    rw [List.forall_mem_cons] at h
    cases parts with
    | nil => rw [Text.join_singleton, List.flatMap_singleton]
    | cons second parts =>
      have hfirst := splitArgumentsFrom_comma (isBalanced_iff.mp h.1)
      rw [Text.join_cons_cons, List.flatMap_cons, ← ih h.2 (List.cons_ne_nil _ _)]
      exact hfirst _

theorem isClosing_of_isOpening (h : isOpening c) : isClosing c = false := by
  simp only [isOpening, Bool.or_eq_true, beq_iff_eq] at h
  rcases h with (rfl | rfl) | rfl <;> rfl

theorem isOpening_of_closerOf? {closing : Char} (h : closerOf? c = some closing) : isOpening c := by
  rw [isOpening_eq, h]
  rfl

theorem closeGroup?_cons (h : scan.step single c = some after) (rest : Text) :
    closeGroup? scan.quoting (scan.expected.length + 1) (c :: rest) =
      (closeGroup? after.quoting (after.expected.length + 1) rest).map
        fun (group, behind) => (c :: group, behind) := by
  conv_lhs => unfold closeGroup?
  rcases Scan.step_cases h with ⟨hinside, rfl⟩ | ⟨houtside, ⟨closing, hcloser, rfl⟩ |
    ⟨hcloser, hclosing, expected, hhead, rfl⟩ | ⟨hcloser, hclosing, -, rfl⟩⟩
  · rw [if_neg fun h => hinside h.1, if_neg fun h => hinside h.1]
  · have hopening := isOpening_of_closerOf? hcloser
    have hclosing := isClosing_of_isOpening hopening
    rw [if_neg (by simp [hclosing]), if_pos ⟨houtside, hopening⟩, houtside,
      next_outside_of_bracket (Or.inl ⟨closing, hcloser⟩)]
    rfl
  · rw [if_pos ⟨houtside, hclosing⟩, hhead]
    rfl
  · have hopening : isOpening c = false := by
      rw [isOpening_eq, hcloser]
      rfl
    rw [if_neg (by simp [hclosing]), if_neg (by simp [hopening]), houtside]

theorem closeGroup?_append (h : scan.read single text = some after) (rest : Text) :
    closeGroup? scan.quoting (scan.expected.length + 1) (text ++ rest) =
      (closeGroup? after.quoting (after.expected.length + 1) rest).map
        fun (group, behind) => (text ++ group, behind) := by
  induction text generalizing scan with
  | nil =>
    cases h
    exact Option.map_id'.symm
  | cons c text ih =>
    rw [Scan.read_cons] at h
    obtain ⟨between, hstep, hread⟩ := Option.bind_eq_some_iff.mp h
    rw [List.cons_append, closeGroup?_cons hstep, ih hread, Option.map_map]
    rfl

theorem group?_cons (h : isOpening c) (rest : Text) :
    group? (c :: rest) =
      (closeGroup? .outside 1 rest).map fun (group, behind) => (c :: group, behind) := by
  simp only [isOpening, Bool.or_eq_true, beq_iff_eq] at h
  rcases h with (rfl | rfl) | rfl <;> rfl

theorem group?_of_isBalanced {opening closing : Char} (hopening : isOpening opening)
    (hclosing : isClosing closing) (h : isBalanced text) (rest : Text) :
    group? (opening :: text ++ closing :: rest) = some (opening :: text ++ [closing], rest) := by
  have hlast : closeGroup? .outside 1 (closing :: rest) = some ([closing], rest) := by
    simp [closeGroup?, hclosing]
  have hinside : closeGroup? .outside 1 (text ++ closing :: rest) =
      (closeGroup? .outside 1 (closing :: rest)).map fun (group, behind) =>
        (text ++ group, behind) :=
    closeGroup?_append (isBalanced_iff.mp h) (closing :: rest)
  rw [List.cons_append, group?_cons hopening, hinside, hlast]
  rfl

theorem IsNeutral.splitArguments_append (h : IsNeutral true text)
    (hrest : splitArguments rest = [rest]) : splitArguments (text ++ rest) = [text ++ rest] :=
  splitArgumentsFrom_append (h []) hrest

theorem IsNeutral.splitArguments_eq (h : IsNeutral true text) : splitArguments text = [text] := by
  have hnil : splitArguments [] = [[]] := rfl
  have htext := h.splitArguments_append hnil
  rwa [List.append_nil] at htext

end Code

namespace Interpolation

variable {tags : Text × Text} {value code : Text}

theorem merged_of_segments {expression : Text}
    (h : segments tags value = [.wrapped expression]) :
    merged (pieces tags value) = [.embedded expression] := by
  have hpieces := flatMap_segments tags value
  rw [h] at hpieces
  rw [← merged_filter, ← hpieces]
  rfl

theorem isBlank_of_compile (h : compile tags value = .ok code) : code.isBlank = false := by
  have hexpression := (compile_eq_ok_iff.mp h).2
  unfold Code.isExpression at hexpression
  simp only [Bool.and_eq_true, Bool.not_eq_true', List.isEmpty_eq_false_iff] at hexpression
  exact Bool.eq_false_iff.mpr fun hblank =>
    hexpression.1.1.1 (Text.trim_eq_nil_iff.mpr hblank)

/-- Unless an expression stands alone, what a text compiles to is one argument. -/
theorem splitArguments_of_compile (h : compile tags value = .ok code)
    (hbalanced : ∀ expression ∈ expressions tags value, Code.isBalanced expression)
    (halone : ∀ expression, merged (pieces tags value) = [.embedded expression] →
      Code.splitArguments expression = [expression]) :
    Code.splitArguments code = [code] := by
  have hcode := (compile_eq_ok_iff.mp h).1
  rcases render_cases (segments tags value) with hnil | ⟨expression, hwrapped⟩ | hjoin
  · rw [← hcode, hnil]
    rfl
  · rw [← hcode, hwrapped]
    exact halone expression (merged_of_segments hwrapped)
  · have hneutral : Code.IsNeutral true (Text.join ['.']
        ((segments tags value).map Segment.render)) := by
      refine .join (List.forall_mem_map.mpr fun segment hmem => ?_) (.of_isPassed (by decide))
      refine Segment.isNeutral_render (isProper_of_mem_segments hmem) ?_
      rintro expression rfl
      refine hbalanced expression ?_
      rw [expressions_eq]
      exact List.mem_flatMap.mpr ⟨_, hmem, List.mem_singleton_self expression⟩
    rw [← hjoin, hcode] at hneutral
    exact hneutral.splitArguments_eq

end Interpolation

namespace Construction

def entry (attr : Text × Text) : Text := Code.singleQuoted attr.1 ++ "=>".toList ++ attr.2

def array (construction : Construction) : Text :=
  Text.join [','] (construction.attributes.map entry)

theorem exists_code_eq (construction : Construction) (content : Text) :
    ∃ rest, construction.code content = "(new ".toList ++ construction.symbol ++
      "([".toList ++ construction.array ++ "],".toList ++ rest := by
  have hentry : entry = fun attr => Code.singleQuoted attr.1 ++ ("=>".toList ++ attr.2) := by
    funext attr
    exact List.append_assoc _ _ _
  refine ⟨content ++ (",get_defined_vars()))".toList ++ ((if construction.mixins.isEmpty then []
    else "->mixin(".toList ++ Text.join [','] construction.mixins ++ [')']) ++
      "->run()".toList)), ?_⟩
  unfold code array
  simp only [hentry, List.append_assoc]

theorem isNeutral_key {single : Bool} (name : Text) :
    Code.IsNeutral single (Code.singleQuoted name ++ "=>".toList) :=
  (Code.isNeutral_singleQuoted name).append (.of_isPassed (by decide))

theorem isBalanced_entry {attr : Text × Text} (h : Code.isBalanced attr.2) :
    Code.isBalanced (entry attr) := by
  have hvalue : Code.IsNeutral false attr.2 := .of_read id (Code.isBalanced_iff.mp h)
  exact Code.isBalanced_iff.mpr ((isNeutral_key attr.1).append hvalue [])

/-- Code that is one argument wherever a construction puts it. -/
structure IsOneArgument (code : Text) : Prop where
  /-- In the array of the attributes it makes one entry, and the others are split as without it. -/
  in_array : ∀ (construction : Construction) (content name : Text)
    (before after : List (Text × Text)), construction.attributes = before ++ (name, code) :: after →
    (∀ other ∈ before ++ after, Code.isBalanced other.2) →
    (∃ rest, construction.code content = "(new ".toList ++ construction.symbol ++
        "([".toList ++ construction.array ++ "],".toList ++ rest) ∧
      Code.splitArguments construction.array =
        (before.map entry).flatMap Code.splitArguments ++
          entry (name, code) :: (after.map entry).flatMap Code.splitArguments
  /-- For a mixin it is all that is passed, and what the constructor was checked to take. -/
  in_mixin : ∀ (environment : Environment) (context : Context) (qualifier name mixin : Text),
    mixinCode environment context qualifier name code = .ok mixin →
    ∃ resolved, environment.resolve context qualifier name = .ok resolved ∧
      mixin = "new ".toList ++ resolved.symbol ++ '(' :: code ++ [')'] ∧
      (∀ rest, Code.group? ('(' :: code ++ ')' :: rest) = some ('(' :: code ++ [')'], rest)) ∧
      Code.countArguments code = 1 ∧
      resolved.handler.constructor.any fun signature =>
        Signature.accepts signature (Code.countArguments code)

theorem isOneArgument {code : Text} (hbalanced : Code.isBalanced code)
    (hblank : code.isBlank = false) (h : Code.splitArguments code = [code]) :
    IsOneArgument code := by
  constructor
  · intro construction content name before after hattributes hothers
    refine ⟨construction.exists_code_eq content, ?_⟩
    rw [List.forall_mem_append] at hothers
    have hall : ∀ part ∈ construction.attributes.map entry, Code.isBalanced part := by
      rw [hattributes, List.forall_mem_map, List.forall_mem_append, List.forall_mem_cons]
      exact ⟨fun other hmem => isBalanced_entry (hothers.1 other hmem), isBalanced_entry hbalanced,
        fun other hmem => isBalanced_entry (hothers.2 other hmem)⟩
    have hentry : Code.splitArguments (entry (name, code)) = [entry (name, code)] :=
      (isNeutral_key name).splitArguments_append h
    rw [array, Code.splitArguments_join hall (by simp [hattributes]), hattributes, List.map_append,
      List.map_cons, List.flatMap_append, List.flatMap_cons, hentry]
    rfl
  · intro environment context qualifier name mixin hmixin
    have hcount : Code.countArguments code = 1 := by
      rw [Code.countArguments, hblank, h]
      rfl
    unfold mixinCode at hmixin
    split at hmixin
    · cases hmixin
    · rename_i resolved hresolve
      split at hmixin
      · rename_i haccepts
        cases hmixin
        rw [hcount]
        exact ⟨resolved, hresolve, rfl, Code.group?_of_isBalanced rfl rfl hbalanced, rfl, haccepts⟩
      · cases hmixin

end Construction

/-- What an attribute text with balanced expressions compiles to is one argument, unless the text
is a single expression that has several. One argument stays one in the array of the attributes and
for a mixin. -/
theorem compiled_value_is_one_argument {tags : Text × Text} {value code : Text}
    (h : Interpolation.compile tags value = .ok code)
    (hbalanced : ∀ expression ∈ Interpolation.expressions tags value, Code.isBalanced expression) :
    (Code.splitArguments code = [code] ↔
      ∀ expression, Interpolation.merged (Interpolation.pieces tags value) =
        [.embedded expression] → Code.splitArguments expression = [expression]) ∧
    (Code.splitArguments code = [code] → Construction.IsOneArgument code) := by
  refine ⟨⟨?_, Interpolation.splitArguments_of_compile h hbalanced⟩, ?_⟩
  · intro hsingle expression halone
    have hcode := (Interpolation.compile_eq_ok_iff.mp h).1
    rw [Interpolation.render_of_merged halone] at hcode
    rw [hcode]
    exact hsingle
  · exact Construction.isOneArgument (Interpolation.isBalanced_of_compile h)
      (Interpolation.isBlank_of_compile h)

/-- Commas in brackets, in strings and in literal text make no arguments. -/
theorem compiled_value_is_one_argument_of_list :
    let tags := ({} : Markers).echo
    let value := "a, \x7b\x7b f($a, 'x') \x7d\x7d \x7b\x7b $b \x7d\x7d".toList
    let code := "\"a, \".(f($a, 'x')).\" \x7b$b\x7d\"".toList
    Interpolation.compile tags value = .ok code ∧
      (∀ expression ∈ Interpolation.expressions tags value, Code.isBalanced expression) ∧
      Code.splitArguments code = [code] ∧ Construction.IsOneArgument code := by
  intro tags value code
  have hcode : Interpolation.compile tags value = .ok code := by
    subst code value tags
    cbv
  have hpieces : Interpolation.merged (Interpolation.pieces tags value) =
      [.literal "a, ".toList, .embedded "f($a, 'x')".toList, .literal [' '],
        .embedded "$b".toList] := by
    subst code value tags
    cbv
  have hexpressions : Interpolation.expressions tags value =
      ["f($a, 'x')".toList, "$b".toList] := by
    subst code value tags
    cbv
  have hbalanced : ∀ expression ∈ Interpolation.expressions tags value,
      Code.isBalanced expression := by
    rw [hexpressions]
    decide +kernel
  obtain ⟨hiff, hone⟩ := compiled_value_is_one_argument hcode hbalanced
  have hsingle : Code.splitArguments code = [code] := by
    apply hiff.mpr
    intro expression halone
    rw [hpieces] at halone
    cases halone
  exact ⟨hcode, hbalanced, hsingle, hone hsingle⟩

/-- The commas of an expression that stands alone split arguments. So do those of one that is not
balanced and closes the brackets put around it. -/
theorem compiled_value_is_two_arguments :
    let tags := ({} : Markers).echo
    (Interpolation.compile tags "\x7b\x7b $a, $b \x7d\x7d".toList = .ok "$a, $b".toList ∧
      Code.splitArguments "$a, $b".toList = ["$a".toList, " $b".toList]) ∧
    (Interpolation.compile tags "x\x7b\x7b a), (b \x7d\x7d".toList = .ok "\"x\".(a), (b)".toList ∧
      Code.splitArguments "\"x\".(a), (b)".toList = ["\"x\".(a)".toList, " (b)".toList]) := by
  refine ⟨⟨?_, ?_⟩, ?_, ?_⟩ <;> cbv

end TemplateCompiler
