import TemplateCompiler.Proofs.ArgumentGroups
import TemplateCompiler.Proofs.GeneratedStatement

/-!
# Emitted calls

The arguments of a call are cut out of the template and written again into generated code, behind
the content of a block if there is one. What is written there is again one list of arguments, with
as many of them as were counted when the call was checked, and a literal is read back as the
content it was made of.
-/
namespace TemplateCompiler

namespace Code

variable {text first second rest before behind : Text} {quoting : Quoting} {depth : Nat}

/-! ## White space around arguments -/

theorem isPassed_iff {c : Char} : isPassed c ↔
    isQuote c = false ∧ isOpening c = false ∧ isClosing c = false ∧ c ≠ ',' := by
  simp [isPassed, and_assoc]

theorem isPassed_of_isWhitespace {c : Char} (h : Unicode.isWhitespace c) : isPassed c := by
  have hall : [c].all Unicode.isWhitespace := by simpa using h
  simpa using all_isPassed (by decide) hall

theorem isWhitespace_toRound (c : Char) :
    Unicode.isWhitespace (toRound c) = Unicode.isWhitespace c := by
  rw [Bool.eq_iff_iff]
  constructor
  · intro hblank
    obtain ⟨-, hopening, hclosing, -⟩ := isPassed_iff.mp (isPassed_of_isWhitespace hblank)
    rw [isOpening_toRound] at hopening
    rw [isClosing_toRound] at hclosing
    rwa [toRound_of_neither hopening hclosing] at hblank
  · intro hblank
    obtain ⟨-, hopening, hclosing, -⟩ := isPassed_iff.mp (isPassed_of_isWhitespace hblank)
    rwa [toRound_of_neither hopening hclosing]

theorem trim_map_toRound (text : Text) :
    Text.trim (text.map toRound) = (Text.trim text).map toRound := by
  have hblank : Unicode.isWhitespace ∘ toRound = Unicode.isWhitespace := funext isWhitespace_toRound
  simp only [Text.trim, Text.trimEnd, Text.trimStart, ← List.map_reverse, List.dropWhile_map,
    hblank]

/-- Trimming does not cut into a string, since all strings end before the white space does. -/
theorem isBalanced_trim (h : isBalanced text) : isBalanced text.trim := by
  obtain ⟨before, behind, hbefore, hbehind, htext⟩ := text.exists_trim
  have hlead : Scan.read false Scan.start before = some Scan.start :=
    IsNeutral.of_isBlank hbefore []
  rw [isBalanced_iff, htext, List.append_assoc, Scan.read_append, hlead, Option.bind_some,
    Scan.read_append] at h
  obtain ⟨⟨quoting, expected⟩, hread, hrest⟩ := Option.bind_eq_some_iff.mp h
  have hquoting : quoting = text.trim.foldl Quoting.next .outside := Scan.quoting_of_read hread
  have hmarked := Quoting.isMarked_outside.foldl text.trim
  rw [← hquoting] at hmarked
  have houtside : quoting = .outside := by
    refine hmarked.outside_of_unquoted (fun c hc => ?_) (Scan.quoting_of_read hrest).symm
    exact (isPassed_iff.mp (isPassed_of_isWhitespace (List.all_eq_true.mp hbehind c hc))).1
  subst houtside
  rw [IsNeutral.of_isBlank hbehind] at hrest
  cases hrest
  exact isBalanced_iff.mpr hread

namespace IsNestedAlike

theorem trim (h : IsNestedAlike text) : IsNestedAlike text.trim := by
  rw [IsNestedAlike, ← trim_map_toRound, ← isBalanced_iff_isNested]
  exact isBalanced_trim (isBalanced_iff_isNested.mpr h)

theorem append (hfirst : IsNestedAlike first) (hsecond : IsNestedAlike second) :
    IsNestedAlike (first ++ second) := by
  rw [IsNestedAlike, List.map_append, ← isBalanced_iff_isNested, isBalanced_iff]
  exact hfirst.isNeutral.append hsecond.isNeutral []

end IsNestedAlike

theorem IsNeutral.isNestedAlike (h : IsNeutral false text) : IsNestedAlike text :=
  (isBalanced_iff_isNested.mp (isBalanced_iff.mpr (h []))).alike

/-! ## Counting arguments -/

theorem length_consFirst (c : Char) {parts : List Text} (h : parts ≠ []) :
    (Text.consFirst c parts).length = parts.length := by
  cases parts with
  | nil => exact absurd rfl h
  | cons first parts => rfl

theorem splitArgumentsFrom_ne_nil (quoting : Quoting) (depth : Nat) (text : Text) :
    splitArgumentsFrom quoting depth text ≠ [] :=
  List.length_pos_iff.mp (length_splitArgumentsFrom_pos quoting depth text)

theorem splitArgumentsFrom_of_not_mem (hcomma : ',' ∉ text) (quoting : Quoting) (depth : Nat) :
    splitArgumentsFrom quoting depth text = [text] := by
  induction text generalizing quoting depth with
  | nil => rfl
  | cons c text ih =>
    rw [List.mem_cons, not_or] at hcomma
    rw [splitArgumentsFrom, if_neg fun h => hcomma.1 h.2.1.symm, ih hcomma.2]
    rfl

theorem length_splitArgumentsFrom_append (hcomma : ',' ∉ behind) (quoting : Quoting) (depth : Nat)
    (text : Text) : (splitArgumentsFrom quoting depth (text ++ behind)).length =
      (splitArgumentsFrom quoting depth text).length := by
  induction text generalizing quoting depth with
  | nil =>
    rw [List.nil_append, splitArgumentsFrom_of_not_mem hcomma]
    rfl
  | cons c text ih =>
    rw [List.cons_append, splitArgumentsFrom, splitArgumentsFrom]
    split
    · simp [ih]
    · rw [length_consFirst c (splitArgumentsFrom_ne_nil _ _ _),
        length_consFirst c (splitArgumentsFrom_ne_nil _ _ _), ih]

theorem length_splitArguments_blank (h : before.isBlank) (text : Text) :
    (splitArguments (before ++ text)).length = (splitArguments text).length := by
  induction before with
  | nil => rfl
  | cons c before ih =>
    rw [Text.isBlank, List.all_cons, Bool.and_eq_true] at h
    have hpassed := isPassed_of_isWhitespace h.1
    have hcons := splitArgumentsFrom_cons (Scan.step_passed true [] hpassed) (before ++ text)
    rw [if_neg fun hcomma => (isPassed_iff.mp hpassed).2.2.2 hcomma.2.1] at hcons
    calc
      _ = (Text.consFirst c (splitArguments (before ++ text))).length := congrArg List.length hcons
      _ = (splitArguments (before ++ text)).length :=
        length_consFirst c (splitArgumentsFrom_ne_nil _ _ _)
      _ = _ := ih h.2

theorem length_splitArguments_trim (text : Text) :
    (splitArguments text.trim).length = (splitArguments text).length := by
  obtain ⟨before, behind, hbefore, hbehind, htext⟩ := text.exists_trim
  have hcomma : ',' ∉ behind := fun hmem =>
    (isPassed_iff.mp (isPassed_of_isWhitespace (List.all_eq_true.mp hbehind _ hmem))).2.2.2 rfl
  conv_rhs => rw [htext, List.append_assoc, length_splitArguments_blank hbefore]
  exact (length_splitArgumentsFrom_append hcomma .outside 0 text.trim).symm

/-! ## Literals -/

/-- Reads a single-quoted literal behind its opening quote, up to the first quote that is not
escaped. A backslash escapes a quote or a backslash, and stands for itself elsewhere. -/
def readLiteralBody? : Text → Option (Text × Text)
  | [] => none
  | '\'' :: rest => some ([], rest)
  | '\\' :: c :: rest =>
    if isSingleQuotedSpecial c then
      (readLiteralBody? rest).map fun found => (c :: found.1, found.2)
    else (readLiteralBody? (c :: rest)).map fun found => ('\\' :: found.1, found.2)
  | c :: rest => (readLiteralBody? rest).map fun found => (c :: found.1, found.2)

def readLiteral? : Text → Option (Text × Text)
  | '\'' :: rest => readLiteralBody? rest
  | _ => none

theorem readLiteralBody?_escape (text rest : Text) :
    readLiteralBody? (escape isSingleQuotedSpecial text ++ '\'' :: rest) = some (text, rest) := by
  induction text with
  | nil => rfl
  | cons c text ih =>
    have hstep : escape isSingleQuotedSpecial (c :: text) =
        (if isSingleQuotedSpecial c then ['\\', c] else [c]) ++ escape isSingleQuotedSpecial text :=
      rfl
    rw [hstep]
    split
    · rename_i hspecial
      simp only [List.cons_append, List.nil_append]
      rw [readLiteralBody?, if_pos hspecial, ih]
      rfl
    · rename_i hplain
      have hquote : c ≠ '\'' := fun hc => hplain (hc ▸ rfl)
      have hslash : c ≠ '\\' := fun hc => hplain (hc ▸ rfl)
      simp only [List.cons_append, List.nil_append]
      rw [readLiteralBody?.eq_4 _ _ hquote fun _ _ hc _ => hslash hc, ih]
      rfl

theorem readLiteral?_singleQuoted (text rest : Text) :
    readLiteral? (singleQuoted text ++ rest) = some (text, rest) := by
  have hwhole : singleQuoted text ++ rest =
      '\'' :: (escape isSingleQuotedSpecial text ++ '\'' :: rest) := by
    simp [singleQuoted]
  rw [hwhole]
  exact readLiteralBody?_escape text rest

namespace Content

theorem isNeutral_argument (content : Content) {single : Bool} :
    IsNeutral single content.argument := by
  cases content with
  | literal text => exact isNeutral_singleQuoted text
  | dynamic text =>
    have hread : Scan.read true Scan.start captured = some Scan.start := by decide +kernel
    exact IsNeutral.of_read (fun _ => rfl) hread

theorem isBlank_argument (content : Content) (rest : Text) :
    Text.isBlank (content.argument ++ rest) = false := by
  cases content <;> rfl

end Content

end Code

namespace BlockCall

variable {head : Head} {arguments : Text}

/-- The arguments that the call of a block passes: its content, and what is written in its head. -/
def argumentList (content : Code.Content) (head : Head) : Text :=
  content.argument ++ furtherArguments head

theorem argumentList_eq (h : head.argumentText = some arguments) (content : Code.Content) :
    argumentList content head = if arguments.isBlank then content.argument
      else content.argument ++ ", ".toList ++ arguments.trim := by
  have hblank : arguments.trim.isEmpty = arguments.isBlank := by
    rw [Bool.eq_iff_iff, List.isEmpty_iff, Text.trim_eq_nil_iff]
  simp only [argumentList, furtherArguments, h, Option.getD_some, hblank]
  split
  · exact List.append_nil _
  · exact (List.append_assoc _ _ _).symm

theorem exists_code_eq (options : Options) (lead : Text) (call : ResolvedCall) (head : Head)
    (compiled : Text) : ∃ before behind, code options lead call head compiled = before ++
      call.code (argumentList (.classify options.markers compiled) head) ++ behind := by
  unfold code argumentList
  cases Code.Content.classify options.markers compiled with
  | literal content => exact ⟨_, _, Code.output_eq _ _ _ _⟩
  | dynamic content =>
    refine ⟨
      (if options.mode = .pretty then lead else []) ++ "<?php ob_start() ?>".toList ++ content ++
      Code.outputStart options.mode [], Code.outputEnd options.mode (Layout.indentOf lead), ?_⟩
    simp only [Code.buffered, Code.output_eq, Code.Content.argument, List.append_nil,
      List.append_assoc]

theorem isNestedAlike_argumentList (h : head.argumentText = some arguments)
    (hnested : Code.IsNestedAlike arguments) (content : Code.Content) :
    Code.IsNestedAlike (argumentList content head) := by
  have hcontent := content.isNeutral_argument.isNestedAlike
  rw [argumentList_eq h]
  split
  · exact hcontent
  · have hcomma : Code.IsNestedAlike ", ".toList := .char rfl rfl rfl (.char rfl rfl rfl .nil)
    exact (hcontent.append hcomma).append hnested.trim

theorem countArguments_argumentList (h : head.argumentText = some arguments)
    (content : Code.Content) : Code.countArguments (argumentList content head) =
      1 + Code.countArguments arguments := by
  have hlist : Code.countArguments (argumentList content head) =
      (Code.splitArguments (argumentList content head)).length := by
    rw [Code.countArguments, argumentList, content.isBlank_argument]
    rfl
  have hcontent : Code.splitArguments content.argument = [content.argument] :=
    content.isNeutral_argument.splitArguments_eq
  rw [hlist, argumentList_eq h, Code.countArguments]
  split
  · rw [hcontent]
    rfl
  · have hcomma : Code.splitArguments (content.argument ++ ',' :: ' ' :: arguments.trim) =
        Code.splitArguments content.argument ++ Code.splitArguments (' ' :: arguments.trim) :=
      Code.splitArgumentsFrom_comma (content.isNeutral_argument []) _
    have hblank : Text.isBlank [' '] := by decide
    have hwritten : (Code.splitArguments (' ' :: arguments.trim)).length =
        (Code.splitArguments arguments).length :=
      (Code.length_splitArguments_blank hblank _).trans (Code.length_splitArguments_trim arguments)
    have hseparator : ", ".toList = [',', ' '] := by decide
    rw [hseparator, List.append_assoc, List.cons_append, List.singleton_append, hcomma, hcontent,
      List.length_append, hwritten]
    rfl

end BlockCall

theorem Head.isNestedAlike_arguments {markers : Markers} {source after arguments : Text}
    {head : Head} (hparse : Head.parse? markers source = some (head, after))
    (harguments : head.argumentText = some arguments) : Code.IsNestedAlike arguments := by
  obtain ⟨⟨gap, group⟩, hgroup, -⟩ := Option.map_eq_some_iff.mp harguments
  obtain ⟨inner, closing, -, htext, -, hinner, -⟩ := exists_argumentText hparse hgroup
  rw [harguments] at htext
  cases htext
  exact hinner

theorem Head.resolve_of_method {environment : Environment} {context : Context} {head : Head}
    {extra count : Nat} (hcount : head.argumentCount + extra = count) {resolved : Resolved}
    {signature : Signature}
    (hresolved : environment.resolveAlias context (head.qualifierName.getD []) = .ok resolved)
    (hmethod : resolved.handler.method? (Name.camel head.method) = some signature) :
    head.resolve environment context extra =
      if count < signature.required then
        .error (.ofCause (.arity head.written.trim resolved.handler.path (Name.camel head.method)
          signature.required count))
      else .ok ⟨resolved.symbol, Name.camel head.method⟩ := by
  unfold Head.resolve
  simp only [hresolved, hmethod, hcount]

/-- The arguments of a head are one list when they are written between round brackets again, and so
are the content of a block and the trimmed arguments behind it, which is what the statement of the
block has in the brackets of its call. That list has one argument more than the head, which is the
number that the call was checked with. If the content is written as a literal, reading that gives
it back. -/
theorem emitted_call_reads_back {markers : Markers} {source after arguments : Text} {head : Head}
    (hparse : Head.parse? markers source = some (head, after))
    (harguments : head.argumentText = some arguments) (content : Code.Content) :
    let list := if arguments.isBlank then content.argument
      else content.argument ++ ", ".toList ++ arguments.trim
    (∀ rest, Code.group? ('(' :: arguments ++ ')' :: rest) =
      some ('(' :: arguments ++ [')'], rest)) ∧
    (∀ rest, Code.group? ('(' :: list ++ ')' :: rest) = some ('(' :: list ++ [')'], rest)) ∧
    (∀ options lead call compiled, Code.Content.classify options.markers compiled = content →
      ∃ before behind, BlockCall.code options lead call head compiled =
        before ++ call.code list ++ behind) ∧
    Code.countArguments list = 1 + Code.countArguments arguments ∧
    (∀ environment context resolved signature,
      environment.resolveAlias context (head.qualifierName.getD []) = .ok resolved →
      resolved.handler.method? (Name.camel head.method) = some signature →
      head.resolve environment context 1 =
        if Code.countArguments list < signature.required then
          .error (.ofCause (.arity head.written.trim resolved.handler.path
            (Name.camel head.method) signature.required (Code.countArguments list)))
        else .ok ⟨resolved.symbol, Name.camel head.method⟩) ∧
    ∀ text, content = .literal text → ∀ rest,
      Code.readLiteral? (content.argument ++ rest) = some (text, rest) := by
  intro list
  have hnested := Head.isNestedAlike_arguments hparse harguments
  have hlist : BlockCall.argumentList content head = list :=
    BlockCall.argumentList_eq harguments content
  have hcount := BlockCall.countArguments_argumentList harguments content
  have hwhole := BlockCall.isNestedAlike_argumentList harguments hnested content
  rw [hlist] at hcount hwhole
  refine ⟨Code.group?_of_isNestedAlike rfl rfl hnested, Code.group?_of_isNestedAlike rfl rfl hwhole,
    ?_, hcount, ?_, ?_⟩
  · rintro options lead call compiled rfl
    rw [← hlist]
    exact BlockCall.exists_code_eq options lead call head compiled
  · intro environment context resolved signature hresolved hmethod
    have hgiven : head.argumentCount + 1 = Code.countArguments list := by
      rw [hcount, Head.argumentCount, harguments, Nat.add_comm]
      rfl
    exact Head.resolve_of_method hgiven hresolved hmethod
  · rintro text rfl
    exact Code.readLiteral?_singleQuoted text

/-- The list of a block whose arguments and content have commas, quotes and brackets of their own.
-/
theorem emitted_call_reads_back_of_panel :
    let source := "@@ui:panel( 'a, b', [1, 2] ): (it's)".toList
    let arguments : Text := " 'a, b', [1, 2] ".toList
    let list : Text := "'(it\\'s', 'a, b', [1, 2]".toList
    ∃ head after, Head.parse? {} source = some (head, after) ∧
      head.argumentText = some arguments ∧
      Code.countArguments list = 1 + Code.countArguments arguments ∧
      Code.group? ('(' :: list ++ [')']) = some ('(' :: list ++ [')'], []) ∧
      Code.readLiteral? list = some ("(it's".toList, ", 'a, b', [1, 2]".toList) := by
  intro source arguments list
  let head : Head := ⟨"@@".toList, some ("ui".toList, ':'), "panel".toList,
    some ([], "( 'a, b', [1, 2] )".toList)⟩
  have hparse : Head.parse? {} source = some (head, ": (it's)".toList) := by
    subst head source
    decide +kernel
  have harguments : head.argumentText = some arguments := by
    subst head arguments
    decide +kernel
  let content : Code.Content := .literal "(it's".toList
  have hlist : (if arguments.isBlank then content.argument
      else content.argument ++ ", ".toList ++ arguments.trim) = list := by
    subst content list arguments
    decide +kernel
  obtain ⟨-, hgroup, -, hcount, -, hread⟩ := emitted_call_reads_back hparse harguments content
  rw [hlist] at hgroup hcount
  refine ⟨head, _, hparse, harguments, hcount, hgroup [], ?_⟩
  have hwritten : content.argument ++ ", 'a, b', [1, 2]".toList = list := by
    subst content list
    decide +kernel
  rw [← hwritten]
  exact hread _ rfl _

end TemplateCompiler
