import TemplateCompiler.Proofs.ConfigEntries
import TemplateCompiler.Proofs.Substituting

/-!
# Lines of a configuration block

A block begins and ends at line breaks of all three kinds, but what stands in it is cut into lines
at line feeds only. Where a line feed stands between any two lines that say something, each of them
is an entry; a carriage return alone leaves two lines in one piece, which is read as one entry.
-/
namespace TemplateCompiler.Directive

namespace Config

inductive LineBreak
  | crlf
  | lf
  | cr
  deriving DecidableEq, Repr

def LineBreak.text : LineBreak → Text
  | crlf => ['\r', '\n']
  | lf => ['\n']
  | cr => ['\r']

/-- The characters of a line: all but those of line breaks, and at signs. -/
def isLineChar (c : Char) : Bool := c != '@' && c != '\n' && c != '\r'

/-- A line of a block, with the line break that ends it. -/
structure Line where
  text : Text
  ending : LineBreak
  isLineChar_text : text.all isLineChar

def Line.written (line : Line) : Text := line.text ++ line.ending.text

/-- The lines that say something. -/
def told (lines : List Line) : List Text := (lines.map Line.text).filter fun text => !text.isBlank

/-- Whether a line feed stands between any two lines that say something, and in front of the first
one if `held` says that there was one before. -/
def SeparatedByFeeds : Bool → List Line → Prop
  | _, [] => True
  | held, line :: lines => (held → line.text.isBlank) ∧
      SeparatedByFeeds (line.ending = .cr && (held || !line.text.isBlank)) lines

instance SeparatedByFeeds.decidable : (held : Bool) → (lines : List Line) →
    Decidable (SeparatedByFeeds held lines)
  | _, [] => .isTrue trivial
  | held, line :: lines =>
    have := SeparatedByFeeds.decidable (line.ending = .cr && (held || !line.text.isBlank)) lines
    inferInstanceAs (Decidable (_ ∧ _))

/-- A configuration block as it may be written: any lines between the line of `@config` and that of
`@endconfig`. -/
structure Written where
  gap : Text
  opening : LineBreak
  lines : List Line
  indent : Text
  trail : Text
  isSpaceOrTab_gap : gap.all Text.isSpaceOrTab
  isSpaceOrTab_indent : indent.all Text.isSpaceOrTab
  isBlank_trail : trail.isBlank

namespace Written

def firstLine (block : Written) : Line := ⟨[], block.opening, rfl⟩

/-- What stands between the keywords, up to the line of the second one. -/
def body (block : Written) : Text := (block.firstLine :: block.lines).flatMap Line.written

def text (block : Written) : Text :=
  "@config".toList ++ (block.gap ++ (block.body ++
    (block.indent ++ ("@endconfig".toList ++ block.trail))))

end Written

variable {lines : List Line} {line : Line} {held piece blank : Text}

/-! ## Lines and line feeds -/

theorem isBlank_trim (text : Text) : text.trim.isBlank = text.isBlank := by
  obtain ⟨lead, trail, hlead, htrail, htext⟩ := text.exists_trim
  have hblank := congrArg Text.isBlank htext
  rw [Entry.isBlank_append, Entry.isBlank_append, hlead, htrail, Bool.true_and, Bool.and_true]
    at hblank
  exact hblank.symm

theorem trimmed_eq (texts : List Text) :
    trimmed texts = (texts.map Text.trim).filter fun text => !text.isBlank := by
  rw [trimmed, List.filter_map]
  congr 2
  funext text
  simp only [Function.comp, isBlank_trim]

theorem trimmed_congr {texts texts' : List Text}
    (h : texts.map Text.trim = texts'.map Text.trim) : trimmed texts = trimmed texts' := by
  rw [trimmed_eq, trimmed_eq, h]

theorem trimmed_append (texts texts' : List Text) :
    trimmed (texts ++ texts') = trimmed texts ++ trimmed texts' := by
  rw [trimmed, List.filter_append, List.map_append, trimmed, trimmed]

theorem trimmed_cons_eq (text : Text) (texts : List Text) :
    trimmed (text :: texts) = trimmed [text] ++ trimmed texts :=
  trimmed_append [text] texts

theorem trim_withoutReturn (text : Text) :
    Text.trim (if text.getLast? = some '\r' then text.dropLast else text) = text.trim := by
  split
  · rename_i hlast
    obtain ⟨front, rfl⟩ := List.getLast?_eq_some_iff.mp hlast
    have hreturn : Text.isBlank ['\r'] := by decide
    rw [List.dropLast_concat, Text.trim_append hreturn]
  · rfl

/-- The lines of a text say what stands between its line feeds. -/
theorem trimmed_lines (text : Text) :
    trimmed text.lines = trimmed (Text.split (· == '\n') text) := by
  rcases List.eq_nil_or_concat (Text.split (· == '\n') text) with hnil | ⟨init, last, hparts⟩
  · exact absurd hnil (Text.split_ne_nil text)
  · have hended : trimmed (init.map fun line =>
        if line.getLast? = some '\r' then line.dropLast else line) = trimmed init :=
      trimmed_congr (by simp [Function.comp_def, trim_withoutReturn])
    rw [Text.lines, hparts, List.concat_eq_append]
    simp only [List.dropLast_concat, List.getLast?_concat]
    cases last with
    | nil =>
      rw [trimmed_append, hended]
      exact (List.append_nil _).symm
    | cons c last => rw [trimmed_append, trimmed_append, hended]

theorem trimmed_joined (hblank : blank.isBlank) (h : held.isBlank ∨ piece.isBlank) :
    trimmed [held ++ piece ++ blank] = trimmed [held] ++ trimmed [piece] := by
  rcases h with h | h
  · have htrim : Text.trim (held ++ piece ++ blank) = piece.trim := Text.trim_between h hblank piece
    have hjoined : trimmed [held ++ piece ++ blank] = trimmed [piece] :=
      trimmed_congr (congrArg (fun text => [text]) htrim)
    rw [hjoined, trimmed_cons_of_isBlank h]
    rfl
  · have hbehind : Text.isBlank (piece ++ blank) := by
      rw [Entry.isBlank_append, h, hblank]
      rfl
    have htrim : Text.trim (held ++ piece ++ blank) = held.trim := by
      rw [List.append_assoc, Text.trim_append hbehind]
    have hjoined : trimmed [held ++ piece ++ blank] = trimmed [held] :=
      trimmed_congr (congrArg (fun text => [text]) htrim)
    rw [hjoined, trimmed_cons_of_isBlank h]
    exact (List.append_nil _).symm

theorem Line.not_mem_text (line : Line) {c : Char} (hc : isLineChar c = false) : c ∉ line.text :=
  Text.not_mem_of_all hc (List.all_eq_true.mp line.isLineChar_text)

theorem split_feed {part : Text} (h : '\n' ∉ part) (rest : Text) :
    Text.split (· == '\n') (part ++ '\n' :: rest) = part :: Text.split (· == '\n') rest := by
  refine Text.split_append_cons (fun d hd => ?_) rfl rest
  rw [beq_eq_false_iff_ne]
  rintro rfl
  exact h hd

theorem trimmed_feed (hheld : '\n' ∉ held) (hpiece : '\n' ∉ piece) (hblank : blank.isBlank)
    (hclear : '\n' ∉ blank) (h : held.isBlank ∨ piece.isBlank) (rest : Text) :
    trimmed (Text.split (· == '\n') (held ++ piece ++ blank ++ '\n' :: rest)) =
      trimmed [held] ++ trimmed [piece] ++ trimmed (Text.split (· == '\n') rest) := by
  have hpart : '\n' ∉ held ++ piece ++ blank := by
    simp [hheld, hpiece, hclear]
  rw [split_feed hpart, trimmed_cons_eq, trimmed_joined hblank h]

/-- Lines that are separated by line feeds are found again, each in a piece of its own. What is held
of the last piece so far is blank if another line may follow in the same piece. -/
theorem trimmed_split (hheld : '\n' ∉ held) (h : SeparatedByFeeds (!held.isBlank) lines) :
    trimmed (Text.split (· == '\n') (held ++ lines.flatMap Line.written)) =
      trimmed [held] ++ trimmed (lines.map Line.text) := by
  induction lines generalizing held with
  | nil =>
    have hsingle : Text.split (· == '\n') held = [held] := by
      refine Text.split_eq_singleton fun d hd => ?_
      rw [beq_eq_false_iff_ne]
      rintro rfl
      exact hheld hd
    rw [List.flatMap_nil, List.append_nil, hsingle]
    exact (List.append_nil _).symm
  | cons line lines ih =>
    obtain ⟨hblank, hlines⟩ := h
    have hpiece : '\n' ∉ line.text := line.not_mem_text (by decide)
    obtain ⟨text, ending, hchars⟩ := line
    have hone : held.isBlank ∨ text.isBlank := by
      cases hheld : held.isBlank with
      | true => exact Or.inl rfl
      | false => exact Or.inr (hblank (by simp [hheld]))
    have hnext := @ih [] (by simp)
    have htold : trimmed [held] ++ trimmed ((⟨text, ending, hchars⟩ :: lines).map Line.text) =
        trimmed [held] ++ trimmed [text] ++ trimmed (lines.map Line.text) := by
      rw [List.map_cons, trimmed_cons_eq text, List.append_assoc]
    rw [htold, List.flatMap_cons, Line.written]
    cases ending with
    | lf =>
      have hnone : Text.isBlank [] := rfl
      have hfeed := trimmed_feed hheld hpiece hnone (by simp) hone (lines.flatMap Line.written)
      rw [List.append_nil] at hfeed
      have hsplit : held ++ (text ++ LineBreak.text .lf ++ lines.flatMap Line.written) =
          held ++ text ++ '\n' :: lines.flatMap Line.written := by
        simp [LineBreak.text]
      rw [hsplit, hfeed]
      exact congrArg _ (hnext hlines)
    | crlf =>
      have hreturn : Text.isBlank ['\r'] := by decide
      have hfeed := trimmed_feed hheld hpiece hreturn (by decide) hone
        (lines.flatMap Line.written)
      have hsplit : held ++ (text ++ LineBreak.text .crlf ++ lines.flatMap Line.written) =
          held ++ text ++ ['\r'] ++ '\n' :: lines.flatMap Line.written := by
        simp [LineBreak.text]
      rw [hsplit, hfeed]
      exact congrArg _ (hnext hlines)
    | cr =>
      have hsplit : held ++ (text ++ LineBreak.text .cr ++ lines.flatMap Line.written) =
          held ++ text ++ ['\r'] ++ lines.flatMap Line.written := by
        simp [LineBreak.text]
      have hreturn : Text.isBlank ['\r'] := by decide
      have hmore : SeparatedByFeeds (!Text.isBlank (held ++ text ++ ['\r'])) lines := by
        rw [Entry.isBlank_append, Entry.isBlank_append, hreturn, Bool.and_true, Bool.not_and]
        exact hlines
      rw [hsplit, ih (by simp [hheld, hpiece]) hmore, trimmed_joined hreturn hone]

/-! ## Where a block ends -/

variable {before body closing after indent trail : Text}

/-- Up to the keyword that ends it all of a text is the body of the block, if the text has no at
sign and does not end within the indentation of the keyword. -/
theorem body?_append (hat : '@' ∉ body)
    (hbreak : ∀ c ∈ body.getLast?, Text.isSpaceOrTab c = false)
    (hclosing : ending? ⟨body.reverse ++ before, closing⟩ = some after) :
    body? before (body ++ closing) = some (body, after) := by
  induction body generalizing before with
  | nil =>
    cases closing with
    | nil =>
      have hnone : ending? ⟨before, []⟩ = none := by
        unfold ending?
        split <;> rfl
      rw [List.reverse_nil, List.nil_append, hnone] at hclosing
      cases hclosing
    | cons c closing =>
      rw [List.reverse_nil, List.nil_append] at hclosing
      rw [List.nil_append, body?, hclosing]
  | cons c body ih =>
    have hnone : ending? ⟨before, c :: body ++ closing⟩ = none := by
      have hstops : (c :: body).dropWhile Text.isSpaceOrTab ≠ [] := by
        intro hnil
        have hlast := List.getLast?_eq_getLast_of_ne_nil (List.cons_ne_nil c body)
        have hspace :=
          List.dropWhile_eq_nil_iff.mp hnil _ (List.getLast_mem (List.cons_ne_nil c body))
        rw [hbreak _ hlast] at hspace
        cases hspace
      have hnot : '@' ∉ (c :: body).dropWhile Text.isSpaceOrTab :=
        fun hmem => hat ((List.dropWhile_suffix _).subset hmem)
      have hafter : Text.after? "@endconfig".toList
          ((c :: body).dropWhile Text.isSpaceOrTab ++ closing) = none :=
        Text.after?_eq_none hstops hnot closing
      unfold ending?
      rw [Text.dropWhile_append_of_ne_nil hstops, hafter]
      split <;> rfl
    have hmore : body? (c :: before) (body ++ closing) = some (body, after) := by
      refine ih (fun hmem => hat (List.mem_cons_of_mem c hmem)) ?_ ?_
      · cases body with
        | nil => simp
        | cons d body => rwa [List.getLast?_cons_cons] at hbreak
      · rwa [List.reverse_cons, List.append_assoc, List.singleton_append] at hclosing
    rw [List.cons_append, body?, ← List.cons_append, hnone]
    simp only [hmore, Option.map_some]

theorem isWordEnd_of_isBlank (h : trail.isBlank) : isWordEnd trail := by
  cases trail with
  | nil => rfl
  | cons c trail =>
    have hblank := List.all_eq_true.mp h c List.mem_cons_self
    show (!Unicode.isWordConstituent c) = true
    cases hword : Unicode.isWordConstituent c with
    | false => rfl
    | true =>
      have hname : isNameChar c := by simp [isNameChar, hword]
      rw [isWhitespace_of_isNameChar hname] at hblank
      cases hblank

theorem ending?_keyword (hindent : indent.all Text.isSpaceOrTab) (htrail : trail.isBlank) {c : Char}
    (hc : c = '\n' ∨ c = '\r') (before : Text) :
    ending? ⟨c :: before, indent ++ ("@endconfig".toList ++ trail)⟩ = some trail := by
  have hstart : isLineStart ⟨c :: before, indent ++ ("@endconfig".toList ++ trail)⟩ := by
    rcases hc with rfl | rfl
    · rfl
    · have hpeek : (Place.peek ⟨'\r' :: before, indent ++ ("@endconfig".toList ++ trail)⟩) ≠
          some '\n' := by
        cases indent with
        | nil =>
          show some '@' ≠ some '\n'
          decide
        | cons d indent =>
          intro hfeed
          cases hfeed
          exact absurd (List.all_eq_true.mp hindent '\n' List.mem_cons_self) (by decide)
      simpa [isLineStart, Place.previous] using hpeek
  have hdrop : (indent ++ ("@endconfig".toList ++ trail)).dropWhile Text.isSpaceOrTab =
      "@endconfig".toList ++ trail := by
    rw [List.dropWhile_append_of_pos (List.all_eq_true.mp hindent)]
    rfl
  unfold ending?
  rw [if_pos hstart, hdrop, Text.after?_append, Option.bind_some,
    if_pos (isWordEnd_of_isBlank htrail)]

namespace Written

variable (block : Written)

theorem LineBreak.exists_last (ending : LineBreak) (text : Text) :
    ∃ first c, text ++ ending.text = first ++ [c] ∧ (c = '\n' ∨ c = '\r') := by
  cases ending with
  | crlf => exact ⟨text ++ ['\r'], '\n', by simp [LineBreak.text], Or.inl rfl⟩
  | lf => exact ⟨text, '\n', rfl, Or.inl rfl⟩
  | cr => exact ⟨text, '\r', rfl, Or.inr rfl⟩

theorem exists_last : ∃ first c, block.body = first ++ [c] ∧ (c = '\n' ∨ c = '\r') := by
  have hlines (line : Line) (lines : List Line) :
      ∃ first c, (line :: lines).flatMap Line.written = first ++ [c] ∧ (c = '\n' ∨ c = '\r') := by
    induction lines generalizing line with
    | nil =>
      rw [List.flatMap_singleton]
      exact LineBreak.exists_last line.ending line.text
    | cons next lines ih =>
      obtain ⟨first, c, hfirst, hc⟩ := ih next
      exact ⟨line.written ++ first, c, by rw [List.flatMap_cons, hfirst, List.append_assoc], hc⟩
  exact hlines block.firstLine block.lines

theorem not_mem_body : '@' ∉ block.body := by
  intro hmem
  obtain ⟨line, -, hmem⟩ := List.mem_flatMap.mp hmem
  rcases List.mem_append.mp hmem with htext | hending
  · exact line.not_mem_text (by decide) htext
  · cases hline : line.ending <;> rw [hline] at hending <;> exact absurd hending (by decide)

theorem pattern_text (before : Text) :
    pattern ⟨before, block.text⟩ = some (block.text.length, block.body) := by
  obtain ⟨first, c, hbody, hc⟩ := block.exists_last
  have hbreak : Text.isSpaceOrTab c = false ∧ isLineEnd [c] := by
    rcases hc with rfl | rfl <;> decide
  have hdrop (rest : Text) : (block.gap ++ (block.body ++ rest)).dropWhile Text.isSpaceOrTab =
      block.body ++ rest := by
    rw [List.dropWhile_append_of_pos (List.all_eq_true.mp block.isSpaceOrTab_gap)]
    unfold Written.body firstLine
    cases block.opening <;> rfl
  have hend (rest : Text) : isLineEnd (block.body ++ rest) := by
    unfold Written.body firstLine
    cases block.opening <;> rfl
  have hfound (before : Text) : body? before (block.body ++ (block.indent ++
      ("@endconfig".toList ++ block.trail))) = some (block.body, block.trail) := by
    apply body?_append block.not_mem_body
    · rw [hbody, List.getLast?_concat]
      rintro d ⟨⟩
      exact hbreak.1
    · rw [hbody, List.reverse_concat, List.cons_append]
      exact ending?_keyword block.isSpaceOrTab_indent block.isBlank_trail hc _
  have htrail : block.trail.trimStart = [] :=
    List.dropWhile_eq_nil_iff.mpr (List.all_eq_true.mp block.isBlank_trail)
  have hafter : Text.after? "@config".toList block.text = some (block.gap ++ (block.body ++
      (block.indent ++ ("@endconfig".toList ++ block.trail)))) := by
    unfold Written.text
    exact Text.after?_append _ _
  unfold pattern
  simp only [hafter, Option.bind_some, hdrop, hend, if_true, hfound, Option.map_some, htrail,
    lengthUpTo, List.length_nil, Nat.sub_zero]

theorem length_text_pos : 0 < block.text.length := by
  have hkeyword : 0 < "@config".toList.length := by decide
  unfold Written.text
  rw [List.length_append]
  omega

variable {block} {read : List Entry} {error : CompileError} {context : Context}

theorem run_of_read (h : entries block.body.lines = .ok read) :
    (configBlocks block.text).run context = (.ok [], context.push (statement read)) := by
  have hreplace : (replace (Place.start block.text) block.body).run context =
      (.ok (some []), context.push (statement read)) := by
    have hupdate : (Pass.update fun context => (entries block.body.lines).map fun entries =>
        context.push (statement entries)).run context = (.ok (), context.push (statement read)) :=
      Pass.run_update_ok (by rw [h]; rfl)
    unfold replace
    rw [Pass.run_bind, hupdate]
    rfl
  have hmatch : pattern (Place.start block.text) = some (block.text.length, block.body) :=
    block.pattern_text []
  have hrest : (Place.start block.text).advance block.text.length = ⟨block.text.reverse, []⟩ := by
    simp [Place.start, Place.advance]
  have hnone : Matcher.leftmost pattern ⟨block.text.reverse, []⟩ = none := rfl
  unfold configBlocks substitute
  rw [Substitution.run_of_accepted hmatch hreplace block.length_text_pos (Nat.le_refl _), hrest,
    Substitution.substituteFrom, hnone]
  rfl

theorem run_of_error (h : entries block.body.lines = .error error) :
    (configBlocks block.text).run context =
      (.error (Substitution.reporting (Place.start block.text) block.text error), context) := by
  have hreplace : (replace (Place.start block.text) block.body).run context =
      (.error error, context) := by
    have hupdate : (Pass.update fun context => (entries block.body.lines).map fun entries =>
        context.push (statement entries)).run context = (.error error, context) :=
      Pass.run_update_error (by rw [h]; rfl)
    unfold replace
    rw [Pass.run_bind, hupdate]
  have hmatch : pattern (Place.start block.text) = some (block.text.length, block.body) :=
    block.pattern_text []
  have htake : block.text.take block.text.length = block.text := List.take_length
  unfold configBlocks substitute
  rw [Substitution.run_of_failed hmatch hreplace]
  simp only [Place.start, htake]

end Written

/-! ## What is read of the lines -/

theorem exists_read {texts : List Text}
    (h : ∀ text ∈ texts, ∃ entry : Entry, entry.IsWrittenAs text) :
    ∃ read, List.Forall₂ (fun text entry => Entry.IsWrittenAs entry text) texts read := by
  induction texts with
  | nil => exact ⟨[], List.Forall₂.nil⟩
  | cons text texts ih =>
    obtain ⟨entry, hentry⟩ := h text List.mem_cons_self
    obtain ⟨read, hread⟩ := ih fun other hother => h other (List.mem_cons_of_mem text hother)
    exact ⟨entry :: read, List.Forall₂.cons hentry hread⟩

theorem exists_malformed {texts : List Text}
    (h : ¬∀ text ∈ texts, ∃ entry : Entry, entry.IsWrittenAs text) :
    ∃ first line later, texts = first ++ line :: later ∧
      (∀ text ∈ first, ∃ entry : Entry, entry.IsWrittenAs text) ∧
      ∀ entry : Entry, ¬entry.IsWrittenAs line := by
  induction texts with
  | nil => simp at h
  | cons text texts ih =>
    by_cases htext : ∃ entry : Entry, entry.IsWrittenAs text
    · have hmore : ¬∀ other ∈ texts, ∃ entry : Entry, entry.IsWrittenAs other := by
        intro hall
        apply h
        intro other hother
        rcases List.mem_cons.mp hother with rfl | hother
        · exact htext
        · exact hall other hother
      obtain ⟨first, line, later, rfl, hfirst, hline⟩ := ih hmore
      refine ⟨text :: first, line, later, rfl, fun other hother => ?_, hline⟩
      rcases List.mem_cons.mp hother with rfl | hother
      · exact htext
      · exact hfirst other hother
    · exact ⟨[], text, texts, rfl, by simp, fun entry hentry => htext ⟨entry, hentry⟩⟩

/-- What a pass comes to that reads one entry from each of some lines: it succeeds exactly if all of
them are of the form `key: value`, and then pushes one statement with these entries in their order;
otherwise it fails at the first line that is not of the form, and pushes nothing. -/
structure ReadsEachLine (lines : List Text) (context : Context)
    (outcome : Except CompileError Text × Context) : Prop where
  isOk_iff : outcome.1.isOk ↔ ∀ line ∈ lines, ∃ entry : Entry, entry.IsWrittenAs line
  of_entries : ∀ entries : List Entry,
    List.Forall₂ (fun line entry => Entry.IsWrittenAs entry line) lines entries →
    outcome = (.ok [], context.push ("$my->config([".toList ++ Text.join ", ".toList
      (entries.map fun entry => '\'' :: entry.key ++ "' => ".toList ++ entry.value) ++
      "]);".toList))
  of_malformed : ∀ first line later, lines = first ++ line :: later →
    (∀ text ∈ first, ∃ entry : Entry, entry.IsWrittenAs text) →
    (∀ entry : Entry, ¬entry.IsWrittenAs line) →
    ∃ error, outcome = (.error error, context) ∧ error.kind = .malformedDirective ∧
      error.fragment = some line.trim

namespace Written

/-- The pieces between the line feeds of a block, as far as they say something. -/
def pieces (block : Written) : List Text :=
  (Text.split (· == '\n') block.body).filter fun piece => !piece.isBlank

variable {block : Written} {context : Context} {texts : List Text}

theorem trimmed_body (h : SeparatedByFeeds false block.lines) :
    trimmed block.body.lines = (told block.lines).map Text.trim := by
  have hlines : SeparatedByFeeds (!Text.isBlank []) (block.firstLine :: block.lines) := by
    refine ⟨fun _ => rfl, ?_⟩
    have hnone : (decide (block.firstLine.ending = .cr) &&
        (!Text.isBlank [] || !block.firstLine.text.isBlank)) = false := Bool.and_false _
    rwa [hnone]
  have hnone : '\n' ∉ ([] : Text) := List.not_mem_nil
  have hsplit := trimmed_split hnone hlines
  rw [List.nil_append] at hsplit
  rw [trimmed_lines, body, hsplit, List.map_cons, trimmed_cons_eq]
  rfl

theorem run_of_entries {read : List Entry}
    (h : trimmed block.body.lines = texts.map Text.trim)
    (hread : List.Forall₂ (fun text entry => Entry.IsWrittenAs entry text) texts read) :
    (configBlocks block.text).run context = (.ok [], context.push (statement read)) := by
  apply run_of_read
  apply entries_of_forall₂
  rw [h, List.forall₂_map_left_iff]
  exact hread.imp fun _ _ => Entry.isWrittenAs_trim.mpr

theorem run_of_malformed {first later : List Text} {line : Text}
    (h : trimmed block.body.lines = texts.map Text.trim) (htexts : texts = first ++ line :: later)
    (hfirst : ∀ text ∈ first, ∃ entry : Entry, entry.IsWrittenAs text)
    (hline : ∀ entry : Entry, ¬entry.IsWrittenAs line) (context : Context) :
    ∃ error, (configBlocks block.text).run context = (.error error, context) ∧
      error.kind = .malformedDirective ∧ error.fragment = some line.trim := by
  have htrimmed : trimmed block.body.lines =
      first.map Text.trim ++ line.trim :: later.map Text.trim := by
    rw [h, htexts, List.map_append, List.map_cons]
  have hentries : ∀ text ∈ first.map Text.trim, ∃ entry : Entry, entry.IsWrittenAs text := by
    intro text htext
    obtain ⟨other, hother, rfl⟩ := List.mem_map.mp htext
    obtain ⟨entry, hentry⟩ := hfirst other hother
    exact ⟨entry, Entry.isWrittenAs_trim.mpr hentry⟩
  obtain ⟨found, herror, hfound⟩ := entries_of_malformed htrimmed hentries
    fun entry hentry => hline entry (Entry.isWrittenAs_trim.mp hentry)
  refine ⟨_, run_of_error herror, ?_, ?_⟩
  · simp [Substitution.reporting, CompileError.kind, CompileError.ofCause, ErrorCause.kind]
  · simp only [Substitution.reporting, CompileError.blame, CompileError.locate]
    split <;> simp [CompileError.ofCause, ErrorCause.fragment, hfound]

/-- The pass reads one entry from each of some lines if these say what the pieces of the block
say. -/
theorem readsEachLine (h : trimmed block.body.lines = texts.map Text.trim) (context : Context) :
    ReadsEachLine texts context ((configBlocks block.text).run context) where
  isOk_iff := by
    constructor
    · intro hok
      apply Classical.byContradiction
      intro hnone
      obtain ⟨first, line, later, htexts, hfirst, hline⟩ := exists_malformed hnone
      obtain ⟨error, hrun, -⟩ := run_of_malformed h htexts hfirst hline context
      rw [hrun] at hok
      cases hok
    · intro hall
      obtain ⟨read, hread⟩ := exists_read hall
      rw [run_of_entries h hread]
      rfl
  of_entries _ hentries := run_of_entries h hentries
  of_malformed _ _ _ htexts hfirst hline := run_of_malformed h htexts hfirst hline context

end Written

end Config

/-- The pass over a configuration block reads one entry from each piece between two line feeds. If a
line feed stands between any two lines that say something, it reads one entry from each of these
lines, be they ended as they may. -/
theorem configBlocks_reads_each_line (block : Config.Written) (context : Context) :
    Config.ReadsEachLine block.pieces context ((configBlocks block.text).run context) ∧
      (Config.SeparatedByFeeds false block.lines →
        Config.ReadsEachLine (Config.told block.lines) context
          ((configBlocks block.text).run context)) :=
  ⟨Config.Written.readsEachLine (Config.trimmed_lines block.body) context,
    fun h => Config.Written.readsEachLine (Config.Written.trimmed_body h) context⟩

/-- Line breaks of all kinds, and values with colons and commas. -/
theorem configBlocks_reads_each_line_of_mixture :
    let block : Config.Written := ⟨[' '], .lf,
      [⟨"  path: a:b, ".toList, .crlf, by decide⟩, ⟨[], .cr, by decide⟩,
        ⟨"x-y :1,,".toList, .lf, by decide⟩, ⟨"z: ,".toList, .cr, by decide⟩],
      "  ".toList, ['\n'], by decide, by decide, by decide⟩
    block.text = "@config \n  path: a:b, \r\n\rx-y :1,,\nz: ,\r  @endconfig\n".toList ∧
    Config.SeparatedByFeeds false block.lines ∧
    (configBlocks block.text).run Context.initial = (.ok [], Context.initial.push
      "$my->config(['path' => a:b, 'x-y' => 1,, 'z' => ,]);".toList) := by
  intro block
  have hseparated : Config.SeparatedByFeeds false block.lines := by decide
  have htold : Config.told block.lines =
      ["  path: a:b, ".toList, "x-y :1,,".toList, "z: ,".toList] := by decide
  have hpath : Entry.IsWrittenAs ⟨"path".toList, "a:b".toList⟩ "  path: a:b, ".toList :=
    Entry.parse?_eq_some_iff.mp (by decide +kernel)
  have hname : Entry.IsWrittenAs ⟨"x-y".toList, "1,".toList⟩ "x-y :1,,".toList :=
    Entry.parse?_eq_some_iff.mp (by decide +kernel)
  have hcomma : Entry.IsWrittenAs ⟨"z".toList, ",".toList⟩ "z: ,".toList :=
    Entry.parse?_eq_some_iff.mp (by decide +kernel)
  have hreads := (configBlocks_reads_each_line block Context.initial).2 hseparated
  rw [htold] at hreads
  have hrun := hreads.of_entries _ (.cons hpath (.cons hname (.cons hcomma .nil)))
  exact ⟨by decide, hseparated, hrun⟩

/-- Two entries on lines that are ended by carriage returns are read as one. -/
theorem configBlocks_joins_lines :
    let block : Config.Written := ⟨[], .cr,
      [⟨"a: 1".toList, .cr, by decide⟩, ⟨"b: 2".toList, .cr, by decide⟩], [], [],
      by decide, by decide, by decide⟩
    let entries : List Entry := [⟨"a".toList, "1".toList⟩, ⟨"b".toList, "2".toList⟩]
    block.text = "@config\ra: 1\rb: 2\r@endconfig".toList ∧
    List.Forall₂ (fun line entry => Entry.IsWrittenAs entry line) (Config.told block.lines)
        entries ∧
    (configBlocks block.text).run Context.initial =
      (.ok [], Context.initial.push "$my->config(['a' => 1\rb: 2]);".toList) ∧
    ¬Config.ReadsEachLine (Config.told block.lines) Context.initial
      ((configBlocks block.text).run Context.initial) := by
  intro block entries
  have htold : Config.told block.lines = ["a: 1".toList, "b: 2".toList] := by decide
  have hfirst : Entry.IsWrittenAs ⟨"a".toList, "1".toList⟩ "a: 1".toList :=
    Entry.parse?_eq_some_iff.mp (by decide +kernel)
  have hsecond : Entry.IsWrittenAs ⟨"b".toList, "2".toList⟩ "b: 2".toList :=
    Entry.parse?_eq_some_iff.mp (by decide +kernel)
  have hentries : List.Forall₂ (fun line entry => Entry.IsWrittenAs entry line)
      (Config.told block.lines) entries := by
    rw [htold]
    exact .cons hfirst (.cons hsecond .nil)
  have hread : Config.entries block.body.lines =
      .ok [⟨"a".toList, "1\rb: 2".toList⟩] := by
    rfl
  have hrun : (configBlocks block.text).run Context.initial =
      (.ok [], Context.initial.push "$my->config(['a' => 1\rb: 2]);".toList) :=
    Config.Written.run_of_read hread
  refine ⟨by decide, hentries, hrun, fun hreads => ?_⟩
  have hother := hreads.of_entries entries hentries
  rw [hrun] at hother
  exact absurd (congrArg (·.2.prolog) hother) (by decide)

end TemplateCompiler.Directive
