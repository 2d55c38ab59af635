import TemplateCompiler.Proofs.QuietConstruction

/-!
# Generated statements

What a component becomes is a statement that opens and closes output buffers like brackets: content
whose output has to be captured stands between the start of a buffer and the expression that takes
it. No step of a text around the statement runs into it.
-/
namespace TemplateCompiler

open DyckStep

namespace Code

/-- What an output statement has before its expression. -/
def outputStart (mode : OutputMode) (lead : Text) : Text :=
  match mode with
  | .pretty => lead ++ "<?php _h\\out(".toList
  | .compact => "<?php echo ".toList

/-- What an output statement has after its expression. -/
def outputEnd (mode : OutputMode) (indent : Text) : Text :=
  match mode with
  | .pretty => ", ".toList ++ singleQuoted indent ++ ") ?> ".toList
  | .compact => " ?> ".toList

theorem output_eq (mode : OutputMode) (lead indent expression : Text) :
    output mode lead indent expression =
      outputStart mode lead ++ expression ++ outputEnd mode indent := by
  unfold output outputStart outputEnd
  cases mode with
  | pretty =>
    simp only
    rw [← List.append_assoc, ← List.append_assoc]
  | compact => rfl

/-- An output statement begins with the blanks before it, if any. -/
theorem output_opens (mode : OutputMode) {lead : Text} (hlead : lead.all Text.isSpaceOrTab)
    (indent expression : Text) : ∃ blanks rest,
      output mode lead indent expression = blanks ++ '<' :: rest ∧
        blanks.all Text.isSpaceOrTab := by
  rw [output_eq]
  cases mode with
  | pretty =>
    have hstart : "<?php _h\\out(".toList = '<' :: "?php _h\\out(".toList := by decide
    refine ⟨lead, "?php _h\\out(".toList ++ expression ++ outputEnd .pretty indent, ?_, hlead⟩
    unfold outputStart
    simp only [hstart, List.append_assoc, List.cons_append]
  | compact => exact ⟨[], _, rfl, rfl⟩

theorem output_closes (mode : OutputMode) (lead indent expression : Text) :
    ∃ front, output mode lead indent expression = front ++ ['>', ' '] := by
  rw [output_eq]
  cases mode with
  | pretty =>
    refine ⟨outputStart .pretty lead ++ expression ++ (", ".toList ++ singleQuoted indent ++
      ") ?".toList), ?_⟩
    rw [List.append_assoc _ _ ['>', ' '], List.append_assoc _ _ ['>', ' ']]
    rfl
  | compact =>
    refine ⟨outputStart .compact lead ++ expression ++ " ?".toList, ?_⟩
    rw [List.append_assoc _ _ ['>', ' ']]
    rfl

end Code

theorem not_mem_of_blank {blanks : Text} {c : Char} (h : blanks.all Text.isSpaceOrTab)
    (hc : Text.isSpaceOrTab c = false) : c ∉ blanks := by
  intro hmem
  rw [List.all_eq_true.mp h c hmem] at hc
  cases hc

theorem unbuffered_of_blank {blanks : Text} (h : blanks.all Text.isSpaceOrTab) :
    Unbuffered blanks :=
  .of_not_mem (by decide : '_' ∈ _) (not_mem_of_blank h (by decide))

/-- The statement that writes a component has the steps of the content. -/
theorem Construction.IsQuiet.bufferSteps_output {construction : Construction}
    (h : construction.IsQuiet) (mode : OutputMode) {lead indent : Text}
    (hlead : lead.all Text.isSpaceOrTab) (hindent : indent.all Text.isSpaceOrTab)
    (content : Text) :
    bufferSteps (Code.output mode lead indent (construction.code content)) =
      bufferSteps content := by
  rw [Code.output_eq]
  cases mode with
  | pretty =>
    apply h.bufferSteps_code
    · have hstart : Quiet (lead ++ "<?php _h".toList) := by
        apply @quiet_of_not_mem _ ')' (by decide) (by decide)
        rw [List.mem_append, not_or]
        exact ⟨not_mem_of_blank hlead (by decide), by decide⟩
      have hopening := @IsSymbol.quiet_opening _ "out((new ".toList h.symbol (by decide) (by decide)
      have hquiet := hstart.append_cons hopening (by decide : '\\' ∉ _) (by decide)
      have hbegins : "<?php _h\\out(".toList = "<?php _h".toList ++ '\\' :: "out(".toList := by
        decide
      have hnew : "out((new ".toList = "out(".toList ++ "(new ".toList := by decide
      rw [hnew] at hquiet
      unfold Code.outputStart
      simpa only [hbegins, List.append_assoc, List.cons_append] using hquiet
    · have hquoted := (unbuffered_of_blank hindent).singleQuoted
      have hend : Unbuffered (Code.singleQuoted indent ++ ')' :: " ?> ".toList) :=
        hquoted.append_cons rfl (by decide)
      have hrun : Unbuffered ">run()".toList := rfl
      have hall := hrun.append_cons (hend.cons (by decide : ' ' ∉ _)) (by decide : ',' ∉ _)
      rw [Code.outputEnd, List.append_assoc]
      exact hall
  | compact =>
    apply h.bufferSteps_code
    · exact @IsSymbol.quiet_opening _ ("<?php echo ".toList ++ "(new ".toList) h.symbol
        (by decide) (by decide)
    · rfl

/-- A generated statement: its buffers balance, and nothing runs over its ends. -/
structure IsStatement (text : Text) : Prop where
  balanced : Balanced text
  opens : ∃ blanks rest, text = blanks ++ '<' :: rest ∧ blanks.all Text.isSpaceOrTab
  closes : ∃ front, text = front ++ ['>', ' ']

/-- A statement between balanced texts leaves them balanced. -/
theorem IsStatement.balanced_between {text first second : Text} (h : IsStatement text)
    (hfirst : Balanced first) (hsecond : Balanced second) :
    Balanced (first ++ text ++ second) := by
  have hbefore : Apart first text := by
    obtain ⟨blanks, rest, htext, hblanks⟩ := h.opens
    rw [htext]
    exact apart_of_blanks hblanks first rest
  have hbehind : Apart (first ++ text) second := by
    obtain ⟨front, hfront⟩ := h.closes
    rw [hfront, ← List.append_assoc]
    exact apart_of_statement (first ++ front) second
  exact (hfirst.append h.balanced hbefore).append hsecond hbehind

theorem bufferSteps_blank {blanks : Text} (h : blanks.all Text.isSpaceOrTab) :
    bufferSteps blanks = [] :=
  (unbuffered_of_blank h).quiet.bufferSteps_eq

/-- Balanced content between a buffer that is opened and a statement that closes one. -/
theorem isStatement_of_captured {lead content indent taken : Text}
    (hlead : lead.all Text.isSpaceOrTab) (hcontent : Balanced content)
    (hindent : indent.all Text.isSpaceOrTab) (htaken : bufferSteps taken = [D])
    (hopens : ∃ blanks rest, taken = blanks ++ '<' :: rest ∧ blanks.all Text.isSpaceOrTab)
    (hcloses : ∃ front, taken = front ++ ['>', ' ']) :
    IsStatement (lead ++ Code.capture ++ content ++ indent ++ taken) := by
  obtain ⟨word, hword⟩ := hcontent
  obtain ⟨blanks, rest, hopens, hblanks⟩ := hopens
  have hcapture : Code.capture = "<?php ob_start() ?".toList ++ ['>'] := rfl
  have hopened : bufferSteps (lead ++ Code.capture) = [U] := by
    have happart : Apart lead Code.capture := @apart_of_blanks [] rfl lead _
    rw [bufferSteps_append happart, bufferSteps_blank hlead]
    rfl
  have hinside : bufferSteps (lead ++ Code.capture ++ content) = U :: bufferSteps content := by
    have happart : Apart (lead ++ Code.capture) content := by
      rw [hcapture, ← List.append_assoc]
      exact apart_of_bracket _ content
    rw [bufferSteps_append happart, hopened]
    rfl
  have hclosed : bufferSteps (indent ++ taken) = [D] := by
    have happart : Apart indent taken := by
      rw [hopens]
      exact apart_of_blanks hblanks indent rest
    rw [bufferSteps_append happart, bufferSteps_blank hindent, htaken]
    rfl
  have hseam : Apart (lead ++ Code.capture ++ content) (indent ++ taken) := by
    rw [hopens, ← List.append_assoc]
    refine apart_of_blanks ?_ _ rest
    rw [List.all_append, hindent, hblanks]
    rfl
  refine ⟨⟨word.nest, ?_⟩, ⟨lead, Code.capture.tail ++ content ++ indent ++ taken, ?_, hlead⟩, ?_⟩
  · rw [List.append_assoc _ indent, bufferSteps_append hseam, hinside, hclosed, ← hword]
    rfl
  · have hbegins : Code.capture = '<' :: Code.capture.tail := rfl
    rw [hbegins]
    simp only [List.append_assoc, List.cons_append, List.tail_cons]
  · obtain ⟨front, hfront⟩ := hcloses
    exact ⟨lead ++ Code.capture ++ content ++ indent ++ front, by
      rw [hfront, ← List.append_assoc]⟩

namespace Component

variable {construction : Construction} {indent compiled : Text}

theorem isStatement_literal (h : construction.IsQuiet) (options : Options)
    (hindent : indent.all Text.isSpaceOrTab) (hcompiled : Balanced compiled) :
    IsStatement (Code.output options.mode indent indent
      (construction.code (Code.singleQuoted compiled.trim))) := by
  refine ⟨?_, Code.output_opens _ hindent _ _, Code.output_closes _ _ _ _⟩
  obtain ⟨word, hword⟩ := hcompiled
  refine ⟨word, ?_⟩
  rw [h.bufferSteps_output _ hindent hindent, bufferSteps_singleQuoted, bufferSteps_trim, hword]

theorem isStatement_dynamic (h : construction.IsQuiet) (options : Options)
    (hindent : indent.all Text.isSpaceOrTab) (hcompiled : Balanced compiled) :
    IsStatement (Code.buffered options.mode indent indent compiled indent
      (construction.code Code.captured)) := by
  have hlead : (if options.mode = .pretty then indent else []).all Text.isSpaceOrTab := by
    split
    · exact hindent
    · rfl
  have htaken := h.bufferSteps_output options.mode (rfl : List.all [] _) hindent Code.captured
  exact isStatement_of_captured hlead hcompiled hindent htaken
    (Code.output_opens _ rfl _ _) (Code.output_closes _ _ _ _)

/-- What a component becomes is a statement if its content is balanced. -/
theorem isStatement_code (h : construction.IsQuiet) (options : Options)
    (hindent : indent.all Text.isSpaceOrTab) (hcompiled : Balanced compiled) :
    IsStatement (code options indent construction compiled) := by
  unfold code Code.Content.classify
  split
  · rename_i content hcontent
    split at hcontent
    · cases hcontent
    · cases hcontent
      exact isStatement_literal h options hindent hcompiled
  · rename_i content hcontent
    split at hcontent
    · cases hcontent
      exact isStatement_dynamic h options hindent hcompiled
    · cases hcontent

end Component

end TemplateCompiler
