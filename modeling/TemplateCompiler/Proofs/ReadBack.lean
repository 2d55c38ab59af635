import Mathlib
import TemplateCompiler.Proofs.InterpolatedSegments

/-!
# Reading interpolated text back

The segments of an expression are read from their texts alone: a string literal character by
character, where a backslash escapes and braces enclose a variable, and any other segment as an
expression. This gives back the pieces of the attribute text, up to how its literal text is cut.
-/
namespace TemplateCompiler.Interpolation

/-- A variable at the start of a text that a closing brace follows, and what stands behind that. -/
def reference? (text : Text) : Option (Text × Text) :=
  (Text.after? ['$'] text).bind fun rest =>
    let name := rest.takeWhile isWordChar
    if name.isEmpty then none
    else (Text.after? ['\x7d'] (rest.dropWhile isWordChar)).map fun after => ('$' :: name, after)

/-- What stands first inside a string literal: an escaped character, a variable in braces or the
character `c` itself. -/
def readPart (c : Char) (rest : Text) : Piece × Text :=
  if c = '\\' ∧ rest.head?.any Code.isDoubleQuotedSpecial then
    (.literal (rest.take 1), rest.drop 1)
  else
    ((if c = '\x7b' then reference? rest else none).map fun found =>
      (.embedded found.1, found.2)).getD (.literal [c], rest)

theorem length_reference? {text name after : Text} (h : reference? text = some (name, after)) :
    after.length < text.length := by
  obtain ⟨rest, hrest, h⟩ := Option.bind_eq_some_iff.mp h
  simp only at h
  split at h
  · cases h
  · obtain ⟨_, hafter, hfound⟩ := Option.map_eq_some_iff.mp h
    cases hfound
    have hlength := congrArg List.length (Text.after?_eq_some_iff.mp hafter)
    have hdrop := (List.dropWhile_suffix isWordChar (l := rest)).length_le
    rw [Text.after?_eq_some_iff.mp hrest]
    simp only [List.length_append, List.length_singleton] at hlength ⊢
    omega

theorem length_readPart (c : Char) (rest : Text) : (readPart c rest).2.length ≤ rest.length := by
  unfold readPart
  split
  · simp
  · split
    · cases hfound : reference? rest with
      | none => simp
      | some found => exact (length_reference? hfound).le
    · simp

/-- Reads a string literal behind its opening quote. The first quote that is not escaped has to be
the end. -/
def readString? : Text → Option (List Piece)
  | [] => none
  | c :: rest =>
    if c = '"' then if rest.isEmpty then some [] else none
    else (readString? (readPart c rest).2).map ((readPart c rest).1 :: ·)
termination_by text => text.length
decreasing_by
  have := length_readPart c rest
  simp only [List.length_cons]
  omega

/-- Reads a segment: a string literal, an expression in parentheses or an expression that stands
for itself. -/
def readSegment? : Text → Option (List Piece)
  | '"' :: rest => readString? rest
  | '(' :: rest => if rest.getLast? = some ')' then some [.embedded rest.dropLast] else none
  | code => some [.embedded code]

def readSegments? : List Text → Option (List Piece)
  | [] => some []
  | segment :: segments => (readSegment? segment).bind fun first =>
    (readSegments? segments).map (first ++ ·)

section Strings

variable {c : Char} {rest name : Text}

theorem readString?_quote : readString? ['"'] = some [] := by
  rw [readString?]
  rfl

theorem readString?_cons (hc : c ≠ '"') {piece : Piece} {after : Text}
    (hpart : readPart c rest = (piece, after)) :
    readString? (c :: rest) = (readString? after).map (piece :: ·) := by
  rw [readString?, if_neg hc, hpart]

theorem readPart_escaped (hc : Code.isDoubleQuotedSpecial c) :
    readPart '\\' (c :: rest) = (.literal [c], rest) := by
  rw [readPart, if_pos ⟨rfl, hc⟩]
  rfl

theorem readPart_plain (hc : Code.isDoubleQuotedSpecial c = false) (hrest : rest.head? ≠ some '$') :
    readPart c rest = (.literal [c], rest) := by
  have hslash : c ≠ '\\' := by
    rintro rfl
    cases hc
  have hnone : reference? rest = none := by
    cases rest with
    | nil => rfl
    | cons d rest =>
      have hd : '$' ≠ d := fun hd => hrest (hd ▸ rfl)
      rw [reference?, Text.after?, if_neg hd, Option.bind_none]
  rw [readPart, if_neg fun h => hslash h.1, hnone, ite_self]
  rfl

theorem readPart_reference (h : isVariable name) :
    readPart '\x7b' (name ++ '\x7d' :: rest) = (.embedded name, rest) := by
  unfold isVariable at h
  split at h
  · rename_i word
    rw [Bool.and_eq_true, Bool.not_eq_true'] at h
    have hbrace : isWordChar '\x7d' = false := by decide
    obtain ⟨htake, hdrop⟩ := @Text.takeWhile_word isWordChar word rest '\x7d' h.2 hbrace
    have hfound : reference? ('$' :: word ++ '\x7d' :: rest) = some ('$' :: word, rest) := by
      rw [reference?, List.cons_append, Text.after?, if_pos rfl, Text.after?, Option.bind_some,
        htake, hdrop]
      simp only [h.1, Bool.false_eq_true, if_false]
      rfl
    have hbackslash : '\x7b' ≠ '\\' := by decide
    rw [readPart, if_neg fun h => hbackslash h.1, if_pos rfl, hfound]
    rfl
  · cases h

/-- The inside of a literal goes on with a dollar sign only after a brace or a backslash. -/
theorem head?_doubleQuotedBody (text : Text) (hrest : rest.head? ≠ some '$') :
    (Code.doubleQuotedBody text ++ rest).head? ≠ some '$' := by
  cases text with
  | nil => exact hrest
  | cons c text =>
    cases hc : Code.isDoubleQuotedSpecial c with
    | true => simp [Code.doubleQuotedBody, Code.escape, hc]
    | false =>
      have hdollar : c ≠ '$' := by
        rintro rfl
        cases hc
      simp [Code.doubleQuotedBody, Code.escape, hc, hdollar]

theorem readString?_doubleQuotedBody (text : Text) (hrest : rest.head? ≠ some '$') :
    readString? (Code.doubleQuotedBody text ++ rest) =
      (readString? rest).map (text.map (fun c => .literal [c]) ++ ·) := by
  induction text with
  | nil => simp [Code.doubleQuotedBody]
  | cons c text ih =>
    have hbody : Code.doubleQuotedBody (c :: text) = (if Code.isDoubleQuotedSpecial c then
        ['\\', c] else [c]) ++ Code.doubleQuotedBody text := rfl
    rw [hbody, List.append_assoc]
    cases hc : Code.isDoubleQuotedSpecial c with
    | true =>
      rw [if_pos rfl, List.cons_append, List.singleton_append,
        readString?_cons (by decide) (readPart_escaped hc), ih, Option.map_map]
      rfl
    | false =>
      have hquote : c ≠ '"' := by
        rintro rfl
        cases hc
      rw [if_neg Bool.false_ne_true, List.singleton_append,
        readString?_cons hquote (readPart_plain hc (head?_doubleQuotedBody text hrest)), ih,
        Option.map_map]
      rfl

theorem readString?_reference (h : isVariable name) :
    readString? (Part.render (.reference name) ++ rest) =
      (readString? rest).map (.embedded name :: ·) := by
  have hrender : Part.render (.reference name) ++ rest = '\x7b' :: (name ++ '\x7d' :: rest) := by
    simp [Part.render]
  rw [hrender, readString?_cons (by decide) (readPart_reference h)]

end Strings

section Segments

/-- The pieces of text that a part of a literal is read as. -/
def Part.read : Part → List Piece
  | text body => body.map fun c => .literal [c]
  | reference name => [.embedded name]

theorem head?_parts (parts : List Part) :
    (parts.flatMap Part.render ++ ['"']).head? ≠ some '$' := by
  induction parts with
  | nil => decide
  | cons part parts ih =>
    rw [List.flatMap_cons, List.append_assoc]
    cases part with
    | text body => exact head?_doubleQuotedBody body ih
    | reference name => simp [Part.render]

theorem readString?_parts {parts : List Part}
    (h : ∀ name, .reference name ∈ parts → isVariable name) :
    readString? (parts.flatMap Part.render ++ ['"']) = some (parts.flatMap Part.read) := by
  induction parts with
  | nil => exact readString?_quote
  | cons part parts ih =>
    have hrest := ih fun name hname => h name (List.mem_cons_of_mem _ hname)
    rw [List.flatMap_cons, List.append_assoc]
    cases part with
    | text body =>
      rw [Part.render, readString?_doubleQuotedBody body (head?_parts parts), hrest]
      rfl
    | reference name =>
      rw [readString?_reference (h name List.mem_cons_self), hrest]
      rfl

theorem foldr_read (part : Part) (pieces : List Piece) :
    part.read.foldr addFirst pieces = addFirst part.piece pieces := by
  cases part with
  | text body =>
    rw [Part.read, Part.piece]
    induction body with
    | nil => exact (addFirst_nil pieces).symm
    | cons c body ih => rw [List.map_cons, List.foldr_cons, ih, ← addFirst_cons]
  | reference name => rfl

theorem readSegment?_render {segment : Segment} (h : segment.IsProper) :
    ∃ read, readSegment? segment.render = some read ∧
      ∀ pieces, read.foldr addFirst pieces = segment.pieces.foldr addFirst pieces := by
  cases segment with
  | string parts =>
    refine ⟨_, readString?_parts h, ?_⟩
    intro pieces
    rw [Segment.pieces]
    clear h
    induction parts with
    | nil => rfl
    | cons part parts ih =>
      rw [List.flatMap_cons, List.foldr_append, ih, foldr_read]
      rfl
  | plain code =>
    refine ⟨[.embedded code], ?_, fun _ => rfl⟩
    rw [Segment.render]
    unfold readSegment?
    split
    · rcases h with h | h <;> cases h
    · rcases h with h | h <;> cases h
    · rfl
  | wrapped code =>
    refine ⟨[.embedded code], ?_, fun _ => rfl⟩
    rw [Segment.render, List.cons_append, readSegment?, List.getLast?_concat, if_pos rfl,
      List.dropLast_concat]

theorem readSegments?_render {segments : List Segment}
    (h : ∀ segment ∈ segments, segment.IsProper) :
    ∃ read, readSegments? (segments.map Segment.render) = some read ∧
      ∀ pieces, read.foldr addFirst pieces =
        (segments.flatMap Segment.pieces).foldr addFirst pieces := by
  induction segments with
  | nil => exact ⟨[], rfl, fun _ => rfl⟩
  | cons segment segments ih =>
    obtain ⟨first, hfirst, hsame⟩ := readSegment?_render (h segment List.mem_cons_self)
    obtain ⟨later, hlater, hsame'⟩ := ih fun segment hmem => h segment (List.mem_cons_of_mem _ hmem)
    refine ⟨first ++ later, ?_, ?_⟩
    · rw [List.map_cons, readSegments?, hfirst, Option.bind_some, hlater, Option.map_some]
    · intro pieces
      rw [List.flatMap_cons, List.foldr_append, List.foldr_append, hsame', hsame]

end Segments

/-- Whenever an attribute text compiles, the expression is made of segments whose texts read back
to the pieces of the attribute text, in order and up to the merging of literal ones. -/
theorem segments_read_back {tags : Text × Text} (htags : tags ≠ ([], [])) {value code : Text}
    (h : compile tags value = .ok code) :
    ∃ pieces, (∀ other, Divides tags value other ↔ other = pieces) ∧
      ∃ segments, render segments = code ∧
        ∃ read, readSegments? (segments.map Segment.render) = some read ∧
          merged read = merged pieces := by
  have hdivides := divides_pieces htags value
  obtain ⟨read, hread, hsame⟩ := readSegments?_render fun segment hmem =>
    @isProper_of_mem_segments tags value segment hmem
  refine ⟨pieces tags value, ?_, segments tags value, (compile_eq_ok_iff.mp h).1, read, hread, ?_⟩
  · intro other
    constructor
    · exact hdivides.unique htags
    · rintro rfl
      exact hdivides
  · calc
      merged read = merged ((segments tags value).flatMap Segment.pieces) := hsame []
      _ = merged (pieces tags value) := by rw [flatMap_segments, merged_filter]

/-- Literal text that looks like a variable and a backslash in front of a variable are told from
the variable itself, and tags around a blank stay as they are. -/
theorem segments_read_back_of_mixed :
    let tags := ({} : Markers).echo
    let value :=
      "\x7b$a\x7d \\\x7b\x7b $b \x7d\x7d\x7b\x7b f('x') \x7d\x7d \x7b\x7b \x7d\x7d".toList
    let code := "\"\x7b\\$a\x7d \\\\\x7b$b\x7d\".(f('x')).\" \x7b\x7b \x7d\x7d\"".toList
    tags ≠ ([], []) ∧ compile tags value = .ok code ∧
      ∃ segments, render segments = code ∧
        ∃ read, readSegments? (segments.map Segment.render) = some read ∧
          merged read = [.literal "\x7b$a\x7d \\".toList, .embedded "$b".toList,
            .embedded "f('x')".toList, .literal " \x7b\x7b \x7d\x7d".toList] := by
  intro tags value code
  have htags : tags ≠ ([], []) := by decide
  have hcode : compile tags value = .ok code := by
    subst code value tags
    cbv
  have hpieces : merged (pieces tags value) = [.literal "\x7b$a\x7d \\".toList,
      .embedded "$b".toList, .embedded "f('x')".toList,
      .literal " \x7b\x7b \x7d\x7d".toList] := by
    subst code value tags
    cbv
  obtain ⟨found, hunique, hread⟩ := segments_read_back htags hcode
  rw [← (hunique _).mp (divides_pieces htags value), hpieces] at hread
  exact ⟨htags, hcode, hread⟩

end TemplateCompiler.Interpolation
