import TemplateCompiler.Proofs.InterpolatedPieces

/-!
# The segments of an interpolated text

Pieces of text are pushed onto segments one by one. The segments keep all of them in order, but for
literal pieces that are empty, and each segment can be told from the other kinds by how its text
begins.
-/
namespace TemplateCompiler.Interpolation

def Part.piece : Part → Piece
  | text body => .literal body
  | reference name => .embedded name

def Segment.pieces : Segment → List Piece
  | string parts => parts.map Part.piece
  | plain code => [.embedded code]
  | wrapped code => [.embedded code]

/-- The pieces of all segments, of which the last one comes first. -/
def piecesOf (segments : List Segment) : List Piece := segments.reverse.flatMap Segment.pieces

/-- Whether a segment is of a kind that fits what it holds: variables in strings, and variables and
words outside. -/
def Segment.IsProper : Segment → Prop
  | string parts => ∀ name, .reference name ∈ parts → isVariable name
  | plain code => isVariable code ∨ code.all isWordChar
  | wrapped _ => True

variable {built : List Segment}

theorem piecesOf_cons (segment : Segment) (segments : List Segment) :
    piecesOf (segment :: segments) = piecesOf segments ++ segment.pieces := by
  rw [piecesOf, List.reverse_cons, List.flatMap_append, List.flatMap_singleton]
  rfl

theorem piecesOf_pushPart (part : Part) (segments : List Segment) :
    piecesOf (pushPart part segments) = piecesOf segments ++ [part.piece] := by
  unfold pushPart
  split
  · rw [piecesOf_cons, piecesOf_cons, Segment.pieces, List.map_append, List.append_assoc]
    rfl
  · rw [piecesOf_cons]
    rfl

/-- A piece that is pushed becomes the last one, unless it is empty. -/
theorem piecesOf_push (built : List Segment) (piece : Piece) :
    piecesOf (push built piece) = piecesOf built ++ [piece].filter (· ≠ .literal []) := by
  cases piece with
  | literal text =>
    rw [push, pushLiteral]
    split
    · rename_i hempty
      rw [List.isEmpty_iff.mp hempty]
      simp
    · rename_i hempty
      have hne : Piece.literal text ≠ .literal [] := by simpa using hempty
      rw [piecesOf_pushPart, List.filter_cons_of_pos (by simpa using hne)]
      rfl
  | embedded expression =>
    have hkept : [Piece.embedded expression].filter (· ≠ .literal []) =
        [.embedded expression] := rfl
    rw [hkept, push]
    unfold pushExpression
    split
    · split
      · exact piecesOf_pushPart (.reference expression) _
      · exact piecesOf_cons (.plain expression) _
    · split
      · exact piecesOf_cons (.plain expression) _
      · exact piecesOf_cons (.wrapped expression) _

theorem piecesOf_foldl_push (pieces : List Piece) (built : List Segment) :
    piecesOf (pieces.foldl push built) = piecesOf built ++ pieces.filter (· ≠ .literal []) := by
  induction pieces generalizing built with
  | nil => exact (List.append_nil _).symm
  | cons piece pieces ih =>
    rw [List.foldl_cons, ih, piecesOf_push, List.append_assoc, ← List.filter_append,
      List.singleton_append]

/-- The segments of a text hold its pieces, but for empty ones. -/
theorem flatMap_segments (tags : Text × Text) (value : Text) :
    (segments tags value).flatMap Segment.pieces =
      (pieces tags value).filter (· ≠ .literal []) :=
  piecesOf_foldl_push (pieces tags value) []

/-- Empty pieces leave the segments as they are. -/
theorem foldl_push_filter (pieces : List Piece) (built : List Segment) :
    (pieces.filter (· ≠ .literal [])).foldl push built = pieces.foldl push built := by
  induction pieces generalizing built with
  | nil => rfl
  | cons piece pieces ih =>
    by_cases hempty : piece = .literal []
    · rw [List.filter_cons_of_neg (by simpa using hempty), ih, List.foldl_cons, hempty]
      rfl
    · rw [List.filter_cons_of_pos (by simpa using hempty), List.foldl_cons, List.foldl_cons, ih]

/-- An expression that stands alone becomes that expression. -/
theorem render_of_merged {tags : Text × Text} {value expression : Text}
    (h : merged (pieces tags value) = [.embedded expression]) :
    render (segments tags value) = expression := by
  rw [segments, ← foldl_push_filter, filter_of_merged h, List.foldl_cons, List.foldl_nil, push]
  unfold pushExpression
  split
  · exact Text.join_singleton ['.'] expression
  · split
    · exact Text.join_singleton ['.'] expression
    · rfl

theorem isProper_pushPart (h : ∀ segment ∈ built, segment.IsProper) {part : Part}
    (hpart : ∀ name, part = .reference name → isVariable name) :
    ∀ segment ∈ pushPart part built, segment.IsProper := by
  unfold pushPart
  split
  · rename_i parts rest
    rw [List.forall_mem_cons] at h ⊢
    refine ⟨?_, h.2⟩
    intro name hname
    rcases List.mem_append.mp hname with hname | hname
    · exact h.1 name hname
    · exact hpart name (List.mem_singleton.mp hname).symm
  · rw [List.forall_mem_cons]
    refine ⟨?_, h⟩
    intro name hname
    exact hpart name (List.mem_singleton.mp hname).symm

theorem isProper_push (h : ∀ segment ∈ built, segment.IsProper) (piece : Piece) :
    ∀ segment ∈ push built piece, segment.IsProper := by
  cases piece with
  | literal text =>
    rw [push, pushLiteral]
    split
    · exact h
    · exact isProper_pushPart h fun name hname => by cases hname
  | embedded expression =>
    rw [push]
    unfold pushExpression
    split
    · rename_i hvariable
      split
      · refine isProper_pushPart h ?_
        rintro name ⟨⟩
        exact hvariable
      · exact List.forall_mem_cons.mpr ⟨Or.inl hvariable, h⟩
    · split
      · rename_i hword
        exact List.forall_mem_cons.mpr ⟨Or.inr hword, h⟩
      · exact List.forall_mem_cons.mpr ⟨trivial, h⟩

theorem isProper_foldl_push (pieces : List Piece) (h : ∀ segment ∈ built, segment.IsProper) :
    ∀ segment ∈ pieces.foldl push built, segment.IsProper := by
  induction pieces generalizing built with
  | nil => exact h
  | cons piece pieces ih => exact ih (isProper_push h piece)

theorem isProper_of_mem_segments {tags : Text × Text} {value : Text} {segment : Segment}
    (h : segment ∈ segments tags value) : segment.IsProper :=
  isProper_foldl_push (pieces tags value) (fun _ hmem => (List.not_mem_nil hmem).elim) segment
    (List.mem_reverse.mp h)

/-- A text compiles to the expression of its segments, if that is well formed. -/
theorem compile_eq_ok_iff {tags : Text × Text} {value code : Text} :
    compile tags value = .ok code ↔
      render (segments tags value) = code ∧ Code.isExpression code := by
  unfold compile
  simp only
  constructor
  · intro h
    split at h
    · rename_i hexpression
      cases h
      exact ⟨rfl, hexpression⟩
    · cases h
  · rintro ⟨rfl, hexpression⟩
    rw [if_pos hexpression]

end TemplateCompiler.Interpolation
