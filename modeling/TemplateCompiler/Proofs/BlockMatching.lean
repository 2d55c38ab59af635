import TemplateCompiler.Call.Block

/-!
# Blocks by the rule

The rule for blocks, read as it stands, is a recursion from left to right: the content of a block
is searched for the tag that ends it, and wherever the opener shows up again the block that begins
there is matched anew. `matching?` does this. The blocks that are found from the end of the text
backwards, each from those found before, are the same ones.
-/
namespace TemplateCompiler

namespace Head

theorem written_length_pos {markers : Markers} {text after : Text} {head : Head}
    (h : parse? markers text = some (head, after)) : 0 < head.written.length := by
  have hmethod := List.length_pos_iff.mpr (method_ne_nil h)
  simp only [written, opener, List.length_append]
  omega

theorem parse?_eq_none {markers : Markers} {text : Text}
    (h : Text.after? markers.call text = none) : parse? markers text = none := by
  simp [parse?, h]

theorem parse?_nil (markers : Markers) : parse? markers [] = none := by
  cases hparse : parse? markers [] with
  | none => rfl
  | some found =>
    have hlength := congrArg List.length (parse?_eq hparse)
    have hpos := written_length_pos hparse
    simp only [List.length_nil, List.length_append] at hlength
    omega

end Head

namespace Block

mutual

/-- The block at a place, matched by the rule. -/
def matching? (markers : Markers) (place : Place) : Option Block :=
  if place.previous.any isWordChar then none
  else match _h : Head.parse? markers place.rest with
    | none => none
    | some (head, after) =>
      if head.isEndTag markers then none
      else match lead? markers after with
        | none => none
        | some (lead, _) =>
          let content := place.advance (head.written ++ lead).length
          (closing? markers head content).map fun (length, closing) =>
            ⟨head, lead, content.rest.take length, closing⟩
termination_by 2 * place.rest.length
decreasing_by
  have hpos := Head.written_length_pos _h
  have hlength := congrArg List.length (Head.parse?_eq _h)
  simp only [Place.advance, List.length_drop, List.length_append] at hlength ⊢
  omega

/-- Searches for the tag that ends a block with the given head, and gives the number of
characters before it and the tag. The `max` is for the recursion alone, as no block is empty. -/
def closing? (markers : Markers) (head : Head) (place : Place) : Option (Nat × Text) :=
  if _h : place.rest = [] then none
  else match if Text.startsWith place.rest head.opener then matching? markers place else none with
    | some nested =>
      let length := max 1 nested.written.length
      (closing? markers head (place.advance length)).map fun (more, closing) =>
        (length + more, closing)
    | none =>
      match head.endTag? markers place.rest with
      | some (closing, _) => some (0, closing)
      | none =>
        (closing? markers head (place.advance 1)).map fun (more, closing) => (1 + more, closing)
termination_by 2 * place.rest.length + 1
decreasing_by
  · exact Nat.lt_succ_self _
  all_goals
    have hpos := List.length_pos_iff.mpr _h
    simp only [Place.advance, List.length_drop]
    omega

end

theorem matching?_of_glued {markers : Markers} {place : Place}
    (h : place.previous.any isWordChar) : matching? markers place = none := by
  rw [matching?, if_pos h]

theorem matching?_of_parse?_eq_none {markers : Markers} {place : Place}
    (h : Head.parse? markers place.rest = none) : matching? markers place = none := by
  rw [matching?]
  split
  · rfl
  · split
    · rfl
    · simp_all

theorem matching?_nil (markers : Markers) (before : Text) :
    matching? markers ⟨before, []⟩ = none :=
  matching?_of_parse?_eq_none (Head.parse?_nil markers)

theorem lead?_eq {markers : Markers} {text lead rest : Text}
    (h : lead? markers text = some (lead, rest)) : text = lead ++ rest := by
  unfold lead? at h
  split at h
  · rename_i c more tail
    split at h
    · cases h
      simp only [List.append_assoc, List.cons_append, List.takeWhile_append_dropWhile]
      rw [← tail, List.takeWhile_append_dropWhile]
    · simp at h
  · simp at h

def table (markers : Markers) (before : Text) : Text → List (Option Block)
  | [] => []
  | c :: rest => matching? markers ⟨before, c :: rest⟩ :: table markers (c :: before) rest

theorem drop_table (markers : Markers) (place : Place) (count : Nat) :
    (table markers place.before place.rest).drop count =
      table markers (place.advance count).before (place.advance count).rest := by
  obtain ⟨before, rest⟩ := place
  induction count generalizing before rest with
  | zero => rfl
  | succ count ih =>
    cases rest with
    | nil => rfl
    | cons c rest =>
      simpa [table, Place.advance] using ih (c :: before) rest

theorem content?_skip (markers : Markers) (head : Head) (skip : Nat) (text : Text)
    (later : List (Option Block)) :
    content? markers head skip text later =
      (content? markers head 0 (text.drop skip) (later.drop skip)).map
        fun (content, more) => (text.take skip ++ content, more) := by
  induction skip generalizing text later with
  | zero => simp
  | succ skip ih =>
    cases text with
    | nil => simp [content?]
    | cons c rest =>
      rw [content?, ih]
      cases later <;> simp [Function.comp_def]

/-- A search that goes on at a later place finds the content together with what was passed. -/
theorem content?_table_advance {markers : Markers} {head : Head} {before : Text} {c : Char}
    {rest : Text} {skip : Nat}
    (ih : let next := Place.advance ⟨before, c :: rest⟩ (skip + 1)
      (content? markers head 0 next.rest (table markers next.before next.rest)).map
          (fun found => (found.1, found.2.1)) =
        (closing? markers head next).map fun (length, closing) =>
          (next.rest.take length, closing)) :
    ((content? markers head skip rest (table markers (c :: before) rest)).map
        fun (content, more) => (c :: content, more)).map
        (fun found => (found.1, found.2.1)) =
      ((closing? markers head (Place.advance ⟨before, c :: rest⟩ (skip + 1))).map
        fun (more, closing) => (skip + 1 + more, closing)).map
        fun (length, closing) => ((c :: rest).take length, closing) := by
  have hnext := Place.advance_cons before rest c skip
  rw [hnext] at ih ⊢
  rw [content?_skip, drop_table markers ⟨c :: before, rest⟩ skip]
  have hcontent := congrArg (Option.map fun found : Text × Text =>
    (c :: (rest.take skip ++ found.1), found.2)) ih
  simpa [Function.comp_def, Place.advance, Nat.add_right_comm skip 1, List.take_add] using hcontent

/-- The content found with a table of the blocks further on is the one that the rule finds. -/
theorem content?_table (markers : Markers) (head : Head) (place : Place) :
    (content? markers head 0 place.rest (table markers place.before place.rest)).map
        (fun found => (found.1, found.2.1)) =
      (closing? markers head place).map fun (length, closing) =>
        (place.rest.take length, closing) := by
  obtain ⟨before, rest⟩ := place
  cases rest with
  | nil => simp [content?, closing?]
  | cons c rest =>
    rw [closing?, dif_neg (by simp), table, content?]
    simp only [List.head?_cons, Option.join_some, List.tail_cons]
    cases hnested : if Text.startsWith (c :: rest) head.opener then
        matching? markers ⟨before, c :: rest⟩ else none with
    | some nested =>
      simp only
      have hlength : max 1 nested.written.length = nested.written.length - 1 + 1 := by omega
      rw [hlength]
      exact content?_table_advance (content?_table markers head _)
    | none =>
      simp only
      cases hend : head.endTag? markers (c :: rest) with
      | some found => simp
      | none =>
        simp only
        exact content?_table_advance (content?_table markers head _)
termination_by place.rest.length
decreasing_by
  all_goals
    simp only [Place.advance, List.length_drop, List.length_cons]
    omega

/-- One entry of the sweep: with the table of all later places at hand it is the rule's block. -/
theorem parse?_table (markers : Markers) (before : Text) (c : Char) (rest : Text) :
    (if before.head?.any isWordChar then none
      else parse? markers (c :: rest) (none :: table markers (c :: before) rest)) =
      matching? markers ⟨before, c :: rest⟩ := by
  rw [matching?]
  simp only [Place.previous]
  split
  · rfl
  · split
    · rename_i hparse
      simp [parse?, hparse]
    · rename_i head after hparse
      simp only [parse?, hparse, Option.bind_some]
      split
      · rfl
      · cases hlead : lead? markers after with
        | none => rfl
        | some found =>
          obtain ⟨lead, content⟩ := found
          have htext : c :: rest = (head.written ++ lead) ++ content := by
            rw [Head.parse?_eq hparse, lead?_eq hlead, List.append_assoc]
          have hlength : (head.written ++ lead).length = (head.written ++ lead).length - 1 + 1 := by
            have hpos := Head.written_length_pos hparse
            rw [List.length_append]
            omega
          have hlater :
              (none :: table markers (c :: before) rest).drop (head.written ++ lead).length =
                (table markers before (c :: rest)).drop (head.written ++ lead).length := by
            rw [hlength]
            rfl
          have hcontent : content =
              (Place.advance ⟨before, c :: rest⟩ (head.written ++ lead).length).rest := by
            simp only [Place.advance, htext, List.drop_left]
          have hblock := congrArg (Option.map fun found : Text × Text =>
              (⟨head, lead, found.1, found.2⟩ : Block))
            (content?_table markers head
              (Place.advance ⟨before, c :: rest⟩ (head.written ++ lead).length))
          simp only [Option.bind_some, hlater, hcontent, Option.map_map, Function.comp_def,
            drop_table markers ⟨before, c :: rest⟩] at hblock ⊢
          exact hblock

theorem entries_eq_table (markers : Markers) (before rest : Text) :
    entries markers before.head? rest = table markers before rest := by
  induction rest generalizing before with
  | nil => rfl
  | cons c rest ih =>
    have hlater := ih (c :: before)
    rw [List.head?_cons] at hlater
    rw [entries, table, hlater, parse?_table]

theorem at?_eq_matching? (markers : Markers) (place : Place) :
    at? markers place = matching? markers place := by
  obtain ⟨before, rest⟩ := place
  rw [at?, Place.previous, entries_eq_table]
  cases rest with
  | nil => exact (matching?_nil markers before).symm
  | cons c rest => rfl

theorem lookup_located_of_lt {offset smaller : Nat} {text : Text} {entries : List (Option Block)}
    (h : smaller < offset) : (located offset text entries).lookup smaller = none := by
  induction text generalizing offset entries with
  | nil => rfl
  | cons c rest ih =>
    cases entries with
    | nil => rfl
    | cons entry later =>
      have hlater : (located (offset + c.utf8Size) rest later).lookup smaller = none :=
        ih (by omega)
      cases entry with
      | none => simpa [located] using hlater
      | some block =>
        simp only [located, Option.map_some, Option.toList_some, List.cons_append, List.nil_append,
          List.lookup_cons]
        rw [beq_eq_false_iff_ne.mpr (by omega), hlater]

theorem lookup_located_table (markers : Markers) (offset : Nat) (before rest : Text) (n : Nat) :
    (located offset rest (table markers before rest)).lookup (offset + n) =
      (Place.ofOffset?.go before n rest).bind (matching? markers) := by
  induction rest generalizing offset before n with
  | nil =>
    cases n with
    | zero => exact (matching?_nil markers before).symm
    | succ n => rfl
  | cons c rest ih =>
    have hpos := c.utf8Size_pos
    rw [table, located, List.lookup_append]
    cases n with
    | zero =>
      rw [lookup_located_of_lt (by omega), Place.ofOffset?.go, Option.bind_some]
      cases hblock : matching? markers ⟨before, c :: rest⟩ <;> simp
    | succ n =>
      have hhead : ((matching? markers ⟨before, c :: rest⟩).map
          fun block => (offset, block)).toList.lookup (offset + (n + 1)) = none := by
        cases matching? markers ⟨before, c :: rest⟩ <;> simp
      rw [hhead, Option.none_or, Place.ofOffset?.go]
      by_cases hle : c.utf8Size ≤ n + 1
      · rw [if_pos hle, ← ih (offset + c.utf8Size)]
        congr 1
        omega
      · rw [if_neg hle, lookup_located_of_lt (by omega)]
        rfl

end Block

namespace Place

theorem ofOffset?_go_append (passed before rest : Text) (n : Nat) :
    ofOffset?.go before (Text.size passed + n) (passed ++ rest) =
      ofOffset?.go (passed.reverse ++ before) n rest := by
  induction passed generalizing before with
  | nil => simp
  | cons c passed ih =>
    have hpos := c.utf8Size_pos
    have hoffset : Text.size (c :: passed) + n = c.utf8Size + Text.size passed + n - 1 + 1 := by
      rw [Text.size_cons]
      omega
    have hnext : c.utf8Size + Text.size passed + n - 1 + 1 - c.utf8Size =
        Text.size passed + n := by omega
    rw [hoffset, List.cons_append, ofOffset?.go, if_pos (by omega), hnext, ih]
    simp

theorem ofOffset?_text (place : Place) (n : Nat) :
    ofOffset? place.text (place.offset + n) = ofOffset?.go place.before n place.rest := by
  have h := ofOffset?_go_append place.before.reverse [] place.rest n
  rw [Text.size_reverse] at h
  simpa [ofOffset?, text, offset] using h

theorem ofOffset?_offset (place : Place) : ofOffset? place.text place.offset = some place := by
  simpa [ofOffset?.go] using ofOffset?_text place 0

end Place

namespace Block

/-- The blocks found backwards from the end of a text, from any place on, are those of the rule,
and so is the block matched at one place. -/
theorem startingFrom_lookup (markers : Markers) (place : Place) :
    (∀ n, (startingFrom markers place).lookup (place.offset + n) =
        (Place.ofOffset? place.text (place.offset + n)).bind (matching? markers)) ∧
      at? markers place =
        (startingFrom markers (Place.start place.text)).lookup place.offset ∧
      (place.previous.any isWordChar ∨ Text.after? markers.call place.rest = none →
        at? markers place = none) := by
  have hall (from_ : Place) (n : Nat) : (startingFrom markers from_).lookup (from_.offset + n) =
      (Place.ofOffset? from_.text (from_.offset + n)).bind (matching? markers) := by
    rw [Place.ofOffset?_text, startingFrom, Place.previous, entries_eq_table,
      lookup_located_table]
  refine ⟨hall place, ?_, ?_⟩
  · have hstart := hall (Place.start place.text) place.offset
    rw [show (Place.start place.text).offset = 0 from rfl, Nat.zero_add, Place.text_start,
      Place.ofOffset?_offset] at hstart
    rw [at?_eq_matching?, hstart]
    rfl
  · rintro (h | h)
    · rw [at?_eq_matching?, matching?_of_glued h]
    · rw [at?_eq_matching?, matching?_of_parse?_eq_none (Head.parse?_eq_none h)]

/-- Blocks of one name pair up innermost first. -/
example : (matching? {} (Place.start "@@a:b: 1 @@a:b: 2 @@end a:b @@end a:b".toList)).map
    (·.content) = some "1 @@a:b: 2 @@end a:b ".toList := by
  decide +kernel

end Block

end TemplateCompiler
