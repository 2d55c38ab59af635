import TemplateCompiler.Proofs.BlockMatching
import TemplateCompiler.Proofs.EndTags
import TemplateCompiler.Text.Span

/-!
# Blocks that pair up

Two blocks of a text with the same opener are apart or nested, like parentheses, and no tag ends
both. For the search for the end of a content goes over the blocks that it meets, and a block with
the same opener is met unless its opener is hidden: in the arguments of the block around it, or in a
block with a longer opener, which is gone over as well, and which may end in the middle of it.

The name that the end of a block repeats may be written with either separator, while the openers are
compared as they are written. So blocks of the same name need not pair up.
-/
namespace TemplateCompiler

namespace Head

variable {markers : Markers} {qualifier qualifier' : Option (Text × Char)}
  {text source method method' rest rest' behind behind' : Text} {head head' : Head}

theorem IsName.prefix_of_append (hseparators : HasOwnSeparators markers)
    (h : IsName markers qualifier method rest') (h' : IsName markers qualifier' method' rest)
    (htext : qualifierPart qualifier ++ method ++ text =
      qualifierPart qualifier' ++ method' ++ rest) :
    qualifierPart qualifier ++ method <+: qualifierPart qualifier' ++ method' := by
  rcases List.append_eq_append_iff.mp htext with ⟨more, hmore, -⟩ | ⟨more, hwritten, hrest⟩
  · exact ⟨more, hmore.symm⟩
  -- the longer name goes on with a character that belongs to no name, so with its separator
  rcases more with _ | ⟨c, more⟩
  · rw [List.append_nil] at hwritten
    exact hwritten ▸ List.prefix_refl _
  have hc : isNameChar c = false := by
    have hends := h'.ends
    rw [hrest] at hends
    exact hends
  have hmethod : c ∉ method := by
    intro hmem
    rw [List.all_eq_true.mp h.method_all c hmem] at hc
    cases hc
  rcases qualifier with _ | ⟨name, separator⟩
  · rw [qualifierPart, List.nil_append] at hwritten
    exact absurd (hwritten ▸ List.mem_append_right _ List.mem_cons_self) hmethod
  obtain ⟨-, hname, hseparator⟩ := h.qualified name separator rfl
  have hfirst := @Text.takeWhile_word _ name method separator hname (hseparators _ hseparator)
  have hpart (name : Text) (separator : Char) (behind : Text) :
      qualifierPart (some (name, separator)) ++ behind = name ++ separator :: behind := by
    simp [qualifierPart]
  rw [hpart] at hwritten
  rw [hwritten] at hfirst
  rcases qualifier' with _ | ⟨name', separator'⟩
  · have hsecond := @Text.takeWhile_word _ method' more c h'.method_all hc
    rw [qualifierPart, List.nil_append] at hfirst
    obtain ⟨rfl, rfl⟩ := List.cons.inj (hsecond.2.symm.trans hfirst.2)
    -- the shorter name is read as a qualifier then
    obtain ⟨d, behind, hd⟩ := List.exists_cons_of_ne_nil h.method_ne_nil
    apply absurd _ (extendsName_eq_false_iff.mp (h'.unqualified rfl)).2
    refine ⟨c, d, behind ++ text, ?_, hseparator, List.all_eq_true.mp h.method_all d ?_⟩
    · rw [hrest, hd]
      rfl
    · rw [hd]
      exact List.mem_cons_self
  · obtain ⟨-, hname', hseparator'⟩ := h'.qualified name' separator' rfl
    have hsecond := @Text.takeWhile_word _ name' (method' ++ c :: more) separator' hname'
      (hseparators _ hseparator')
    rw [hpart, List.append_assoc, List.cons_append] at hfirst
    obtain ⟨-, hbehind⟩ := List.cons.inj (hsecond.2.symm.trans hfirst.2)
    exact absurd (hbehind ▸ List.mem_append_right _ List.mem_cons_self) hmethod

/-- Where the opener of a head shows up, a head is read whose opener is at least as long. -/
theorem opener_prefix (hseparators : HasOwnSeparators markers)
    (h : parse? markers source = some (head, behind))
    (h' : parse? markers text = some (head', behind'))
    (hstarts : Text.startsWith text head.opener) : head.opener <+: head'.opener := by
  obtain ⟨rest, -, hopener, hname⟩ := exists_isName h
  obtain ⟨rest', htext, hopener', hname'⟩ := exists_isName h'
  obtain ⟨more, hmore⟩ := Option.isSome_iff_exists.mp hstarts
  have hwhole := Text.after?_eq_some_iff.mp hmore
  rw [htext, hopener, hopener', List.append_assoc markers.call, List.append_assoc markers.call]
    at hwhole
  have hnames := List.append_cancel_left hwhole
  obtain ⟨longer, hlonger⟩ := hname.prefix_of_append hseparators hname' hnames.symm
  exact ⟨longer, by rw [hopener, hopener', ← hlonger, List.append_assoc]⟩

theorem IsName.not_mem (h : IsName markers qualifier method rest) {c : Char}
    (hname : isNameChar c = false) (hseparator : markers.isSeparator c = false) :
    c ∉ qualifierPart qualifier ++ method := by
  have hword {word : Text} (hall : word.all isNameChar) : c ∉ word :=
    Text.not_mem_of_all hname (List.all_eq_true.mp hall)
  intro hmem
  rcases List.mem_append.mp hmem with hmem | hmem
  · rcases qualifier with _ | ⟨name, separator⟩
    · cases hmem
    · obtain ⟨-, hall, hown⟩ := h.qualified name separator rfl
      rcases List.mem_append.mp hmem with hmem | hmem
      · exact hword hall hmem
      · rw [← List.mem_singleton.mp hmem, hseparator] at hown
        cases hown
  · exact hword h.method_all hmem

theorem exists_word_of_endTag? (h : parse? {} source = some (head, behind))
    (hend : head.endTag? {} text = some (closing, rest)) :
    ∃ word, closing = "@@".toList ++ word ∧ word ≠ [] ∧ '@' ∉ word := by
  obtain ⟨named, qualifier, -, -, rfl, hname, hseparator, hends⟩ := exists_of_endTag? hend
  have hblanks := @Text.not_mem_takeWhile Text.isSpaceOrTab '@' (by decide) named
  have hecho := (isName_of_echo h hname hseparator hends).not_mem (c := '@') (by decide) (by decide)
  refine ⟨"end".toList ++ (named.takeWhile Text.isSpaceOrTab ++
    (qualifierPart qualifier ++ head.method)), ?_, List.cons_ne_nil _ _, ?_⟩
  · simp only [List.append_assoc]
    rfl
  · rw [List.mem_append, List.mem_append, not_or, not_or]
    exact ⟨by decide, hblanks, hecho⟩

end Head

namespace Block

variable {markers : Markers} {head : Head} {closing : Text} {block : Block}

/-- The search for the end of a content goes over the block that it meets, or is at the end, or goes
on by one character. -/
theorem closing?_cases {place : Place} {length : Nat}
    (h : closing? markers head place = some (length, closing)) :
    (∃ nested more, Text.startsWith place.rest head.opener ∧ matching? markers place = some nested ∧
      closing? markers head (place.advance (max 1 nested.written.length)) = some (more, closing) ∧
      length = max 1 nested.written.length + more) ∨
    (Text.startsWith place.rest head.opener → matching? markers place = none) ∧
      ((∃ after, head.endTag? markers place.rest = some (closing, after) ∧ length = 0) ∨
        ∃ more, closing? markers head (place.advance 1) = some (more, closing) ∧
          length = 1 + more) := by
  rw [closing?] at h
  split at h
  · cases h
  · split at h
    · rename_i nested hnested
      split at hnested
      · rename_i hopener
        obtain ⟨⟨more, closing'⟩, hmore, heq⟩ := Option.map_eq_some_iff.mp h
        cases heq
        exact Or.inl ⟨nested, more, hopener, hnested, hmore, rfl⟩
      · cases hnested
    · rename_i hnested
      have hnone (hopener : Text.startsWith place.rest head.opener) :
          matching? markers place = none := by
        rwa [if_pos hopener] at hnested
      refine Or.inr ⟨hnone, ?_⟩
      split at h
      · rename_i closing' after hend
        cases h
        exact Or.inl ⟨after, hend, rfl⟩
      · obtain ⟨⟨more, closing'⟩, hmore, heq⟩ := Option.map_eq_some_iff.mp h
        cases heq
        exact Or.inr ⟨more, hmore, rfl⟩

theorem endTag?_of_closing? {place : Place} {length : Nat}
    (h : closing? markers head place = some (length, closing)) :
    length < place.rest.length ∧
      ∃ after, head.endTag? markers (place.rest.drop length) = some (closing, after) := by
  by_cases hempty : place.rest = []
  · rw [closing?, dif_pos hempty] at h
    cases h
  · have hpos := List.length_pos_iff.mpr hempty
    have hlater {count more : Nat} (hcount : 0 < count)
        (hmore : closing? markers head (place.advance count) = some (more, closing)) :
        count + more < place.rest.length ∧
          ∃ after, head.endTag? markers (place.rest.drop (count + more)) =
            some (closing, after) := by
      obtain ⟨hlt, hend⟩ := endTag?_of_closing? hmore
      rw [Place.advance, List.length_drop] at hlt
      rw [Place.advance, List.drop_drop] at hend
      exact ⟨by omega, hend⟩
    rcases closing?_cases h with ⟨nested, more, -, -, hmore, rfl⟩ | ⟨-, ⟨after, hend, rfl⟩ |
      ⟨more, hmore, rfl⟩⟩
    · exact hlater (by omega) hmore
    · exact ⟨hpos, after, hend⟩
    · exact hlater Nat.one_pos hmore
termination_by place.rest.length
decreasing_by
  simp only [Place.advance, List.length_drop]
  omega

theorem exists_of_matching? {place : Place} (h : matching? markers place = some block) :
    ∃ after rest behind, Head.parse? markers place.rest = some (block.head, after) ∧
      block.head.isEndTag markers = false ∧ lead? markers after = some (block.lead, rest) ∧
      block.head.endTag? markers (block.closing ++ behind) = some (block.closing, behind) ∧
      place.rest = block.written ++ behind ∧
      closing? markers block.head (place.advance block.opening.length) =
        some (block.content.length, block.closing) := by
  rw [matching?] at h
  split at h
  · cases h
  · split at h
    · cases h
    · rename_i head after hhead
      split at h
      · cases h
      · rename_i hend
        split at h
        · cases h
        · rename_i lead rest hlead
          obtain ⟨⟨length, closing⟩, hclosing, rfl⟩ := Option.map_eq_some_iff.mp h
          have hrest : place.rest = head.written ++ lead ++ rest := by
            rw [Head.parse?_eq hhead, lead?_eq hlead, List.append_assoc]
          have hadvance : (place.advance (head.written ++ lead).length).rest = rest := by
            rw [Place.advance, hrest, List.drop_left]
          obtain ⟨hlt, behind, hendTag⟩ := endTag?_of_closing? hclosing
          rw [hadvance] at hlt hendTag
          have hdrop := (Head.endTag?_eq hendTag).1
          have hlength : (rest.take length).length = length := by
            rw [List.length_take]
            omega
          refine ⟨after, rest, behind, hhead, Bool.not_eq_true _ ▸ hend, hlead, ?_, ?_, ?_⟩
          · rwa [hdrop] at hendTag
          · rw [hadvance, hrest, written, opening]
            conv => lhs; rw [← List.take_append_drop length rest, hdrop]
            simp only [List.append_assoc]
          · rw [hadvance, hlength]
            exact hclosing

end Block

namespace Text

theorem mem_of_drop_append {piece rest more : Text} {c : Char} {k : Nat}
    (h : (piece ++ rest).drop k = c :: more) (hk : k < piece.length) : c ∈ piece := by
  rw [List.drop_append_of_le_length (Nat.le_of_lt hk)] at h
  cases hdrop : piece.drop k with
  | nil =>
    rw [List.drop_eq_nil_iff] at hdrop
    omega
  | cons d rest' =>
    rw [hdrop] at h
    rw [← (List.cons.inj h).1]
    exact List.mem_of_mem_drop (hdrop ▸ List.mem_cons_self)

theorem length_le_of_marker {word rest more : Text} {k : Nat} (hne : word ≠ []) (hword : '@' ∉ word)
    (hk : 0 < k) (h : ("@@".toList ++ word ++ rest).drop k = "@@".toList ++ more) :
    ("@@".toList ++ word).length ≤ k := by
  apply Nat.not_lt.mp
  intro hlt
  rcases k with _ | _ | k
  · cases hk
  · obtain ⟨c, word, rfl⟩ := List.exists_cons_of_ne_nil hne
    obtain ⟨-, hc⟩ := List.cons.inj h
    exact hword ((List.cons.inj hc).1 ▸ List.mem_cons_self)
  · exact hword (mem_of_drop_append (k := k) h (by simpa using hlt))

end Text

namespace Block

variable {head : Head} {closing : Text} {block : Block}

theorem rest_of_matching? {place : Place} (h : matching? {} place = some block) :
    ∃ more, place.rest = "@@".toList ++ more ∧ Text.startsWith place.rest block.head.opener := by
  obtain ⟨after, -, -, hhead, -⟩ := exists_of_matching? h
  obtain ⟨rest, hrest, hopener, -⟩ := Head.exists_isName hhead
  refine ⟨Head.qualifierPart block.head.qualifier ++ block.head.method ++ rest, ?_, ?_⟩
  · rw [hrest, hopener, List.append_assoc]
    rfl
  · rw [Text.startsWith, hrest, Text.after?_append]
    rfl

/-- The search for the end of a content either ends before a block with the same opener, or goes
over that block as a whole, if this is so of the blocks with longer openers that it goes over. -/
theorem closing?_passes {place : Place} {source behind : Text} {i m length : Nat}
    (hhead : Head.parse? {} source = some (head, behind))
    (h : closing? {} head (place.advance i) = some (length, closing))
    (hblock : matching? {} (place.advance m) = some block)
    (hopener : block.head.opener = head.opener) (him : i ≤ m)
    (hwithin : ∀ n nested, i ≤ n → n < m → matching? {} (place.advance n) = some nested →
      head.opener <+: nested.head.opener → m < n + nested.written.length →
      m + block.written.length ≤ n + nested.written.length) :
    i + length + closing.length ≤ m ∨ m + block.written.length ≤ i + length := by
  -- by induction on the distance to the block, as long as the search has not reached it
  have hlater {count more : Nat} (hcount : 0 < count) (hle : i + count ≤ m)
      (hmore : closing? {} head ((place.advance i).advance count) = some (more, closing)) :
      i + (count + more) + closing.length ≤ m ∨
        m + block.written.length ≤ i + (count + more) := by
    rw [Place.advance_advance] at hmore
    have hrest := closing?_passes hhead hmore hblock hopener hle fun n nested hn =>
      hwithin n nested (by omega)
    omega
  obtain ⟨rest, hrest, hstart⟩ := rest_of_matching? hblock
  have hmet (hnone : Text.startsWith (place.advance i).rest head.opener →
      matching? {} (place.advance i) = none) : i < m := by
    apply Nat.lt_of_le_of_ne him
    rintro rfl
    rw [hnone (hopener ▸ hstart)] at hblock
    cases hblock
  rcases closing?_cases h with ⟨nested, more, hstarts, hnested, hmore, rfl⟩ |
    ⟨hnone, ⟨after, hend, rfl⟩ | ⟨more, hmore, rfl⟩⟩
  · by_cases hle : i + max 1 nested.written.length ≤ m
    · exact hlater (by omega) hle hmore
    · right
      rcases Nat.eq_or_lt_of_le him with rfl | hlt
      · rw [hblock] at hnested
        cases hnested
        omega
      · obtain ⟨_, -, -, hparse, -⟩ := exists_of_matching? hnested
        have hlonger := Head.opener_prefix Head.hasOwnSeparators_default hhead hparse hstarts
        have hend := hwithin i nested (Nat.le_refl i) hlt hnested hlonger (by omega)
        omega
  · left
    have hlt := hmet hnone
    -- the block cannot begin within the tag that ends the search, which has one marker only
    obtain ⟨word, hclosing, hne, hword⟩ := Head.exists_word_of_endTag? hhead hend
    have htext := (Head.endTag?_eq hend).1
    have hdrop : (place.advance m).rest = (place.advance i).rest.drop (m - i) := by
      rw [Place.advance, Place.advance, List.drop_drop, Nat.add_sub_cancel' him]
    rw [hrest, htext, hclosing] at hdrop
    have hle := Text.length_le_of_marker hne hword (by omega) hdrop.symm
    rw [← hclosing] at hle
    omega
  · exact hlater Nat.one_pos (hmet hnone) hmore
termination_by m - i
decreasing_by omega

theorem length_written (block : Block) : block.written.length =
    block.opening.length + block.content.length + block.closing.length := by
  rw [written, List.length_append, List.length_append]

theorem not_mem_lead {text lead rest : Text} (h : lead? {} text = some (lead, rest)) :
    '@' ∉ lead := by
  have hblank := @Text.not_mem_takeWhile Unicode.isWhitespace '@' (by decide)
  unfold lead? at h
  split at h
  · split at h
    · rename_i c more _ hbody
      cases h
      rw [List.mem_append, List.mem_cons, not_or, not_or, hbody]
      exact ⟨hblank text, by decide, hblank more⟩
    · cases h
  · cases h

theorem opening_le {place : Place} {n m : Nat} {outer inner : Block}
    (houter : matching? {} (place.advance n) = some outer)
    (hinner : matching? {} (place.advance m) = some inner)
    (hhead : n + outer.head.written.length ≤ m) : n + outer.opening.length ≤ m := by
  obtain ⟨after, rest, -, hread, -, hlead, -⟩ := exists_of_matching? houter
  obtain ⟨more, hmore, -⟩ := rest_of_matching? hinner
  apply Nat.not_lt.mp
  intro hwithin
  have hdrop : (outer.lead ++ rest).drop (m - n - outer.head.written.length) =
      '@' :: '@' :: more := by
    have hrest : (place.advance n).rest = outer.head.written ++ (outer.lead ++ rest) := by
      rw [Head.parse?_eq hread, lead?_eq hlead]
    have hsplit : m = n + (outer.head.written.length + (m - n - outer.head.written.length)) := by
      omega
    rw [hsplit, ← Place.advance_advance, Place.advance, hrest, ← List.drop_drop,
      List.drop_left] at hmore
    exact hmore
  apply not_mem_lead hlead
  apply Text.mem_of_drop_append hdrop
  rw [opening, List.length_append] at hwithin
  omega

/-- A block that begins within another one with the same opener lies in its content, if it begins in
the arguments of no such block and crosses no block with a longer opener. -/
theorem within_content {place : Place} {n m : Nat} {outer inner : Block}
    (houter : matching? {} (place.advance n) = some outer)
    (hinner : matching? {} (place.advance m) = some inner)
    (hopener : outer.head.opener = inner.head.opener) (hlt : n < m)
    (hbegins : m < n + outer.written.length)
    (harguments : ∀ k around, k < m → matching? {} (place.advance k) = some around →
      around.head.opener = inner.head.opener → m < k + around.written.length →
      k + around.head.written.length ≤ m)
    (hlonger : ∀ k around, k < m → matching? {} (place.advance k) = some around →
      inner.head.opener <+: around.head.opener → around.head.opener ≠ inner.head.opener →
      m < k + around.written.length →
      m + inner.written.length ≤ k + around.written.length) :
    n + outer.opening.length ≤ m ∧
      m + inner.written.length ≤ n + outer.opening.length + outer.content.length := by
  obtain ⟨after, rest, behind, hhead, -, hlead, -, htext, hclosing⟩ := exists_of_matching? houter
  have hopening := opening_le houter hinner (harguments n outer hlt houter hopener hbegins)
  refine ⟨hopening, ?_⟩
  rw [Place.advance_advance] at hclosing
  -- a block that the search goes over has the same opener or a longer one; in the first case the
  -- inner block lies in its content, by induction on the distance
  have hover (k : Nat) (nested : Block) (hk : n + outer.opening.length ≤ k) (hkm : k < m)
      (hnested : matching? {} (place.advance k) = some nested)
      (hextends : outer.head.opener <+: nested.head.opener)
      (hmk : m < k + nested.written.length) :
      m + inner.written.length ≤ k + nested.written.length := by
    rw [hopener] at hextends
    by_cases heq : nested.head.opener = inner.head.opener
    · obtain ⟨-, hle⟩ := within_content hnested hinner heq hkm hmk harguments hlonger
      have hlength := nested.length_written
      omega
    · exact hlonger k nested hkm hnested hextends heq hmk
  rcases closing?_passes hhead hclosing hinner hopener.symm hopening hover with hends | hwithin
  · have hlength := outer.length_written
    omega
  · exact hwithin
termination_by m - n
decreasing_by
  have hpos := Head.written_length_pos hhead
  rw [opening, List.length_append] at hk
  omega

end Block

/-! ## The blocks of a text and their spans -/

namespace Span

def IsApartFrom (first second : Span) : Prop :=
  first.stop ≤ second.start ∨ second.stop ≤ first.start

def IsWithin (inner outer : Span) : Prop := outer.start ≤ inner.start ∧ inner.stop ≤ outer.stop

instance (first second : Span) : Decidable (first.IsApartFrom second) :=
  inferInstanceAs (Decidable (_ ∨ _))

instance (inner outer : Span) : Decidable (inner.IsWithin outer) :=
  inferInstanceAs (Decidable (_ ∧ _))

end Span

namespace Text

theorem size_take_lt_iff {source : Text} {n m : Nat} (hn : n ≤ source.length)
    (hm : m ≤ source.length) : size (source.take n) < size (source.take m) ↔ n < m := by
  have hlt {n m : Nat} (hnm : n < m) (hm : m ≤ source.length) :
      size (source.take n) < size (source.take m) := by
    have hlength := length_le_size ((source.drop n).take (m - n))
    rw [List.length_take, List.length_drop] at hlength
    have hsplit : m = n + (m - n) := by omega
    rw [hsplit, List.take_add, size_append]
    omega
  constructor
  · intro h
    apply Nat.not_le.mp
    intro hle
    rcases Nat.eq_or_lt_of_le hle with rfl | hlt'
    · exact Nat.lt_irrefl _ h
    · exact Nat.lt_asymm h (hlt hlt' hn)
  · exact fun h => hlt h hm

theorem size_take_add {source piece behind : Text} {n : Nat} (h : source.drop n = piece ++ behind) :
    size (source.take (n + piece.length)) = size (source.take n) + piece.size := by
  rw [List.take_add, h, List.take_left, size_append]

end Text

namespace Block

variable {source : Text}

theorem mem_located_table {markers : Markers} {offset : Nat} {place : Place} {found : Nat × Block} :
    found ∈ located offset place.rest (table markers place.before place.rest) ↔
      ∃ n, matching? markers (place.advance n) = some found.2 ∧
        found.1 = offset + Text.size (place.rest.take n) := by
  obtain ⟨before, rest⟩ := place
  induction rest generalizing offset before with
  | nil =>
    constructor
    · intro h
      cases h
    · rintro ⟨n, hblock, -⟩
      rw [Place.advance, List.drop_nil, List.take_nil, List.reverse_nil, List.nil_append,
        matching?_nil] at hblock
      cases hblock
  | cons c rest ih =>
    rw [table, located, List.mem_append, Option.mem_toList, Option.map_eq_some_iff, ih]
    constructor
    · rintro (⟨block, hblock, rfl⟩ | ⟨n, hblock, hoffset⟩)
      · exact ⟨0, hblock, rfl⟩
      · refine ⟨n + 1, ?_, by rw [hoffset, List.take_succ_cons, Text.size_cons, Nat.add_assoc]⟩
        rw [← hblock]
        simp [Place.advance]
    · rintro ⟨n, hblock, hoffset⟩
      cases n with
      | zero => exact Or.inl ⟨found.2, hblock, by rw [Prod.ext_iff]; exact ⟨hoffset.symm, rfl⟩⟩
      | succ n =>
        refine Or.inr ⟨n, ?_, by rw [hoffset, List.take_succ_cons, Text.size_cons, Nat.add_assoc]⟩
        rw [← hblock]
        simp [Place.advance]

/-- The blocks of a text are those that the rule matches at its places. -/
theorem mem_startingFrom_iff {markers : Markers} {place : Place} {found : Nat × Block} :
    found ∈ startingFrom markers place ↔
      ∃ n, matching? markers (place.advance n) = some found.2 ∧
        found.1 = place.offset + Text.size (place.rest.take n) := by
  rw [startingFrom, Place.previous, entries_eq_table, mem_located_table]

def span (found : Nat × Block) : Span := Span.ofText found.1 found.2.written

def contentSpan (found : Nat × Block) : Span :=
  Span.ofText (found.1 + found.2.opening.size) found.2.content

/-- Two blocks are apart, or one of them lies in the content of the other. -/
def PairUp (first second : Nat × Block) : Prop :=
  (span first).IsApartFrom (span second) ∨ (span first).IsWithin (contentSpan second) ∨
    (span second).IsWithin (contentSpan first)

instance (first second : Nat × Block) : Decidable (PairUp first second) :=
  inferInstanceAs (Decidable (_ ∨ _ ∨ _))

/-- The blocks of a text that begin before another one and go on where it begins. -/
def around (blocks : List (Nat × Block)) (inner : Nat × Block) : List (Nat × Block) :=
  blocks.filter fun outer => (span outer).start < inner.1 && inner.1 < (span outer).stop

/-- A block among others that is met when the content of a block around it is searched: it does not
begin in the arguments of a block with the same opener, and no block with a longer opener, such as
that of a method whose name goes on, ends in the middle of it. -/
structure IsMet (blocks : List (Nat × Block)) (inner : Nat × Block) : Prop where
  arguments : ∀ outer ∈ around blocks inner, outer.2.head.opener = inner.2.head.opener →
    outer.1 + outer.2.head.written.size ≤ inner.1
  longer : ∀ outer ∈ around blocks inner, inner.2.head.opener <+: outer.2.head.opener →
    outer.2.head.opener ≠ inner.2.head.opener → (span inner).stop ≤ (span outer).stop

instance (blocks : List (Nat × Block)) (inner : Nat × Block) : Decidable (IsMet blocks inner) :=
  decidable_of_iff
    ((∀ outer ∈ around blocks inner, outer.2.head.opener = inner.2.head.opener →
      outer.1 + outer.2.head.written.size ≤ inner.1) ∧
    ∀ outer ∈ around blocks inner, inner.2.head.opener <+: outer.2.head.opener →
      outer.2.head.opener ≠ inner.2.head.opener → (span inner).stop ≤ (span outer).stop)
    ⟨fun h => ⟨h.1, h.2⟩, fun h => ⟨h.arguments, h.longer⟩⟩

theorem contentSpan_stop_lt {place : Place} (offset : Nat)
    (h : matching? {} place = some block) :
    (contentSpan (offset, block)).stop < (span (offset, block)).stop := by
  obtain ⟨_, _, behind, hhead, -, -, hend, -, -⟩ := exists_of_matching? h
  obtain ⟨word, hclosing, hne, -⟩ := Head.exists_word_of_endTag? hhead hend
  have hpos := List.length_pos_iff.mpr hne
  have hsize := Text.length_le_size block.closing
  rw [hclosing, List.length_append] at hsize
  simp only [contentSpan, span, Span.ofText, written, Text.size_append] at hsize ⊢
  rw [hclosing, Text.size_append]
  omega

theorem exists_behind {n : Nat} (h : matching? {} ((Place.start source).advance n) = some block) :
    n < source.length ∧ ∃ behind, source.drop n = block.written ++ behind := by
  obtain ⟨_, _, behind, hhead, -, -, -, hrest, -⟩ := exists_of_matching? h
  refine ⟨?_, behind, hrest⟩
  have hpos := Head.written_length_pos hhead
  have hlength := congrArg List.length (Head.parse?_eq hhead)
  simp only [Place.advance, Place.start, List.length_drop, List.length_append] at hlength
  omega

theorem size_take_part {n : Nat} {part : Text}
    (h : matching? {} ((Place.start source).advance n) = some block)
    (hpart : part <+: block.written) :
    n + part.length ≤ source.length ∧
      Text.size (source.take (n + part.length)) = Text.size (source.take n) + part.size := by
  obtain ⟨hn, behind, hbehind⟩ := exists_behind h
  obtain ⟨more, hmore⟩ := hpart
  rw [← hmore, List.append_assoc] at hbehind
  have hlength := congrArg List.length hbehind
  rw [List.length_drop, List.length_append] at hlength
  exact ⟨by omega, Text.size_take_add hbehind⟩

theorem size_add_le_size_iff {n m : Nat} {part : Text}
    (h : matching? {} ((Place.start source).advance n) = some block)
    (hpart : part <+: block.written) (hm : m ≤ source.length) :
    Text.size (source.take n) + part.size ≤ Text.size (source.take m) ↔ n + part.length ≤ m := by
  obtain ⟨hle, hsize⟩ := size_take_part h hpart
  rw [← hsize, ← Nat.not_lt, Text.size_take_lt_iff hm hle, Nat.not_lt]

theorem offset_lt_iff {n m : Nat} {inner : Block}
    (h : matching? {} ((Place.start source).advance n) = some block)
    (hinner : matching? {} ((Place.start source).advance m) = some inner) :
    Text.size (source.take n) < Text.size (source.take m) ↔ n < m :=
  Text.size_take_lt_iff (Nat.le_of_lt (exists_behind h).1) (Nat.le_of_lt (exists_behind hinner).1)

theorem mem_startingFrom_start_iff {found : Nat × Block} :
    found ∈ startingFrom {} (Place.start source) ↔
      ∃ n, matching? {} ((Place.start source).advance n) = some found.2 ∧
        found.1 = Text.size (source.take n) := by
  simp only [mem_startingFrom_iff, Place.offset, Place.start, Text.size_nil, Nat.zero_add]

theorem matching?_of_mem_startingFrom {place : Place}
    (h : (place.offset, block) ∈ startingFrom {} (Place.start place.text)) :
    matching? {} place = some block := by
  obtain ⟨n, hblock, hoffset⟩ := mem_startingFrom_start_iff.mp h
  have hplace : Text.size (place.text.take place.before.length) = place.offset := by
    rw [Place.text, ← List.length_reverse, List.take_left, Text.size_reverse]
    rfl
  have hlength : place.before.length ≤ place.text.length := by
    rw [Place.text, List.length_append, List.length_reverse]
    omega
  have hn := Nat.le_of_lt (exists_behind hblock).1
  have hstart : n = place.before.length := by
    have hlt := Text.size_take_lt_iff hn hlength
    have hgt := Text.size_take_lt_iff hlength hn
    simp only at hoffset
    omega
  rwa [hstart, Place.advance_start] at hblock

theorem mem_around {k m : Nat} {outer inner : Block}
    (houter : matching? {} ((Place.start source).advance k) = some outer)
    (hinner : matching? {} ((Place.start source).advance m) = some inner) (hkm : k < m)
    (hmk : m < k + outer.written.length) :
    (Text.size (source.take k), outer) ∈
      around (startingFrom {} (Place.start source)) (Text.size (source.take m), inner) := by
  have hm := Nat.le_of_lt (exists_behind hinner).1
  have hends := size_add_le_size_iff houter (List.prefix_refl outer.written) hm
  rw [around, List.mem_filter, mem_startingFrom_start_iff, Bool.and_eq_true, decide_eq_true_iff,
    decide_eq_true_iff]
  exact ⟨⟨k, houter, rfl⟩, (offset_lt_iff houter hinner).mpr hkm,
    Nat.not_le.mp fun hle => Nat.not_le.mpr hmk (hends.mp hle)⟩

namespace IsMet

variable {k m : Nat} {outer inner : Block}

/-- A block that is met begins behind the arguments of a block around it with the same opener. -/
theorem head_le
    (h : IsMet (startingFrom {} (Place.start source)) (Text.size (source.take m), inner))
    (hinner : matching? {} ((Place.start source).advance m) = some inner) (hkm : k < m)
    (houter : matching? {} ((Place.start source).advance k) = some outer)
    (hopener : outer.head.opener = inner.head.opener) (hmk : m < k + outer.written.length) :
    k + outer.head.written.length ≤ m := by
  have hm := Nat.le_of_lt (exists_behind hinner).1
  have hwritten : outer.head.written <+: outer.written := by
    simp only [written, opening, List.append_assoc, List.prefix_append]
  exact (size_add_le_size_iff houter hwritten hm).mp
    (h.arguments _ (mem_around houter hinner hkm hmk) hopener)

/-- A block that is met ends before a block around it with a longer opener. -/
theorem end_le
    (h : IsMet (startingFrom {} (Place.start source)) (Text.size (source.take m), inner))
    (hinner : matching? {} ((Place.start source).advance m) = some inner) (hkm : k < m)
    (houter : matching? {} ((Place.start source).advance k) = some outer)
    (hextends : inner.head.opener <+: outer.head.opener)
    (hne : outer.head.opener ≠ inner.head.opener) (hmk : m < k + outer.written.length) :
    m + inner.written.length ≤ k + outer.written.length := by
  have hends := h.longer _ (mem_around houter hinner hkm hmk) hextends hne
  obtain ⟨hle, hsize⟩ := size_take_part houter (List.prefix_refl _)
  rw [span, span, Span.ofText, Span.ofText, ← hsize] at hends
  exact (size_add_le_size_iff hinner (List.prefix_refl _) hle).mp hends

end IsMet

/-- Of two blocks with the same opener, the one that begins later lies in the content of the other
one or behind it, and the two end with different tags, if the later one is met. -/
theorem same_openers_pair_up {first second : Nat × Block}
    (hfirst : first ∈ startingFrom {} (Place.start source))
    (hsecond : second ∈ startingFrom {} (Place.start source))
    (hopener : first.2.head.opener = second.2.head.opener) (hlt : first.1 < second.1)
    (hmet : IsMet (startingFrom {} (Place.start source)) second) :
    PairUp first second ∧ (contentSpan first).stop ≠ (contentSpan second).stop := by
  obtain ⟨offset, outer⟩ := first
  obtain ⟨offset', inner⟩ := second
  obtain ⟨n, houter, rfl⟩ := mem_startingFrom_start_iff.mp hfirst
  obtain ⟨m, hinner, rfl⟩ := mem_startingFrom_start_iff.mp hsecond
  rw [offset_lt_iff houter hinner] at hlt
  have hm := Nat.le_of_lt (exists_behind hinner).1
  have hstop := contentSpan_stop_lt (Text.size (source.take m)) hinner
  by_cases hbegins : m < n + outer.written.length
  · obtain ⟨hfrom, hto⟩ := within_content houter hinner hopener hlt hbegins
      (fun k outside hkm => hmet.head_le hinner hkm)
      (fun k outside hkm => hmet.end_le hinner hkm)
    have hopening : outer.opening <+: outer.written := ⟨_, (List.append_assoc _ _ _).symm⟩
    have hcontent : outer.opening ++ outer.content <+: outer.written := ⟨_, rfl⟩
    obtain ⟨hle, hsize⟩ := size_take_part houter hcontent
    rw [List.length_append, ← Nat.add_assoc] at hle hsize
    rw [← size_add_le_size_iff houter hopening hm] at hfrom
    rw [← size_add_le_size_iff hinner (List.prefix_refl _) hle, hsize, Text.size_append,
      ← Nat.add_assoc] at hto
    exact ⟨Or.inr (Or.inr ⟨hfrom, hto⟩), Nat.ne_of_gt (Nat.lt_of_lt_of_le hstop hto)⟩
  · have hends := (size_add_le_size_iff houter (List.prefix_refl _) hm).mpr (Nat.not_lt.mp hbegins)
    have houterstop := contentSpan_stop_lt (Text.size (source.take n)) houter
    have hbehind : Text.size (source.take m) ≤
        (contentSpan (Text.size (source.take m), inner)).stop := by
      simp only [contentSpan, Span.ofText]
      omega
    exact ⟨Or.inl (Or.inl hends),
      Nat.ne_of_lt (Nat.lt_of_lt_of_le (Nat.lt_of_lt_of_le houterstop hends) hbehind)⟩

/-- The middle one of the three blocks has a longer opener, and is passed over as a whole. -/
theorem same_openers_pair_up_of_three :
    let source := "@@a:b: 1 @@a:bc: 2 @@a:b: 3 @@end a:b @@end a:bc @@end a:b".toList
    let head : Head := ⟨"@@".toList, some ("a".toList, ':'), "b".toList, none⟩
    let outer : Nat × Block := (0, ⟨head, ": ".toList,
      "1 @@a:bc: 2 @@a:b: 3 @@end a:b @@end a:bc ".toList, "@@end a:b".toList⟩)
    let inner : Nat × Block := (19, ⟨head, ": ".toList, "3 ".toList, "@@end a:b".toList⟩)
    outer ∈ startingFrom {} (Place.start source) ∧ inner ∈ startingFrom {} (Place.start source) ∧
      IsMet (startingFrom {} (Place.start source)) inner ∧
      PairUp outer inner ∧ (contentSpan outer).stop ≠ (contentSpan inner).stop := by
  intro source head outer inner
  have houter : outer ∈ startingFrom {} (Place.start source) := by decide +kernel
  have hinner : inner ∈ startingFrom {} (Place.start source) := by decide +kernel
  have hmet : IsMet (startingFrom {} (Place.start source)) inner := by decide +kernel
  exact ⟨houter, hinner, hmet, same_openers_pair_up houter hinner rfl (by decide) hmet⟩

/-- Two blocks of a text have the same name and end with one and the same tag. -/
def SharesClosing (source : Text) : Prop :=
  ∃ outer ∈ startingFrom {} (Place.start source), ∃ inner ∈ startingFrom {} (Place.start source),
    outer.1 < inner.1 ∧ outer.2.head.qualifierName = inner.2.head.qualifierName ∧
      outer.2.head.method = inner.2.head.method ∧
      ¬PairUp outer inner ∧ (contentSpan outer).stop = (contentSpan inner).stop

instance (source : Text) : Decidable (SharesClosing source) :=
  inferInstanceAs (Decidable (∃ _ ∈ _, ∃ _ ∈ _, _))

/-- Blocks of the same name need not pair up: the opener of the inner one may be written with
another separator, stand in the arguments of the outer one, or stand in a block with a longer opener
that ends first. -/
theorem same_names_share_closing :
    SharesClosing "@@a:b: @@a.b: x @@end a:b @@end a:b".toList ∧
      SharesClosing "@@a:b(@@a:b: x): y @@end a:b".toList ∧
      SharesClosing "@@a:b: @@a:bc: @@a:b: x @@end a:bc @@end a:b".toList := by
  decide +kernel

end Block

end TemplateCompiler
