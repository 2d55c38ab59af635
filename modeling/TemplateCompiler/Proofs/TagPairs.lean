import TemplateCompiler.Proofs.PromotedTags
import TemplateCompiler.Text.Place

/-!
# Tags that pair up

Read from left to right, a text is a list of tokens: closing tags and opening tags of one name, and
single characters of anything else. An element ends at the first closing tag that brings the depth
which its own tag started back to zero. Within an element the tags of its name pair up among
themselves, and they pair up the same way if its content is a text of its own.
-/
namespace TemplateCompiler

namespace Element

variable {qualified source after : Text}

theorem closingTag?_ne_nil {written : Text}
    (h : closingTag? qualified source = some (written, after)) : written ≠ [] := by
  obtain ⟨rest, -, hend⟩ := Option.bind_eq_some_iff.mp h
  split at hend
  · cases hend
    exact List.cons_ne_nil _ _
  · cases hend

theorem closingTag?_append {written more : Text}
    (h : closingTag? qualified source = some (written, after)) :
    closingTag? qualified (source ++ more) = some (written, after ++ more) := by
  obtain ⟨rest, hname, hend⟩ := Option.bind_eq_some_iff.mp h
  have hmore : Text.after? ('<' :: '/' :: qualified) (source ++ more) = some (rest ++ more) := by
    rw [Text.after?_eq_some_iff] at hname ⊢
    rw [hname, List.append_assoc]
  split at hend
  · rename_i behind hdrop
    cases hend
    have hne : rest.dropWhile Unicode.isWhitespace ≠ [] := by simp [hdrop]
    rw [closingTag?, hmore, Option.bind_some, Text.dropWhile_append_of_ne_nil hne,
      Text.takeWhile_append_of_ne_nil hne, hdrop]
    rfl
  · cases hend

theorem closingTag?_written {written : Text}
    (h : closingTag? qualified source = some (written, after)) (more : Text) :
    closingTag? qualified (written ++ more) = some (written, more) := by
  obtain ⟨rest, -, hend⟩ := Option.bind_eq_some_iff.mp h
  split at hend
  · cases hend
    have hblank : (rest.takeWhile Unicode.isWhitespace).all Unicode.isWhitespace :=
      List.all_takeWhile
    obtain ⟨htake, hdrop⟩ := @Text.takeWhile_word _ _ more '>' hblank (by decide)
    have hname : Text.after? ('<' :: '/' :: qualified)
        ('<' :: '/' :: qualified ++ rest.takeWhile Unicode.isWhitespace ++ ['>'] ++ more) =
          some (rest.takeWhile Unicode.isWhitespace ++ '>' :: more) := by
      simp [Text.after?_eq_some_iff]
    rw [closingTag?, hname, Option.bind_some, htake, hdrop]
    rfl
  · cases hend

/-- What a text is read as, where only the tags of one name count. -/
inductive Token
  | closing (written : Text)
  | opening (tag : Tag)
  /-- A character that belongs to no tag of the name. -/
  | other (c : Char)
  deriving DecidableEq

namespace Token

def written : Token → Text
  | closing written => written
  | opening tag => tag.written
  | other c => [c]

/-- By how much a token changes the depth. -/
def rise : Token → Int
  | closing _ => -1
  | opening tag => if tag.selfClosing then 0 else 1
  | other _ => 0

def text (tokens : List Token) : Text := tokens.flatMap written

def depth : List Token → Int
  | [] => 0
  | token :: tokens => token.rise + depth tokens

@[simp] theorem text_nil : text [] = [] := rfl

@[simp] theorem text_cons (token : Token) (tokens : List Token) :
    text (token :: tokens) = token.written ++ text tokens := rfl

@[simp] theorem text_append (first second : List Token) :
    text (first ++ second) = text first ++ text second := List.flatMap_append

@[simp] theorem depth_nil : depth [] = 0 := rfl

@[simp] theorem depth_cons (token : Token) (tokens : List Token) :
    depth (token :: tokens) = token.rise + depth tokens := rfl

@[simp] theorem depth_append (first second : List Token) :
    depth (first ++ second) = depth first + depth second := by
  induction first with
  | nil => simp
  | cons token tokens ih => simp [ih, Int.add_assoc]

@[simp] theorem rise_closing (written : Text) : (closing written).rise = -1 := rfl

theorem rise_nonneg {token : Token} (h : ∀ written, token ≠ closing written) : 0 ≤ token.rise := by
  cases token with
  | closing written => exact absurd rfl (h written)
  | opening tag =>
    rw [rise]
    split <;> decide
  | other c => exact Int.le_refl 0

/-! ## Reading a text -/

def next? (qualified : Text) : Text → Option (Token × Text)
  | [] => none
  | c :: rest =>
    match closingTag? qualified (c :: rest) with
    | some (written, after) => some (closing written, after)
    | none =>
      match Tag.parse? (c :: rest) with
      | some (tag, after) =>
        if tag.qualified = qualified then some (opening tag, after) else some (other c, rest)
      | none => some (other c, rest)

variable {token : Token}

/-- What has to be at the start of a text for a token to be read there. -/
def Begins (qualified source : Text) : Token → Text → Prop
  | closing written, after => closingTag? qualified source = some (written, after)
  | opening tag, after =>
    closingTag? qualified source = none ∧ Tag.parse? source = some (tag, after) ∧
      tag.qualified = qualified
  | other c, after =>
    source = c :: after ∧ closingTag? qualified source = none ∧
      ∀ found, Tag.parse? source = some found → found.1.qualified ≠ qualified

theorem next?_eq_some_iff :
    next? qualified source = some (token, after) ↔ Begins qualified source token after := by
  cases source with
  | nil => cases token <;> simp [Begins, next?, closingTag?, Text.after?, Tag.parse?]
  | cons c rest =>
    rw [next?]
    cases hclosing : closingTag? qualified (c :: rest) with
    | some found => cases token <;> simp [Begins, hclosing, Prod.ext_iff]
    | none =>
      cases htag : Tag.parse? (c :: rest) with
      | none => cases token <;> simp [Begins, hclosing, htag]
      | some found =>
        obtain ⟨tag, behind⟩ := found
        by_cases hname : tag.qualified = qualified
        · cases token with
          | closing written => simp [Begins, hclosing, hname]
          | opening tag' =>
            have hqualified : tag = tag' ∧ behind = after ↔
                (tag = tag' ∧ behind = after) ∧ tag'.qualified = qualified :=
              ⟨fun h => ⟨h, h.1 ▸ hname⟩, fun h => h.1⟩
            simpa [Begins, hclosing, htag, hname] using hqualified.symm
          | other d => simp [Begins, hclosing, htag, hname]
        · cases token with
          | closing written => simp [Begins, hclosing, hname]
          | opening tag' =>
            have hqualified : ¬((tag = tag' ∧ behind = after) ∧ tag'.qualified = qualified) :=
              fun h => hname (h.1.1 ▸ h.2)
            simpa [Begins, hclosing, htag, hname] using hqualified
          | other d => simp [Begins, hclosing, htag, hname]

theorem next?_eq (h : next? qualified source = some (token, after)) :
    source = token.written ++ after ∧ token.written ≠ [] := by
  have hbegins := next?_eq_some_iff.mp h
  cases token with
  | closing written => exact ⟨closingTag?_eq hbegins, closingTag?_ne_nil hbegins⟩
  | opening tag => exact ⟨Tag.parse?_eq hbegins.2.1, tag.written_ne_nil⟩
  | other c => exact ⟨hbegins.1, List.cons_ne_nil _ _⟩

theorem length_of_next? {found : Token × Text} (h : next? qualified source = some found) :
    found.2.length < source.length := by
  obtain ⟨htext, hne⟩ := next?_eq h
  have hpos := List.length_pos_iff.mpr hne
  rw [htext, List.length_append]
  omega

def read (qualified source : Text) : List Token :=
  match _h : next? qualified source with
  | none => []
  | some (token, after) => token :: read qualified after
termination_by source.length
decreasing_by exact length_of_next? _h

theorem read_nil (qualified : Text) : read qualified [] = [] := by
  rw [read]
  rfl

theorem read_of_next? (h : next? qualified source = some (token, after)) :
    read qualified source = token :: read qualified after := by
  rw [read]
  split
  · rename_i hnone
    rw [h] at hnone
    cases hnone
  · rename_i hsome
    rw [h] at hsome
    cases hsome
    rfl

theorem exists_next? (qualified : Text) {source : Text} (h : source ≠ []) :
    ∃ token after, next? qualified source = some (token, after) := by
  cases source with
  | nil => exact absurd rfl h
  | cons c rest =>
    rw [next?]
    split
    · exact ⟨_, _, rfl⟩
    · split
      · split <;> exact ⟨_, _, rfl⟩
      · exact ⟨_, _, rfl⟩

theorem read_induction (qualified : Text) {motive : Text → Prop} (nil : motive [])
    (next : ∀ source token after, next? qualified source = some (token, after) → motive after →
      motive source) (source : Text) : motive source := by
  by_cases hempty : source = []
  · rw [hempty]
    exact nil
  · obtain ⟨token, after, hnext⟩ := exists_next? qualified hempty
    exact next source token after hnext (read_induction qualified nil next after)
termination_by source.length
decreasing_by exact length_of_next? hnext

theorem text_read (qualified source : Text) : text (read qualified source) = source := by
  induction source using read_induction qualified with
  | nil => rw [read_nil, text_nil]
  | next source token after hnext ih => rw [read_of_next? hnext, text_cons, ih, (next?_eq hnext).1]

theorem next?_of_read {tokens : List Token} (h : read qualified source = token :: tokens) :
    next? qualified source = some (token, text tokens) := by
  by_cases hempty : source = []
  · rw [hempty, read_nil] at h
    cases h
  · obtain ⟨token', after, hnext⟩ := exists_next? qualified hempty
    rw [read_of_next? hnext] at h
    obtain ⟨rfl, rfl⟩ := List.cons.inj h
    rw [hnext, text_read]

theorem read_text_right {first second : List Token}
    (h : read qualified source = first ++ second) : read qualified (text second) = second := by
  induction first generalizing source with
  | nil => rw [← List.nil_append second, ← h, text_read]
  | cons token first ih =>
    by_cases hempty : source = []
    · rw [hempty, read_nil] at h
      cases h
    · obtain ⟨token', after, hnext⟩ := exists_next? qualified hempty
      rw [read_of_next? hnext, List.cons_append] at h
      exact ih (List.cons.inj h).2

/-! ## Reading a part of a text -/

/-- What a token is read from shows what it is, whatever follows. -/
theorem next?_of_append {more : Text}
    (h : next? qualified (token.written ++ (after ++ more)) = some (token, after ++ more)) :
    next? qualified (token.written ++ after) = some (token, after) := by
  have hnone (hnone : closingTag? qualified (token.written ++ (after ++ more)) = none) :
      closingTag? qualified (token.written ++ after) = none := by
    cases hfound : closingTag? qualified (token.written ++ after) with
    | none => rfl
    | some found =>
      have hmore := @closingTag?_append qualified _ _ _ more hfound
      rw [List.append_assoc, hnone] at hmore
      cases hmore
  rw [next?_eq_some_iff] at h ⊢
  cases token with
  | closing written => exact closingTag?_written h after
  | opening tag => exact ⟨hnone h.1, Tag.parse?_written h.2.1 after, h.2.2⟩
  | other c =>
    refine ⟨rfl, hnone h.2.1, fun found hfound => ?_⟩
    have hmore := @Tag.parse?_append _ _ more _ hfound
    rw [List.append_assoc] at hmore
    exact h.2.2 (found.1, found.2 ++ more) hmore

theorem read_text_left {first second : List Token}
    (h : read qualified source = first ++ second) : read qualified (text first) = first := by
  induction first generalizing source with
  | nil => exact read_nil qualified
  | cons token first ih =>
    by_cases hempty : source = []
    · rw [hempty, read_nil] at h
      cases h
    · obtain ⟨token', after, hnext⟩ := exists_next? qualified hempty
      rw [read_of_next? hnext, List.cons_append] at h
      obtain ⟨rfl, hafter⟩ := List.cons.inj h
      have htext := text_read qualified after
      rw [hafter, text_append] at htext
      rw [(next?_eq hnext).1, ← htext] at hnext
      rw [text_cons, read_of_next? (next?_of_append hnext), ih hafter]

/-! ## The token that ends an element -/

/-- The first closing tag that brings the depth back to zero, if it is `start` before the tokens. -/
structure IsClosedBy (start : Int) (tokens inner : List Token) (closer : Text)
    (later : List Token) : Prop where
  tokens_eq : tokens = inner ++ closing closer :: later
  depth_eq : start + depth (inner ++ [closing closer]) = 0
  first : ∀ before written behind, inner = before ++ closing written :: behind →
    start + depth (before ++ [closing written]) ≠ 0

namespace IsClosedBy

variable {start : Int} {tokens inner later : List Token} {closer : Text}

theorem cons_iff : IsClosedBy start (token :: tokens) inner closer later ↔
    (token = closing closer ∧ start = 1 ∧ inner = [] ∧ later = tokens) ∨
      (¬(start = 1 ∧ ∃ written, token = closing written) ∧
        ∃ rest, inner = token :: rest ∧
          IsClosedBy (start + token.rise) tokens rest closer later) := by
  constructor
  · intro h
    cases inner with
    | nil =>
      have htokens := h.tokens_eq
      have hdepth := h.depth_eq
      simp only [List.nil_append, List.cons.injEq] at htokens
      simp only [List.nil_append, depth_cons, depth_nil, rise_closing] at hdepth
      exact Or.inl ⟨htokens.1, by omega, rfl, htokens.2.symm⟩
    | cons token' rest =>
      have htokens := h.tokens_eq
      rw [List.cons_append, List.cons.injEq] at htokens
      obtain ⟨rfl, htokens⟩ := htokens
      refine Or.inr ⟨?_, rest, rfl, htokens, ?_, ?_⟩
      · rintro ⟨hstart, written, rfl⟩
        apply h.first [] written rest rfl
        simp [hstart]
      · have hdepth := h.depth_eq
        simpa [Int.add_assoc] using hdepth
      · rintro before written behind rfl
        have hfirst := h.first (token :: before) written behind rfl
        simpa [Int.add_assoc] using hfirst
  · rintro (⟨rfl, rfl, rfl, rfl⟩ | ⟨hgoes, rest, rfl, h⟩)
    · refine ⟨rfl, rfl, ?_⟩
      intro before written behind hnil
      cases before <;> cases hnil
    · refine ⟨by rw [h.tokens_eq]; rfl, ?_, ?_⟩
      · have hdepth := h.depth_eq
        simpa [Int.add_assoc] using hdepth
      · intro before written behind hinner
        cases before with
        | nil =>
          obtain ⟨rfl, -⟩ := List.cons.inj hinner
          intro hdepth
          simp only [List.nil_append, depth_cons, depth_nil, rise_closing] at hdepth
          exact hgoes ⟨by omega, written, rfl⟩
        | cons token' before =>
          obtain ⟨rfl, hrest⟩ := List.cons.inj hinner
          have hfirst := h.first before written behind hrest
          simpa [Int.add_assoc] using hfirst

theorem append (h : IsClosedBy start tokens inner closer later) (more : List Token) :
    IsClosedBy start (tokens ++ more) inner closer (later ++ more) :=
  ⟨by rw [h.tokens_eq, List.append_assoc, List.cons_append], h.depth_eq, h.first⟩

end IsClosedBy

/-- As no token goes down by more than one, the depth is zero on the way below. -/
theorem exists_isClosedBy {start : Int} {tokens : List Token} (hstart : 0 < start)
    (h : start + depth tokens ≤ 0) :
    ∃ inner closer later, IsClosedBy start tokens inner closer later := by
  induction tokens generalizing start with
  | nil =>
    rw [depth_nil] at h
    omega
  | cons token tokens ih =>
    by_cases hends : start = 1 ∧ ∃ written, token = closing written
    · obtain ⟨hstart, written, rfl⟩ := hends
      exact ⟨[], written, tokens, IsClosedBy.cons_iff.mpr (Or.inl ⟨rfl, hstart, rfl, rfl⟩)⟩
    · have hpos : 0 < start + token.rise := by
        by_cases hclosing : ∃ written, token = closing written
        · have hone : start ≠ 1 := fun hone => hends ⟨hone, hclosing⟩
          obtain ⟨written, rfl⟩ := hclosing
          rw [rise_closing]
          omega
        · have hrise := rise_nonneg fun written hwritten => hclosing ⟨written, hwritten⟩
          omega
      obtain ⟨inner, closer, later, hclosed⟩ := ih hpos (by rw [depth_cons] at h; omega)
      exact ⟨token :: inner, closer, later,
        IsClosedBy.cons_iff.mpr (Or.inr ⟨hends, inner, rfl, hclosed⟩)⟩

theorem IsClosedBy.depth_pos {start : Int} {tokens inner later before behind : List Token}
    {closer : Text} (h : IsClosedBy start tokens inner closer later) (hstart : 0 < start)
    (hinner : inner = before ++ behind) : 0 < start + depth before := by
  apply Int.not_le.mp
  intro hdepth
  obtain ⟨before', written, behind', hclosed⟩ := exists_isClosedBy hstart hdepth
  apply h.first before' written (behind' ++ behind)
  · rw [hinner, hclosed.tokens_eq, List.append_assoc, List.cons_append]
  · exact hclosed.depth_eq

/-- An opening tag within an element is closed within it. -/
theorem IsClosedBy.exists_partner {tokens inner later outer more : List Token} {closer : Text}
    {tag : Tag} (h : IsClosedBy 1 tokens inner closer later)
    (hinner : inner = outer ++ opening tag :: more) (hopen : tag.selfClosing = false) :
    ∃ inner' closer' more', IsClosedBy 1 more inner' closer' more' := by
  apply exists_isClosedBy Int.one_pos
  have hbefore := h.depth_pos Int.one_pos hinner
  have hdepth := h.depth_eq
  have hrise : (opening tag).rise = 1 := by rw [rise, hopen]; rfl
  rw [hinner] at hdepth
  simp only [depth_append, depth_cons, depth_nil, rise_closing, hrise] at hdepth
  omega

end Token

open Token

variable {token : Token}

theorem content?_next (h : next? qualified source = some (token, after)) (depth : Nat)
    (hgoes : ¬((depth : Int) + 1 = 1 ∧ ∃ written, token = .closing written)) :
    ∃ deeper : Nat, (deeper : Int) = depth + token.rise ∧
      content? qualified depth 0 source = (content? qualified deeper 0 after).map
        fun found => (token.written ++ found.1, found.2) := by
  have htext := (next?_eq h).1
  have hbegins := next?_eq_some_iff.mp h
  cases token with
  | closing written =>
    cases depth with
    | zero => exact absurd ⟨rfl, written, rfl⟩ hgoes
    | succ depth =>
      refine ⟨depth, by rw [rise_closing]; omega, ?_⟩
      rw [htext] at hbegins ⊢
      exact content?_closing hbegins (closingTag?_ne_nil hbegins) depth
  | opening tag =>
    obtain ⟨hclosing, htag, rfl⟩ := hbegins
    rw [htext] at hclosing htag ⊢
    refine ⟨if tag.selfClosing then depth else depth + 1, ?_, content?_tag htag hclosing depth⟩
    rw [rise]
    split <;> simp
  | other c =>
    obtain ⟨rfl, hclosing, htag⟩ := hbegins
    exact ⟨depth, by simp [rise], content?_cons hclosing htag depth⟩

/-- The content of an element is found up to the closing tag that its tokens give. -/
theorem content?_eq_some_iff {content closer rest : Text} {depth : Nat} :
    content? qualified depth 0 source = some (content, closer, rest) ↔
      ∃ inner later, IsClosedBy (depth + 1) (read qualified source) inner closer later ∧
        content = text inner ∧ rest = text later := by
  induction source using read_induction qualified generalizing content depth with
  | nil =>
    rw [content?, read_nil]
    constructor
    · intro h
      cases h
    · rintro ⟨inner, later, h, -, -⟩
      cases inner <;> cases h.tokens_eq
  | next source token after hnext ih =>
    simp only [read_of_next? hnext, IsClosedBy.cons_iff]
    by_cases hends : (depth : Int) + 1 = 1 ∧ ∃ written, token = .closing written
    · obtain ⟨hdepth, written, rfl⟩ := hends
      obtain rfl : depth = 0 := by omega
      have hclosing := next?_eq_some_iff.mp hnext
      have htext := closingTag?_eq hclosing
      rw [Begins, htext] at hclosing
      rw [htext, content?_zero hclosing (closingTag?_ne_nil hclosing)]
      constructor
      · intro h
        cases h
        exact ⟨[], _, Or.inl ⟨rfl, rfl, rfl, rfl⟩, rfl, (text_read _ _).symm⟩
      · rintro ⟨inner, later, ⟨hcloser, -, rfl, rfl⟩ | ⟨hgoes, -⟩, rfl, rfl⟩
        · cases hcloser
          rw [text_read]
          rfl
        · exact absurd ⟨rfl, written, rfl⟩ hgoes
    · obtain ⟨deeper, hdeeper, hcontent⟩ := content?_next hnext depth hends
      have hstart : (depth : Int) + 1 + token.rise = deeper + 1 := by omega
      rw [hcontent, Option.map_eq_some_iff, hstart]
      constructor
      · rintro ⟨⟨content', closer', rest'⟩, hfound, heq⟩
        cases heq
        obtain ⟨inner, later, hclosed, hinner, hlater⟩ := ih.mp hfound
        refine ⟨token :: inner, later, Or.inr ⟨hends, inner, rfl, hclosed⟩, ?_, hlater⟩
        rw [hinner, text_cons]
      · rintro ⟨inner, later, ⟨hcloser, hdepth, -⟩ | ⟨-, rest, rfl, hclosed⟩, rfl, rfl⟩
        · exact absurd ⟨hdepth, closer, hcloser⟩ hends
        · exact ⟨(text rest, closer, text later), ih.mpr ⟨rest, later, hclosed, rfl, rfl⟩, rfl⟩

def at? (place : Place) : Option Element :=
  (Tag.parse? place.rest).bind fun found => (ofTag? found.1 found.2).map (·.1)

/-- A tag is paired with the closing tag that its tokens give. -/
theorem at?_eq_some_iff {place : Place} {tag : Tag} {element : Element}
    (htag : Tag.parse? place.rest = some (tag, after)) (hopen : tag.selfClosing = false) :
    at? place = some element ↔ ∃ inner closer later,
      IsClosedBy 1 (read tag.qualified after) inner closer later ∧
        element = ⟨tag, text inner, closer⟩ := by
  have hcontent (content closer rest : Text) :=
    @content?_eq_some_iff tag.qualified after content closer rest 0
  rw [at?, htag, Option.bind_some, ofTag?, hopen]
  simp only [Bool.false_eq_true, if_false, Option.map_map, Option.map_eq_some_iff]
  constructor
  · rintro ⟨⟨content, closer, rest⟩, hfound, rfl⟩
    obtain ⟨inner, later, hclosed, rfl, -⟩ := (hcontent _ _ _).mp hfound
    exact ⟨inner, closer, later, hclosed, rfl⟩
  · rintro ⟨inner, closer, later, hclosed, rfl⟩
    exact ⟨_, (hcontent _ _ _).mpr ⟨inner, later, hclosed, rfl, rfl⟩, rfl⟩

theorem at?_of_read {place : Place} {tag : Tag} {closer : Text}
    {outer tokens inner later : List Token}
    (hread : read qualified source = outer ++ .opening tag :: tokens)
    (hplace : place.rest = text (.opening tag :: tokens)) (hopen : tag.selfClosing = false)
    (hclosed : IsClosedBy 1 tokens inner closer later) :
    at? place = some ⟨tag, text inner, closer⟩ := by
  have hrest := read_text_right hread
  obtain ⟨-, htag, rfl⟩ := next?_eq_some_iff.mp (next?_of_read hrest)
  rw [← hplace] at htag
  rw [at?_eq_some_iff htag hopen]
  rw [@read_text_right _ _ [.opening tag] _ hrest]
  exact ⟨inner, closer, later, hclosed, rfl⟩

/-- Tags of one name pair up like brackets: a tag begins an element just if some closing tag brings
the depth that it starts to zero, and the first such closing tag ends the element, whose content are
the tokens in between. Each opening tag among these has its own partner among them, with which it
is paired in the whole text and also in the content alone. -/
theorem tags_pair_like_brackets {place : Place} {tag : Tag} {after : Text}
    (htag : Tag.parse? place.rest = some (tag, after)) (hopen : tag.selfClosing = false) :
    let tokens := read tag.qualified after
    text tokens = after ∧
    ((at? place).isSome ↔ ∃ inner closer later, tokens = inner ++ .closing closer :: later ∧
      1 + depth (inner ++ [.closing closer]) = 0) ∧
    ∀ element, at? place = some element → ∃ inner closer later,
      IsClosedBy 1 tokens inner closer later ∧ element = ⟨tag, text inner, closer⟩ ∧
      ∀ outer nested more, inner = outer ++ .opening nested :: more → nested.selfClosing = false →
        ∃ inner' closer' more', IsClosedBy 1 more inner' closer' more' ∧
          at? (place.advance (tag.written ++ text outer).length) =
            some ⟨nested, text inner', closer'⟩ ∧
          at? ((Place.start element.content).advance (text outer).length) =
            some ⟨nested, text inner', closer'⟩ := by
  intro tokens
  refine ⟨text_read _ _, ?_, ?_⟩
  · rw [Option.isSome_iff_exists]
    simp only [at?_eq_some_iff htag hopen]
    constructor
    · rintro ⟨element, inner, closer, later, hclosed, -⟩
      exact ⟨inner, closer, later, hclosed.tokens_eq, hclosed.depth_eq⟩
    · rintro ⟨inner, closer, later, htokens, hdepth⟩
      obtain ⟨inner', closer', later', hclosed⟩ :=
        exists_isClosedBy Int.one_pos (Int.le_of_eq hdepth)
      have hall := hclosed.append later
      rw [List.append_assoc, List.singleton_append, ← htokens] at hall
      exact ⟨_, inner', closer', _, hall, rfl⟩
  · intro element helement
    obtain ⟨inner, closer, later, hclosed, rfl⟩ := (at?_eq_some_iff htag hopen).mp helement
    refine ⟨inner, closer, later, hclosed, rfl, ?_⟩
    rintro outer nested more rfl hnested
    obtain ⟨inner', closer', more', hpartner⟩ := hclosed.exists_partner rfl hnested
    have hread : read tag.qualified after =
        outer ++ .opening nested :: (more ++ .closing closer :: later) := by
      rw [hclosed.tokens_eq, List.append_assoc, List.cons_append]
    refine ⟨inner', closer', more', hpartner, ?_, ?_⟩
    · -- in the whole text, more tokens follow those of the content
      apply at?_of_read hread _ hnested (hpartner.append _)
      have hsource : place.rest = (tag.written ++ text outer) ++
          text (.opening nested :: (more ++ .closing closer :: later)) := by
        have htext := text_read tag.qualified after
        rw [hread, text_append] at htext
        rw [Tag.parse?_eq htag, ← htext, List.append_assoc]
      rw [Place.advance, hsource, List.drop_left]
    · apply at?_of_read (read_text_left hclosed.tokens_eq) _ hnested hpartner
      rw [Place.advance, Place.start, text_append, List.drop_left]

/-- A closing tag in an attribute is no token, nor is one of a longer name. -/
theorem tags_pair_like_brackets_of_nested :
    let source : Text := "<a:b x='</a:b>'><a:b y>i</a:b><a:b/></a:bc></a:b >z".toList
    let after : Text := "<a:b y>i</a:b><a:b/></a:bc></a:b >z".toList
    let tag : Tag := ⟨some ['a'], ['b'],
      [⟨[' '], ['x'], ['='], .quoted '\'' "</a:b>".toList⟩], [], false⟩
    let element : Element := ⟨tag, "<a:b y>i</a:b><a:b/></a:bc>".toList, "</a:b >".toList⟩
    Tag.parse? (Place.start source).rest = some (tag, after) ∧ tag.selfClosing = false ∧
    at? (Place.start source) = some element ∧
    ∃ inner closer later, IsClosedBy 1 (read tag.qualified after) inner closer later ∧
      element = ⟨tag, text inner, closer⟩ := by
  intro source after tag element
  have htag : Tag.parse? (Place.start source).rest = some (tag, after) := by decide +kernel
  have hopen : tag.selfClosing = false := rfl
  have helement : at? (Place.start source) = some element := by decide +kernel
  obtain ⟨inner, closer, later, hclosed, hpieces, -⟩ :=
    (tags_pair_like_brackets htag hopen).2.2 element helement
  exact ⟨htag, hopen, helement, inner, closer, later, hclosed, hpieces⟩

end Element

end TemplateCompiler
