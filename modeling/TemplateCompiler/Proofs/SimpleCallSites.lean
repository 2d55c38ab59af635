import TemplateCompiler.Call.Simple
import TemplateCompiler.Proofs.BlockPairs
import TemplateCompiler.Proofs.Collecting
import TemplateCompiler.Proofs.Sweeping

/-!
# Simple calls and their statements

The pass over the simple calls replaces the head of each simple call by one statement, and leaves
the rest of the text as it is. The simple calls are found one by one from the left: each is the
first one that begins behind the head of the one before. So a call in the arguments of another one
stays, while no other call is passed over, and no head of a block is taken for a call.
-/
namespace TemplateCompiler

/-! ## White space before a call -/

namespace Layout

/-- The white space that a construct claims of the text kept before it: all that leads up to it,
without the first character if that stands behind a word. -/
def claimed (place : Place) (kept : Text) : Text :=
  let space := (kept.reverse.takeWhile Unicode.isWhitespace).reverse
  if (place.before.drop space.length).head?.any isWordChar then space.tail else space

variable {place : Place} {kept : Text}

theorem lead?_eq_claimed (hglued : place.previous.any isWordChar = false)
    (hkept : kept.reverse = place.before.take kept.length) :
    lead? place.before kept.length = some (claimed place kept) := by
  unfold lead? claimed
  simp only [← hkept, List.length_reverse]
  generalize kept.reverse.takeWhile Unicode.isWhitespace = space
  split
  · rename_i hword
    cases hspace : space.reverse with
    | nil =>
      rw [List.reverse_eq_nil_iff.mp hspace] at hword
      exact absurd hword (Bool.eq_false_iff.mp hglued)
    | cons c rest => rfl
  · rfl

theorem claimed_suffix (place : Place) (kept : Text) : claimed place kept <:+ kept := by
  have hspace : (kept.reverse.takeWhile Unicode.isWhitespace).reverse <:+ kept := by
    have h := List.takeWhile_prefix (l := kept.reverse) Unicode.isWhitespace
    rw [← List.reverse_suffix, List.reverse_reverse] at h
    exact h
  unfold claimed
  simp only
  split
  · exact (List.tail_suffix _).trans hspace
  · exact hspace

/-- What a construct claims of the text before it, it puts there again. -/
theorem taken_back (place : Place) (kept : Text) :
    (kept.reverse.drop (claimed place kept).length).reverse ++ claimed place kept = kept := by
  obtain ⟨more, hmore⟩ := claimed_suffix place kept
  generalize claimed place kept = lead at hmore
  rw [← hmore, List.reverse_append, ← List.length_reverse, List.drop_left, List.reverse_reverse]

theorem isBlank_claimed (place : Place) (kept : Text) : (claimed place kept).isBlank := by
  have hspace : Text.isBlank (kept.reverse.takeWhile Unicode.isWhitespace).reverse := by
    rw [Text.isBlank, List.all_reverse]
    exact List.all_takeWhile
  unfold claimed
  simp only
  split
  · exact List.all_eq_true.mpr fun c hc =>
      List.all_eq_true.mp hspace c (List.mem_of_mem_tail hc)
  · exact hspace

theorem isBlank_indentOf {space : Text} (h : space.isBlank) : (indentOf space).isBlank :=
  List.all_eq_true.mpr fun c hc => List.all_eq_true.mp h c (indentOf_subset space hc)

end Layout

theorem Code.singleQuoted_of_isBlank {text : Text} (h : text.isBlank) :
    singleQuoted text = '\'' :: (text ++ ['\'']) := by
  have hplain : ∀ c ∈ text, isSingleQuotedSpecial c = false := by
    intro c hc
    have hspace := List.all_eq_true.mp h c hc
    apply Bool.eq_false_iff.mpr
    intro hspecial
    rcases Bool.or_eq_true_iff.mp hspecial with hspecial | hspecial
    · rw [beq_iff_eq.mp hspecial] at hspace
      cases hspace
    · rw [beq_iff_eq.mp hspecial] at hspace
      cases hspace
  rw [singleQuoted, escape_eq_self hplain]
  rfl

namespace SimpleCall

/-- A simple call begins at a place: there is a head there, not glued to a word, that ends no block;
its name goes on with nothing but arguments or white space, and it with no body and no further
bracket. -/
structure BeginsAt (place : Place) (head : Head) : Prop where
  read : Head.parse? {} place.rest = some (head, place.rest.drop head.written.length)
  unglued : place.previous.any isWordChar = false
  not_end : head.isEndTag {} = false
  name_ends : ∀ c ∈ (place.rest.drop head.opener.length).head?,
    c = '(' ∨ Unicode.isWhitespace c
  single : ∀ c ∈ (Text.trimStart (place.rest.drop head.written.length)).head?, c ≠ ':' ∧ c ≠ '('

theorem BeginsAt.head_eq {place : Place} {head head' : Head} {after : Text}
    (h : BeginsAt place head) (h' : Head.parse? {} place.rest = some (head', after)) :
    head' = head := by
  rw [h.read] at h'
  cases h'
  rfl

structure Site where
  place : Place
  head : Head
  call : ResolvedCall

namespace Site

def span (site : Site) : Span := Span.ofText site.place.offset site.head.written

def behind (site : Site) : Place := site.place.advance site.head.written.length

/-- The statement that stands for the head, if `kept` is the text since the call before. -/
def statement (site : Site) (kept : Text) : Text :=
  "<?php _h\\out(".toList ++ site.call.code (site.head.argumentText.getD []) ++ ", '".toList ++
    Layout.indentOf (Layout.claimed site.place kept) ++ "') ?> ".toList

end Site

/-- The text from a place on, with the heads of calls replaced by their statements. -/
def rewritten (place : Place) : List Site → Text
  | [] => place.rest
  | site :: later =>
    let kept := place.rest.take (site.place.before.length - place.before.length)
    kept ++ site.statement kept ++ rewritten site.behind later

variable {environment : Environment} {context : Context} {place : Place} {sites : List Site}

/-- The simple calls from a place on: the first one there, and those from behind its head on. -/
inductive CallsFrom (environment : Environment) (context : Context) : Place → List Site → Prop
  | done {place : Place} (none_left : ∀ k head, ¬BeginsAt (place.advance k) head) :
    CallsFrom environment context place []
  | call {place : Place} {site : Site} {later : List Site} {n : Nat}
    (none_before : ∀ k < n, ∀ head, ¬BeginsAt (place.advance k) head)
    (at_place : site.place = place.advance n) (begins : BeginsAt site.place site.head)
    (resolves : site.head.resolve environment context 0 = .ok site.call)
    (behind : CallsFrom environment context site.behind later) :
    CallsFrom environment context place (site :: later)

namespace CallsFrom

theorem of_advance {count : Nat} (hnone : ∀ k < count, ∀ head, ¬BeginsAt (place.advance k) head)
    (h : CallsFrom environment context (place.advance count) sites) :
    CallsFrom environment context place sites := by
  have hall (bound : Nat)
      (hlater : ∀ k < bound, ∀ head, ¬BeginsAt ((place.advance count).advance k) head) :
      ∀ k < count + bound, ∀ head, ¬BeginsAt (place.advance k) head := by
    intro k hk head
    by_cases hlt : k < count
    · exact hnone k hlt head
    · have hbegins := hlater (k - count) (by omega) head
      rwa [Place.advance_advance, Nat.add_sub_cancel' (Nat.not_lt.mp hlt)] at hbegins
  cases h with
  | done hleft => exact .done fun k => hall (k + 1) (fun k _ => hleft k) k (by omega)
  | call hbefore hplace hbegins hresolves hbehind =>
    rw [Place.advance_advance] at hplace
    exact .call (hall _ hbefore) hplace hbegins hresolves hbehind

end CallsFrom

/-- Within an opener no other head begins. -/
theorem opener_length_le {text after after' : Text} {head head' : Head} {k : Nat}
    (h : Head.parse? {} text = some (head, after))
    (h' : Head.parse? {} (text.drop k) = some (head', after')) (hk : 0 < k) :
    head.opener.length ≤ k := by
  obtain ⟨rest, htext, hopener, hname⟩ := Head.exists_isName h
  obtain ⟨rest', htext', hopener', -⟩ := Head.exists_isName h'
  have hword : Head.qualifierPart head.qualifier ++ head.method ≠ [] :=
    List.append_ne_nil_of_right_ne_nil _ hname.method_ne_nil
  rw [htext, hopener, hopener', List.append_assoc ({} : Markers).call _ rest'] at htext'
  rw [hopener]
  exact Text.length_le_of_marker hword (hname.not_mem (by decide) (by decide)) hk htext'

theorem not_beginsAt_of_isEndTag {head : Head} {after : Text} {k : Nat}
    (hread : Head.parse? {} place.rest = some (head, after)) (hend : head.isEndTag {})
    (hk : k ≤ head.opener.length - 1) (head' : Head) : ¬BeginsAt (place.advance k) head' := by
  intro hbegins
  rcases Nat.eq_zero_or_pos k with rfl | hpos
  · rw [hbegins.head_eq hread, hbegins.not_end] at hend
    cases hend
  · have hle := opener_length_le hread hbegins.read hpos
    have hmethod := List.length_pos_iff.mpr (Head.method_ne_nil hread)
    rw [Head.opener, List.length_append] at hle hk
    omega

theorem isNameEnd_iff {text : Text} :
    isNameEnd text ↔ ∀ c ∈ text.head?, c = '(' ∨ Unicode.isWhitespace c := by
  cases text with
  | nil => simp [isNameEnd]
  | cons c rest => simp [isNameEnd]

theorem goesOn_eq_false_iff {text : Text} :
    goesOn {} text = false ↔ ∀ c ∈ text.trimStart.head?, c ≠ ':' ∧ c ≠ '(' := by
  unfold goesOn
  cases text.trimStart with
  | nil => simp
  | cons c rest => simp

theorem code_eq (site : Site) (kept : Text) :
    code .pretty (Layout.claimed site.place kept) site.call site.head =
      Layout.claimed site.place kept ++ site.statement kept := by
  have hindent := Layout.isBlank_indentOf (Layout.isBlank_claimed site.place kept)
  unfold code Code.output Site.statement
  rw [Code.singleQuoted_of_isBlank hindent]
  simp

/-- A step of the pass keeps text in which no call begins, or replaces the call at its place. -/
theorem step_cases {kept : Text} {move : Move} (hmarkers : environment.options.markers = {})
    (hmode : environment.options.mode = .pretty)
    (hkept : kept.reverse = place.before.take kept.length)
    (h : step environment context place kept.length = .ok move) :
    (∃ more, move = .keep more ∧ ∀ k ≤ more, ∀ head, ¬BeginsAt (place.advance k) head) ∨
    ∃ site : Site, site.place = place ∧ BeginsAt place site.head ∧
      site.head.resolve environment context 0 = .ok site.call ∧
      move = .replace (Layout.claimed place kept).length (site.head.written.length - 1)
        (Layout.claimed place kept ++ site.statement kept) := by
  have hkeep (hnone : ∀ head, ¬BeginsAt place head) : ∃ more, Move.keep 0 = .keep more ∧
      ∀ k ≤ more, ∀ head, ¬BeginsAt (place.advance k) head := by
    refine ⟨0, rfl, fun k hk head => ?_⟩
    rw [Nat.le_zero.mp hk]
    exact hnone head
  unfold step at h
  simp only [hmarkers, hmode] at h
  split at h
  · rename_i hglued
    cases h
    refine Or.inl (hkeep fun head hbegins => ?_)
    rw [hbegins.unglued] at hglued
    cases hglued
  · rename_i hglued
    split at h
    · rename_i hread
      cases h
      refine Or.inl (hkeep fun head hbegins => ?_)
      rw [hbegins.read] at hread
      cases hread
    · rename_i head after hread
      have hafter : after = place.rest.drop head.written.length := by
        rw [Head.parse?_eq hread, List.drop_left]
      split at h
      · rename_i hend
        cases h
        exact Or.inl ⟨_, rfl, fun k hk => not_beginsAt_of_isEndTag hread hend hk⟩
      · rename_i hend
        split at h
        · rename_i hgoes
          cases h
          refine Or.inl (hkeep fun head' hbegins => ?_)
          obtain rfl := hbegins.head_eq hread
          have hname := isNameEnd_iff.mpr hbegins.name_ends
          have hsingle := goesOn_eq_false_iff.mpr hbegins.single
          rw [hname, hafter, hsingle] at hgoes
          cases hgoes
        · rename_i hgoes
          rw [Layout.lead?_eq_claimed (Bool.not_eq_true _ ▸ hglued) hkept] at h
          simp only at h
          split at h
          · cases h
          · rename_i call hcall
            cases h
            refine Or.inr ⟨⟨place, head, call⟩, rfl, ?_, hcall, ?_⟩
            · rw [Bool.or_eq_true, not_or, Bool.not_eq_true, Bool.not_eq_true,
                Bool.not_eq_false'] at hgoes
              exact ⟨hafter ▸ hread, Bool.not_eq_true _ ▸ hglued, Bool.not_eq_true _ ▸ hend,
                isNameEnd_iff.mp hgoes.1, goesOn_eq_false_iff.mp (hafter ▸ hgoes.2)⟩
            · exact congrArg (Move.replace _ _) (code_eq ⟨place, head, call⟩ kept)

theorem rewritten_cons {floor kept : Text} {site : Site} (later : List Site)
    (hbefore : site.place.before = kept.reverse ++ floor) :
    rewritten ⟨floor, kept ++ site.place.rest⟩ (site :: later) =
      kept ++ site.statement kept ++ rewritten site.behind later := by
  have hlength : site.place.before.length - floor.length = kept.length := by
    rw [hbefore, List.length_append, List.length_reverse, Nat.add_sub_cancel]
  simp only [rewritten, hlength, List.take_left]

/-- The pass gives the text with the calls from left to right replaced, where `kept` is the text
since the last call and `floor` that before it. -/
theorem exists_callsFrom {place : Place} {floor kept out : Text} {keeping : Bool}
    (hmarkers : environment.options.markers = {}) (hmode : environment.options.mode = .pretty)
    (hbefore : place.before = kept.reverse ++ floor)
    (h : Sweep.sweepFrom (step environment context) place.before kept.reverse 0 keeping place.rest =
      .ok out) :
    ∃ sites, CallsFrom environment context place sites ∧
      out = rewritten ⟨floor, kept ++ place.rest⟩ sites := by
  -- by induction on the text that is left, which gets shorter with every step
  by_cases hrest : place.rest = []
  · rw [hrest, Sweep.sweepFrom, List.reverse_reverse] at h
    cases h
    refine ⟨[], .done fun k head hbegins => ?_, by rw [rewritten, hrest, List.append_nil]⟩
    have hread := hbegins.read
    rw [Place.advance, hrest, List.drop_nil, Head.parse?_nil] at hread
    cases hread
  have hpos := List.length_pos_iff.mpr hrest
  have hkept : kept.reverse = place.before.take kept.length := by
    rw [hbefore, ← List.length_reverse, List.take_left]
  rcases Sweep.sweepFrom_eq_ok hrest h with
    ⟨more, hstep, hnext⟩ | ⟨claimed, more, new, swept, hstep, hswept, rfl⟩
  · rw [List.length_reverse] at hstep
    rcases step_cases hmarkers hmode hkept hstep with ⟨_, ⟨⟩, hnone⟩ | ⟨_, -, -, -, ⟨⟩⟩
    have hbefore' : (place.advance (more + 1)).before =
        (kept ++ place.rest.take (more + 1)).reverse ++ floor := by
      rw [Place.advance, hbefore, List.reverse_append, List.append_assoc]
    rw [← List.reverse_append] at hnext
    obtain ⟨sites, hsites, rfl⟩ := exists_callsFrom hmarkers hmode hbefore' hnext
    refine ⟨sites, .of_advance (fun k hk => hnone k (Nat.le_of_lt_succ hk)) hsites, ?_⟩
    rw [Place.advance, List.append_assoc, List.take_append_drop]
  · rw [List.length_reverse] at hstep
    rcases step_cases hmarkers hmode hkept hstep with
      ⟨_, ⟨⟩, -⟩ | ⟨site, hplace, hbegins, hresolves, ⟨⟩⟩
    have hbehind : place.advance (site.head.written.length - 1 + 1) = site.behind := by
      rw [Site.behind, hplace, Nat.sub_add_cancel (Head.written_length_pos hbegins.read)]
    rw [hbehind] at hswept
    obtain ⟨later, hlater, rfl⟩ :=
      @exists_callsFrom site.behind site.behind.before [] swept false hmarkers hmode rfl hswept
    refine ⟨site :: later, .call (n := 0) (by omega) hplace (hplace ▸ hbegins) hresolves hlater, ?_⟩
    -- the white space that was taken back from the text kept comes again with the statement
    rw [← hplace] at hbefore ⊢
    rw [rewritten_cons later hbefore, ← List.append_assoc _ (Layout.claimed _ _),
      Layout.taken_back]
    rfl
termination_by place.rest.length
decreasing_by
  · simp only [Place.advance, List.length_drop]
    omega
  · rw [← hbehind, Place.advance, List.length_drop]
    omega

/-! ## What becomes of the calls of a text -/

theorem Site.span_stop {site : Site} (h : BeginsAt site.place site.head) :
    site.span.start < site.span.stop ∧ site.behind.offset = site.span.stop := by
  have hpos := Head.written_length_pos h.read
  have hsize := Text.length_le_size site.head.written
  have htake : site.place.rest.take site.head.written.length = site.head.written := by
    rw [Head.parse?_eq h.read, List.take_left]
  refine ⟨?_, by rw [behind, Place.offset_advance, htake]; rfl⟩
  apply Nat.lt_add_of_pos_right
  omega

namespace CallsFrom

theorem mem {site : Site} (h : CallsFrom environment context place sites) (hmem : site ∈ sites) :
    (∃ k, site.place = place.advance k) ∧ BeginsAt site.place site.head ∧
      site.head.resolve environment context 0 = .ok site.call := by
  induction h with
  | done => cases hmem
  | @call place first later n hbefore hplace hbegins hresolves hbehind ih =>
    rcases List.mem_cons.mp hmem with rfl | hmem
    · exact ⟨⟨n, hplace⟩, hbegins, hresolves⟩
    · obtain ⟨⟨k, hk⟩, hsite⟩ := ih hmem
      refine ⟨⟨n + (first.head.written.length + k), ?_⟩, hsite⟩
      rw [hk, Site.behind, hplace, Place.advance_advance, Place.advance_advance]

theorem pairwise (h : CallsFrom environment context place sites) :
    sites.Pairwise fun first second =>
      first.span.start < second.span.start ∧ first.span.stop ≤ second.span.start := by
  induction h with
  | done => exact List.Pairwise.nil
  | @call place first later n hbefore hplace hbegins hresolves hbehind ih =>
    refine List.pairwise_cons.mpr ⟨fun second hsecond => ?_, ih⟩
    obtain ⟨⟨k, hk⟩, -⟩ := hbehind.mem hsecond
    obtain ⟨hlt, hstop⟩ := Site.span_stop hbegins
    have hstart : second.span.start =
        first.behind.offset + Text.size (first.behind.rest.take k) := by
      rw [← Place.offset_advance, ← hk]
      rfl
    omega

/-- A call that is not among those that are replaced begins within the head of one of them. -/
theorem covers (h : CallsFrom environment context place sites) {k : Nat} {head : Head}
    (hbegins : BeginsAt (place.advance k) head) :
    ∃ site ∈ sites, (site.place = place.advance k ∧ site.head = head) ∨
      site.span.start < (place.advance k).offset ∧ (place.advance k).offset < site.span.stop := by
  induction h generalizing k with
  | done hleft => exact absurd hbegins (hleft k head)
  | @call place first later n hbefore hplace hfirst hresolves hbehind ih =>
    rcases Nat.lt_trichotomy k n with hlt | rfl | hgt
    · exact absurd hbegins (hbefore k hlt head)
    · rw [← hplace] at hbegins ⊢
      exact ⟨first, List.mem_cons_self, Or.inl ⟨rfl, hbegins.head_eq hfirst.read⟩⟩
    · have hsplit : place.advance k = first.place.advance (k - n) := by
        rw [hplace, Place.advance_advance, Nat.add_sub_cancel' (Nat.le_of_lt hgt)]
      rw [hsplit] at hbegins ⊢
      by_cases hwithin : k - n < first.head.written.length
      · refine ⟨first, List.mem_cons_self, Or.inr ?_⟩
        obtain ⟨-, hstop⟩ := Site.span_stop hfirst
        have hwhole := Head.parse?_eq hfirst.read
        have hlength := congrArg List.length hwhole
        rw [List.length_append] at hlength
        have hstart : Text.size (first.place.rest.take 0) <
            Text.size (first.place.rest.take (k - n)) :=
          (Text.size_take_lt_iff (Nat.zero_le _) (by omega)).mpr (by omega)
        have hend : Text.size (first.place.rest.take (k - n)) <
            Text.size (first.place.rest.take first.head.written.length) :=
          (Text.size_take_lt_iff (by omega) (by omega)).mpr hwithin
        rw [← hstop, Site.behind, Place.offset_advance, Place.offset_advance]
        exact ⟨Nat.lt_add_of_pos_right hstart, Nat.add_lt_add_left hend _⟩
      · have hlater : first.place.advance (k - n) =
            first.behind.advance (k - n - first.head.written.length) := by
          rw [Site.behind, Place.advance_advance, Nat.add_sub_cancel' (Nat.not_lt.mp hwithin)]
        rw [hlater] at hbegins ⊢
        obtain ⟨site, hsite, hcovers⟩ := ih hbegins
        exact ⟨site, List.mem_cons_of_mem _ hsite, hcovers⟩

end CallsFrom

theorem BeginsAt.not_mem_startingFrom {head : Head} (h : BeginsAt place head) (block : Block) :
    (place.offset, block) ∉ Block.startingFrom {} (Place.start place.text) := by
  intro hmem
  have hblock := Block.matching?_of_mem_startingFrom hmem
  obtain ⟨after, rest, -, hread, -, hlead, -⟩ := Block.exists_of_matching? hblock
  rw [h.read] at hread
  cases hread
  have hsingle := h.single
  unfold Block.lead? at hlead
  split at hlead
  · rename_i c rest hbody
    split at hlead
    · rename_i hmarker
      exact (hsingle c (congrArg List.head? hbody)).1 hmarker
    · cases hlead
  · cases hlead

/-- What comes out of a text whose simple calls are replaced at some sites. -/
structure IsReplacedAt (environment : Environment) (context : Context) (text out : Text)
    (sites : List Site) : Prop where
  /-- Between the heads at the sites all characters stay as they are. -/
  output : out = rewritten (Place.start text) sites
  apart : sites.Pairwise fun first second =>
    first.span.start < second.span.start ∧ first.span.stop ≤ second.span.start
  is_call : ∀ site ∈ sites, site.place.text = text ∧ BeginsAt site.place site.head
  resolves : ∀ site ∈ sites, site.head.resolve environment context 0 = .ok site.call
  no_block : ∀ site ∈ sites, ∀ block,
    (site.span.start, block) ∉ Block.startingFrom {} (Place.start text)
  /-- A simple call is at one of the sites, or begins within the head of one of them. -/
  complete : ∀ place head, place.text = text → BeginsAt place head →
    ∃ site ∈ sites, (site.place = place ∧ site.head = head) ∨
      site.span.start < place.offset ∧ place.offset < site.span.stop

/-- The pass over the simple calls replaces the heads of simple calls by their statements: of all
those in the text except for those that begin within another one. -/
theorem simpleCalls_replaces_heads {text out : Text}
    (hmarkers : environment.options.markers = {}) (hmode : environment.options.mode = .pretty)
    (h : simpleCalls environment context text = .ok out) :
    ∃ sites, IsReplacedAt environment context text out sites := by
  obtain ⟨sites, hsites, hout⟩ := @exists_callsFrom environment context (Place.start text) [] [] out
    true hmarkers hmode rfl h
  have htext (site : Site) (hsite : site ∈ sites) : site.place.text = text := by
    obtain ⟨⟨k, hk⟩, -⟩ := hsites.mem hsite
    rw [hk, Place.text_advance, Place.text_start]
  refine ⟨sites, hout, hsites.pairwise, ?_, ?_, ?_, ?_⟩
  · intro site hsite
    exact ⟨htext site hsite, (hsites.mem hsite).2.1⟩
  · intro site hsite
    exact (hsites.mem hsite).2.2
  · intro site hsite block
    have hblock := (hsites.mem hsite).2.1.not_mem_startingFrom block
    rwa [htext site hsite] at hblock
  · intro place head hplace hbegins
    have hstart : (Place.start text).advance place.before.length = place := by
      rw [← hplace, Place.advance_start]
    rw [← hstart] at hbegins ⊢
    exact hsites.covers hbegins

/-- The call in the arguments of another one stays, and so does the head of the block. -/
theorem simpleCalls_replaces_heads_of_nested :
    let handler : Handler := ⟨"U".toList, none, [("greet".toList, [⟨"name".toList, false⟩])]⟩
    let environment : Environment := ⟨Registry.builtin.insert handler, ⟨{}, .pretty, true⟩⟩
    let context : Context := ⟨Context.initial.bindings ++
      [("util".toList, ⟨"util".toList, ['U'], true⟩)], 1, ["use U as Util;".toList]⟩
    let text := ("a @@util.greet(@@util.greet(1))\n  @@util.greet(2) " ++
      "@@util.greet(3): b @@end util.greet").toList
    let out := ("a <?php _h\\out(Util::greet(@@util.greet(1)), '') ?> \n  " ++
      "<?php _h\\out(Util::greet(2), '  ') ?>  @@util.greet(3): b @@end util.greet").toList
    simpleCalls environment context text = .ok out ∧
      ∃ sites, IsReplacedAt environment context text out sites := by
  intro handler environment context text out
  have hout : (simpleCalls environment context text).toOption = some out := by decide +kernel
  have hout := eq_ok_of_toOption hout
  exact ⟨hout, simpleCalls_replaces_heads rfl rfl hout⟩

end SimpleCall

end TemplateCompiler
