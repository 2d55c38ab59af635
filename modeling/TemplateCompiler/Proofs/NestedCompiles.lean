import TemplateCompiler.Proofs.AtSigns
import TemplateCompiler.Proofs.EndTags

/-!
# How deep compiles nest

The content of a block is compiled again, and it may be longer than the template that the block
came from. What gets smaller is the number of at signs: the passes before the blocks add none, and
a block has four of its own around its content. So the depth to which compiles nest is bounded, and
it makes no difference to allow more.
-/
namespace TemplateCompiler

open Context Pass

namespace Block

variable {markers : Markers} {block : Block}

theorem content?_eq {head : Head} {skip : Nat} {text content closing after : Text}
    {later : List (Option Block)}
    (h : content? markers head skip text later = some (content, closing, after)) :
    text = content ++ (closing ++ after) ∧ markers.call <+: closing := by
  induction text generalizing skip later content with
  | nil => simp [content?] at h
  | cons c rest ih =>
    have hpass {skip : Nat} (h : (content? markers head skip rest later.tail).map
        (fun found => (c :: found.1, found.2)) = some (content, closing, after)) :
        c :: rest = content ++ (closing ++ after) ∧ markers.call <+: closing := by
      obtain ⟨⟨content', closing', after'⟩, hfound, heq⟩ := Option.map_eq_some_iff.mp h
      cases heq
      obtain ⟨hrest, hclosing⟩ := ih hfound
      exact ⟨by rw [List.cons_append, ← hrest], hclosing⟩
    cases skip with
    | succ skip => exact hpass h
    | zero =>
      rw [content?] at h
      split at h
      · exact hpass h
      · split at h
        · rename_i hend
          cases h
          exact Head.endTag?_eq hend
        · exact hpass h

theorem parse?_eq {text : Text} {later : List (Option Block)}
    (h : parse? markers text later = some block) :
    (∃ after, text = block.written ++ after) ∧ block.head.marker = markers.call ∧
      markers.call <+: block.closing := by
  obtain ⟨⟨head, afterHead⟩, hhead, h⟩ := Option.bind_eq_some_iff.mp h
  simp only at h
  split at h
  · cases h
  · obtain ⟨⟨lead, rest⟩, hlead, h⟩ := Option.bind_eq_some_iff.mp h
    obtain ⟨⟨content, closing, after⟩, hcontent, hblock⟩ := Option.map_eq_some_iff.mp h
    cases hblock
    obtain ⟨hrest, hclosing⟩ := content?_eq hcontent
    change rest = content ++ (closing ++ after) at hrest
    refine ⟨⟨after, ?_⟩, Head.marker_eq hhead, hclosing⟩
    rw [Head.parse?_eq hhead, lead?_eq hlead, hrest]
    simp only [written, opening, List.append_assoc]

theorem exists_parse? {previous : Option Char} {text : Text}
    (h : some block ∈ entries markers previous text) :
    ∃ rest later, rest <:+ text ∧ parse? markers rest later = some block := by
  induction text generalizing previous with
  | nil => cases h
  | cons c rest ih =>
    rw [entries] at h
    rcases List.mem_cons.mp h with hblock | hblock
    · split at hblock
      · cases hblock
      · exact ⟨c :: rest, _, List.suffix_refl _, hblock.symm⟩
    · obtain ⟨rest', later, hrest, hparse⟩ := ih hblock
      exact ⟨rest', later, hrest.trans (List.suffix_cons _ _), hparse⟩

theorem mem_of_mem_located {offset n : Nat} {text : Text} {entries : List (Option Block)}
    (h : (n, block) ∈ located offset text entries) : some block ∈ entries := by
  induction text generalizing offset entries with
  | nil => cases h
  | cons c rest ih =>
    cases entries with
    | nil => cases h
    | cons entry later =>
      rw [located, List.mem_append] at h
      rcases h with h | h
      · cases entry with
        | none => cases h
        | some found =>
          cases List.mem_singleton.mp h
          exact List.mem_cons_self
      · exact List.mem_cons_of_mem _ (ih h)

theorem count_content {previous : Option Char} {text : Text}
    (h : some block ∈ entries markers previous text) :
    block.content.count '@' + 2 * markers.call.count '@' ≤ text.count '@' := by
  obtain ⟨rest, later, hrest, hparse⟩ := exists_parse? h
  obtain ⟨⟨after, hwritten⟩, hmarker, hclosing⟩ := parse?_eq hparse
  have hhead := block.head.count_written
  have hend := hclosing.sublist.count_le '@'
  have hall := hrest.sublist.count_le '@'
  rw [hmarker] at hhead
  rw [hwritten] at hall
  simp only [written, opening, List.count_append] at hall
  omega

end Block

variable {environment : Environment}

theorem Text.count_trimEnd_le (text : Text) : text.trimEnd.count '@' ≤ text.count '@' := by
  rw [trimEnd, List.count_reverse, ← List.count_reverse (l := text)]
  exact (List.dropWhile_sublist _).count_le '@'

/-! ## What a compile keeps -/

theorem BlockCall.gives_step {nested : Text → Pass Text}
    (h : ∀ content, Gives AtFree (fun _ => True) (nested content)) (entries : List (Option Block))
    (place : Place) (fresh : Nat) :
    Gives AtFree (fun _ => True) (BlockCall.step environment nested entries place fresh) := by
  unfold BlockCall.step
  split
  · exact gives_pure trivial
  · rename_i block _
    split
    · exact gives_pure trivial
    · refine ((h _).mapError _).bind fun _ _ => ?_
      have hcall : Gives AtFree (fun _ => True) (Pass.ofContext fun context =>
          block.head.resolve environment context 1) := gives_ofContext fun _ _ _ _ => trivial
      exact (hcall.mapError _).bind fun _ _ => gives_pure trivial

theorem gives_takePreamble : Gives AtFree (fun _ => True) Pass.takePreamble := by
  intro context hcontext
  refine ⟨?_, fun _ _ => trivial⟩
  show context.takePreamble.2.AtFree
  unfold Context.takePreamble
  split <;> exact hcontext

theorem gives_last (environment : Environment) (depth : Nat) (text : Text) :
    Gives AtFree (fun _ => True) (runPasses ((passesWithin environment depth).drop 6) text) := by
  have hpromote (text : Text) : Gives AtFree (fun _ => True)
      (Pass.ofContext fun context => .ok (promote context text)) :=
    gives_ofContext fun _ _ _ _ => trivial
  have hcomponents (text : Text) :
      Gives AtFree (fun _ => True) (componentCalls environment text) := by
    intro context hcontext
    rw [componentCalls_context]
    exact ⟨hcontext, fun _ _ => trivial⟩
  refine (hpromote text).bind fun promoted _ => ?_
  exact (hcomponents promoted).bind fun _ _ => gives_pure trivial

theorem gives_passesWithin {depth : Nat}
    (h : ∀ text, Gives AtFree (fun _ => True) (compileWithin environment depth text))
    (text : Text) :
    Gives AtFree (fun _ => True) (runPasses (passesWithin environment depth) text) := by
  rw [runPasses_passesWithin]
  refine (gives_first environment depth text).bind fun reached _ => ?_
  have hblocks : Gives AtFree (fun _ => True)
      (blockCalls environment (compileWithin environment depth) reached) :=
    keeps_sweepFrom (BlockCall.gives_step h _) _ _ _ _ _
  exact hblocks.bind fun replaced _ => gives_last environment depth replaced

theorem gives_compileWithin (environment : Environment) (depth : Nat) (text : Text) :
    Gives AtFree (fun _ => True) (compileWithin environment depth text) := by
  induction depth generalizing text with
  | zero => exact gives_pure trivial
  | succ depth ih =>
    have hbody := (gives_passesWithin ih text).bind fun body _ =>
      gives_takePreamble.bind fun preamble _ =>
        @gives_pure _ AtFree (fun _ => True) (preamble.getD [] ++ body) trivial
    exact hbody.nested fun context level h => h.withLevel level

/-! ## The bound -/

/-- A compile of a text, begun in a context, comes to compile `inner` in the context `moment`, which
is the content of a block within blocks, as many levels further down. -/
inductive Descends (environment : Environment) :
    (levels depth : Nat) → Text → Context → (inner : Text) → (moment : Context) → Prop
  | here (depth : Nat) (text : Text) (context : Context) :
      Descends environment 0 depth text context text context
  | block {levels depth fresh : Nat} {text reached lead inner : Text}
      {context after before moment : Context} {place : Place} {block : Block}
      (h : HasRun environment (depth + 1) text context 5 reached after)
      (hreaches : Sweep.Reaches (BlockCall.step environment (compileWithin environment (depth + 1))
        (Block.entries environment.options.markers none reached)) [] [] 0 true reached after
        place fresh before)
      (hblock : (Block.entries environment.options.markers none reached)[place.before.length]?.join
        = some block)
      (hlead : Layout.lead? place.before fresh = some lead)
      (hwithin : Descends environment levels depth block.content.trimEnd before inner moment) :
      Descends environment (levels + 1) (depth + 1) text context inner moment

theorem mem_of_join {entries : List (Option Block)} {n : Nat} {block : Block}
    (h : entries[n]?.join = some block) : some block ∈ entries := by
  rw [Option.join_eq_some_iff] at h
  exact List.mem_of_getElem? h

section

variable (hcall : environment.options.markers.call = ['@', '@'])
include hcall

theorem count_block {text reached : Text} {block : Block}
    (hreached : reached.count '@' ≤ text.count '@')
    (h : some block ∈ Block.entries environment.options.markers none reached) :
    block.content.count '@' + 4 ≤ text.count '@' := by
  have hcontent := Block.count_content h
  have hmarker : List.count '@' ['@', '@'] = 2 := by decide
  rw [hcall, hmarker] at hcontent
  omega

theorem Descends.count_le {levels depth : Nat} {text inner : Text} {context moment : Context}
    (h : Descends environment levels depth text context inner moment)
    (hcontext : context.AtFree) : 4 * levels + inner.count '@' ≤ text.count '@' := by
  induction h with
  | here => omega
  | @block levels depth fresh text reached lead inner context after before moment place block h
      hreaches hblock hlead hwithin ih =>
    obtain ⟨hafter, hgiven⟩ :=
      (gives_first environment _ _).of_run h (hcontext.withLevel (context.level + 1))
    have hbefore := hreaches.kept
      (BlockCall.gives_step (gives_compileWithin environment _) _) hafter
    have hcontent := count_block hcall (hgiven _ rfl) (mem_of_join hblock)
    have htrimmed := Text.count_trimEnd_le block.content
    have hinner := ih hbefore
    omega

theorem sameOn_blockCalls {nested nested' : Text → Pass Text} {text reached : Text}
    (hreached : reached.count '@' ≤ text.count '@')
    (hnested : ∀ content, Gives AtFree (fun _ => True) (nested content))
    (h : ∀ content, content.count '@' + 4 ≤ text.count '@' →
      SameOn AtFree (nested content) (nested' content)) :
    SameOn AtFree (blockCalls environment nested reached)
      (blockCalls environment nested' reached) := by
  refine sameOn_sweepFrom (fun place fresh => ?_) (BlockCall.gives_step hnested _) _ _ _ _ _
  unfold BlockCall.step
  split
  · exact sameOn_refl _
  · rename_i block hblock
    split
    · exact sameOn_refl _
    · have hcontent := count_block hcall hreached (mem_of_join hblock)
      have htrimmed := Text.count_trimEnd_le block.content
      refine ((h block.content.trimEnd (by omega)).mapError _).bind
        ((hnested _).mapError _) fun _ _ => sameOn_refl _

/-- A compile that may go deeper than its at signs last does not depend on how deep it may go. -/
theorem sameOn_compileWithin {depth depth' : Nat} {text : Text}
    (h : text.count '@' < 4 * depth) (h' : text.count '@' < 4 * depth') :
    SameOn AtFree (compileWithin environment depth text)
      (compileWithin environment depth' text) := by
  induction depth generalizing depth' text with
  | zero => omega
  | succ depth ih =>
    cases depth' with
    | zero => omega
    | succ depth' =>
      have hnested := gives_compileWithin environment depth
      have hpasses : SameOn AtFree (runPasses (passesWithin environment depth) text)
          (runPasses (passesWithin environment depth') text) := by
        rw [runPasses_passesWithin, runPasses_passesWithin]
        -- the depth is told to the blocks alone
        have hfirst : (passesWithin environment depth').take 5 =
            (passesWithin environment depth).take 5 := rfl
        have hlast : (passesWithin environment depth').drop 6 =
            (passesWithin environment depth).drop 6 := rfl
        rw [hfirst, hlast]
        refine (sameOn_refl _).bind (gives_first environment depth text) fun reached hreached => ?_
        have hsame : SameOn AtFree
            (blockCalls environment (compileWithin environment depth) reached)
            (blockCalls environment (compileWithin environment depth') reached) :=
          sameOn_blockCalls hcall hreached hnested
            fun content hcontent => ih (by omega) (by omega)
        have hblocks : Gives AtFree (fun _ => True)
            (blockCalls environment (compileWithin environment depth) reached) :=
          keeps_sweepFrom (BlockCall.gives_step hnested _) _ _ _ _ _
        exact hsame.bind hblocks fun _ _ => sameOn_refl _
      exact (hpasses.bind (gives_passesWithin hnested text) fun _ _ => sameOn_refl _).nested
        fun context level h => h.withLevel level

end

/-- With the usual call marker every nested compile costs four at signs of the template, so a
template nests compiles to a quarter of its at signs at most: a compile that may go deeper comes to
what the compile of the template comes to. -/
theorem nested_compiles_lose_at_signs {environment : Environment}
    (hcall : environment.options.markers.call = ['@', '@']) {context : Context}
    (hcontext : context.FromTemplates) (source : Text) :
    (∀ depth reached after, HasRun environment depth source context 5 reached after →
      reached.count '@' ≤ source.count '@' ∧
        ∀ found ∈ Block.startingFrom environment.options.markers (Place.start reached),
          found.2.content.count '@' + 4 ≤ source.count '@') ∧
    (∀ levels depth inner moment,
      Descends environment levels depth source context inner moment →
        4 * levels + inner.count '@' ≤ source.count '@') ∧
    ∀ depth, source.count '@' / 4 < depth →
      (compileWithin environment depth source).run context =
        (compile environment source).run context := by
  refine ⟨?_, ?_, ?_⟩
  · intro depth reached after hrun
    have hreached := ((gives_first environment depth source).of_run hrun
      (hcontext.atFree.withLevel (context.level + 1))).2 reached rfl
    refine ⟨hreached, fun found hfound => ?_⟩
    exact count_block hcall hreached (Block.mem_of_mem_located hfound)
  · intro levels depth inner moment hdescends
    exact hdescends.count_le hcall hcontext.atFree
  · intro depth hdepth
    have hlength := List.count_le_length (a := '@') (l := source)
    exact sameOn_compileWithin hcall (by omega) (by omega) context hcontext.atFree

/-- A block within a block. After the passes that come before the blocks there are two of them, and
three levels are as good as any number. -/
theorem nested_compiles_lose_at_signs_of_list :
    let environment : Environment :=
      ⟨Registry.builtin.insert ⟨['U'], none, [(['a'], [⟨['x'], false⟩])]⟩, {}⟩
    let context := Context.initial.attemptAll [(['u'], ['U'])]
    let source := "@@u:a():\n @@u:a():\n  x\n @@endu:a\n@@endu:a".toList
    environment.options.markers.call = ['@', '@'] ∧ context.FromTemplates ∧
    HasRun environment 2 source context 5 source { context with level := 1 } ∧
    (Block.startingFrom environment.options.markers (Place.start source)).length = 2 ∧
    (∀ found ∈ Block.startingFrom environment.options.markers (Place.start source),
      found.2.content.count '@' + 4 ≤ source.count '@') ∧
    (compileWithin environment 3 source).run context =
      (compile environment source).run context := by
  intro environment context source
  have hcall : environment.options.markers.call = ['@', '@'] := rfl
  have hcontext : context.FromTemplates := ⟨[(['u'], ['U'])], by decide, rfl⟩
  have hrun : HasRun environment 2 source context 5 source { context with level := 1 } :=
    Prod.ext (by decide +kernel) (by decide +kernel)
  obtain ⟨hblocks, -, hdepth⟩ := nested_compiles_lose_at_signs hcall hcontext source
  exact ⟨hcall, hcontext, hrun, by decide +kernel, (hblocks 2 source _ hrun).2,
    hdepth 3 (by decide +kernel)⟩

end TemplateCompiler
