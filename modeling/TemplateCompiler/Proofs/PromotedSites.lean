import TemplateCompiler.Proofs.PromotedTags

/-!
# The components that promotion writes

The components of a promoted text with what stands around them, and the plain tags they come from.
In a text that names no component for plain markup, these are all there are, and each is read back
as it was written.
-/
namespace TemplateCompiler

namespace Promoted

variable {context : Context} {text : Text}

/-- A component that promotion writes: the plain tag, and what stands around it in the promoted
text. -/
structure Site where
  before : Text
  tag : Tag
  /-- The promoted content; missing for a component without content. -/
  content : Option Text
  after : Text
  deriving DecidableEq, Repr

def Site.written (site : Site) : Text :=
  match site.content with
  | none => Promotion.empty site.tag
  | some content => Promotion.full site.tag content

/-- The components that promotion writes, nested ones included, if `before` and `after` stand
around the pieces. -/
def sites (before after : Text) : Promoted → List Site
  | done => []
  | kept c rest => rest.sites (before ++ [c]) after
  | empty tag rest =>
    ⟨before, tag, none, rest.render ++ after⟩ :: rest.sites (before ++ Promotion.empty tag) after
  | full tag content rest =>
    ⟨before, tag, some content.render, rest.render ++ after⟩ ::
      (content.sites (before ++ (Promotion.component tag false).written)
          (Promotion.closing ++ (rest.render ++ after)) ++
        rest.sites (before ++ Promotion.full tag content.render) after)

/-- A component stands for a tag of the text, and its content is promoted text. -/
structure Site.IsFrom (context : Context) (text : Text) (site : Site) : Prop where
  parsed : ∃ rest later, rest <:+ text ∧ Tag.parse? rest = some (site.tag, later)
  promotable : Promotion.isPromotable context site.tag
  isEmpty : site.content.isNone = (site.tag.selfClosing || Tag.isVoidName site.tag.name)
  nested : ∀ content, site.content = some content →
    ∃ inner, inner <:+: text ∧ content = (ofText context inner).render

theorem Site.IsFrom.mono {site : Site} {piece : Text} (h : site.IsFrom context piece)
    (hpiece : piece <:+: text) : site.IsFrom context text := by
  obtain ⟨rest, later, hrest, hparse⟩ := h.parsed
  obtain ⟨first, last, htext⟩ := hpiece
  refine ⟨⟨rest ++ last, later ++ last, ?_, Tag.parse?_append hparse⟩, h.promotable, h.isEmpty, ?_⟩
  · obtain ⟨start, hstart⟩ := hrest
    refine ⟨first ++ start, ?_⟩
    rw [← htext, ← hstart]
    simp only [List.append_assoc]
  · intro content hcontent
    obtain ⟨inner, hinner, hrender⟩ := h.nested content hcontent
    exact ⟨inner, hinner.trans ⟨first, last, htext⟩, hrender⟩

theorem isFrom_of_mem_sites {site : Site} {before after : Text}
    (h : site ∈ (ofText context text).sites before after) : site.IsFrom context text := by
  induction text using ofText_induction context generalizing before after with
  | done hpieces =>
    rw [hpieces] at h
    cases h
  | kept c tail hpieces ih =>
    rw [hpieces] at h
    exact (ih h).mono (List.suffix_cons c tail).isInfix
  | empty text tag rest htag hpromotable hempty hpieces ih =>
    rw [hpieces, sites] at h
    rcases List.mem_cons.mp h with rfl | h
    · exact ⟨⟨text, rest, List.suffix_refl _, htag⟩, hpromotable, hempty.symm, by simp⟩
    · have hrest : rest <:+ text := ⟨tag.written, (Tag.parse?_eq htag).symm⟩
      exact (ih h).mono hrest.isInfix
  | full text tag rest element tail htag hpromotable hopen helement hpieces ih ih' =>
    rw [hpieces, sites] at h
    obtain ⟨hcontent, htail⟩ := Element.pieces_of_parse? htag helement
    rcases List.mem_cons.mp h with rfl | h
    · refine ⟨⟨text, rest, List.suffix_refl _, htag⟩, hpromotable, hopen.symm, ?_⟩
      intro content heq
      exact ⟨element.content, hcontent, (Option.some.inj heq).symm⟩
    · rcases List.mem_append.mp h with h | h
      · exact (ih h).mono hcontent
      · exact (ih' h).mono htail.isInfix

theorem text_of_mem_sites {site : Site} (pieces : Promoted) {before after : Text}
    (h : site ∈ pieces.sites before after) :
    before ++ pieces.render ++ after = site.before ++ site.written ++ site.after := by
  induction pieces generalizing before after with
  | done => cases h
  | kept c rest ih =>
    rw [← ih h, render]
    simp only [List.append_assoc, List.cons_append, List.nil_append]
  | empty tag rest ih =>
    rw [sites] at h
    rcases List.mem_cons.mp h with rfl | h
    · simp only [render, Site.written, List.append_assoc]
    · rw [← ih h, render]
      simp only [List.append_assoc]
  | full tag content rest ih ih' =>
    rw [sites] at h
    rcases List.mem_cons.mp h with rfl | h
    · simp only [render, Site.written, List.append_assoc]
    · rcases List.mem_append.mp h with h | h
      · rw [← ih h, render, Promotion.full_eq]
        simp only [List.append_assoc]
      · rw [← ih' h, render]
        simp only [List.append_assoc]

theorem empty_append (tag : Tag) (more : Text) : Promotion.empty tag ++ more =
    '<' :: ((Promotion.opening tag).tail ++ ' ' :: (['/'] ++ '>' :: more)) := by
  rw [Promotion.empty, List.append_assoc]
  rfl

theorem component_append (tag : Tag) (more : Text) :
    (Promotion.component tag false).written ++ more =
      '<' :: ((Promotion.opening tag).tail ++ '>' :: more) := by
  rw [Promotion.written_component, List.append_assoc]
  rfl

theorem full_append (tag : Tag) (content more : Text) : Promotion.full tag content ++ more =
    '<' :: ((Promotion.opening tag).tail ++ '>' :: (content ++ (Promotion.closing ++ more))) := by
  rw [Promotion.full_eq, List.append_assoc, List.append_assoc, component_append]

theorem closing_append (more : Text) :
    Promotion.closing ++ more = ("</".toList ++ Promotion.htmlName) ++ '>' :: more := by
  rw [Promotion.closing, List.append_assoc, List.singleton_append]

theorem not_inside_component {tag : Tag} {later : Text}
    (h : text.contains Promotion.htmlName = false) (htag : Tag.parse? text = some (tag, later))
    {c : Char} (hc : c = ' ' ∨ c = '>') {first after more : Text}
    (hplace : first ++ (Promotion.start ++ after) = (Promotion.opening tag).tail ++ c :: more) :
    ∃ between, first = (Promotion.opening tag).tail ++ c :: between ∧
      between ++ (Promotion.start ++ after) = more := by
  have hname : '<' ∉ Promotion.htmlName ++ " tag=\"".toList ++ tag.name := by
    intro hmem
    rcases List.mem_append.mp hmem with hmem | hmem
    · revert hmem
      decide
    · have hchar := Tag.isNameChar_of_mem_name htag hmem
      revert hchar
      decide
  have hattributes : Text.contains tag.attributeText Promotion.start = false := by
    have hwithin : tag.attributeText <:+: text := by
      rw [Tag.parse?_eq htag, Tag.written]
      exact ⟨'<' :: tag.qualified, Tag.ending tag.selfClosing ++ later, by simp⟩
    exact Text.contains_of_longer (Text.contains_of_infix h hwithin) ⟨['<'], [], rfl⟩
  have hopening := @Text.contains_append_cons _ _ _ '"' (by decide)
    (Text.contains_of_not_mem List.mem_cons_self hname) hattributes
  apply Text.occurs_behind _ hopening hplace
  rcases hc with rfl | rfl <;> decide

/-- Wherever the tag of a component begins in promoted text, promotion wrote it. -/
theorem exists_site (h : text.contains Promotion.htmlName = false) (before : Text) {after : Text}
    (hafter : after.head?.all (· == '<')) {first later : Text}
    (hplace : first ++ (Promotion.start ++ later) = (ofText context text).render ++ after) :
    (∃ site ∈ (ofText context text).sites before after, site.before = before ++ first) ∨
      ∃ between, first = (ofText context text).render ++ between ∧
        between ++ (Promotion.start ++ later) = after := by
  induction text using ofText_induction context generalizing before after first with
  | done hpieces =>
    rw [hpieces] at hplace ⊢
    exact Or.inr ⟨first, rfl, hplace⟩
  | kept c tail hpieces ih =>
    rw [hpieces] at hplace ⊢
    cases first with
    | nil =>
      have hnone := @after?_htmlName context after c tail _ h (Or.inl rfl) hafter
      have hname : Promotion.htmlName ++ later = (ofText context tail).render ++ after :=
        (List.cons.inj hplace).2
      rw [← hname, Text.after?_append] at hnone
      cases hnone
    | cons d first =>
      obtain ⟨rfl, htail⟩ := List.cons.inj hplace
      rcases ih (Text.contains_of_suffix h (List.suffix_cons _ _)) (before ++ [d]) hafter htail
        with ⟨site, hsite, hbefore⟩ | ⟨between, hfirst, hbetween⟩
      · refine Or.inl ⟨site, hsite, ?_⟩
        rw [hbefore, List.append_assoc, List.singleton_append]
      · exact Or.inr ⟨between, congrArg (d :: ·) hfirst, hbetween⟩
  | empty text tag rest htag hpromotable hempty hpieces ih =>
    have hrest : rest <:+ text := ⟨tag.written, (Tag.parse?_eq htag).symm⟩
    rw [hpieces] at hplace ⊢
    rw [render, List.append_assoc, empty_append] at hplace
    cases first with
    | nil => exact Or.inl ⟨_, List.mem_cons_self, (List.append_nil _).symm⟩
    | cons d first =>
      obtain ⟨rfl, hinside⟩ := List.cons.inj hplace
      obtain ⟨between, rfl, hending⟩ := not_inside_component h htag (Or.inl rfl) hinside
      obtain ⟨between, rfl, hbehind⟩ := Text.occurs_behind (by decide) (by decide) hending
      rw [← empty_append tag between, render]
      rcases ih (Text.contains_of_suffix h hrest) (before ++ Promotion.empty tag) hafter hbehind
        with ⟨site, hsite, hbefore⟩ | ⟨between, rfl, hbetween⟩
      · rw [List.append_assoc] at hbefore
        exact Or.inl ⟨site, List.mem_cons_of_mem _ hsite, hbefore⟩
      · exact Or.inr ⟨between, (List.append_assoc _ _ _).symm, hbetween⟩
  | full text tag rest element tail htag hpromotable hopen helement hpieces ih ih' =>
    obtain ⟨hcontent, htail⟩ := Element.pieces_of_parse? htag helement
    rw [hpieces] at hplace ⊢
    rw [render, List.append_assoc, full_append] at hplace
    cases first with
    | nil => exact Or.inl ⟨_, List.mem_cons_self, (List.append_nil _).symm⟩
    | cons d first =>
      obtain ⟨rfl, hinside⟩ := List.cons.inj hplace
      obtain ⟨between, rfl, hnested⟩ := not_inside_component h htag (Or.inr rfl) hinside
      rcases ih (Text.contains_of_infix h hcontent)
          (before ++ (Promotion.component tag false).written) rfl hnested
        with ⟨site, hsite, hbefore⟩ | ⟨between, rfl, hending⟩
      · rw [List.append_assoc, component_append] at hbefore
        exact Or.inl ⟨site, List.mem_cons_of_mem _ (List.mem_append_left _ hsite), hbefore⟩
      · rw [closing_append] at hending
        obtain ⟨between, rfl, hbehind⟩ := Text.occurs_behind (by decide) (by decide) hending
        rw [← closing_append, ← full_append, render]
        rcases ih' (Text.contains_of_suffix h htail)
            (before ++ Promotion.full tag (ofText context element.content).render) hafter hbehind
          with ⟨site, hsite, hbefore⟩ | ⟨between, rfl, hbetween⟩
        · rw [List.append_assoc] at hbefore
          exact Or.inl ⟨site, List.mem_cons_of_mem _ (List.mem_append_right _ hsite), hbefore⟩
        · exact Or.inr ⟨between, (List.append_assoc _ _ _).symm, hbetween⟩

end Promoted

/-- Every tag that promotion writes is read as the tag of a component, with the name and the
attributes of the plain tag, and is paired with the closing tag that was written with it. -/
theorem promoted_tags_are_components (context : Context) (text : Text)
    (htext : text.contains Promotion.htmlName = false) :
    (∀ before later, promote context text = before ++ (Promotion.start ++ later) →
      ∃ site ∈ (Promoted.ofText context text).sites [] [], site.before = before) ∧
    ∀ site ∈ (Promoted.ofText context text).sites [] [],
      promote context text = site.before ++ site.written ++ site.after ∧
      (∃ rest later, rest <:+ text ∧ Tag.parse? rest = some (site.tag, later)) ∧
      Promotion.isPromotable context site.tag ∧
      ∃ tag later, Tag.parse? (site.written ++ site.after) = some (tag, later) ∧
        tag.qualifier = some "_h".toList ∧ tag.name = "html".toList ∧
        tag.attributes = ⟨[' '], "tag".toList, ['='], .quoted '"' site.tag.name⟩ ::
          site.tag.attributes ∧
        tag.selfClosing = (site.tag.selfClosing || Tag.isVoidName site.tag.name) ∧
        (tag.selfClosing = false → ∃ content, site.content = some content ∧
          Element.ofTag? tag later = some (⟨tag, content, "</_h:html>".toList⟩, site.after)) := by
  constructor
  · intro before later hplace
    rw [Promoted.promote_eq_render] at hplace
    have hplace' := hplace.symm.trans (List.append_nil _).symm
    rcases Promoted.exists_site htext [] rfl hplace' with hsite | ⟨between, -, hbetween⟩
    · exact hsite
    · cases between <;> cases hbetween
  intro site hsite
  have hsource := Promoted.isFrom_of_mem_sites hsite
  have hpromoted : promote context text = site.before ++ site.written ++ site.after := by
    rw [Promoted.promote_eq_render, ← Promoted.text_of_mem_sites _ hsite, List.nil_append,
      List.append_nil]
  refine ⟨hpromoted, hsource.parsed, hsource.promotable, ?_⟩
  obtain ⟨rest, later, -, hparse⟩ := hsource.parsed
  have hempty := hsource.isEmpty
  cases hcontent : site.content with
  | none =>
    have hwritten : site.written = Promotion.empty site.tag := by
      rw [Promoted.Site.written, hcontent]
    rw [hcontent] at hempty
    refine ⟨Promotion.component site.tag true, site.after, ?_, rfl, rfl, rfl, hempty, ?_⟩
    · rw [hwritten, Promotion.empty_eq]
      exact Promotion.parse?_component hparse (Or.inl rfl) site.after
    · intro hopen
      cases hopen
  | some content =>
    have hwritten : site.written = Promotion.full site.tag content := by
      rw [Promoted.Site.written, hcontent]
    rw [hcontent] at hempty
    have hselfClosing : site.tag.selfClosing = false := (Bool.or_eq_false_iff.mp hempty.symm).1
    refine ⟨Promotion.component site.tag false, content ++ (Promotion.closing ++ site.after), ?_,
      rfl, rfl, rfl, hempty, ?_⟩
    · rw [hwritten, Promotion.full_eq]
      simp only [List.append_assoc]
      exact Promotion.parse?_component hparse (Or.inr hselfClosing) _
    · intro _
      obtain ⟨inner, hinner, hrender⟩ := hsource.nested content hcontent
      refine ⟨content, rfl, ?_⟩
      rw [hrender]
      exact Promoted.ofTag?_component (Text.contains_of_infix htext hinner) site.tag site.after

/-- A paragraph with a line break in it, both with directives. -/
theorem promoted_tags_are_components_of_paragraph :
    let text : Text := "<p _h:tip='a'>x<br _h:b></p>".toList
    let content : Text := "x<_h:html tag=\"br\" _h:b />".toList
    text.contains Promotion.htmlName = false ∧
    promote Context.initial text =
      "<_h:html tag=\"p\" _h:tip='a'>".toList ++ content ++ "</_h:html>".toList ∧
    ∃ tag later, Tag.parse? (promote Context.initial text) = some (tag, later) ∧
      Element.ofTag? tag later = some (⟨tag, content, "</_h:html>".toList⟩, []) := by
  intro text content
  have htext : text.contains Promotion.htmlName = false := by decide +kernel
  let tag : Tag := ⟨none, "p".toList,
    [⟨[' '], "_h:tip".toList, ['='], .quoted '\'' "a".toList⟩], [], false⟩
  let site : Promoted.Site := ⟨[], tag, some content, []⟩
  have hsite : site ∈ (Promoted.ofText Context.initial text).sites [] [] := by decide +kernel
  obtain ⟨hpromote, -, -, found, later, hparse, -, -, -, hselfClosing, helement⟩ :=
    (promoted_tags_are_components Context.initial text htext).2 site hsite
  have hpromoted : promote Context.initial text = site.written ++ site.after := hpromote
  obtain ⟨_, hcontent, hpaired⟩ := helement (hselfClosing.trans (by decide))
  cases hcontent
  exact ⟨htext, by rw [hpromoted]; rfl, found, later, by rw [hpromoted]; exact hparse, hpaired⟩

end TemplateCompiler
