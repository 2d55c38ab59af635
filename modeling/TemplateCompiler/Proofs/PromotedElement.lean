import TemplateCompiler.Proofs.CanonicalPath
import TemplateCompiler.Proofs.CharacterReferences
import TemplateCompiler.Proofs.ComponentText
import TemplateCompiler.Proofs.PromotedTags

/-!
# A promoted element

An element with directives, promoted and compiled, becomes the construction of the component for
plain markup: the directives are its mixins, and the other attributes and the name of the element
are in its table.
-/
namespace TemplateCompiler

namespace Code

theorem balancedFrom_inside {text : Text} (h : ∀ c ∈ text, isDoubleQuotedSpecial c = false)
    (expected : List Char) (rest : Text) :
    balancedFrom (.inside '"') expected (text ++ '"' :: rest) =
      balancedFrom .outside expected rest := by
  induction text with
  | nil => rfl
  | cons c text ih =>
    have hc := h c List.mem_cons_self
    have hquoting : Quoting.next (.inside '"') c = .inside '"' := by
      simp only [isDoubleQuotedSpecial, Bool.or_eq_false_iff, beq_eq_false_iff_ne] at hc
      rw [Quoting.next, if_neg hc.1.1, if_neg hc.1.2]
    have hrest := ih fun d hd => h d (List.mem_cons_of_mem c hd)
    have hstep : balancedFrom (.inside '"') expected (c :: (text ++ '"' :: rest)) =
        balancedFrom (Quoting.next (.inside '"') c) expected (text ++ '"' :: rest) := by
      simp only [balancedFrom, reduceCtorEq, if_false]
    rw [List.cons_append, hstep, hquoting, hrest]

theorem isExpression_string {text : Text} (h : ∀ c ∈ text, isDoubleQuotedSpecial c = false) :
    isExpression ('"' :: text ++ ['"']) := by
  have hquote : Unicode.isWhitespace '"' = false := by decide
  have htrim : Text.trim ('"' :: text ++ ['"']) = '"' :: text ++ ['"'] := by
    simp [Text.trim, Text.trimStart, Text.trimEnd, hquote]
  have hbalanced : isBalanced ('"' :: text ++ ['"']) := by
    exact balancedFrom_inside h [] []
  have hend : hasDanglingEnd ('"' :: text ++ ['"']) = false := by
    unfold hasDanglingEnd
    rw [List.reverse_append, List.reverse_singleton, List.singleton_append]
    cases ('"' :: text).reverse <;> rfl
  have hstart : hasDanglingStart ('"' :: text ++ ['"']) = false := by
    rfl
  unfold isExpression
  simp only [htrim, hbalanced, hend, hstart]
  rfl

end Code

namespace Interpolation

theorem compile_plain {tags : Text × Text} {text : Text} (hne : text ≠ [])
    (htags : text.contains tags.1 = false)
    (hplain : ∀ c ∈ text, Code.isDoubleQuotedSpecial c = false) :
    compile tags text = .ok ('"' :: text ++ ['"']) := by
  have hcut : Text.cut? tags.1 text = none := by simpa [Text.contains] using htags
  have hstep : step tags text = ([.literal text], []) := by
    rw [step, hcut]
  have hnil : text.isEmpty = false := by simpa using hne
  have hpieces : pieces tags text = [.literal text] := by
    have hlength : 0 < text.length := List.length_pos_iff.mpr hne
    rw [pieces, hnil, hstep]
    simp only [Bool.false_eq_true, if_false, List.length_nil, if_pos hlength]
    rw [pieces]
    rfl
  have hsegments : segments tags text = [.string [.text text]] := by
    rw [segments, hpieces, List.foldl_cons, List.foldl_nil, push, pushLiteral, hnil]
    rfl
  have hrender : render [.string [.text text]] = '"' :: text ++ ['"'] := by
    have hbody : Part.render (.text text) = text := Code.escape_eq_self hplain
    rw [render, List.map_singleton, Text.join_singleton, Segment.render, List.flatMap_singleton,
      hbody]
    all_goals simp
  unfold compile
  simp only [hsegments, hrender, if_pos (Code.isExpression_string hplain)]

end Interpolation

theorem Tag.name_ne_nil {text after : Text} {tag : Tag} (h : parse? text = some (tag, after)) :
    tag.name ≠ [] := by
  unfold parse? at h
  split at h
  · obtain ⟨⟨qualifier, name, rest⟩, hname, h⟩ := Option.bind_eq_some_iff.mp h
    simp only at h
    split at h
    · obtain ⟨found, -, hfound⟩ := Option.map_eq_some_iff.mp h
      cases hfound
      exact (name?_eq hname).2
    · cases h
  · cases h

/-- A text that is one element, with its tag and the text between its tags. -/
inductive IsElement (text : Text) (tag : Tag) : Text → Prop
  /-- A tag that closes itself or whose element is void. -/
  | empty (htag : Tag.parse? text = some (tag, []))
      (hempty : tag.selfClosing || Tag.isVoidName tag.name) : IsElement text tag []
  /-- A tag that is paired with a closing tag at the end of the text. -/
  | full {after : Text} {element : Element} (htag : Tag.parse? text = some (tag, after))
      (hopen : (tag.selfClosing || Tag.isVoidName tag.name) = false)
      (helement : Element.ofTag? tag after = some (element, [])) :
      IsElement text tag element.content

namespace IsElement

variable {context : Context} {text content : Text} {tag : Tag}

theorem parse? (h : IsElement text tag content) : ∃ after, Tag.parse? text = some (tag, after) := by
  cases h with
  | empty htag => exact ⟨_, htag⟩
  | full htag => exact ⟨_, htag⟩

theorem promote (h : IsElement text tag content) (hpromotable : Promotion.isPromotable context tag)
    (hfree : text.contains Promotion.htmlName = false) :
    ∃ closes after element,
      Tag.parse? (TemplateCompiler.promote context text) =
        some (Promotion.component tag closes, after) ∧
      Element.ofTag? (Promotion.component tag closes) after = some (element, []) ∧
      element.content = TemplateCompiler.promote context content := by
  cases h with
  | empty htag hempty =>
    refine ⟨true, [], ⟨Promotion.component tag true, [], []⟩, ?_, rfl, ?_⟩
    · have hread := Promotion.parse?_component htag (Or.inl rfl) []
      rw [Promoted.promote_eq_render, Promoted.ofText_of_empty htag hpromotable hempty]
      rw [Promoted.render, Promotion.empty_eq, Promoted.ofText]
      exact hread
    · rw [Promoted.promote_eq_render, Promoted.ofText]
      rfl
  | @full after element htag hopen helement =>
    have hselfClosing : tag.selfClosing = false := (Bool.or_eq_false_iff.mp hopen).1
    have hcontent := (Element.pieces_of_parse? htag helement).1
    refine ⟨false, (Promoted.ofText context element.content).render ++ Promotion.closing,
      ⟨Promotion.component tag false, (Promoted.ofText context element.content).render,
        Promotion.closing⟩, ?_, ?_, ?_⟩
    · have hread := @Promotion.parse?_component _ _ _ false htag (Or.inr hselfClosing)
        ((Promoted.ofText context element.content).render ++ Promotion.closing)
      rw [Promoted.promote_eq_render, Promoted.ofText_of_full htag hpromotable hopen helement]
      rw [Promoted.render, Promotion.full_eq, Promoted.ofText, Promoted.render, List.append_nil,
        List.append_assoc]
      exact hread
    · have hpaired := @Promoted.ofTag?_component context element.content
        (Text.contains_of_infix hfree hcontent) tag []
      rwa [List.append_nil] at hpaired
    · exact (Promoted.promote_eq_render _ _).symm

end IsElement

theorem Construction.ofTag_component {environment : Environment} {context : Context} {tag : Tag}
    (hruntime : context.binding? Binding.runtime.name = some Binding.runtime)
    (hhtml : environment.registry.get? Handler.html.path = some Handler.html) (closes : Bool) :
    ofTag environment context Binding.runtime.name (Promotion.component tag closes) =
      addAll environment context ⟨pathSeparator :: Handler.html.path, [], []⟩
        (Promotion.nameAttribute tag.name :: tag.attributes) := by
  have hsubject : subject context Binding.runtime.name "html".toList =
      (Binding.runtime.name, "html".toList, []) := by
    have hother : Name.aliasKey Binding.runtime.name ≠ htmlQualifier := by decide +kernel
    unfold subject
    exact if_neg (by simp [hother])
  have hresolve : environment.resolve context Binding.runtime.name "html".toList =
      .ok ⟨pathSeparator :: Handler.html.path, Handler.html⟩ := by
    have hbinding : context.binding Binding.runtime.name = .ok Binding.runtime := by
      rw [Context.binding, hruntime]
    have hpath : Binding.runtime.target ++ pathSeparator :: Name.studly "html".toList =
        Handler.html.path := by
      decide +kernel
    rw [Environment.resolve, hbinding]
    simp only [hpath, hhtml]
    rfl
  have hlength : Handler.html.constructorLength = Handler.componentParameters.length := rfl
  have hname : (Promotion.component tag closes).name = "html".toList := rfl
  unfold ofTag
  simp only [hname, hsubject, hresolve, if_pos hlength]
  rfl

theorem Construction.valueCode_nameAttribute {text after : Text} {tag : Tag} {markers : Markers}
    (h : Tag.parse? text = some (tag, after)) (hname : tag.name.contains markers.echo.1 = false) :
    valueCode markers (Promotion.nameAttribute tag.name).value =
      .ok ('"' :: tag.name ++ ['"']) := by
  have hreference : '&' ∉ tag.name := by
    intro hmem
    have hchar := Tag.isNameChar_of_mem_name h hmem
    revert hchar
    decide
  have hplain : ∀ c ∈ tag.name, Code.isDoubleQuotedSpecial c = false := by
    intro c hc
    have hchar := Tag.isNameChar_of_mem_name h hc
    rw [Code.isDoubleQuotedSpecial]
    simp only [Bool.or_eq_false_iff, beq_eq_false_iff_ne]
    refine ⟨⟨?_, ?_⟩, ?_⟩ <;> rintro rfl <;> revert hchar <;> decide
  rw [Promotion.nameAttribute, valueCode, Entity.decode_eq_self hreference]
  exact Interpolation.compile_plain (Tag.name_ne_nil h) hname hplain

/-- A promoted element, its directives all bound, becomes the construction of the component for
plain markup with its name, its attributes and a mixin for each directive. -/
theorem promoted_element_is_faithful {environment : Environment} {context : Context}
    {text content compiled : Text} {tag : Tag}
    (hruntime : context.binding? Binding.runtime.name = some Binding.runtime)
    (hhtml : environment.registry.get? Handler.html.path = some Handler.html)
    (helement : IsElement text tag content)
    (hpromotable : Promotion.isPromotable context tag)
    (hfree : text.contains Promotion.htmlName = false)
    (hname : tag.name.contains environment.options.markers.echo.1 = false)
    (hvalues : ∀ attr ∈ tag.attributes,
      (Construction.valueCode environment.options.markers attr.value).isOk)
    (hbound : ∀ directive ∈ tag.directives, (context.binding? directive.1).isSome)
    (hmixins : ∀ directive ∈ tag.directives, (context.binding? directive.1).isSome →
      (environment.resolve context directive.1 directive.2).toOption.any fun resolved =>
        resolved.handler.constructor.any fun signature => Signature.accepts signature 1)
    (hcontent : components environment context
      (Component.skipLineBreak (promote context content)) = .ok compiled) :
    ∃ construction, components environment context (promote context text) =
        .ok (Component.code environment.options [] construction compiled) ∧
      construction.symbol = "\\hyperblade\\Html".toList ∧
      construction.mixins.length = tag.directives.length ∧
      ((∀ attr ∈ tag.attributes, attr.name ≠ "tag".toList) →
        construction.attributes.lookup "tag".toList = some ('"' :: tag.name ++ ['"'])) ∧
      ∀ before attr later, tag.attributes = before ++ attr :: later → attr.directive? = none →
        (∀ other ∈ later, other.name ≠ attr.name) →
        ∃ value, Construction.valueCode environment.options.markers attr.value = .ok value ∧
          construction.attributes.lookup attr.name = some value := by
  obtain ⟨parsed, hparsed⟩ := helement.parse?
  have hvalue := Construction.valueCode_nameAttribute hparsed hname
  have hnoDirective : (Promotion.nameAttribute tag.name).directive? = none := rfl
  have haddable : ∀ attr ∈ Promotion.nameAttribute tag.name :: tag.attributes,
      Construction.Addable environment context attr := by
    intro attr hattr
    rcases List.mem_cons.mp hattr with rfl | hattr
    · refine ⟨by rw [hvalue]; rfl, ?_⟩
      intro directive hdirective
      rw [hnoDirective] at hdirective
      cases hdirective
    · refine ⟨hvalues attr hattr, ?_⟩
      intro directive hdirective
      have hmem : directive ∈ tag.directives := List.mem_filterMap.mpr ⟨attr, hattr, hdirective⟩
      exact hmixins directive hmem (hbound directive hmem)
  obtain ⟨construction, hconstruction, hsymbol, hcount, hother, hplain⟩ :=
    @Construction.addAll_ok environment context ⟨pathSeparator :: Handler.html.path, [], []⟩ _
      haddable
  obtain ⟨closes, after, element, htag, hpaired, hinner⟩ := helement.promote hpromotable hfree
  rw [← hinner] at hcontent
  refine ⟨construction, ?_, hsymbol, ?_, ?_, ?_⟩
  · have hofTag := (Construction.ofTag_component hruntime hhtml closes).trans hconstruction
    exact components_of_element htag rfl hpaired hofTag hcontent
  · rw [hcount, List.filterMap_cons_none hnoDirective]
    exact Nat.zero_add _
  · intro hnone
    obtain ⟨value, hread, hlookup⟩ := hplain [] _ _ rfl hnoDirective hnone
    rw [hvalue] at hread
    cases hread
    exact hlookup
  · intro before attr later hsplit
    apply hplain (Promotion.nameAttribute tag.name :: before)
    rw [hsplit]
    rfl

section

/-- A template that binds `hint` to a namespace with one mixin. -/
def hintContext : Context := Context.initial.add ⟨"hint".toList, "app\\hints".toList, true⟩

def hintEnvironment : Environment :=
  ⟨Registry.builtin.insert ⟨"app\\hints\\Tip".toList, some [⟨"text".toList, false⟩], []⟩, {}⟩

/-- A paragraph with a hint and a class. -/
theorem promoted_element_is_faithful_of_hint :
    let tag : Tag := ⟨none, "p".toList,
      [⟨[' '], "hint:tip".toList, ['='], .quoted '"' "a".toList⟩,
        ⟨[' '], "class".toList, ['='], .quoted '"' "b".toList⟩], [], false⟩
    let text : Text := "<p hint:tip=\"a\" class=\"b\">Hi</p>".toList
    IsElement text tag "Hi".toList ∧ Promotion.isPromotable hintContext tag ∧
    ∃ construction, components hintEnvironment hintContext (promote hintContext text) =
        .ok (Component.code {} [] construction "Hi".toList) ∧
      construction.mixins.length = 1 ∧
      construction.attributes.lookup "tag".toList = some "\"p\"".toList ∧
      construction.attributes.lookup "class".toList = some "\"b\"".toList := by
  intro tag text
  have helement : IsElement text tag "Hi".toList := by
    have htag : Tag.parse? text = some (tag, "Hi</p>".toList) := by decide +kernel
    have hpaired : Element.ofTag? tag "Hi</p>".toList =
        some (⟨tag, "Hi".toList, "</p>".toList⟩, []) := by decide +kernel
    exact IsElement.full htag (by decide) hpaired
  have hpromotable : Promotion.isPromotable hintContext tag := by decide +kernel
  have hcontent : components hintEnvironment hintContext
      (Component.skipLineBreak (promote hintContext "Hi".toList)) = .ok "Hi".toList :=
    eq_ok_of_toOption (by decide +kernel)
  obtain ⟨construction, hcode, -, hcount, hname, hplain⟩ :=
    @promoted_element_is_faithful hintEnvironment hintContext _ _ _ _ (by decide +kernel)
      (by decide +kernel) helement hpromotable (by decide +kernel) (by decide +kernel)
      (by decide +kernel) (by decide +kernel) (by decide +kernel) hcontent
  obtain ⟨value, hvalue, hlookup⟩ := hplain
    [⟨[' '], "hint:tip".toList, ['='], .quoted '"' "a".toList⟩]
    ⟨[' '], "class".toList, ['='], .quoted '"' "b".toList⟩ [] rfl (by decide) (by simp)
  have hclass : Construction.valueCode hintEnvironment.options.markers
      (.quoted '"' "b".toList) = .ok "\"b\"".toList := eq_ok_of_toOption (by decide +kernel)
  cases hvalue.symm.trans hclass
  exact ⟨helement, hpromotable, construction, hcode, hcount, hname (by decide +kernel), hlookup⟩

/-- A directive of an alias that nobody declared makes a promoted element fail, and an attribute
`tag` takes the place of the element's own name. -/
theorem promoted_element_loses_attributes :
    let tag (first second : Attribute) : Tag := ⟨none, "p".toList, [first, second], [], false⟩
    let hint : Attribute := ⟨[' '], "hint:tip".toList, ['='], .quoted '"' "a".toList⟩
    let click : Attribute := ⟨[' '], "x-on:click".toList, ['='], .quoted '"' "b".toList⟩
    let name : Attribute := ⟨[' '], "tag".toList, ['='], .quoted '"' "x".toList⟩
    let hints (tag : Tag) : Prop := ∀ directive ∈ tag.directives,
      (hintContext.binding? directive.1).isSome →
      (hintEnvironment.resolve hintContext directive.1 directive.2).toOption.any fun resolved =>
        resolved.handler.constructor.any fun signature => Signature.accepts signature 1
    let values (tag : Tag) : Prop := ∀ attr ∈ tag.attributes,
      (Construction.valueCode hintEnvironment.options.markers attr.value).isOk
    (IsElement "<p hint:tip=\"a\" x-on:click=\"b\"></p>".toList (tag hint click) [] ∧
      Promotion.isPromotable hintContext (tag hint click) ∧ hints (tag hint click) ∧
      values (tag hint click) ∧
      (failure? (components hintEnvironment hintContext (promote hintContext
        "<p hint:tip=\"a\" x-on:click=\"b\"></p>".toList))).map (·.cause) =
          some (.unboundAlias "x-on".toList)) ∧
    IsElement "<p tag=\"x\" hint:tip=\"a\"></p>".toList (tag name hint) [] ∧
    Promotion.isPromotable hintContext (tag name hint) ∧ hints (tag name hint) ∧
    values (tag name hint) ∧
    (components hintEnvironment hintContext (promote hintContext
        "<p tag=\"x\" hint:tip=\"a\"></p>".toList)).toOption =
      some ("<?php _h\\out((new \\hyperblade\\Html(['tag'=>\"x\"],'',get_defined_vars()))".toList ++
        "->mixin(new hint\\Tip(\"a\"))->run(), '') ?> ".toList) := by
  intro tag hint click name hints values
  have hclick : IsElement "<p hint:tip=\"a\" x-on:click=\"b\"></p>".toList (tag hint click) [] := by
    have htag : Tag.parse? "<p hint:tip=\"a\" x-on:click=\"b\"></p>".toList =
        some (tag hint click, "</p>".toList) := by decide +kernel
    have hpaired : Element.ofTag? (tag hint click) "</p>".toList =
        some (⟨tag hint click, [], "</p>".toList⟩, []) := by decide +kernel
    exact IsElement.full htag (by decide) hpaired
  have hname : IsElement "<p tag=\"x\" hint:tip=\"a\"></p>".toList (tag name hint) [] := by
    have htag : Tag.parse? "<p tag=\"x\" hint:tip=\"a\"></p>".toList =
        some (tag name hint, "</p>".toList) := by decide +kernel
    have hpaired : Element.ofTag? (tag name hint) "</p>".toList =
        some (⟨tag name hint, [], "</p>".toList⟩, []) := by decide +kernel
    exact IsElement.full htag (by decide) hpaired
  refine ⟨⟨hclick, ?_⟩, hname, ?_⟩ <;> decide +kernel

end

end TemplateCompiler
