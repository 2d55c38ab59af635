import TemplateCompiler.Proofs.Nesting
import TemplateCompiler.Proofs.Sweeping
import TemplateCompiler.Proofs.TagLocality

/-!
# A text that is one component

If a text is a single component, it compiles to the code of that component: the construction that
the tag stands for, with the compiled content.
-/
namespace TemplateCompiler

variable {environment : Environment} {context : Context}

namespace Sweep

variable {step : Place → Nat → Pass Move} {before pending rest new : Text} {c : Char}
  {keeping : Bool} {claimed more : Nat}

theorem run_sweepFrom_replace {after : Context}
    (h : (step ⟨before, c :: rest⟩ pending.length).run context =
      (.ok (.replace claimed more new), after)) (hrest : rest.length ≤ more) :
    (sweepFrom step before pending 0 keeping (c :: rest)).run context =
      (.ok ((pending.drop claimed).reverse ++ new), after) := by
  rw [sweepFrom, Pass.run_bind, h]
  simp only
  rw [sweepFrom_busy hrest, pure_bind, List.reverse_nil, List.append_nil]
  rfl

end Sweep

theorem components_level (text : Text) (level : Nat) :
    ((componentCalls environment text).run { context with level := level }).1 =
      components environment context text := by
  obtain ⟨bindings, level', prolog⟩ := context
  obtain ⟨result, declared, -, hrun⟩ := @componentCalls_collects environment text bindings
  rw [components, hrun level' prolog (Nat.zero_le _), hrun level prolog (Nat.zero_le _)]

namespace Construction

variable {construction : Construction} {attributes : List Attribute}

/-- A directive with the expression for its value becomes a mixin: the handler that it denotes takes
one value, and is constructed with that expression. -/
def Mixes (environment : Environment) (context : Context) (entry : Attribute × Text)
    (mixin : Text) : Prop :=
  ∃ qualifier name resolved signature, entry.1.directive? = some (qualifier, name) ∧
    environment.resolve context qualifier name = .ok resolved ∧
    resolved.handler.constructor = some signature ∧ Signature.accepts signature 1 ∧
    mixin = "new ".toList ++ resolved.symbol ++ ['('] ++ entry.2 ++ [')']

theorem Mixes.exists_directive {entry : Attribute × Text} {mixin : Text}
    (h : Mixes environment context entry mixin) :
    ∃ directive, entry.1.directive? = some directive := by
  obtain ⟨qualifier, name, -, -, hdirective, -⟩ := h
  exact ⟨(qualifier, name), hdirective⟩

theorem add_ok {attr : Attribute} {result : Construction}
    (h : add environment context construction attr = .ok result) :
    ∃ value, valueCode environment.options.markers attr.value = .ok value ∧
      ((attr.directive? = none ∧ result = { construction with
          attributes := Keyed.put attr.name value construction.attributes }) ∨
        ∃ mixin, Mixes environment context (attr, value) mixin ∧
          result = { construction with mixins := construction.mixins ++ [mixin] }) := by
  unfold add at h
  split at h
  · cases h
  · rename_i value hvalue
    refine ⟨value, hvalue, ?_⟩
    split at h
    · rename_i qualifier name hdirective
      unfold mixinCode at h
      split at h
      · cases h
      · rename_i resolved hresolve
        split at h
        · rename_i haccepts
          cases h
          obtain ⟨signature, hsignature, haccepts⟩ := (Option.any_eq_true _ _).mp haccepts
          exact Or.inr ⟨_, ⟨qualifier, name, resolved, signature, hdirective, hresolve, hsignature,
            haccepts, by simp⟩, rfl⟩
        · cases h
    · rename_i hdirective
      cases h
      exact Or.inl ⟨hdirective, rfl⟩

/-- An attribute can be added if its value compiles and its directive, if it is one, stands for a
mixin that takes one value. -/
structure Addable (environment : Environment) (context : Context) (attr : Attribute) : Prop where
  value : (valueCode environment.options.markers attr.value).isOk
  mixin : ∀ directive, attr.directive? = some directive →
    (environment.resolve context directive.1 directive.2).toOption.any fun resolved =>
      resolved.handler.constructor.any fun signature => Signature.accepts signature 1

theorem Addable.add_plain {attr : Attribute} (h : Addable environment context attr)
    (hplain : attr.directive? = none) :
    ∃ value, valueCode environment.options.markers attr.value = .ok value ∧
      add environment context construction attr = .ok { construction with
        attributes := Keyed.put attr.name value construction.attributes } := by
  have hok := h.value
  cases hvalue : valueCode environment.options.markers attr.value with
  | error error =>
    rw [hvalue] at hok
    cases hok
  | ok value =>
    refine ⟨value, rfl, ?_⟩
    rw [add, hvalue]
    simp only [hplain]

theorem Addable.add_directive {attr : Attribute} {directive : Text × Text}
    (h : Addable environment context attr) (hdirective : attr.directive? = some directive) :
    ∃ mixin, add environment context construction attr = .ok { construction with
      mixins := construction.mixins ++ [mixin] } := by
  have hok := h.value
  have hmixin := h.mixin directive hdirective
  cases hvalue : valueCode environment.options.markers attr.value with
  | error error =>
    rw [hvalue] at hok
    cases hok
  | ok value =>
    cases hresolved : environment.resolve context directive.1 directive.2 with
    | error error =>
      rw [hresolved] at hmixin
      cases hmixin
    | ok resolved =>
      rw [hresolved] at hmixin
      have haccepts : resolved.handler.constructor.any
          fun signature => Signature.accepts signature 1 := hmixin
      refine ⟨"new ".toList ++ resolved.symbol ++ '(' :: value ++ [')'], ?_⟩
      rw [add, hvalue]
      simp only [hdirective, mixinCode, hresolved, if_pos haccepts]
      rfl

/-- If every attribute can be added, the plain ones have the entries of their names, of which the
last one stays, and each directive is a mixin. -/
theorem addAll_ok (h : ∀ attr ∈ attributes, Addable environment context attr) :
    ∃ result, addAll environment context construction attributes = .ok result ∧
      result.symbol = construction.symbol ∧
      result.mixins.length = construction.mixins.length +
        (attributes.filterMap (·.directive?)).length ∧
      (∀ name, (∀ attr ∈ attributes, attr.directive? = none → attr.name ≠ name) →
        result.attributes.lookup name = construction.attributes.lookup name) ∧
      ∀ before attr later, attributes = before ++ attr :: later → attr.directive? = none →
        (∀ other ∈ later, other.name ≠ attr.name) →
        ∃ value, valueCode environment.options.markers attr.value = .ok value ∧
          result.attributes.lookup attr.name = some value := by
  induction attributes generalizing construction with
  | nil =>
    refine ⟨construction, rfl, rfl, rfl, fun _ _ => rfl, ?_⟩
    intro before attr later hsplit
    cases before <;> cases hsplit
  | cons attr attributes ih =>
    have hattr := h attr List.mem_cons_self
    have hlater := fun attr hmem => h attr (List.mem_cons_of_mem _ hmem)
    cases hdirective : attr.directive? with
    | some directive =>
      obtain ⟨mixin, hadd⟩ := hattr.add_directive hdirective
      obtain ⟨result, hresult, hsymbol, hmixins, hother, hplain⟩ := @ih
        { construction with mixins := construction.mixins ++ [mixin] } hlater
      refine ⟨result, ?_, hsymbol, ?_, ?_, ?_⟩
      · rw [addAll, hadd]
        exact hresult
      · have hcount : (attr :: attributes).filterMap (·.directive?) =
            directive :: attributes.filterMap (·.directive?) :=
          List.filterMap_cons_some hdirective
        rw [hmixins, hcount, List.length_append, List.length_singleton, List.length_cons]
        omega
      · intro name hname
        exact hother name fun attr hmem => hname attr (List.mem_cons_of_mem _ hmem)
      · intro before other later hsplit hnone hlast
        cases before with
        | nil =>
          obtain ⟨rfl, -⟩ := List.cons.inj hsplit
          rw [hnone] at hdirective
          cases hdirective
        | cons _ before => exact hplain before other later (List.cons.inj hsplit).2 hnone hlast
    | none =>
      obtain ⟨value, hvalue, hadd⟩ := hattr.add_plain hdirective
      obtain ⟨result, hresult, hsymbol, hmixins, hother, hplain⟩ := @ih
        { construction with attributes := Keyed.put attr.name value construction.attributes } hlater
      refine ⟨result, ?_, hsymbol, ?_, ?_, ?_⟩
      · rw [addAll, hadd]
        exact hresult
      · rw [hmixins, List.filterMap_cons_none hdirective]
      · intro name hname
        rw [hother name fun attr hmem => hname attr (List.mem_cons_of_mem _ hmem)]
        rw [Keyed.lookup_put, if_neg (Ne.symm (hname attr List.mem_cons_self hdirective))]
      · intro before other later hsplit hnone hlast
        cases before with
        | nil =>
          obtain ⟨rfl, rfl⟩ := List.cons.inj hsplit
          refine ⟨value, hvalue, ?_⟩
          rw [hother _ fun other hmem _ => hlast other hmem, Keyed.lookup_put, if_pos rfl]
        | cons _ before => exact hplain before other later (List.cons.inj hsplit).2 hnone hlast

end Construction

namespace Component

theorem skipLineBreak_suffix (content : Text) : skipLineBreak content <:+ content := by
  have htrim (rest : Text) : Text.trimStart rest <:+ rest := List.dropWhile_suffix _
  unfold skipLineBreak
  split
  · rename_i rest
    exact (htrim rest).trans ⟨['\r', '\n'], rfl⟩
  · rename_i rest
    exact (htrim rest).trans ⟨['\n'], rfl⟩
  · exact List.suffix_refl _

theorem run_step {nested : Text → Pass Text} {place : Place} {fresh : Nat}
    {qualifier behind rest compiled : Text} {tag : Tag} {element : Element}
    {construction : Construction} {after : Context}
    (htag : Tag.parse? place.rest = some (tag, behind))
    (hqualifier : qualifier? tag = some qualifier)
    (helement : Element.ofTag? tag behind = some (element, rest))
    (hconstruction : Construction.ofTag environment context qualifier tag = .ok construction)
    (hcompiled : (nested (Layout.dedent (Layout.lineIndent place.before fresh)
      (skipLineBreak element.content))).run context = (.ok compiled, after)) :
    (step environment nested place fresh).run context =
      (.ok (.replace (Layout.lineIndent place.before fresh).length (element.written.length - 1)
        (code environment.options (Layout.lineIndent place.before fresh) construction compiled)),
          after) := by
  unfold step
  simp only [htag, hqualifier, helement]
  have hread : (Pass.ofContext fun context =>
      Construction.ofTag environment context qualifier tag).run context =
        (.ok construction, context) := by
    rw [← hconstruction]
    rfl
  have hdone (f : CompileError → CompileError) (value : Construction) :
      Except.mapError f (.ok value) = .ok value := rfl
  rw [Pass.run_bind, Pass.run_mapError, hread]
  simp only [hdone]
  rw [Pass.run_bind, Pass.run_mapError, hcompiled]
  rfl

end Component

theorem Construction.ofTag_level (qualifier : Text) (tag : Tag) (level : Nat) :
    ofTag environment { context with level := level } qualifier tag =
      ofTag environment context qualifier tag := by
  obtain ⟨bindings, level', prolog⟩ := context
  exact (ofTag_eq bindings level prolog qualifier tag).trans
    (ofTag_eq bindings level' prolog qualifier tag).symm

theorem Layout.dedent_nil (text : Text) : dedent [] text = text := by
  have hline (line : Text) : (Text.after? [] line).getD line = line := rfl
  simp only [dedent, hline, List.flatMap_id', flatten_linesOf]

theorem components_of_element {text after qualifier compiled : Text} {tag : Tag}
    {element : Element} {construction : Construction} (htag : Tag.parse? text = some (tag, after))
    (hqualifier : Component.qualifier? tag = some qualifier)
    (helement : Element.ofTag? tag after = some (element, []))
    (hconstruction : Construction.ofTag environment context qualifier tag = .ok construction)
    (hcompiled : components environment context (Component.skipLineBreak element.content) =
      .ok compiled) :
    components environment context text =
      .ok (Component.code environment.options [] construction compiled) := by
  have htext : text = element.written := by
    have helementEq := Element.ofTag?_eq helement
    rw [Tag.parse?_eq htag, helementEq.1, Element.written, helementEq.2]
    simp only [List.append_assoc, List.append_nil]
  have hshorter : (Component.skipLineBreak element.content).length < text.length := by
    have hcontent := (Component.skipLineBreak_suffix element.content).length_le
    have hafter : element.content.length ≤ after.length := (Element.length_of_ofTag? helement).1
    have htag : after.length < text.length := Tag.length_of_parse? htag
    omega
  -- The content is compiled one level further down.
  have hnested : ((componentCalls environment (Component.skipLineBreak element.content)).run
      { context with level := context.level + 1 }) =
        (.ok compiled, { context with level := context.level + 1 }) := by
    rw [← hcompiled, ← components_level _ (context.level + 1)]
    exact Prod.ext rfl (componentCalls_context _ _)
  have hstep : (Component.step environment (fun content =>
      if content.length < text.length then componentCalls environment content else pure content)
      ⟨[], text⟩ 0).run { context with level := context.level + 1 } =
        (.ok (.replace 0 (element.written.length - 1)
          (Component.code environment.options [] construction compiled)),
            { context with level := context.level + 1 }) := by
    have hindent : Layout.lineIndent [] 0 = [] := rfl
    refine Component.run_step htag hqualifier helement
      ((Construction.ofTag_level _ _ _).trans hconstruction) ?_
    rw [hindent, Layout.dedent_nil, if_pos hshorter, hnested]
  have hempty : text ≠ [] := by
    rintro rfl
    cases hshorter
  rw [components, componentCalls, Pass.run_nested, sweep]
  cases htextCases : text with
  | nil => exact absurd htextCases hempty
  | cons c rest =>
    rw [htextCases] at hstep
    have hlength : rest.length ≤ element.written.length - 1 := by
      rw [← htext, htextCases]
      exact Nat.le_refl _
    have hrun := @Sweep.run_sweepFrom_replace _ _ [] [] rest _ c true _ _ _ hstep hlength
    rw [hrun]
    rfl

end TemplateCompiler
