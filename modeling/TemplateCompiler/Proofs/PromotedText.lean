import TemplateCompiler.Component.Promotion
import TemplateCompiler.Proofs.Sweeping
import TemplateCompiler.Proofs.TagLocality

/-!
# Promoted text in pieces

Promotion takes a text apart from left to right into characters that stay, tags that become
components without content, and elements that become components with promoted content. The promoted
text is these pieces, each written as what it becomes.
-/
namespace TemplateCompiler

inductive Promoted
  | done
  /-- A character that stays. -/
  | kept (c : Char) (rest : Promoted)
  /-- A tag that becomes a component without content. -/
  | empty (tag : Tag) (rest : Promoted)
  /-- An element that becomes a component. -/
  | full (tag : Tag) (content rest : Promoted)

namespace Promoted

def render : Promoted → Text
  | done => []
  | kept c rest => c :: rest.render
  | empty tag rest => Promotion.empty tag ++ rest.render
  | full tag content rest => Promotion.full tag content.render ++ rest.render

/-- The pieces that promotion takes a text apart into. -/
def ofText (context : Context) : Text → Promoted
  | [] => done
  | c :: rest =>
    match h : Tag.parse? (c :: rest) with
    | none => kept c (ofText context rest)
    | some found =>
      have := Tag.length_of_parse? h
      if Promotion.isPromotable context found.1 then
        if found.1.selfClosing || Tag.isVoidName found.1.name then
          empty found.1 (ofText context found.2)
        else match he : Element.ofTag? found.1 found.2 with
          | none => kept c (ofText context rest)
          | some element =>
            have := Element.length_of_ofTag? he
            full found.1 (ofText context element.1.content) (ofText context element.2)
      else kept c (ofText context rest)
termination_by text => text.length
decreasing_by all_goals first | exact Nat.lt_succ_self _ | omega

theorem ofText_cons (context : Context) (c : Char) (rest : Text) :
    ofText context (c :: rest) = match Tag.parse? (c :: rest) with
      | none => kept c (ofText context rest)
      | some found =>
        if Promotion.isPromotable context found.1 then
          if found.1.selfClosing || Tag.isVoidName found.1.name then
            empty found.1 (ofText context found.2)
          else match Element.ofTag? found.1 found.2 with
            | none => kept c (ofText context rest)
            | some element =>
              full found.1 (ofText context element.1.content) (ofText context element.2)
        else kept c (ofText context rest) := by
  rw [ofText]
  split
  · rename_i h
    rw [h]
  · rename_i found h
    conv => rhs; rw [h]
    dsimp only
    congr 2
    split <;> rename_i helement <;> simp only [helement]

theorem ofText_of_empty {context : Context} {text after : Text} {tag : Tag}
    (h : Tag.parse? text = some (tag, after)) (hpromotable : Promotion.isPromotable context tag)
    (hempty : tag.selfClosing || Tag.isVoidName tag.name) :
    ofText context text = empty tag (ofText context after) := by
  cases text with
  | nil => cases h
  | cons c rest =>
    rw [ofText_cons, h]
    exact (if_pos hpromotable).trans (if_pos hempty)

theorem ofText_of_full {context : Context} {text after rest : Text} {tag : Tag} {element : Element}
    (h : Tag.parse? text = some (tag, after)) (hpromotable : Promotion.isPromotable context tag)
    (hopen : (tag.selfClosing || Tag.isVoidName tag.name) = false)
    (helement : Element.ofTag? tag after = some (element, rest)) :
    ofText context text =
      full tag (ofText context element.content) (ofText context rest) := by
  cases text with
  | nil => cases h
  | cons c tail =>
    rw [ofText_cons, h]
    refine (if_pos hpromotable).trans ((if_neg (Bool.eq_false_iff.mp hopen)).trans ?_)
    rw [helement]

@[elab_as_elim]
theorem ofText_induction (context : Context) {motive : Text → Prop}
    (done : ofText context [] = done → motive [])
    (kept : ∀ c rest, ofText context (c :: rest) = kept c (ofText context rest) → motive rest →
      motive (c :: rest))
    (empty : ∀ text tag after, Tag.parse? text = some (tag, after) →
      Promotion.isPromotable context tag → tag.selfClosing || Tag.isVoidName tag.name →
      ofText context text = empty tag (ofText context after) → motive after → motive text)
    (full : ∀ text tag after element rest, Tag.parse? text = some (tag, after) →
      Promotion.isPromotable context tag → (tag.selfClosing || Tag.isVoidName tag.name) = false →
      Element.ofTag? tag after = some (element, rest) →
      ofText context text = full tag (ofText context element.content) (ofText context rest) →
      motive element.content → motive rest → motive text)
    (text : Text) : motive text := by
  induction text using ofText.induct context with
  | case1 => exact done (by rw [ofText])
  | case2 c rest h ih =>
    refine kept c rest ?_ ih
    rw [ofText_cons, h]
  | case3 c rest found h _ hpromotable hempty ih =>
    exact empty _ _ _ h hpromotable hempty (ofText_of_empty h hpromotable hempty) ih
  | case4 c rest found h _ hpromotable hempty hopen ih =>
    refine kept c rest ?_ ih
    rw [ofText_cons, h]
    refine (if_pos hpromotable).trans ((if_neg hempty).trans ?_)
    rw [hopen]
  | case5 c rest found h _ hpromotable hempty element helement _ ih ih' =>
    have hopen := Bool.eq_false_iff.mpr hempty
    exact full _ _ _ _ _ h hpromotable hopen helement
      (ofText_of_full h hpromotable hopen helement) ih ih'
  | case6 c rest found h _ hplain ih =>
    refine kept c rest ?_ ih
    rw [ofText_cons, h]
    exact if_neg hplain

variable {context : Context} {nested : Text → Text}

theorem step_of_tag {before text : Text} {found : Tag × Text} (fresh : Nat)
    (h : Tag.parse? text = some found) :
    Promotion.step context nested ⟨before, text⟩ fresh =
      if Promotion.isPromotable context found.1 then
        if found.1.selfClosing || Tag.isVoidName found.1.name then
          .replace 0 (found.1.written.length - 1) (Promotion.empty found.1)
        else match Element.ofTag? found.1 found.2 with
          | none => .keep 0
          | some element => .replace 0 (element.1.written.length - 1)
            (Promotion.full found.1 (nested element.1.content))
      else .keep 0 := by
  obtain ⟨tag, after⟩ := found
  unfold Promotion.step
  simp only [h]
  cases Element.ofTag? tag after <;> rfl

theorem sweepFrom_eq_render {text : Text}
    (hnested : ∀ content : Text, content.length < text.length →
      nested content = (ofText context content).render) (before pending : Text) (keeping : Bool) :
    @Sweep.sweepFrom Id _ (Promotion.step context nested) before pending 0 keeping text =
      pure (pending.reverse ++ (ofText context text).render) := by
  -- A character that stays goes to the ones kept before it.
  have hkept (c : Char) (rest before pending : Text) (keeping : Bool)
      (hstep : Promotion.step context nested ⟨before, c :: rest⟩ pending.length = pure (.keep 0))
      (hrest : @Sweep.sweepFrom Id _ (Promotion.step context nested) (c :: before) (c :: pending) 0
        true rest = pure ((c :: pending).reverse ++ (ofText context rest).render)) :
      @Sweep.sweepFrom Id _ (Promotion.step context nested) before pending 0 keeping (c :: rest) =
        pure (pending.reverse ++ (kept c (ofText context rest)).render) := by
    rw [Sweep.sweepFrom_keep hstep, hrest, render, List.reverse_cons, List.append_assoc,
      List.singleton_append]
  fun_induction ofText context text generalizing before pending keeping with
  | case1 => rw [Sweep.sweepFrom, render, List.append_nil]
  | case2 c rest h ih =>
    apply hkept
    · unfold Promotion.step
      rw [h]
      rfl
    · exact ih (fun content hlength => hnested content (Nat.lt_succ_of_lt hlength)) _ _ _
  | case3 c rest found h hlength hpromotable hempty ih =>
    have hafter := Tag.parse?_eq h
    have hstep := @step_of_tag context nested before _ _ pending.length h
    rw [if_pos hpromotable, if_pos hempty, hafter] at hstep
    rw [hafter, Sweep.sweepFrom_put_piece found.1.written_ne_nil hstep]
    rw [ih (fun content hcontent => hnested content (Nat.lt_trans hcontent hlength))]
    rw [map_pure, render, List.drop_zero, List.append_assoc]
    rfl
  | case4 c rest found h hlength hpromotable hempty hopen ih =>
    apply hkept
    · rw [step_of_tag _ h, if_pos hpromotable, if_neg hempty, hopen]
      rfl
    · exact ih (fun content hlength => hnested content (Nat.lt_succ_of_lt hlength)) _ _ _
  | case5 c rest found h hlength hpromotable hempty element helement hlengths ih ih' =>
    have hafter := Tag.parse?_eq h
    have helementEq := Element.ofTag?_eq helement
    have hwritten : c :: rest = element.1.written ++ element.2 := by
      rw [hafter, helementEq.1, Element.written, helementEq.2]
      simp only [List.append_assoc]
    have hne : element.1.written ≠ [] := by
      rw [Element.written, List.append_assoc]
      exact List.append_ne_nil_of_left_ne_nil (Tag.written_ne_nil _) _
    have hstep := @step_of_tag context nested before _ _ pending.length h
    rw [if_pos hpromotable, if_neg hempty, helement, hwritten] at hstep
    rw [hwritten, Sweep.sweepFrom_put_piece hne hstep]
    rw [ih' (fun content hcontent => hnested content (by omega)), map_pure, render,
      List.drop_zero, List.append_assoc, hnested element.1.content (by omega)]
    rfl
  | case6 c rest found h hlength hplain ih =>
    apply hkept
    · rw [step_of_tag _ h, if_neg hplain]
      rfl
    · exact ih (fun content hlength => hnested content (Nat.lt_succ_of_lt hlength)) _ _ _

/-- The promoted text is that of the pieces. -/
theorem promote_eq_render (context : Context) (text : Text) :
    promote context text = (ofText context text).render := by
  have hnested (content : Text) (hlength : content.length < text.length) :
      (if content.length < text.length then promote context content else content) =
        (ofText context content).render := by
    rw [if_pos hlength]
    exact promote_eq_render context content
  rw [promote, sweep, sweepFrom_eq_render hnested]
  rfl
termination_by text.length

end Promoted

end TemplateCompiler
