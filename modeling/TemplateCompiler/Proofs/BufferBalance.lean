import TemplateCompiler.Proofs.GeneratedStatement

/-!
# Output buffers balance

The text between the components, and the content of each, name no output buffer if the whole text
does not. So a sweep over the components leaves a text in which every buffer that is opened is
closed, on each level of nesting and hence on all of them.
-/
namespace TemplateCompiler

open DyckStep

namespace Layout

theorem lineIndent_blank (before : Text) (fresh : Nat) :
    (lineIndent before fresh).all Text.isSpaceOrTab := by
  unfold lineIndent
  simp only
  split
  · rw [List.all_reverse]
    exact List.all_takeWhile
  · rfl

theorem dedented_suffix (indent line : Text) :
    (Text.after? indent line).getD line <:+ line := by
  cases hafter : Text.after? indent line with
  | none => exact List.suffix_refl _
  | some rest => exact ⟨indent, (Text.after?_eq_some_iff.mp hafter).symm⟩

theorem mem_of_mem_dedent {indent text : Text} {c : Char} (h : c ∈ dedent indent text) :
    c ∈ text := by
  obtain ⟨line, hline, hmem⟩ := List.mem_flatMap.mp h
  rw [← flatten_linesOf text]
  exact List.mem_flatten.mpr ⟨line, hline, (dedented_suffix indent line).subset hmem⟩

theorem dedent_line (indent : Text) {line : Text} (h : '\n' ∉ line) (rest : Text) :
    dedent indent (line ++ '\n' :: rest) =
      (Text.after? indent (line ++ ['\n'])).getD (line ++ ['\n']) ++ dedent indent rest := by
  have hlines : dedent.linesOf (line ++ '\n' :: rest) =
      (line ++ ['\n']) :: dedent.linesOf rest := by
    induction line with
    | nil => rfl
    | cons c line ih =>
      rw [List.mem_cons, not_or] at h
      rw [List.cons_append, dedent.linesOf, if_neg (Ne.symm h.1), ih h.2]
      rfl
  rw [dedent, hlines]
  rfl

theorem dedent_single (indent : Text) {line : Text} (h : '\n' ∉ line) :
    dedent indent line = (Text.after? indent line).getD line := by
  have hlines (c : Char) (line : Text) (h : '\n' ∉ c :: line) :
      dedent.linesOf (c :: line) = [c :: line] := by
    induction line generalizing c with
    | nil =>
      rw [dedent.linesOf, if_neg (Ne.symm (List.ne_of_not_mem_cons h))]
      rfl
    | cons d line ih =>
      rw [dedent.linesOf, if_neg (Ne.symm (List.ne_of_not_mem_cons h))]
      rw [ih d (List.not_mem_of_not_mem_cons h)]
      rfl
  cases line with
  | nil => cases indent <;> rfl
  | cons c line => rw [dedent, hlines c line h, List.flatMap_singleton]

theorem dedent_last (indent : Text) {line : Text} (h : '\n' ∉ line) :
    dedent indent line <:+ line := by
  rw [dedent_single indent h]
  exact dedented_suffix indent line

/-- Taking away indentation makes no name: none goes on behind a line break. -/
theorem unbuffered_dedent (indent text : Text) (h : Unbuffered text) :
    Unbuffered (dedent indent text) := by
  by_cases hbreak : '\n' ∈ text
  · obtain ⟨line, rest, htext, hline⟩ := List.eq_append_cons_of_mem hbreak
    have hshorter : rest.length < text.length := by
      rw [htext, List.length_append, List.length_cons]
      omega
    rw [htext] at h ⊢
    have hfirst : Unbuffered line := h.of_infix (List.prefix_append _ _).isInfix
    have hlater : Unbuffered (dedent indent rest) :=
      unbuffered_dedent indent rest (h.of_infix ⟨line ++ ['\n'], [], by simp⟩)
    rw [dedent_line indent hline]
    rcases List.suffix_concat_iff.mp (dedented_suffix indent (line ++ ['\n'])) with
      hnil | ⟨kept, hkept, hsuffix⟩
    · rw [hnil]
      exact hlater
    · rw [hkept, List.append_assoc]
      exact (hfirst.of_infix hsuffix.isInfix).append_cons hlater (by decide)
  · exact h.of_infix (dedent_last indent hbreak).isInfix
termination_by text.length
decreasing_by exact hshorter

end Layout

namespace Sweep

variable {step : Place → Nat → Pass Move} {text before pending rest : Text}

theorem balanced_kept (htext : Unbuffered text) (hplace : before.reverse ++ rest = text)
    (hpending : pending <+: before) (claimed : Nat) : Balanced (pending.drop claimed).reverse := by
  have hbefore : pending.drop claimed <:+: before :=
    (List.drop_suffix claimed pending).isInfix.trans hpending.isInfix
  have hwithin : (pending.drop claimed).reverse <:+: text := by
    rw [← hplace]
    exact (List.reverse_infix.mpr hbefore).trans (List.prefix_append _ _).isInfix
  exact (htext.of_infix hwithin).quiet.balanced

/-- A sweep that puts statements in place of pieces of a text without buffers leaves it balanced.
The characters kept since the last replacement are the nearest ones before the place. -/
theorem balanced_of_run {context after : Context} {busy : Nat} {keeping : Bool} {out : Text}
    (htext : Unbuffered text)
    (hstep : ∀ place fresh context claimed more new after, place.text = text →
      (step place fresh).run context = (.ok (.replace claimed more new), after) → IsStatement new)
    (hplace : before.reverse ++ rest = text) (hpending : pending <+: before)
    (hkeeping : keeping = true ∨ pending = [])
    (h : (sweepFrom step before pending busy keeping rest).run context = (.ok out, after)) :
    Balanced out := by
  induction rest generalizing before pending busy keeping context after out with
  | nil =>
    cases h
    exact balanced_kept htext hplace hpending 0
  | cons c rest ih =>
    have hnext : (c :: before).reverse ++ rest = text := by
      rw [← hplace, List.reverse_cons, List.append_assoc, List.singleton_append]
    cases busy with
    | succ busy =>
      rw [sweepFrom] at h
      cases keeping with
      | true =>
        exact ih hnext (List.cons_prefix_cons.mpr ⟨rfl, hpending⟩) (Or.inl rfl) h
      | false =>
        rcases hkeeping with hkeeping | rfl
        · cases hkeeping
        · exact ih hnext List.nil_prefix (Or.inr rfl) h
    | zero =>
      rw [sweepFrom] at h
      obtain ⟨move, reached, hmove, h⟩ := Pass.run_bind_ok h
      cases move with
      | keep more =>
        exact ih hnext (List.cons_prefix_cons.mpr ⟨rfl, hpending⟩) (Or.inl rfl) h
      | replace claimed more new =>
        obtain ⟨swept, later, hswept, hdone⟩ := Pass.run_bind_ok h
        cases hdone
        have hnew := hstep ⟨before, c :: rest⟩ _ _ _ _ _ _ hplace hmove
        have hrest : Balanced swept := ih hnext List.nil_prefix (Or.inr rfl) hswept
        exact hnew.balanced_between (balanced_kept htext hplace hpending claimed) hrest

end Sweep

namespace Component

variable {environment : Environment} {nested : Text → Pass Text} {place : Place}
  {fresh claimed more : Nat} {new : Text} {context after : Context}

theorem replaced_of_step (h : (step environment nested place fresh).run context =
      (.ok (.replace claimed more new), after)) :
    ∃ tag behind qualifier element rest construction compiled later,
      Tag.parse? place.rest = some (tag, behind) ∧ qualifier? tag = some qualifier ∧
      Element.ofTag? tag behind = some (element, rest) ∧
      Construction.ofTag environment context qualifier tag = .ok construction ∧
      (nested (Layout.dedent (Layout.lineIndent place.before fresh)
        (skipLineBreak element.content))).run context = (.ok compiled, later) ∧
      new = code environment.options (Layout.lineIndent place.before fresh) construction
        compiled := by
  unfold step at h
  split at h
  · cases h
  · rename_i tag behind htag
    split at h
    · cases h
    · rename_i qualifier hqualifier
      split at h
      · cases h
      · rename_i element rest helement
        obtain ⟨construction, reached, hread, h⟩ := Pass.run_bind_ok h
        have hconstruction := Pass.run_mapError_ok hread
        obtain ⟨hresult, rfl⟩ := Prod.mk.inj hconstruction
        obtain ⟨compiled, later, hnested, hdone⟩ := Pass.run_bind_ok h
        have hcompiled := Pass.run_mapError_ok hnested
        cases hdone
        exact ⟨tag, behind, qualifier, element, rest, construction, compiled, after, htag,
          hqualifier, helement, hresult, hcompiled, rfl⟩

theorem isStatement_of_step (hregistry : environment.registry.Declared)
    (htext : Unbuffered place.text) (hreference : '&' ∉ place.text)
    (hnested : ∀ content context after compiled, Unbuffered content → '&' ∉ content →
      (nested content).run context = (.ok compiled, after) → Balanced compiled)
    (h : (step environment nested place fresh).run context =
      (.ok (.replace claimed more new), after)) : IsStatement new := by
  obtain ⟨tag, behind, qualifier, element, rest, construction, compiled, later, htag, -, helement,
    hconstruction, hcompiled, rfl⟩ := replaced_of_step h
  have hrest : place.rest <:+: place.text := (List.suffix_append _ _).isInfix
  have hcontent : skipLineBreak element.content <:+: place.text := by
    have helement : element.content <:+: behind := by
      rw [(Element.ofTag?_eq helement).1]
      exact ⟨[], element.closing ++ rest, by simp⟩
    have hbehind : behind <:+: place.rest := by
      rw [Tag.parse?_eq htag]
      exact (List.suffix_append _ _).isInfix
    exact (((skipLineBreak_suffix _).isInfix.trans helement).trans hbehind).trans hrest
  have hquiet := Construction.isQuiet_of_ofTag hregistry htag (htext.of_infix hrest)
    (fun hmem => hreference (hrest.subset hmem)) hconstruction
  have hbalanced : Balanced compiled := by
    refine hnested _ _ _ _ ?_ ?_ hcompiled
    · exact Layout.unbuffered_dedent _ _ (htext.of_infix hcontent)
    · exact fun hmem => hreference (hcontent.subset (Layout.mem_of_mem_dedent hmem))
  exact isStatement_code hquiet _ (Layout.lineIndent_blank _ _) hbalanced

end Component

theorem balanced_of_componentCalls {environment : Environment} {context after : Context}
    {out : Text} (hregistry : environment.registry.Declared) (text : Text)
    (htext : Unbuffered text) (hreference : '&' ∉ text)
    (h : (componentCalls environment text).run context = (.ok out, after)) : Balanced out := by
  have hnested (content : Text) (context after : Context) (compiled : Text)
      (hcontent : Unbuffered content) (hplain : '&' ∉ content)
      (h : ((fun content => if content.length < text.length then componentCalls environment content
        else pure content) content).run context = (.ok compiled, after)) : Balanced compiled := by
    simp only at h
    split at h
    · rename_i hshorter
      exact balanced_of_componentCalls hregistry content hcontent hplain h
    · cases h
      exact hcontent.quiet.balanced
  rw [componentCalls, Pass.run_nested] at h
  obtain ⟨hout, -⟩ := Prod.mk.inj h
  refine Sweep.balanced_of_run htext ?_ rfl List.nil_prefix (Or.inl rfl) (Prod.ext hout rfl)
  intro place fresh context claimed more new after hplace hstep
  rw [← hplace] at htext hreference
  exact Component.isStatement_of_step hregistry htext hreference hnested hstep
termination_by text.length

/-- In what the components of a text become, each buffer that is opened is closed, and each capture
closes the nearest open one, if the text names no function of output buffering and has no
references, which might stand for such a name. -/
theorem components_balance_buffers {environment : Environment} {context : Context}
    {text out : Text} (hregistry : environment.registry.Declared)
    (htext : text.contains "ob_".toList = false) (hreference : '&' ∉ text)
    (h : components environment context text = .ok out) :
    ∃ word : DyckWord, word.toList = bufferSteps out :=
  balanced_of_componentCalls hregistry text htext hreference (Prod.ext h rfl)

theorem components_balance_buffers_of_nested :
    let environment : Environment := ⟨Registry.builtin, {}⟩
    let text : Text :=
      "<html:div><html:p>Hi <html:i>there</html:i></html:p><html:hr/></html:div>".toList
    environment.registry.Declared ∧ text.contains "ob_".toList = false ∧ '&' ∉ text ∧
    ∃ out, components environment Context.initial text = .ok out ∧
      bufferSteps out = [U, U, D, D] ∧ ∃ word : DyckWord, word.toList = bufferSteps out := by
  intro environment text
  have hregistry : environment.registry.Declared := .builtin
  have htext : text.contains "ob_".toList = false := by decide +kernel
  have hreference : '&' ∉ text := by decide +kernel
  refine ⟨hregistry, htext, hreference, ?_⟩
  have hsteps : (components environment Context.initial text).toOption.map bufferSteps =
      some [U, U, D, D] := by decide +kernel
  obtain ⟨out, hout, hsteps⟩ := Option.map_eq_some_iff.mp hsteps
  have hout := eq_ok_of_toOption hout
  exact ⟨out, hout, hsteps, components_balance_buffers hregistry htext hreference hout⟩

end TemplateCompiler
