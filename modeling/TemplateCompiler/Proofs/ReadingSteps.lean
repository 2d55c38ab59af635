import TemplateCompiler.Manifest
import TemplateCompiler.Proofs.InterpolatedPieces

/-!
# The steps of a reading

The reading of an attribute text is a loop: it takes one step after the other while there is text
left. A step takes something of the text away unless both tags are empty, so the loop ends with any
other pair of tags, and the pieces of the text are those of its steps. With two empty tags every
step leaves the text as it was.
-/
namespace TemplateCompiler.Interpolation

variable {tags : Text × Text} {text : Text} {pieces : List Piece} {n : Nat}

/-- The loop over a text ends after `n` steps, which make these pieces. -/
inductive EndsAfter (tags : Text × Text) : Nat → Text → List Piece → Prop
  | done : EndsAfter tags 0 [] []
  | step {n : Nat} {text : Text} {pieces : List Piece} (hne : text ≠ [])
      (h : EndsAfter tags n (step tags text).2 pieces) :
      EndsAfter tags (n + 1) text ((step tags text).1 ++ pieces)

/-! ## One step -/

theorem length_step_lt (htags : tags ≠ ([], [])) (hne : text ≠ []) :
    (step tags text).2.length < text.length := by
  rcases step_cases tags text with ⟨hstep, -⟩ | ⟨before, inner, after, hpair, hstep⟩
  · rw [hstep]
    exact List.length_pos_iff.mpr hne
  · rw [hstep]
    exact hpair.length_lt htags

theorem step_empty_tags (text : Text) :
    step ([], []) text = ([.literal [], .literal []], text) := by
  have hcut : Text.cut? [] text = some ([], text) := by cases text <;> rfl
  simp only [step, hcut]
  rfl

theorem length_step_lt_iff (hne : text ≠ []) :
    (step tags text).2.length < text.length ↔ tags ≠ ([], []) := by
  refine ⟨?_, fun htags => length_step_lt htags hne⟩
  rintro hlength rfl
  rw [step_empty_tags] at hlength
  exact Nat.lt_irrefl _ hlength

/-! ## The whole loop -/

theorem EndsAfter.le_length (htags : tags ≠ ([], [])) (h : EndsAfter tags n text pieces) :
    n ≤ text.length := by
  induction h with
  | done => exact Nat.zero_le _
  | step hne _ ih => exact Nat.lt_of_le_of_lt ih (length_step_lt htags hne)

theorem EndsAfter.eq_nil (h : EndsAfter ([], []) n text pieces) : text = [] := by
  induction h with
  | done => rfl
  | step hne _ ih =>
    rw [step_empty_tags] at ih
    exact absurd ih hne

theorem EndsAfter.unique {n' : Nat} {pieces' : List Piece} (h : EndsAfter tags n text pieces)
    (h' : EndsAfter tags n' text pieces') : n' = n ∧ pieces' = pieces := by
  induction h generalizing n' pieces' with
  | done =>
    cases h' with
    | done => exact ⟨rfl, rfl⟩
    | step hne => exact absurd rfl hne
  | step hne _ ih =>
    cases h' with
    | done => exact absurd rfl hne
    | step _ h' =>
      obtain ⟨rfl, rfl⟩ := ih h'
      exact ⟨rfl, rfl⟩

/-- The pieces of a text are those of the steps of the loop. -/
theorem exists_endsAfter (htags : tags ≠ ([], [])) (text : Text) :
    ∃ n, EndsAfter tags n text (Interpolation.pieces tags text) := by
  fun_induction Interpolation.pieces tags text with
  | case1 text hempty =>
    obtain rfl := List.isEmpty_iff.mp hempty
    exact ⟨0, .done⟩
  | case2 text hempty first after hstep _ ih =>
    obtain ⟨n, hends⟩ := ih
    have hne : text ≠ [] := fun hnil => hempty (List.isEmpty_iff.mpr hnil)
    have hlater : EndsAfter tags n (step tags text).2 (Interpolation.pieces tags after) := by
      rwa [hstep]
    have hall := EndsAfter.step hne hlater
    rw [hstep] at hall
    exact ⟨n + 1, hall⟩
  | case3 text hempty first after hstep hlength =>
    have hne : text ≠ [] := fun hnil => hempty (List.isEmpty_iff.mpr hnil)
    have hlater := length_step_lt htags hne
    rw [hstep] at hlater
    exact absurd hlater hlength

/-- Every step of the reading takes something of the text away exactly if the tags are not both
empty, and exactly then the reading ends for every text. If it ends, it does so after no more steps
than the text has characters, and the segments that are rendered are built from the pieces of these
steps. With two empty tags it ends for the empty text only. -/
theorem reading_ends_unless_tags_empty (tags : Text × Text) :
    ((∀ text, text ≠ [] → (step tags text).2.length < text.length) ↔ tags ≠ ([], [])) ∧
    ((∀ text, ∃ n pieces, EndsAfter tags n text pieces) ↔ tags ≠ ([], [])) ∧
    (∀ text n pieces, EndsAfter tags n text pieces → n ≤ text.length ∧
      segments tags text = (pieces.foldl push []).reverse) ∧
    ∀ text, (∃ n pieces, EndsAfter ([], []) n text pieces) ↔ text = [] := by
  have hempty (text : Text) : (∃ n pieces, EndsAfter ([], []) n text pieces) ↔ text = [] := by
    constructor
    · rintro ⟨n, pieces, hends⟩
      exact hends.eq_nil
    · rintro rfl
      exact ⟨0, [], .done⟩
  have hmore : ([' '] : Text) ≠ [] := List.cons_ne_nil _ _
  refine ⟨⟨fun h => (length_step_lt_iff hmore).mp (h _ hmore),
    fun htags text hne => length_step_lt htags hne⟩, ⟨?_, fun htags text => ?_⟩, ?_, hempty⟩
  · rintro h rfl
    exact hmore ((hempty _).mp (h [' ']))
  · obtain ⟨n, hends⟩ := exists_endsAfter htags text
    exact ⟨n, _, hends⟩
  · intro text n pieces hends
    by_cases htags : tags = ([], [])
    · subst htags
      obtain rfl := hends.eq_nil
      obtain ⟨rfl, rfl⟩ := EndsAfter.done.unique hends
      refine ⟨Nat.zero_le _, ?_⟩
      rw [segments, Interpolation.pieces]
      rfl
    · obtain ⟨n', hends'⟩ := exists_endsAfter htags text
      obtain ⟨rfl, rfl⟩ := hends'.unique hends
      exact ⟨hends.le_length htags, rfl⟩

/-- A manifest can set two empty tags; then a step over `a` leaves `a`, and the reading does not
end. -/
theorem reading_stands_still_of_empty_tags :
    ∃ manifest, Manifest.parse? "\x7b\"contentTags\":[\"\",\"\"]\x7d".toList = some manifest ∧
      (step manifest.options.markers.echo ['a']).2 = ['a'] ∧
      ¬∃ n pieces, EndsAfter manifest.options.markers.echo n ['a'] pieces := by
  have hread : (Manifest.parse? "\x7b\"contentTags\":[\"\",\"\"]\x7d".toList).map
      (·.options.markers.echo) = some ([], []) := by decide +kernel
  obtain ⟨manifest, hmanifest, hecho⟩ := Option.map_eq_some_iff.mp hread
  refine ⟨manifest, hmanifest, ?_, ?_⟩
  · rw [hecho, step_empty_tags]
  · rw [hecho]
    rintro ⟨n, pieces, hends⟩
    exact List.cons_ne_nil _ _ hends.eq_nil

end TemplateCompiler.Interpolation
