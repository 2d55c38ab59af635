import TemplateCompiler.Sweep

/-!
# Steps of a sweep

What a sweep comes to if it keeps a character or puts something in place of it, and that it passes
over the rest of what was replaced.
-/
namespace TemplateCompiler

namespace Sweep

variable {m : Type → Type} [Monad m] {step : Place → Nat → m Move}
  {before pending rest new : Text} {c : Char} {keeping : Bool} {busy claimed more : Nat}

/-- Characters that are kept or dropped without a look are passed over. -/
theorem sweepFrom_pass {text : Text} :
    sweepFrom step before pending busy keeping text =
      sweepFrom step ((text.take busy).reverse ++ before)
        (if keeping then (text.take busy).reverse ++ pending else pending) 0 keeping
        (text.drop busy) := by
  induction busy generalizing before pending text with
  | zero => simp
  | succ busy ih =>
    cases text with
    | nil => simp [sweepFrom]
    | cons c rest => cases keeping <;> simp [sweepFrom, ih]

theorem sweepFrom_busy {text : Text} (h : text.length ≤ busy) :
    sweepFrom step before pending busy false text = pure pending.reverse := by
  rw [sweepFrom_pass, List.drop_eq_nil_of_le h, sweepFrom]
  rfl

theorem sweepFrom_skip (piece rest : Text) :
    sweepFrom step before pending piece.length false (piece ++ rest) =
      sweepFrom step (piece.reverse ++ before) pending 0 false rest := by
  rw [sweepFrom_pass, List.take_left, List.drop_left]
  rfl

variable [LawfulMonad m]

theorem sweepFrom_keep (h : step ⟨before, c :: rest⟩ pending.length = pure (.keep more)) :
    sweepFrom step before pending 0 keeping (c :: rest) =
      sweepFrom step (c :: before) (c :: pending) more true rest := by
  rw [sweepFrom, h, pure_bind]

theorem sweepFrom_put
    (h : step ⟨before, c :: rest⟩ pending.length = pure (.replace claimed more new)) :
    sweepFrom step before pending 0 keeping (c :: rest) =
      (fun swept => (pending.drop claimed).reverse ++ new ++ swept) <$>
        sweepFrom step (c :: before) [] more false rest := by
  rw [sweepFrom, h, pure_bind, map_eq_pure_bind]

theorem sweepFrom_keep_place {place : Place} (hrest : place.rest ≠ [])
    (h : step place pending.length = pure (.keep more)) :
    sweepFrom step place.before pending 0 keeping place.rest =
      sweepFrom step (place.advance (more + 1)).before
        ((place.rest.take (more + 1)).reverse ++ pending) 0 true
        (place.advance (more + 1)).rest := by
  obtain ⟨before, rest⟩ := place
  obtain ⟨c, rest, rfl⟩ := List.exists_cons_of_ne_nil hrest
  rw [sweepFrom_keep h, sweepFrom_pass]
  simp [Place.advance]

theorem sweepFrom_put_place {place : Place} (hrest : place.rest ≠ [])
    (h : step place pending.length = pure (.replace claimed more new)) :
    sweepFrom step place.before pending 0 keeping place.rest =
      (fun swept => (pending.drop claimed).reverse ++ new ++ swept) <$>
        sweepFrom step (place.advance (more + 1)).before [] 0 false
          (place.advance (more + 1)).rest := by
  obtain ⟨before, rest⟩ := place
  obtain ⟨c, rest, rfl⟩ := List.exists_cons_of_ne_nil hrest
  rw [sweepFrom_put h, sweepFrom_pass]
  simp [Place.advance]

theorem sweepFrom_eq_ok {ε : Type} {step : Place → Nat → Except ε Move} {place : Place} {out : Text}
    (hrest : place.rest ≠ [])
    (h : sweepFrom step place.before pending 0 keeping place.rest = .ok out) :
    (∃ more, step place pending.length = .ok (.keep more) ∧
      sweepFrom step (place.advance (more + 1)).before
        ((place.rest.take (more + 1)).reverse ++ pending) 0 true
        (place.advance (more + 1)).rest = .ok out) ∨
    ∃ claimed more new swept, step place pending.length = .ok (.replace claimed more new) ∧
      sweepFrom step (place.advance (more + 1)).before [] 0 false
        (place.advance (more + 1)).rest = .ok swept ∧
      out = (pending.drop claimed).reverse ++ new ++ swept := by
  cases hstep : step place pending.length with
  | error error =>
    obtain ⟨before, rest⟩ := place
    obtain ⟨c, rest, rfl⟩ := List.exists_cons_of_ne_nil hrest
    rw [sweepFrom, hstep] at h
    cases h
  | ok move =>
    cases move with
    | keep more =>
      rw [sweepFrom_keep_place hrest hstep] at h
      exact Or.inl ⟨more, rfl, h⟩
    | replace claimed more new =>
      rw [sweepFrom_put_place hrest hstep] at h
      cases hswept : sweepFrom step (place.advance (more + 1)).before [] 0 false
          (place.advance (more + 1)).rest with
      | error error =>
        rw [hswept] at h
        cases h
      | ok swept =>
        rw [hswept] at h
        cases h
        exact Or.inr ⟨claimed, more, new, swept, rfl, hswept, rfl⟩

theorem sweepFrom_put_piece {piece : Text} (hpiece : piece ≠ [])
    (h : step ⟨before, piece ++ rest⟩ pending.length =
      pure (.replace claimed (piece.length - 1) new)) :
    sweepFrom step before pending 0 keeping (piece ++ rest) =
      (fun swept => (pending.drop claimed).reverse ++ new ++ swept) <$>
        sweepFrom step (piece.reverse ++ before) [] 0 false rest := by
  cases piece with
  | nil => exact absurd rfl hpiece
  | cons c piece =>
    have hskip := @sweepFrom_skip m _ step (c :: before) [] piece rest
    rw [List.cons_append] at h ⊢
    rw [sweepFrom_put h, List.length_cons, Nat.add_sub_cancel, hskip, List.reverse_cons,
      List.append_assoc, List.singleton_append]

theorem sweepFrom_replace
    (h : step ⟨before, c :: rest⟩ pending.length = pure (.replace claimed more new))
    (hrest : rest.length ≤ more) :
    sweepFrom step before pending 0 keeping (c :: rest) =
      pure ((pending.drop claimed).reverse ++ new) := by
  rw [sweepFrom_put h, sweepFrom_busy hrest, map_pure, List.reverse_nil, List.append_nil]

/-- A sweep that keeps the character at every place keeps the text. -/
theorem sweepFrom_eq_pure
    (h : ∀ place fresh, place.text = (⟨before, rest⟩ : Place).text →
      step place fresh = pure (.keep 0)) :
    sweepFrom step before pending 0 keeping rest = pure (pending.reverse ++ rest) := by
  induction rest generalizing before pending keeping with
  | nil => simp [sweepFrom]
  | cons c rest ih =>
    have hrest := @ih (c :: before) (c :: pending) true (by rwa [Place.text_shift])
    rw [sweepFrom_keep (h ⟨before, c :: rest⟩ _ rfl), hrest, List.reverse_cons, List.append_assoc,
      List.singleton_append]

end Sweep

theorem sweep_eq_pure {m : Type → Type} [Monad m] [LawfulMonad m] {step : Place → Nat → m Move}
    {text : Text} (h : ∀ place fresh, place.text = text → step place fresh = pure (.keep 0)) :
    sweep step text = pure text :=
  Sweep.sweepFrom_eq_pure h

end TemplateCompiler
