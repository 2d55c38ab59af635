import TemplateCompiler.Proofs.Collecting

/-!
# Steps of a substitution

What a substitution comes to at a place: a character at which the pattern does not match is copied,
a match that is accepted gives way to its replacement, and of one that is rejected the first
character is copied.
-/
namespace TemplateCompiler

theorem Pass.run_map {α β : Type} (f : α → β) (pass : Pass α) (context : Context) :
    (f <$> pass).run context = ((pass.run context).1.map f, (pass.run context).2) := by
  rw [map_eq_pure_bind, run_bind]
  rcases pass.run context with ⟨_ | _, _⟩ <;> rfl

variable {α : Type} {pattern : Place → Option (Nat × α)} {replace : Replace α} {place : Place}
  {before rest : Text} {c : Char} {length : Nat} {captures : α} {context after : Context}

namespace Matcher

theorem leftmost_of_match (h : pattern place = some (length, captures)) :
    leftmost pattern place = some ⟨0, length, captures⟩ := by
  obtain ⟨before, rest⟩ := place
  unfold leftmost
  cases rest <;> simp [leftmost.go, h]

theorem leftmost_cons (h : pattern ⟨before, c :: rest⟩ = none) :
    leftmost pattern ⟨before, c :: rest⟩ =
      (leftmost pattern ⟨c :: before, rest⟩).map fun found =>
        { found with skip := found.skip + 1 } := by
  simp only [leftmost, leftmost.go, h]

theorem match_of_leftmost {found : Match α} (h : leftmost pattern place = some found) :
    pattern (place.advance found.skip) = some (found.length, found.captures) := by
  obtain ⟨before, rest⟩ := place
  induction rest generalizing before found with
  | nil =>
    obtain ⟨⟨length, captures⟩, hmatch, rfl⟩ := Option.map_eq_some_iff.mp h
    exact hmatch
  | cons c rest ih =>
    cases hmatch : pattern ⟨before, c :: rest⟩ with
    | none =>
      rw [leftmost_cons hmatch] at h
      obtain ⟨later, hlater, rfl⟩ := Option.map_eq_some_iff.mp h
      rw [Place.advance_cons]
      exact ih (c :: before) hlater
    | some found' =>
      obtain ⟨length, captures⟩ := found'
      rw [leftmost_of_match hmatch] at h
      cases h
      exact hmatch

def IsWithin (pattern : Place → Option (Nat × α)) : Prop :=
  ∀ place length captures, pattern place = some (length, captures) → length ≤ place.rest.length

end Matcher

namespace Substitution

open Matcher

theorem length_of_outcome {next : Place} {new : Option Text} {copied : Text}
    (hlength : length ≤ place.rest.length)
    (h : outcome place length new = (copied, some next)) :
    next.rest.length < place.rest.length := by
  have hbeyond (hnext : beyond place = some next) : next.rest.length < place.rest.length := by
    unfold beyond at hnext
    split at hnext
    · cases hnext
    · rename_i hrest
      cases hnext
      have hpos : 0 < place.rest.length := by
        rw [List.length_pos_iff]
        simpa [Place.atEnd] using hrest
      simp only [Place.advance, List.length_drop]
      omega
  cases new with
  | none => exact hbeyond (Prod.mk.inj h).2
  | some new =>
    simp only [outcome] at h
    split at h
    · exact hbeyond (Prod.mk.inj h).2
    · cases h
      simp only [Place.advance, List.length_drop]
      omega

theorem substituteFrom_cons (hwithin : IsWithin pattern)
    (h : pattern ⟨before, c :: rest⟩ = none) :
    substituteFrom (leftmost pattern) replace ⟨before, c :: rest⟩ =
      (c :: ·) <$> substituteFrom (leftmost pattern) replace ⟨c :: before, rest⟩ := by
  rw [substituteFrom, leftmost_cons h, substituteFrom]
  cases hfound : leftmost pattern ⟨c :: before, rest⟩ with
  | none => rw [map_pure]; rfl
  | some found =>
    have hstart := Place.advance_cons before rest c found.skip
    have hmatch := hwithin _ _ _ (match_of_leftmost hfound)
    simp only [Option.map_some, hstart, Match.text, Match.skipped, List.take_succ_cons,
      List.drop_succ_cons, map_eq_pure_bind, bind_assoc]
    refine bind_congr fun new => ?_
    rcases houtcome : outcome ((⟨c :: before, rest⟩ : Place).advance found.skip) found.length new
      with ⟨copied, _ | next⟩
    · simp
    · have hnext := length_of_outcome hmatch houtcome
      have hshorter : next.rest.length < rest.length := by
        simp only [Place.advance, List.length_drop] at hnext
        omega
      have hshorter' : next.rest.length < (c :: rest).length := by
        rw [List.length_cons]
        omega
      simp only [if_pos hshorter, if_pos hshorter', bind_assoc, pure_bind, List.cons_append]

theorem substituteFrom_append (hwithin : IsWithin pattern) {piece : Text}
    (h : ∀ first c later, piece = first ++ c :: later →
      pattern ⟨first.reverse ++ before, c :: (later ++ rest)⟩ = none) :
    substituteFrom (leftmost pattern) replace ⟨before, piece ++ rest⟩ =
      (piece ++ ·) <$>
        substituteFrom (leftmost pattern) replace ⟨piece.reverse ++ before, rest⟩ := by
  induction piece generalizing before with
  | nil => exact (id_map _).symm
  | cons c piece ih =>
    have hlater : ∀ first d later, piece = first ++ d :: later →
        pattern ⟨first.reverse ++ c :: before, d :: (later ++ rest)⟩ = none := by
      intro first d later hpiece
      have hnone := h (c :: first) d later (by rw [hpiece, List.cons_append])
      rwa [List.reverse_cons, List.append_assoc, List.singleton_append] at hnone
    have hfirst : pattern ⟨before, c :: (piece ++ rest)⟩ = none := h [] c piece rfl
    rw [List.cons_append, substituteFrom_cons hwithin hfirst, ih hlater, List.reverse_cons,
       List.append_assoc, List.singleton_append, ← comp_map]
    rfl

theorem run_of_accepted {new : Text} (hmatch : pattern place = some (length, captures))
    (hreplace : (replace place captures).run context = (.ok (some new), after))
    (hpos : 0 < length) (hlength : length ≤ place.rest.length) :
    (substituteFrom (leftmost pattern) replace place).run context =
      ((new ++ ·) <$> substituteFrom (leftmost pattern) replace (place.advance length)).run
        after := by
  have hstart : place.advance 0 = place := rfl
  have houtcome : outcome place length (some new) = (new, some (place.advance length)) := by
    rw [outcome, if_neg (by omega)]
  have hreplaced (f : CompileError → CompileError) :
      (Pass.mapError f (replace place captures)).run context = (.ok (some new), after) := by
    rw [Pass.run_mapError, hreplace]
    rfl
  rw [substituteFrom, leftmost_of_match hmatch]
  simp only [hstart]
  rw [Pass.run_bind, hreplaced]
  simp only [houtcome, if_pos (length_of_outcome hlength houtcome), map_eq_pure_bind]
  rfl

theorem run_of_rejected (hmatch : pattern ⟨before, c :: rest⟩ = some (length, captures))
    (hreplace : (replace ⟨before, c :: rest⟩ captures).run context = (.ok none, after)) :
    (substituteFrom (leftmost pattern) replace ⟨before, c :: rest⟩).run context =
      ((c :: ·) <$> substituteFrom (leftmost pattern) replace ⟨c :: before, rest⟩).run after := by
  have hreplaced (f : CompileError → CompileError) :
      (Pass.mapError f (replace ⟨before, c :: rest⟩ captures)).run context = (.ok none, after) := by
    rw [Pass.run_mapError, hreplace]
    rfl
  have hshorter : rest.length < (c :: rest).length := Nat.lt_succ_self _
  rw [substituteFrom, leftmost_of_match hmatch]
  simp only [Place.advance, List.take_zero, List.reverse_nil, List.nil_append, List.drop_zero]
  rw [Pass.run_bind, hreplaced]
  simp only [outcome, beyond, Place.atEnd, Place.advance, List.isEmpty_cons, map_eq_pure_bind,
    Bool.false_eq_true, if_false, List.take_succ_cons, List.take_zero, List.drop_succ_cons,
    List.drop_zero, if_pos hshorter]
  rfl

theorem run_of_failed {error : CompileError} (hmatch : pattern place = some (length, captures))
    (hreplace : (replace place captures).run context = (.error error, after)) :
    (substituteFrom (leftmost pattern) replace place).run context =
      (.error (reporting place (place.rest.take length) error), after) := by
  have hstart : place.advance 0 = place := rfl
  have hreplaced (f : CompileError → CompileError) :
      (Pass.mapError f (replace place captures)).run context = (.error (f error), after) := by
    rw [Pass.run_mapError, hreplace]
    rfl
  rw [substituteFrom, leftmost_of_match hmatch]
  simp only [hstart]
  rw [Pass.run_bind, hreplaced]
  rfl

/-- Errors of a replacement are placed by the substitution, which moves with the text. -/
theorem reporting_append {error : CompileError} {seen base text : Text} (h : error.span.isEmpty)
    (htext : text ≠ []) :
    reporting ⟨seen ++ base, rest⟩ text error =
      (reporting ⟨seen, rest⟩ text error).shift base.size := by
  have hpos : 0 < text.size :=
    Nat.lt_of_lt_of_le (List.length_pos_iff.mpr htext) (Text.length_le_size text)
  have hplaced (offset : Nat) : (Span.ofText offset text).isEmpty = false := by
    simp only [Span.isEmpty, Span.ofText, beq_eq_false_iff_ne]
    omega
  have hlocate (offset : Nat) : error.locate (Span.ofText offset text) =
      { error with span := Span.ofText offset text } := if_pos h
  have hmoved : Span.ofText (Text.size (seen ++ base)) text =
      (Span.ofText seen.size text).shift base.size := by
    simp only [Span.ofText, Span.shift, Text.size_append, Span.mk.injEq, true_and]
    omega
  rw [reporting, reporting, hlocate, hlocate, Place.offset, Place.offset, hmoved]
  exact (if_neg (by simp [CompileError.blame, hplaced])).symm

/-- A substitution that does not see the text before the place where it began does the same behind
any text; only the places of its errors are further on. -/
theorem run_append {base : Text}
    (hlength : ∀ place length captures, pattern place = some (length, captures) →
      0 < length ∧ length ≤ place.rest.length)
    (hpattern : ∀ seen rest, pattern ⟨seen ++ base, rest⟩ = pattern ⟨seen, rest⟩)
    (hreplace : ∀ seen rest captures,
      replace ⟨seen ++ base, rest⟩ captures = replace ⟨seen, rest⟩ captures)
    (hspan : ∀ place captures context error,
      ((replace place captures).run context).1 = .error error → error.span.isEmpty)
    (seen rest : Text) (context : Context) :
    (substituteFrom (leftmost pattern) replace ⟨seen ++ base, rest⟩).run context =
      (((substituteFrom (leftmost pattern) replace ⟨seen, rest⟩).run context).1.mapError
          (·.shift base.size),
        ((substituteFrom (leftmost pattern) replace ⟨seen, rest⟩).run context).2) := by
  have hwithin : IsWithin pattern := fun place length captures h => (hlength _ _ _ h).2
  cases rest with
  | nil =>
    have hnone (before : Text) : leftmost pattern ⟨before, []⟩ = none := by
      cases hmatch : pattern ⟨before, []⟩ with
      | none => simp [leftmost, leftmost.go, hmatch]
      | some found =>
        obtain ⟨hpos, hle⟩ := hlength _ _ _ hmatch
        exact absurd (Nat.lt_of_lt_of_le hpos hle) (Nat.lt_irrefl 0)
    rw [substituteFrom, hnone, substituteFrom, hnone]
    rfl
  | cons c later =>
    -- Where a character is copied, and where a match is replaced, the rest is shorter.
    have hcopy (reached : Context) :
        ((c :: ·) <$> substituteFrom (leftmost pattern) replace
          ⟨c :: (seen ++ base), later⟩).run reached =
        ((((c :: ·) <$> substituteFrom (leftmost pattern) replace
            ⟨c :: seen, later⟩).run reached).1.mapError (·.shift base.size),
          (((c :: ·) <$> substituteFrom (leftmost pattern) replace
            ⟨c :: seen, later⟩).run reached).2) := by
      rw [Pass.run_map, Pass.run_map, ← List.cons_append,
        run_append hlength hpattern hreplace hspan (c :: seen) later reached]
      rcases (substituteFrom (leftmost pattern) replace ⟨c :: seen, later⟩).run reached with
        ⟨_ | _, _⟩ <;> rfl
    have hbase := hpattern seen (c :: later)
    cases hmatch : pattern ⟨seen, c :: later⟩ with
    | none =>
      rw [substituteFrom_cons hwithin (hbase.trans hmatch), substituteFrom_cons hwithin hmatch]
      exact hcopy context
    | some found =>
      obtain ⟨length, captures⟩ := found
      obtain ⟨hpos, hle⟩ := hlength _ _ _ hmatch
      have hsame := hreplace seen (c :: later) captures
      rcases houtcome : (replace ⟨seen, c :: later⟩ captures).run context with
        ⟨error | _ | new, reached⟩
      · have herror := hspan ⟨seen, c :: later⟩ captures context error (by rw [houtcome])
        have htext : (c :: later).take length ≠ [] := by
          rw [← List.length_pos_iff, List.length_take]
          exact Nat.lt_min.mpr ⟨hpos, Nat.succ_pos _⟩
        rw [run_of_failed (hbase.trans hmatch) (by rw [hsame, houtcome]),
          run_of_failed hmatch houtcome, reporting_append herror htext]
        rfl
      · rw [run_of_rejected (hbase.trans hmatch) (by rw [hsame, houtcome]),
          run_of_rejected hmatch houtcome]
        exact hcopy reached
      · have hadvance : (⟨seen ++ base, c :: later⟩ : Place).advance length =
            ⟨((c :: later).take length).reverse ++ seen ++ base, (c :: later).drop length⟩ := by
          rw [Place.advance, List.append_assoc]
        have hshorter : ((c :: later).drop length).length < (c :: later).length := by
          rw [List.length_drop]
          exact Nat.sub_lt (Nat.succ_pos _) hpos
        rw [run_of_accepted (hbase.trans hmatch) (by rw [hsame, houtcome]) hpos hle,
          run_of_accepted hmatch houtcome hpos hle, hadvance, Place.advance, Pass.run_map,
          Pass.run_map, run_append hlength hpattern hreplace hspan _ _ reached]
        rcases (substituteFrom (leftmost pattern) replace
          ⟨((c :: later).take length).reverse ++ seen, (c :: later).drop length⟩).run reached with
          ⟨_ | _, _⟩ <;> rfl
termination_by rest.length

end Substitution

end TemplateCompiler
