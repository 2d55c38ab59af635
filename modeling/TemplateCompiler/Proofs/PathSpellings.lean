import Mathlib.Data.List.Forall2
import Mathlib.Data.List.TakeWhile
import TemplateCompiler.Proofs.DeclarationOrder

/-!
# Spellings of a path

The path of a handler may be written with white space around it, with backslashes in front, with
any of the separators and in either letter case. All these spellings have canonical paths of one
key, or none of them has one.
-/
namespace TemplateCompiler

namespace Text

theorem trim_between {before after : Text} (hbefore : before.isBlank) (hafter : after.isBlank)
    (text : Text) : trim (before ++ text ++ after) = text.trim := by
  have hstart : trimStart (before ++ text ++ after) = trimStart (text ++ after) := by
    rw [trimStart, List.append_assoc,
      List.dropWhile_append_of_pos (List.all_eq_true.mp hbefore)]
    rfl
  have hend (x : Text) : trimEnd (x ++ after) = x.trimEnd := by
    have hreverse : ∀ c ∈ after.reverse, Unicode.isWhitespace c := fun c hc =>
      List.all_eq_true.mp hafter c (List.mem_reverse.mp hc)
    rw [trimEnd, List.reverse_append, List.dropWhile_append_of_pos hreverse]
    rfl
  rw [trim, hstart]
  by_cases hblank : text.trimStart = []
  · have hnothing : trimStart (text ++ after) = [] := by
      rw [trimStart, dropWhile_append_of_eq_nil hblank, List.dropWhile_eq_nil_iff]
      exact List.all_eq_true.mp hafter
    rw [hnothing, trim, hblank]
  · have hfront : trimStart (text ++ after) = text.trimStart ++ after :=
      dropWhile_append_of_ne_nil hblank
    rw [hfront, hend, trim]

theorem trim_append {after : Text} (h : after.isBlank) (text : Text) :
    trim (text ++ after) = text.trim := by
  have hnone : isBlank [] := rfl
  exact trim_between hnone h text

theorem dropWhile_eq_self_of_head? {p : Char → Bool} {text : Text}
    (h : ∀ c ∈ text.head?, p c = false) : text.dropWhile p = text := by
  cases text with
  | nil => rfl
  | cons c rest => rw [List.dropWhile_cons, h c rfl, if_neg Bool.false_ne_true]

theorem trim_eq_self_of_ends {text : Text}
    (hfirst : ∀ c ∈ text.head?, Unicode.isWhitespace c = false)
    (hlast : ∀ c ∈ text.getLast?, Unicode.isWhitespace c = false) : text.trim = text := by
  have hreverse : ∀ c ∈ text.reverse.head?, Unicode.isWhitespace c = false := by
    rwa [List.head?_reverse]
  rw [trim, trimStart, dropWhile_eq_self_of_head? hfirst, trimEnd,
    dropWhile_eq_self_of_head? hreverse, List.reverse_reverse]

theorem exists_space (text : Text) : ∃ front space, text = front ++ space ∧
    text.trimEnd = front ∧ space.isBlank ∧
    ∀ c ∈ front.getLast?, Unicode.isWhitespace c = false := by
  refine ⟨text.trimEnd, (text.reverse.takeWhile Unicode.isWhitespace).reverse, ?_, rfl, ?_,
    fun c hc => ?_⟩
  · rw [trimEnd, ← List.reverse_append, List.takeWhile_append_dropWhile, List.reverse_reverse]
  · rw [isBlank, List.all_reverse]
    exact List.all_takeWhile
  · rw [trimEnd, List.getLast?_reverse] at hc
    have hfirst := List.head?_dropWhile_not Unicode.isWhitespace text.reverse
    rw [Option.mem_def.mp hc] at hfirst
    simpa using hfirst

theorem ends_trim (text : Text) : (∀ c ∈ text.trim.head?, Unicode.isWhitespace c = false) ∧
    ∀ c ∈ text.trim.getLast?, Unicode.isWhitespace c = false := by
  obtain ⟨front, trail, rfl, -, htrail, hlast⟩ := exists_space text
  have hlead : isBlank (front.takeWhile Unicode.isWhitespace) := List.all_takeWhile
  have hfront : front.takeWhile Unicode.isWhitespace ++ front.trimStart = front :=
    List.takeWhile_append_dropWhile
  generalize front.takeWhile Unicode.isWhitespace = lead at hlead hfront
  have hhead : ∀ c ∈ front.trimStart.head?, Unicode.isWhitespace c = false := by
    intro c hc
    have hfirst := List.head?_dropWhile_not Unicode.isWhitespace front
    have hc : (front.dropWhile Unicode.isWhitespace).head? = some c := hc
    rw [hc] at hfirst
    simpa using hfirst
  have hend : ∀ c ∈ front.trimStart.getLast?, Unicode.isWhitespace c = false := by
    cases hvalue : front.trimStart with
    | nil => simp
    | cons c value => rwa [← hfront, hvalue, List.getLast?_append_cons] at hlast
  have hbetween := trim_between hlead htrail front.trimStart
  rw [hfront, trim_eq_self_of_ends hhead hend] at hbetween
  rw [hbetween]
  exact ⟨hhead, hend⟩

end Text

namespace HandlerPath

/-- Characters between which a path makes no difference: the separators, and the two cases of an
ASCII letter. -/
def SameMeaning (c d : Char) : Prop :=
  c.toLower = d.toLower ∨ (isSeparator c ∧ isSeparator d)

/-- A path that nothing stands around: no separator in front and no white space at either end. -/
structure IsBare (path : Text) : Prop where
  first : ∀ c ∈ path.head?, isSeparator c = false ∧ Unicode.isWhitespace c = false
  last : ∀ c ∈ path.getLast?, Unicode.isWhitespace c = false

variable {path other before after : Text}

theorem isSeparator_toLower (c : Char) : isSeparator c.toLower = isSeparator c :=
  Unicode.apply_toLower (by decide) c

theorem isWordChar_toLower (c : Char) : isWordChar c.toLower = isWordChar c :=
  Unicode.apply_toLower (by decide +kernel) c

theorem isWhitespace_toLower (c : Char) :
    Unicode.isWhitespace c.toLower = Unicode.isWhitespace c :=
  Unicode.apply_toLower (by decide) c

namespace SameMeaning

variable {c d : Char}

theorem isSeparator_eq (h : SameMeaning c d) : isSeparator c = isSeparator d := by
  rcases h with hletter | ⟨hc, hd⟩
  · rw [← isSeparator_toLower c, hletter, isSeparator_toLower]
  · rw [hc, hd]

theorem isWhitespace_eq (h : SameMeaning c d) :
    Unicode.isWhitespace c = Unicode.isWhitespace d := by
  have hseparator {x : Char} (hx : isSeparator x) : Unicode.isWhitespace x = false := by
    have hnone : ['\\', '.', '/'].any Unicode.isWhitespace = false := by decide
    exact Bool.eq_false_iff.mpr
      (List.any_eq_false.mp hnone x (by simpa [isSeparator, or_assoc] using hx))
  rcases h with hletter | ⟨hc, hd⟩
  · rw [← isWhitespace_toLower c, hletter, isWhitespace_toLower]
  · rw [hseparator hc, hseparator hd]

end SameMeaning

theorem IsBare.congr (h : IsBare path) (hother : List.Forall₂ SameMeaning path other) :
    IsBare other := by
  have hhead {a b : Text} (hab : List.Forall₂ SameMeaning a b) {d : Char} (hd : d ∈ b.head?) :
      ∃ c ∈ a.head?, SameMeaning c d := by
    cases hab with
    | nil => cases hd
    | cons hcd _ =>
      cases hd
      exact ⟨_, rfl, hcd⟩
  constructor
  · intro d hd
    obtain ⟨c, hc, hcd⟩ := hhead hother hd
    rw [← hcd.isSeparator_eq, ← hcd.isWhitespace_eq]
    exact h.first c hc
  · intro d hd
    rw [← List.head?_reverse] at hd
    obtain ⟨c, hc, hcd⟩ := hhead (List.forall₂_reverse_iff.mpr hother) hd
    rw [List.head?_reverse] at hc
    rw [← hcd.isWhitespace_eq]
    exact h.last c hc

theorem IsBare.trim_backslashes (h : IsBare path) (count : Nat) :
    Text.trim (List.replicate count pathSeparator ++ path) =
      List.replicate count pathSeparator ++ path := by
  have hslash : Unicode.isWhitespace pathSeparator = false := by decide
  apply Text.trim_eq_self_of_ends
  · intro c hc
    cases count with
    | zero => exact (h.first c hc).2
    | succ count =>
      cases hc
      exact hslash
  · intro c hc
    rw [List.getLast?_append, Option.mem_def, Option.or_eq_some_iff] at hc
    rcases hc with hc | ⟨-, hc⟩
    · exact h.last c hc
    · rw [List.eq_of_mem_replicate (List.mem_of_getLast? hc)]
      exact hslash

theorem IsBare.dropWhile_backslashes (h : IsBare path) (count : Nat) :
    (List.replicate count pathSeparator ++ path).dropWhile (· == pathSeparator) = path := by
  rw [List.dropWhile_append_of_pos fun c hc => by simp [List.eq_of_mem_replicate hc]]
  apply Text.dropWhile_eq_self_of_head?
  intro c hc
  rw [beq_eq_false_iff_ne]
  rintro rfl
  exact absurd (h.first pathSeparator hc).1 (by decide)

/-- White space around a path and backslashes in front of it are left out. -/
theorem IsBare.canonical?_eq (h : IsBare path) (hbefore : before.isBlank) (hafter : after.isBlank)
    (count : Nat) :
    canonical? (before ++ (List.replicate count pathSeparator ++ path) ++ after) =
      if (Text.split isSeparator path).all isSegment then
        some (Text.join [pathSeparator] (Text.split isSeparator path))
      else none := by
  rw [canonical?, Text.trim_between hbefore hafter, h.trim_backslashes, h.dropWhile_backslashes]

theorem isSegment_map_toLower (segment : Text) :
    isSegment (segment.map Char.toLower) = isSegment segment := by
  have hword : isWordChar ∘ Char.toLower = isWordChar := funext isWordChar_toLower
  rw [isSegment, isSegment, List.isEmpty_map, List.all_map, hword]

theorem map_toLower_split (h : List.Forall₂ SameMeaning path other) :
    (Text.split isSeparator path).map (·.map Char.toLower) =
      (Text.split isSeparator other).map (·.map Char.toLower) := by
  induction h with
  | nil => rfl
  | @cons c d path other hcd _ ih =>
    rw [Text.split, Text.split, ← hcd.isSeparator_eq]
    split
    · rw [List.map_cons, List.map_cons, ih]
    · rename_i hc
      have hletter : c.toLower = d.toLower := hcd.resolve_right fun hboth => hc hboth.1
      revert ih
      cases Text.split isSeparator path <;> cases Text.split isSeparator other <;>
        simp [Text.consFirst, hletter]

theorem map_join (f : Char → Char) (separator : Text) (parts : List Text) :
    (Text.join separator parts).map f = Text.join (separator.map f) (parts.map (·.map f)) := by
  induction parts with
  | nil => rfl
  | cons first parts ih =>
    cases parts with
    | nil => rw [Text.join_singleton, List.map_singleton, Text.join_singleton]
    | cons second parts =>
      rw [Text.join_cons_cons, List.map_append, List.map_append, ih]
      simp only [List.map_cons, Text.join_cons_cons]

/-- Spellings of one path have canonical forms that differ in letter case only, or none. -/
theorem IsBare.canonical?_alike (h : IsBare path)
    (hother : List.Forall₂ SameMeaning path other) (hbefore : before.isBlank)
    (hafter : after.isBlank) (count : Nat) :
    (canonical? (before ++ (List.replicate count pathSeparator ++ other) ++ after)).map
        (·.map Char.toLower) = (canonical? path).map (·.map Char.toLower) := by
  have hbare := @IsBare.canonical?_eq path [] [] h rfl rfl 0
  rw [List.replicate_zero, List.nil_append, List.nil_append, List.append_nil] at hbare
  rw [hbare, (h.congr hother).canonical?_eq hbefore hafter]
  have hfold (segments : List Text) :
      (if segments.all isSegment then some (Text.join [pathSeparator] segments) else none).map
          (·.map Char.toLower) =
        let folded := segments.map (·.map Char.toLower)
        if folded.all isSegment then some (Text.join [pathSeparator] folded) else none := by
    have hsegment : isSegment ∘ (·.map Char.toLower) = isSegment := funext isSegment_map_toLower
    have hslash : [pathSeparator].map Char.toLower = [pathSeparator] := by decide
    simp only [List.all_map, hsegment]
    split
    · rw [Option.map_some, map_join, hslash]
    · rfl
  rw [hfold, hfold, map_toLower_split hother]

theorem key_map_toLower (path : Text) : key (path.map Char.toLower) = key path :=
  Unicode.lowerAfter_map_toLower [] path

end HandlerPath

theorem Registry.get?_alike (registry : Registry) {path other before after : Text}
    (h : HandlerPath.IsBare path) (hother : List.Forall₂ HandlerPath.SameMeaning path other)
    (hbefore : before.isBlank) (hafter : after.isBlank) (count : Nat) :
    registry.get? (before ++ (List.replicate count pathSeparator ++ other) ++ after) =
      registry.get? path := by
  have hfold (spelled : Text) : registry.get? spelled =
      ((HandlerPath.canonical? spelled).map (·.map Char.toLower)).bind fun path =>
        registry.entries.lookup (HandlerPath.key path) := by
    unfold get?
    cases HandlerPath.canonical? spelled with
    | none => rfl
    | some canonical =>
      rw [Option.map_some, Option.bind_some, Option.bind_some, HandlerPath.key_map_toLower]
  rw [hfold, hfold, h.canonical?_alike hother hbefore hafter]

end TemplateCompiler
