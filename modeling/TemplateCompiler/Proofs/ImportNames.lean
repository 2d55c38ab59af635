import TemplateCompiler.Proofs.AliasTable

/-!
# Names of imports

A target is imported under its alias in camel case, while the alias is looked up by its key, in
lower case and without dashes. Two aliases of different keys are imported under one name where
camel case drops or changes what a key keeps: an underscore, or a letter whose cases do not pair
up. Aliases of other characters are never confused, as their names in lower case are their keys.
-/
namespace TemplateCompiler

namespace Unicode

theorem mapCase_ne_nil {runs : List (Nat × Nat × Nat × Int)} {expansions : List (Nat × List Nat)}
    (h : ∀ expansion ∈ expansions, expansion.2 ≠ []) (c : Char) :
    mapCase runs expansions c ≠ [] := by
  unfold mapCase
  split
  · rename_i codes hcodes
    obtain ⟨before, after, hsplit, _⟩ := List.lookup_eq_some_iff.mp hcodes
    have hne := h (c.toNat, codes) (by simp [hsplit])
    simpa using hne
  · split <;> simp

theorem upper_ne_nil (c : Char) : upper c ≠ [] := by
  unfold upper
  split
  · simp
  · exact mapCase_ne_nil (by decide) c

theorem lower_ne_nil (c : Char) : lower c ≠ [] := by
  unfold lower
  split
  · simp
  · exact mapCase_ne_nil (by decide) c

/-- Whether upper-casing a character, or its lower case, is undone by lower-casing. It is not for
the sharp s, the final sigma and the dotless i, among others. -/
def isPaired (c : Char) : Bool :=
  (upper c).flatMap lower == lower c &&
    (lower c).all fun d => lower d == [d] && (upper d).flatMap lower == [d]

/-- Whether the lower case of a character stays what it is, and comes back after upper-casing. -/
def IsSettled (c : Char) : Prop := ∀ d ∈ lower c, lower d = [d] ∧ (upper d).flatMap lower = [d]

theorem isPaired_iff (c : Char) :
    isPaired c ↔ (upper c).flatMap lower = lower c ∧ IsSettled c := by
  simp [isPaired, IsSettled]

theorem IsSettled.of_mem_upper {c d : Char} (h : isPaired c) (hd : d ∈ upper c) : IsSettled d := by
  obtain ⟨hundone, hsettled⟩ := (isPaired_iff c).mp h
  intro x hx
  apply hsettled x
  rw [← hundone]
  exact List.mem_flatMap.mpr ⟨d, hd, hx⟩

theorem IsSettled.flatMap_lower {c : Char} (h : IsSettled c) :
    (lower c).flatMap lower = lower c := by
  have hsame : ∀ text : Text, (∀ d ∈ text, lower d = [d]) → text.flatMap lower = text := by
    intro text htext
    induction text with
    | nil => rfl
    | cons d text ih =>
      rw [List.flatMap_cons, htext d List.mem_cons_self,
        ih fun x hx => htext x (List.mem_cons_of_mem d hx)]
      rfl
  exact hsame (lower c) fun d hd => (h d hd).1

theorem forall_of_isAscii {p : Char → Prop} (h : ∀ n < 0x80, p (Char.ofNat n)) {c : Char}
    (hc : isAscii c) : p c := by
  have := h c.toNat (by simpa [isAscii] using hc)
  rwa [Char.ofNat_toNat] at this

/-- Only ASCII letters change under `Char.toLower`, so what it leaves unchanged is checked there. -/
theorem apply_toLower {α : Type} {f : Char → α}
    (h : ∀ n < 0x80, f (Char.ofNat n).toLower = f (Char.ofNat n)) (c : Char) :
    f c.toLower = f c := by
  by_cases hc : isAscii c
  · exact @forall_of_isAscii (fun c => f c.toLower = f c) h c hc
  · have hsame : c.toLower = c := by
      unfold Char.toLower
      split
      · rename_i hupper
        simp only [isAscii, decide_eq_true_eq, Nat.not_lt, Char.toNat] at hc
        have := hupper.2
        simp only [UInt32.le_iff_toNat_le] at this
        have hz : 'Z'.val.toNat = 90 := rfl
        omega
      · rfl
    rw [hsame]

theorem lower_toLower (c : Char) : lower c.toLower = lower c := apply_toLower (by decide) c

end Unicode

open Unicode

namespace Text

theorem flatten_split (isSeparator : Char → Bool) (text : Text) :
    (split isSeparator text).flatten = text.filter (!isSeparator ·) := by
  induction text with
  | nil => rfl
  | cons c rest ih => by_cases h : isSeparator c <;> simp [split, h, ih]

theorem mem_of_mem_split {isSeparator : Char → Bool} {text part : Text} {c : Char}
    (hpart : part ∈ split isSeparator text) (hc : c ∈ part) : c ∈ text := by
  have hflat : c ∈ (split isSeparator text).flatten := List.mem_flatten.mpr ⟨part, hpart, hc⟩
  rw [flatten_split] at hflat
  exact (List.mem_filter.mp hflat).1

theorem flatMap_lower_of_equal {a b : Text} (h : equalIgnoringAsciiCase a b) :
    a.flatMap lower = b.flatMap lower := by
  have hfold (text : Text) : (text.map Char.toLower).flatMap lower = text.flatMap lower := by
    simp [List.flatMap_map, lower_toLower]
  rw [← hfold a, ← hfold b, beq_iff_eq.mp h]

end Text

namespace Name

/-- Whether the key of an alias can be told from its camel case: it has no underscores or blanks,
and the cases of its letters pair up. -/
def isSteady (name : Text) : Bool := name.all fun c => c != '_' && c != ' ' && isPaired c

theorem isSteady_iff (name : Text) :
    isSteady name ↔ ∀ c ∈ name, c ≠ '_' ∧ c ≠ ' ' ∧ isPaired c := by
  simp [isSteady, and_assoc]

theorem flatMap_lower_capitalize {name : Text}
    (h : ∀ c ∈ name.head?, (upper c).flatMap lower = lower c) :
    (capitalize name).flatMap lower = name.flatMap lower := by
  cases name with
  | nil => rfl
  | cons c rest => rw [capitalize, List.flatMap_append, h c rfl, List.flatMap_cons]

theorem flatMap_lower_studly {name : Text} (h : isSteady name) :
    (studly name).flatMap lower = aliasKey name := by
  rw [isSteady_iff] at h
  have hparts : ∀ parts : List Text, (∀ part ∈ parts, ∀ c ∈ part, isPaired c) →
      (parts.flatMap capitalize).flatMap lower = parts.flatten.flatMap lower := by
    intro parts hpaired
    induction parts with
    | nil => rfl
    | cons part parts ih =>
      have hfirst : (capitalize part).flatMap lower = part.flatMap lower :=
        flatMap_lower_capitalize fun c hc => ((isPaired_iff c).mp
          (hpaired part List.mem_cons_self c (List.mem_of_mem_head? hc))).1
      rw [List.flatMap_cons, List.flatMap_append, hfirst,
        ih fun part' hpart' => hpaired part' (List.mem_cons_of_mem part hpart'),
        List.flatten_cons, List.flatMap_append]
  have hkept : name.filter (fun c => !(c == '-' || c == '_' || c == ' ')) =
      name.filter (· != '-') := by
    apply List.filter_congr
    intro c hc
    obtain ⟨hunderscore, hblank, -⟩ := h c hc
    simp [beq_eq_false_iff_ne.mpr hunderscore, beq_eq_false_iff_ne.mpr hblank, bne]
  rw [studly, hparts, Text.flatten_split, hkept, aliasKey]
  intro part hpart c hc
  exact (h c (Text.mem_of_mem_split hpart hc)).2.2

theorem isSettled_of_mem_studly {name : Text} (h : isSteady name) {d : Char}
    (hd : d ∈ studly name) : IsSettled d := by
  rw [isSteady_iff] at h
  obtain ⟨part, hpart, hd⟩ := List.mem_flatMap.mp hd
  have hpaired : ∀ c ∈ part, isPaired c :=
    fun c hc => (h c (Text.mem_of_mem_split hpart hc)).2.2
  cases part with
  | nil => cases hd
  | cons c rest =>
    rcases List.mem_append.mp hd with hd | hd
    · exact IsSettled.of_mem_upper (hpaired c List.mem_cons_self) hd
    · exact ((isPaired_iff d).mp (hpaired d (List.mem_cons_of_mem c hd))).2

/-- The first letter of a name in camel case is in lower case, and may be put back. -/
theorem flatMap_lower_camel {name : Text} (h : isSteady name) :
    (camel name).flatMap lower = aliasKey name ∧
      (capitalize (camel name)).flatMap lower = aliasKey name := by
  have hkey := flatMap_lower_studly h
  unfold camel
  cases hstudly : studly name with
  | nil =>
    rw [hstudly] at hkey
    exact ⟨hkey, hkey⟩
  | cons d rest =>
    have hsettled : IsSettled d := isSettled_of_mem_studly h (by simp [hstudly])
    have hcamel : (uncapitalize (d :: rest)).flatMap lower = aliasKey name := by
      rw [uncapitalize, List.flatMap_append, hsettled.flatMap_lower, ← hkey, hstudly,
        List.flatMap_cons]
    refine ⟨hcamel, ?_⟩
    rw [flatMap_lower_capitalize, hcamel]
    intro e he
    have hmem : e ∈ lower d := by
      cases hlower : lower d with
      | nil => exact absurd hlower (lower_ne_nil d)
      | cons x more =>
        rw [uncapitalize, hlower] at he
        simp only [List.cons_append, List.head?_cons, Option.mem_some_iff] at he
        simp [he]
    rw [(hsettled e hmem).1, (hsettled e hmem).2]

theorem eq_separator_of_camel_eq_nil {name : Text} (h : camel name = []) :
    ∀ c ∈ name, c = '-' ∨ c = '_' ∨ c = ' ' := by
  intro c hc
  apply Classical.byContradiction
  intro hword
  have hkept : c ∈ (Text.split (fun c => c == '-' || c == '_' || c == ' ') name).flatten := by
    rw [Text.flatten_split, List.mem_filter]
    simpa [hc, and_assoc] using hword
  obtain ⟨part, hpart, hcpart⟩ := List.mem_flatten.mp hkept
  have hstudly : studly name ≠ [] := by
    cases part with
    | nil => cases hcpart
    | cons first rest =>
      intro hnil
      have hnone := List.flatMap_eq_nil_iff.mp hnil _ hpart
      exact upper_ne_nil first (List.append_eq_nil_iff.mp hnone).1
  unfold camel at h
  cases hcases : studly name with
  | nil => exact hstudly hcases
  | cons d rest =>
    rw [hcases] at h
    exact lower_ne_nil d (List.append_eq_nil_iff.mp h).1

end Name

namespace Binding

theorem flatMap_lower_importName {binding : Binding} (h : Name.isSteady binding.name) :
    binding.importName.flatMap lower = Name.aliasKey binding.name := by
  unfold importName
  split
  · exact (Name.flatMap_lower_camel h).2
  · exact (Name.flatMap_lower_camel h).1

theorem eq_separator_of_importName_eq_nil {binding : Binding} (h : binding.importName = []) :
    ∀ c ∈ binding.name, c = '-' ∨ c = '_' ∨ c = ' ' := by
  apply Name.eq_separator_of_camel_eq_nil
  unfold importName at h
  split at h
  · cases hcamel : Name.camel binding.name with
    | nil => rfl
    | cons d rest =>
      rw [hcamel] at h
      exact absurd (List.append_eq_nil_iff.mp h).1 (upper_ne_nil d)
  · exact h

end Binding

/-- Imports of different keys have names that differ in more than the case of ASCII letters, and
so do the statements that import them, if their aliases are steady. -/
theorem importName_ne_of_key_ne (declarations : List (Text × Text))
    {first second : Text × Binding}
    (hfirst : first ∈ (Context.initial.attemptAll declarations).bindings)
    (hsecond : second ∈ (Context.initial.attemptAll declarations).bindings)
    (himported : first.2.imported ∧ second.2.imported) (hkeys : first.1 ≠ second.1)
    (hsteady : Name.isSteady first.2.name ∧ Name.isSteady second.2.name) :
    Text.equalIgnoringAsciiCase first.2.importName second.2.importName = false ∧
      first.2.symbol ≠ second.2.symbol := by
  have htable := Context.attemptAll_tabled declarations
  have hapart : ¬Text.equalIgnoringAsciiCase first.2.importName second.2.importName := by
    intro hequal
    apply hkeys
    calc first.1
      _ = Name.aliasKey first.2.name := htable.key_eq first hfirst
      _ = first.2.importName.flatMap lower := (Binding.flatMap_lower_importName hsteady.1).symm
      _ = second.2.importName.flatMap lower := Text.flatMap_lower_of_equal hequal
      _ = Name.aliasKey second.2.name := Binding.flatMap_lower_importName hsteady.2
      _ = second.1 := (htable.key_eq second hsecond).symm
  refine ⟨Bool.not_eq_true _ ▸ hapart, ?_⟩
  intro hsymbol
  rw [Binding.symbol, Binding.symbol, if_pos himported.1, if_pos himported.2] at hsymbol
  exact hapart (by simp [hsymbol, Text.equalIgnoringAsciiCase])

/-- Two aliases bound one after the other, the first of them twice and in another spelling. -/
theorem importName_ne_of_my_form :
    Text.equalIgnoringAsciiCase
        (Binding.mk "My-Form".toList "app\\forms".toList true).importName
        (Binding.mk "élan".toList "app\\Ui".toList true).importName = false ∧
      (Binding.mk "My-Form".toList "app\\forms".toList true).symbol ≠
        (Binding.mk "élan".toList "app\\Ui".toList true).symbol :=
  @importName_ne_of_key_ne
    [("My-Form".toList, "app.forms".toList), ("élan".toList, "app.Ui".toList),
      ("myform".toList, "app/Forms".toList)]
    ("myform".toList, ⟨"My-Form".toList, "app\\forms".toList, true⟩)
    ("élan".toList, ⟨"élan".toList, "app\\Ui".toList, true⟩)
    (by decide +kernel) (by decide +kernel) (by decide +kernel) (by decide +kernel)
    (by decide +kernel)

/-- The key keeps the underscore that the name of the import drops. -/
theorem importName_eq_of_underscore :
    let context := Context.initial.attemptAll
      [("my_util".toList, "A".toList), ("my-util".toList, "B".toList)]
    (∃ first ∈ context.bindings, ∃ second ∈ context.bindings,
      (first.2.imported ∧ second.2.imported) ∧ first.1 ≠ second.1 ∧
        first.2.importName = second.2.importName) ∧
      context.prolog = ["use A as MyUtil;".toList, "use B as MyUtil;".toList] := by
  decide +kernel

end TemplateCompiler
