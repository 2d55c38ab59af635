import TemplateCompiler.Proofs.CanonicalPath
import TemplateCompiler.Proofs.ImportNames

/-!
# How generated code refers to handlers

A handler is referred to by the name that an alias imports and its own name in studly case, or by
its canonical path. The first kind of symbol has no underscores, and the second one has word
characters and separators only.
-/
namespace TemplateCompiler

namespace Unicode

theorem toNat_ofNat (code : Nat) :
    (Char.ofNat code).toNat = code ∨ (Char.ofNat code).toNat = 0 := by
  by_cases hvalid : code.isValidChar
  · have hchar : Char.ofNat code = Char.ofNatAux code hvalid := dif_pos hvalid
    rw [hchar]
    exact Or.inl rfl
  · have hchar : Char.ofNat code = Char.ofNat 0 := dif_neg hvalid
    rw [hchar]
    exact Or.inr rfl

/-- A character that no other one becomes when its case is changed. -/
def IsCaseless (x : Char) : Prop := ∀ c, c ≠ x → x ∉ upper c ∧ x ∉ lower c

theorem not_mem_mapCase {x : Char} (hx : x.toNat ≠ 0) {runs : List (Nat × Nat × Nat × Int)}
    {expansions : List (Nat × List Nat)}
    (hexpansions : ∀ expansion ∈ expansions, x ∉ expansion.2.map Char.ofNat)
    (hruns : ∀ run ∈ runs,
      (run.2.1 : Int) + run.2.2.2 < x.toNat ∨ (x.toNat : Int) < (run.1 : Int) + run.2.2.2)
    {c : Char} (hc : c ≠ x) : x ∉ mapCase runs expansions c := by
  unfold mapCase
  split
  · rename_i codes hcodes
    obtain ⟨before, after, hsplit, _⟩ := List.lookup_eq_some_iff.mp hcodes
    exact hexpansions (c.toNat, codes) (by simp [hsplit])
  · split
    · rename_i first last step shift hfind
      have hrun := hruns _ (List.mem_of_find?_eq_some hfind)
      have hrange := List.find?_some hfind
      simp only [Bool.and_eq_true, decide_eq_true_eq] at hrun hrange
      rw [List.mem_singleton]
      intro hsame
      have hcode := congrArg Char.toNat hsame
      rcases toNat_ofNat ((c.toNat : Int) + shift).toNat with hcode' | hcode' <;> omega
    · rw [List.mem_singleton]
      exact Ne.symm hc

theorem isCaseless_of_tables {x : Char} (hx : x.toNat ≠ 0)
    (hascii : ∀ n < 0x80, Char.ofNat n ≠ x →
      x ≠ (Char.ofNat n).toUpper ∧ x ≠ (Char.ofNat n).toLower)
    (hexpansions : ∀ expansion ∈ toUpperExpansions ++ toLowerExpansions,
      x ∉ expansion.2.map Char.ofNat)
    (hruns : ∀ run ∈ toUpperRuns ++ toLowerRuns,
      (run.2.1 : Int) + run.2.2.2 < x.toNat ∨ (x.toNat : Int) < (run.1 : Int) + run.2.2.2) :
    IsCaseless x := by
  intro c hc
  have hletter (h : isAscii c) : x ≠ c.toUpper ∧ x ≠ c.toLower :=
    @forall_of_isAscii (fun c => c ≠ x → x ≠ c.toUpper ∧ x ≠ c.toLower) hascii c h hc
  constructor
  · unfold upper
    split
    · rename_i h
      rw [List.mem_singleton]
      exact (hletter h).1
    · exact not_mem_mapCase hx (fun e he => hexpansions e (List.mem_append_left _ he))
        (fun r hr => hruns r (List.mem_append_left _ hr)) hc
  · unfold lower
    split
    · rename_i h
      rw [List.mem_singleton]
      exact (hletter h).2
    · exact not_mem_mapCase hx (fun e he => hexpansions e (List.mem_append_right _ he))
        (fun r hr => hruns r (List.mem_append_right _ hr)) hc

theorem isCaseless_underscore : IsCaseless '_' :=
  isCaseless_of_tables (by decide) (by decide) (by decide +kernel) (by decide +kernel)

theorem isCaseless_at : IsCaseless '@' :=
  isCaseless_of_tables (by decide) (by decide) (by decide +kernel) (by decide +kernel)

end Unicode

namespace Name

variable {x : Char} {name : Text}

theorem not_mem_capitalize (hx : Unicode.IsCaseless x) (h : x ∉ name) : x ∉ capitalize name := by
  cases name with
  | nil => exact List.not_mem_nil
  | cons c rest =>
    rw [List.mem_cons, not_or] at h
    rw [capitalize, List.mem_append, not_or]
    exact ⟨(hx c (Ne.symm h.1)).1, h.2⟩

theorem not_mem_uncapitalize (hx : Unicode.IsCaseless x) (h : x ∉ name) :
    x ∉ uncapitalize name := by
  cases name with
  | nil => exact List.not_mem_nil
  | cons c rest =>
    rw [List.mem_cons, not_or] at h
    rw [uncapitalize, List.mem_append, not_or]
    exact ⟨(hx c (Ne.symm h.1)).2, h.2⟩

theorem not_mem_studly (name : Text) : '_' ∉ studly name := by
  rw [studly, List.mem_flatMap]
  rintro ⟨word, hword, hmem⟩
  refine not_mem_capitalize Unicode.isCaseless_underscore ?_ hmem
  intro hunderscore
  have hflat := List.mem_flatten.mpr ⟨word, hword, hunderscore⟩
  rw [Text.flatten_split] at hflat
  have hseparator := (List.mem_filter.mp hflat).2
  revert hseparator
  decide

theorem not_mem_importName (binding : Binding) : '_' ∉ binding.importName := by
  have hcamel : '_' ∉ camel binding.name :=
    not_mem_uncapitalize Unicode.isCaseless_underscore (not_mem_studly _)
  rw [Binding.importName]
  split
  · exact not_mem_capitalize Unicode.isCaseless_underscore hcamel
  · exact hcamel

end Name

namespace Registry

/-- Registries as they are made: handlers are registered one after the other. -/
inductive Declared : Registry → Prop
  | empty : Declared .empty
  | builtin : Declared .builtin
  | register {registry after : Registry} {handler : Handler} (h : Declared registry)
      (hregister : registry.register handler = .ok after) : Declared after

def IsPath (path : Text) : Prop := ∀ c ∈ path, isWordChar c ∨ c = pathSeparator

theorem IsPath.not_mem {path : Text} {c : Char} (h : IsPath path)
    (hc : ¬(isWordChar c ∨ c = pathSeparator)) : c ∉ path :=
  fun hmem => hc (h c hmem)

theorem Declared.isPath {registry : Registry} (h : Declared registry) :
    ∀ entry ∈ registry.entries, IsPath entry.2.path := by
  have hinsert {registry : Registry} {handler : Handler} (hpath : IsPath handler.path)
      (h : ∀ entry ∈ registry.entries, IsPath entry.2.path) :
      ∀ entry ∈ (registry.insert handler).entries, IsPath entry.2.path := by
    intro entry hentry
    rcases List.mem_cons.mp hentry with rfl | hentry
    · exact hpath
    · exact h entry (List.mem_filter.mp hentry).1
  induction h with
  | empty =>
    intro entry hentry
    cases hentry
  | builtin =>
    apply hinsert
    · have hpath : Handler.html.path.all fun c => isWordChar c || c == pathSeparator := by
        decide +kernel
      intro c hc
      simpa using List.all_eq_true.mp hpath c hc
    · intro entry hentry
      cases hentry
  | @register registry after handler h hregister ih =>
    unfold Registry.register at hregister
    split at hregister
    · rename_i path hpath
      cases hregister
      exact hinsert (HandlerPath.isWordChar_of_canonical? hpath) ih
    · cases hregister

theorem Declared.isPath_of_get? {registry : Registry} (h : Declared registry) {path : Text}
    {handler : Handler} (hget : registry.get? path = some handler) : IsPath handler.path := by
  obtain ⟨canonical, -, hlookup⟩ := Option.bind_eq_some_iff.mp hget
  obtain ⟨before, after, hsplit, -⟩ := List.lookup_eq_some_iff.mp hlookup
  exact h.isPath (HandlerPath.key canonical, handler) (by rw [hsplit]; simp)

end Registry

/-- How generated code refers to handlers: by imported names, which have no underscores, or by
paths. -/
def IsSymbol (symbol : Text) : Prop := '_' ∉ symbol ∨ Registry.IsPath symbol

theorem Environment.isSymbol_of_resolve {environment : Environment} {context : Context}
    (hregistry : environment.registry.Declared) {qualifier name : Text} {resolved : Resolved}
    (h : environment.resolve context qualifier name = .ok resolved) :
    IsSymbol resolved.symbol := by
  unfold resolve at h
  split at h
  · cases h
  · rename_i binding hbinding
    simp only at h
    split at h
    · cases h
    · rename_i handler hget
      cases h
      simp only
      split
      · left
        rw [List.mem_append, not_or, List.mem_cons, not_or]
        exact ⟨Name.not_mem_importName binding, by decide, Name.not_mem_studly name⟩
      · right
        intro c hc
        rcases List.mem_cons.mp hc with rfl | hc
        · exact Or.inr rfl
        · exact hregistry.isPath_of_get? hget c hc

end TemplateCompiler
