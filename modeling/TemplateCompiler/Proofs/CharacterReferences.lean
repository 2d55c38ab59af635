import TemplateCompiler.Markup.Entity
import TemplateCompiler.Proofs.Numerals
import TemplateCompiler.Proofs.Scanning

/-!
# Decoding character references

A text made of plain characters and of references is decoded to the characters that these stand
for. Nothing else is changed: an ampersand that begins no reference is kept, and so is what follows
it up to the next one.
-/
namespace TemplateCompiler

namespace Entity

variable {text name before after body : Text} {c : Char} {n : Nat}

/-- What stands between the ampersand and the semicolon gives the code of a character, with a sign
in front of the digits or with none. -/
inductive RefersByCode (sign : Text) : Text → Char → Prop
  | decimal {digits : Text} {c : Char} (h : Text.IsNumeral 10 digits c.toNat) :
      RefersByCode sign ('#' :: (sign ++ digits)) c
  | hexadecimal {mark : Char} {digits : Text} {c : Char} (hmark : mark = 'x' ∨ mark = 'X')
      (h : Text.IsNumeral 16 digits c.toNat) : RefersByCode sign ('#' :: mark :: (sign ++ digits)) c

/-- What stands between the ampersand and the semicolon of a reference to a character: one of the
names, or the code. -/
inductive Refers : Text → Char → Prop
  | name {entry : String × Char} (h : entry ∈ named) : Refers entry.1.toList entry.2
  | code {text : Text} {c : Char} (h : RefersByCode [] text c) : Refers text c

def StartsWith (kind : Text → Char → Prop) (text : Text) : Prop :=
  ∃ name c rest, kind name c ∧ text = name ++ ';' :: rest

/-! ## One reference -/

theorem char?_of_mem_named {entry : String × Char} (h : entry ∈ named) :
    char? entry.1.toList = some entry.2 := by
  have hall : named.all fun entry => char? entry.1.toList == some entry.2 := by decide
  exact beq_iff_eq.mp (List.all_eq_true.mp hall entry h)

theorem ofCode?_eq_some_iff {code : Nat} : ofCode? code = some c ↔ code = c.toNat := by
  unfold ofCode?
  split
  · rename_i hvalid
    have hchar : Char.ofNat code = Char.ofNatAux code hvalid := dif_pos hvalid
    rw [Option.some.injEq]
    constructor
    · rintro rfl
      rw [hchar]
      rfl
    · rintro rfl
      exact Char.ofNat_toNat c
  · rename_i hinvalid
    constructor
    · intro h
      cases h
    · rintro rfl
      exact absurd c.valid hinvalid

theorem bind_ofCode?_eq_some_iff {base : Nat} (hbase : base ≤ 16) :
    (Text.number? base text).bind ofCode? = some c ↔ Text.IsNumeral base text c.toNat ∨
      ∃ digits, text = '+' :: digits ∧ Text.IsNumeral base digits c.toNat := by
  rw [← Text.number?_eq_some_iff hbase, Option.bind_eq_some_iff]
  constructor
  · rintro ⟨code, hcode, hc⟩
    rwa [ofCode?_eq_some_iff.mp hc] at hcode
  · exact fun h => ⟨_, h, ofCode?_eq_some_iff.mpr rfl⟩

theorem char?_hexadecimal {mark : Char} (hmark : mark = 'x' ∨ mark = 'X') (digits : Text) :
    char? ('#' :: mark :: digits) = (Text.number? 16 digits).bind ofCode? := by
  rcases hmark with rfl | rfl <;> rfl

theorem char?_decimal {digits : Text} (h : ∀ c ∈ digits.head?, c ≠ 'x' ∧ c ≠ 'X') :
    char? ('#' :: digits) = (Text.number? 10 digits).bind ofCode? := by
  unfold char?
  split
  · rename_i heq
    obtain rfl := (List.cons.inj heq).2
    exact absurd rfl (h 'x' rfl).1
  · rename_i heq
    obtain rfl := (List.cons.inj heq).2
    exact absurd rfl (h 'X' rfl).2
  · rename_i heq
    rw [(List.cons.inj heq).2]
  · rename_i hother
    exact absurd rfl (hother digits)

theorem char?_of_refersByCode {sign : Text} (hsign : sign = [] ∨ sign = ['+'])
    (h : RefersByCode sign name c) : char? name = some c := by
  cases h with
  | @decimal digits _ h =>
    have hdigits := h.digitValue?_isSome (by decide)
    have hhead : ∀ c ∈ (sign ++ digits).head?, c ≠ 'x' ∧ c ≠ 'X' := by
      intro c hc
      rcases hsign with rfl | rfl
      · have hvalue := hdigits c (List.mem_of_mem_head? hc)
        constructor <;> rintro rfl <;> cases hvalue
      · cases hc
        decide
    rw [char?_decimal hhead, bind_ofCode?_eq_some_iff (by decide)]
    rcases hsign with rfl | rfl
    · exact Or.inl h
    · exact Or.inr ⟨digits, rfl, h⟩
  | @hexadecimal mark digits _ hmark h =>
    rw [char?_hexadecimal hmark, bind_ofCode?_eq_some_iff (by decide)]
    rcases hsign with rfl | rfl
    · exact Or.inl h
    · exact Or.inr ⟨digits, rfl, h⟩

theorem refersByCode_of_char? (h : char? ('#' :: text) = some c) :
    RefersByCode [] ('#' :: text) c ∨ RefersByCode ['+'] ('#' :: text) c := by
  by_cases hmark : ∃ mark digits, (mark = 'x' ∨ mark = 'X') ∧ text = mark :: digits
  · obtain ⟨mark, digits, hmark, rfl⟩ := hmark
    rw [char?_hexadecimal hmark, bind_ofCode?_eq_some_iff (by decide)] at h
    rcases h with h | ⟨digits, rfl, h⟩
    · exact Or.inl (.hexadecimal hmark h)
    · exact Or.inr (.hexadecimal hmark h)
  · have hhead : ∀ c ∈ text.head?, c ≠ 'x' ∧ c ≠ 'X' := by
      intro d hd
      obtain ⟨digits, rfl⟩ := List.head?_eq_some_iff.mp hd
      constructor <;> rintro rfl
      · exact hmark ⟨_, _, Or.inl rfl, rfl⟩
      · exact hmark ⟨_, _, Or.inr rfl, rfl⟩
    rw [char?_decimal hhead, bind_ofCode?_eq_some_iff (by decide)] at h
    rcases h with h | ⟨digits, rfl, h⟩
    · exact Or.inl (.decimal h)
    · exact Or.inr (.decimal h)

/-- What is read as a reference is one, or it is a code with a plus sign. -/
theorem char?_eq_some_iff : char? name = some c ↔ Refers name c ∨ RefersByCode ['+'] name c := by
  constructor
  · intro h
    by_cases hcode : ∃ text, name = '#' :: text
    · obtain ⟨text, rfl⟩ := hcode
      exact (refersByCode_of_char? h).imp_left .code
    · have hname : char? name =
          (named.find? fun entry => entry.1.toList == name).map (·.2) := by
        unfold char?
        split
        · exact absurd ⟨_, rfl⟩ hcode
        · exact absurd ⟨_, rfl⟩ hcode
        · exact absurd ⟨_, rfl⟩ hcode
        · rfl
      rw [hname] at h
      obtain ⟨entry, hentry, rfl⟩ := Option.map_eq_some_iff.mp h
      have hsame := List.find?_some hentry
      rw [beq_iff_eq] at hsame
      rw [← hsame]
      exact Or.inl (.name (List.mem_of_find?_eq_some hentry))
  · rintro ((hentry | hcode) | hcode)
    · exact char?_of_mem_named hentry
    · exact char?_of_refersByCode (Or.inl rfl) hcode
    · exact char?_of_refersByCode (Or.inr rfl) hcode

/-! ## The characters of a reference -/

/-- The characters that tell references apart from each other and from the text around them. -/
def isMark (c : Char) : Bool := c == '&' || c == ';' || c == '+'

theorem isMark_of_isNumeral {base : Nat} (hbase : base ≤ 16) (h : Text.IsNumeral base text n) :
    ∀ d ∈ text, isMark d = false := by
  intro d hd
  have hvalue := h.digitValue?_isSome hbase d hd
  by_contra hmark
  rw [Bool.not_eq_false, isMark, Bool.or_eq_true, Bool.or_eq_true] at hmark
  rcases hmark with (hmark | hmark) | hmark <;> rw [beq_iff_eq.mp hmark] at hvalue <;> cases hvalue

theorem RefersByCode.isMark_eq_false {sign : Text} (h : RefersByCode sign name c) :
    ∀ d ∈ name, d ∉ sign → isMark d = false := by
  intro d hd hsign
  cases h with
  | decimal h =>
    rcases List.mem_cons.mp hd with rfl | hd
    · rfl
    · exact isMark_of_isNumeral (by decide) h d ((List.mem_append.mp hd).resolve_left hsign)
  | hexadecimal hmark h =>
    rcases List.mem_cons.mp hd with rfl | hd
    · rfl
    · rcases List.mem_cons.mp hd with rfl | hd
      · rcases hmark with rfl | rfl <;> rfl
      · exact isMark_of_isNumeral (by decide) h d ((List.mem_append.mp hd).resolve_left hsign)

theorem Refers.isMark_eq_false (h : Refers name c) : ∀ d ∈ name, isMark d = false := by
  cases h with
  | @name entry hentry =>
    have hall : named.all fun entry => entry.1.toList.all fun d => !isMark d := by decide
    intro d hd
    have hname := List.all_eq_true.mp (List.all_eq_true.mp hall entry hentry) d hd
    simpa using hname
  | code hcode => exact fun d hd => hcode.isMark_eq_false d hd List.not_mem_nil

theorem not_mem_of_char? (h : char? name = some c) : '&' ∉ name ∧ ';' ∉ name := by
  have hplain : ∀ d ∈ name, d ≠ '+' → isMark d = false := by
    rcases char?_eq_some_iff.mp h with hrefers | hcode
    · exact fun d hd _ => hrefers.isMark_eq_false d hd
    · intro d hd hplus
      exact hcode.isMark_eq_false d hd fun hmem => hplus (List.mem_singleton.mp hmem)
  constructor
  · exact fun hmem => absurd (hplain '&' hmem (by decide)) (by decide)
  · exact fun hmem => absurd (hplain ';' hmem (by decide)) (by decide)

/-! ## Finding a reference -/

theorem reference?_of_char? (h : char? name = some c) (rest : Text) :
    reference? (name ++ ';' :: rest) = some (c, name.length + 1) := by
  rw [reference?, Text.cut?_of_not_mem (not_mem_of_char? h).2, Option.bind_some]
  simp only [h, Option.map_some]

theorem exists_of_reference? (h : reference? text = some (c, n)) :
    ∃ name rest, text = name ++ ';' :: rest ∧ char? name = some c ∧ n = name.length + 1 := by
  obtain ⟨⟨name, rest⟩, hcut, h⟩ := Option.bind_eq_some_iff.mp h
  obtain ⟨d, hd, heq⟩ := Option.map_eq_some_iff.mp h
  cases heq
  refine ⟨name, rest, ?_, hd, rfl⟩
  rw [Text.cut?_eq hcut, List.append_assoc, List.singleton_append]

theorem reference?_eq_none_iff : reference? text = none ↔
    ¬StartsWith Refers text ∧ ¬StartsWith (RefersByCode ['+']) text := by
  constructor
  · intro hnone
    have hno {name rest : Text} {c : Char} (hname : char? name = some c) :
        text ≠ name ++ ';' :: rest := by
      rintro rfl
      rw [reference?_of_char? hname] at hnone
      cases hnone
    constructor
    · rintro ⟨name, c, rest, h, htext⟩
      exact hno (char?_eq_some_iff.mpr (Or.inl h)) htext
    · rintro ⟨name, c, rest, h, htext⟩
      exact hno (char?_eq_some_iff.mpr (Or.inr h)) htext
  · rintro ⟨hrefers, hsigned⟩
    cases hfound : reference? text with
    | none => rfl
    | some found =>
      obtain ⟨name, rest, htext, hname, -⟩ := exists_of_reference? hfound
      rcases char?_eq_some_iff.mp hname with h | h
      · exact absurd ⟨name, _, rest, h, htext⟩ hrefers
      · exact absurd ⟨name, _, rest, h, htext⟩ hsigned

theorem reference?_append_ampersand (before rest : Text) :
    reference? (before ++ '&' :: rest) = reference? before := by
  have hwithin {name more : Text} {c : Char} (hname : char? name = some c)
      (htext : before = name ++ ';' :: more) :
      reference? (before ++ '&' :: rest) = reference? before := by
    rw [htext, List.append_assoc, List.cons_append, reference?_of_char? hname,
      reference?_of_char? hname]
  cases hfound : reference? (before ++ '&' :: rest) with
  | some found =>
    rw [← hfound]
    obtain ⟨name, more, htext, hname, -⟩ := exists_of_reference? hfound
    rcases List.append_eq_append_iff.mp htext with ⟨last, rfl, hlast⟩ | ⟨last, hbefore, hlast⟩
    · cases last with
      | nil => exact absurd (List.cons.inj hlast).1 (by decide)
      | cons d last =>
        rw [(List.cons.inj hlast).1.symm] at hname
        exact absurd (List.mem_append_right _ List.mem_cons_self) (not_mem_of_char? hname).1
    · cases last with
      | nil => exact absurd (List.cons.inj hlast).1 (by decide)
      | cons d last =>
        rw [(List.cons.inj hlast).1.symm] at hbefore
        exact hwithin hname hbefore
  | none =>
    cases hfound' : reference? before with
    | none => rfl
    | some found =>
      obtain ⟨name, more, htext, hname, -⟩ := exists_of_reference? hfound'
      rw [← hfound, ← hfound', hwithin hname htext]

/-! ## Decoding -/

theorem decodeFrom_eq (skip : Nat) (text : Text) :
    decodeFrom skip text = decode (text.drop skip) := by
  induction text generalizing skip with
  | nil => cases skip <;> rfl
  | cons c text ih =>
    cases skip with
    | zero => rfl
    | succ skip => exact ih skip

theorem decode_append (h : '&' ∉ body) (rest : Text) :
    decode (body ++ rest) = body ++ decode rest := by
  induction body with
  | nil => rfl
  | cons c body ih =>
    rw [List.mem_cons, not_or] at h
    rw [List.cons_append, decode, decodeFrom, if_neg (Ne.symm h.1)]
    exact congrArg (c :: ·) (ih h.2)

theorem decode_eq_self (h : '&' ∉ text) : decode text = text := by
  have hall := decode_append h []
  rw [List.append_nil] at hall
  rw [hall]
  exact List.append_nil text

theorem decode_reference (h : char? name = some c) (rest : Text) :
    decode ('&' :: (name ++ ';' :: rest)) = c :: decode rest := by
  rw [decode, decodeFrom, if_pos rfl, reference?_of_char? h]
  simp only [decodeFrom_eq, List.drop_append, List.drop_of_length_le (Nat.le_succ _)]
  simp

theorem decode_ampersand (h : reference? text = none) :
    decode ('&' :: text) = '&' :: decode text := by
  rw [decode, decodeFrom, if_pos rfl, h]
  rfl

/-- What stands before an ampersand is decoded on its own. -/
theorem decode_append_ampersand (rest : Text) : ∀ before : Text,
    decode (before ++ '&' :: rest) = decode before ++ decode ('&' :: rest)
  | [] => rfl
  | c :: before => by
    by_cases hc : c = '&'
    · subst hc
      cases hfound : reference? before with
      | none =>
        have hfound' : reference? (before ++ '&' :: rest) = none := by
          rw [reference?_append_ampersand, hfound]
        rw [List.cons_append, decode_ampersand hfound', decode_ampersand hfound,
          decode_append_ampersand rest before, List.cons_append]
      | some found =>
        obtain ⟨name, more, rfl, hname, -⟩ := exists_of_reference? hfound
        rw [List.cons_append, List.append_assoc, List.cons_append, decode_reference hname,
          decode_reference hname, decode_append_ampersand rest more, List.cons_append]
    · have hplain : '&' ∉ [c] := fun hmem => hc (List.mem_singleton.mp hmem).symm
      have hfirst (text : Text) : decode (c :: text) = c :: decode text := decode_append hplain text
      rw [List.cons_append, hfirst, hfirst, decode_append_ampersand rest before, List.cons_append]
termination_by before => before.length

/-! ## A text of characters and references -/

/-- What a text is made of: a character that stands for itself, or a reference to one. -/
inductive Item
  | literal (c : Char) (h : c ≠ '&')
  | reference (name : Text) (c : Char) (h : Refers name c)

namespace Item

def written : Item → Text
  | literal c _ => [c]
  | reference name _ _ => '&' :: (name ++ [';'])

def char : Item → Char
  | literal c _ => c
  | reference _ c _ => c

end Item

theorem decode_written (item : Item) (rest : Text) :
    decode (item.written ++ rest) = item.char :: decode rest := by
  cases item with
  | literal c h => exact decode_append (fun hmem => h (List.mem_singleton.mp hmem).symm) rest
  | reference name c h =>
    have hname : char? name = some c := char?_eq_some_iff.mpr (Or.inl h)
    rw [Item.written, List.cons_append, List.append_assoc, List.singleton_append,
      decode_reference hname, Item.char]

theorem decode_flatMap_written (items : List Item) :
    decode (items.flatMap Item.written) = items.map Item.char := by
  induction items with
  | nil => rfl
  | cons item items ih => rw [List.flatMap_cons, decode_written, ih, List.map_cons]

theorem refers_toDigits (c : Char) : Refers ('#' :: Nat.toDigits 10 c.toNat) c ∧
    Refers ('#' :: 'x' :: Nat.toDigits 16 c.toNat) c ∧
    Refers ('#' :: 'X' :: Nat.toDigits 16 c.toNat) c := by
  have hdecimal := Text.isNumeral_toDigits (by decide : 1 < 10) c.toNat
  have hhexadecimal := Text.isNumeral_toDigits (by decide : 1 < 16) c.toNat
  exact ⟨.code (.decimal hdecimal), .code (.hexadecimal (Or.inl rfl) hhexadecimal),
    .code (.hexadecimal (Or.inr rfl) hhexadecimal)⟩

/-- Characters and references are decoded, in order, to the characters that they stand for. In any
text a reference is replaced by its character, and what stands before and after it is decoded as if
it stood alone, so no character that was decoded becomes part of a reference. An ampersand that
begins no reference is kept together with all that follows it up to the next one, unless a code
with a plus sign in front of its digits follows it, which is decoded like one without. -/
theorem references_decode_once (items : List Item) :
    decode (items.flatMap Item.written) = items.map Item.char ∧
    (∀ before name c after, Refers name c →
      decode (before ++ '&' :: (name ++ ';' :: after)) = decode before ++ c :: decode after) ∧
    (∀ before body after, '&' ∉ body → ¬StartsWith Refers (body ++ after) →
      ¬StartsWith (RefersByCode ['+']) (body ++ after) →
      decode (before ++ '&' :: (body ++ after)) = decode before ++ '&' :: (body ++ decode after)) ∧
    ∀ before name c after, RefersByCode ['+'] name c →
      decode (before ++ '&' :: (name ++ ';' :: after)) = decode before ++ c :: decode after := by
  have hread (before after : Text) {name : Text} {c : Char} (hname : char? name = some c) :
      decode (before ++ '&' :: (name ++ ';' :: after)) = decode before ++ c :: decode after := by
    rw [decode_append_ampersand, decode_reference hname]
  refine ⟨decode_flatMap_written items, ?_, ?_, ?_⟩
  · exact fun before name c after h => hread before after (char?_eq_some_iff.mpr (Or.inl h))
  · intro before body after hbody hrefers hsigned
    have hnone := reference?_eq_none_iff.mpr ⟨hrefers, hsigned⟩
    rw [decode_append_ampersand, decode_ampersand hnone, decode_append hbody]
  · exact fun before name c after h => hread before after (char?_eq_some_iff.mpr (Or.inr h))

/-- An ampersand that was decoded begins no reference, a semicolon after a reference is kept, and
so is what follows an ampersand that stands alone. -/
theorem references_decode_once_of_mixture :
    decode "&amp;lt;&#39;;&#x41;".toList = "&lt;';A".toList ∧
    decode "&lt; & b;&gt;".toList = "< & b;>".toList := by
  have hquote : Refers "#39".toList '\'' := (refers_toDigits '\'').1
  have hletter : Refers "#x41".toList 'A' := (refers_toDigits 'A').2.1
  have hamp : Refers "amp".toList '&' := @Refers.name ("amp", '&') List.mem_cons_self
  have hnone : reference? " b;&gt;".toList = none := by decide
  obtain ⟨hrefers, hsigned⟩ := reference?_eq_none_iff.mp hnone
  constructor
  · exact (references_decode_once [.reference _ _ hamp, .literal 'l' (by decide),
      .literal 't' (by decide), .literal ';' (by decide), .reference _ _ hquote,
      .literal ';' (by decide), .reference _ _ hletter]).1
  · exact (references_decode_once []).2.2.1 "&lt; ".toList " b;".toList "&gt;".toList (by decide)
      hrefers hsigned

/-- A code with a plus sign is no reference, but it is decoded. -/
theorem signed_code_is_decoded :
    '&' ∉ "#+38;".toList ∧ ¬StartsWith Refers "#+38;".toList ∧
      decode ('&' :: "#+38;".toList) = ['&'] ∧ ['&'] ≠ '&' :: "#+38;".toList := by
  refine ⟨by decide, ?_, by decide, by decide⟩
  rintro ⟨name, c, rest, h, htext⟩
  have hplus : '+' ∈ name := by
    match name, htext with
    | [], htext => exact absurd (List.cons.inj htext).1 (by decide)
    | [d], htext => exact absurd (List.cons.inj (List.cons.inj htext).2).1 (by decide)
    | d :: e :: name, htext =>
      rw [← (List.cons.inj (List.cons.inj htext).2).1]
      exact List.mem_cons_of_mem _ List.mem_cons_self
  exact absurd (h.isMark_eq_false '+' hplus) (by decide)

end Entity

end TemplateCompiler
