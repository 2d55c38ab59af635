import TemplateCompiler.Proofs.CharacterReferences
import TemplateCompiler.Proofs.ComponentText
import TemplateCompiler.Proofs.HandlerSymbols
import TemplateCompiler.Proofs.PromotedTags
import TemplateCompiler.Proofs.UnbufferedCode

/-!
# Constructions open and close no buffers

The expression that constructs a handler is made of the handler's symbol, the attributes of a tag
and the content. A symbol may name a handler that is called like a function of output buffering,
but no such name is followed by an empty list of arguments, and nothing else opens or closes a
buffer if the tag names none. So the steps of the expression are those of the content.
-/
namespace TemplateCompiler

namespace Code

theorem head_of_isExpression {code : Text} (h : isExpression code) :
    ∃ c rest, code = c :: rest ∧ c ≠ ')' := by
  cases code with
  | nil => cases h
  | cons c rest =>
    refine ⟨c, rest, rfl, ?_⟩
    rintro rfl
    have htrim : ∃ rest', Text.trim (')' :: rest) = ')' :: rest' := by
      have hparen : Unicode.isWhitespace ')' = false := by decide
      rw [Text.trim, Text.trimStart, List.dropWhile_cons, hparen]
      simp only [Bool.false_eq_true, if_false]
      rw [Text.trimEnd, List.reverse_cons]
      rw [(Text.takeWhile_append_cons hparen rest.reverse []).2]
      rw [List.reverse_append]
      exact ⟨_, rfl⟩
    obtain ⟨rest', hrest'⟩ := htrim
    have hbalanced : isBalanced (')' :: rest') = false := rfl
    unfold isExpression at h
    simp only [hrest', hbalanced] at h
    simp at h

end Code

theorem Interpolation.isExpression_of_compile {tags : Text × Text} {value code : Text}
    (h : compile tags value = .ok code) : Code.isExpression code := by
  unfold compile at h
  simp only at h
  split at h
  · rename_i hexpression
    cases h
    exact hexpression
  · cases h

/-- An argument that neither names a buffer nor closes the list that it stands in. -/
structure IsArgument (code : Text) : Prop where
  unbuffered : Unbuffered code
  opens : ∃ c rest, code = c :: rest ∧ c ≠ ')'

theorem AttributeValue.opens_of_isToken {text : Text} (h : isToken text) :
    ∃ c rest, text = c :: rest ∧ c ≠ ')' := by
  cases text with
  | nil => cases h
  | cons c rest =>
    refine ⟨c, rest, rfl, ?_⟩
    rintro rfl
    have hother : isToken (')' :: rest) = false := rfl
    rw [hother] at h
    cases h

/-- The value of an attribute whose text names no buffer, as it is read from a tag. -/
structure AttributeValue.Plain (value : AttributeValue) : Prop where
  unbuffered : Unbuffered value.written
  reference : '&' ∉ value.written
  token : ∀ text, value = .bare text → isToken text

theorem Construction.isArgument_valueCode {markers : Markers} {value : AttributeValue} {code : Text}
    (hvalue : value.Plain) (h : valueCode markers value = .ok code) : IsArgument code := by
  have hinterpolated (text : Text) (hpiece : text <:+: value.written)
      (h : Interpolation.compile markers.echo (Entity.decode text) = .ok code) :
      IsArgument code := by
    have hreference : '&' ∉ text := fun hmem => hvalue.reference (hpiece.subset hmem)
    rw [Entity.decode_eq_self hreference] at h
    refine ⟨Interpolation.unbuffered_compile h (hvalue.unbuffered.of_infix hpiece), ?_⟩
    exact Code.head_of_isExpression (Interpolation.isExpression_of_compile h)
  cases value with
  | quoted mark text => exact hinterpolated text ⟨[mark], [mark], rfl⟩ h
  | unquoted text => exact hinterpolated text (List.infix_refl _) h
  | bare text =>
    cases h
    exact ⟨hvalue.unbuffered, AttributeValue.opens_of_isToken (hvalue.token _ rfl)⟩
  | flag =>
    cases h
    exact ⟨rfl, 't', "rue".toList, rfl, by decide⟩

theorem IsSymbol.quiet_opening {symbol before : Text} (h : IsSymbol symbol)
    (hunderscore : '_' ∉ before) (hparen : ')' ∉ before) : Quiet (before ++ symbol ++ ['(']) := by
  rcases h with h | h
  · apply @quiet_of_not_mem _ '_' (by decide) (by decide)
    simp only [List.mem_append, not_or]
    exact ⟨⟨hunderscore, h⟩, by decide⟩
  · apply @quiet_of_not_mem _ ')' (by decide) (by decide)
    simp only [List.mem_append, not_or]
    exact ⟨⟨hparen, h.not_mem (by decide)⟩, by decide⟩

theorem IsSymbol.quiet_call {symbol before argument : Text} (h : IsSymbol symbol)
    (hunderscore : '_' ∉ before) (hparen : ')' ∉ before) (hargument : IsArgument argument) :
    Quiet (before ++ symbol ++ '(' :: argument) := by
  have hopening := h.quiet_opening hunderscore hparen
  obtain ⟨c, rest, rfl, hc⟩ := hargument.opens
  have happart : Apart (before ++ symbol ++ ['(']) (c :: rest) := apart_of_call hc _ rest
  have hcall := hopening.append hargument.unbuffered.quiet happart
  rwa [List.append_assoc] at hcall

theorem Tag.written_infix_of_mem {text after : Text} {tag : Tag} {attr : Attribute}
    (h : parse? text = some (tag, after)) (hattr : attr ∈ tag.attributes) :
    attr.written <:+: text := by
  have hwritten : attr.written <:+: attr.writtenWithLead :=
    (List.suffix_append attr.lead attr.written).isInfix
  have hattributes : attr.writtenWithLead <:+: tag.attributes.flatMap (·.writtenWithLead) := by
    rw [List.flatMap_def]
    exact List.infix_of_mem_flatten (List.mem_map_of_mem hattr)
  have htext : tag.attributes.flatMap (·.writtenWithLead) <:+: text := by
    rw [parse?_eq h, written, attributeText]
    exact ⟨'<' :: tag.qualified, tag.trail ++ ending tag.selfClosing ++ after, by simp⟩
  exact (hwritten.trans hattributes).trans htext

theorem AttributeValue.isToken_of_parse? {text after token : Text}
    (h : parse? text = some (.bare token, after)) : isToken token := by
  unfold parse? at h
  split at h
  · cases h
  · split at h
    · split at h
      · cases h
      · cases h
    · simp only at h
      split at h
      · cases h
      · unfold ofUnquoted at h
        split at h
        · rename_i htoken
          cases h
          exact htoken
        · cases h

theorem Attribute.isToken_of_parse? {lead text after token : Text} {attr : Attribute}
    (h : parse? lead text = some (attr, after)) (hvalue : attr.value = .bare token) :
    AttributeValue.isToken token := by
  simp only [parse?] at h
  split at h
  · cases h
  · split at h
    · cases h
      cases hvalue
    · obtain ⟨⟨value, rest⟩, hparse, hfound⟩ := Option.map_eq_some_iff.mp h
      cases hfound
      cases hvalue
      exact AttributeValue.isToken_of_parse? hparse

theorem Tag.isToken_of_attributes? {text : Text} {found : List Attribute × Text × Bool × Text}
    (h : attributes? text = some found) :
    ∀ attr ∈ found.1, ∀ token, attr.value = .bare token → AttributeValue.isToken token := by
  fun_induction attributes? text generalizing found with
  | case1 =>
    cases h
    intro attr hattr
    cases hattr
  | case2 =>
    cases h
    intro attr hattr
    cases hattr
  | case3 => cases h
  | case4 text attr rest hparse hlength hslash hend ih =>
    obtain ⟨later, hlater, rfl⟩ := Option.map_eq_some_iff.mp h
    intro other hother
    rcases List.mem_cons.mp hother with rfl | hother
    · exact fun token hvalue => Attribute.isToken_of_parse? hparse hvalue
    · exact ih hlater other hother

theorem Tag.plain_of_parse? {text after : Text} {tag : Tag} {attr : Attribute}
    (h : parse? text = some (tag, after)) (htext : Unbuffered text) (hreference : '&' ∉ text)
    (hattr : attr ∈ tag.attributes) : Unbuffered attr.name ∧ attr.value.Plain := by
  have hwritten := written_infix_of_mem h hattr
  have hname : attr.name <:+: text := by
    have hlead : attr.name <+: attr.written :=
      (List.prefix_append attr.name attr.equals).trans (List.prefix_append _ _)
    exact hlead.isInfix.trans hwritten
  have hvalue : attr.value.written <:+: text :=
    (List.suffix_append _ _).isInfix.trans hwritten
  obtain ⟨rest, hattributes⟩ := exists_attributes? h
  refine ⟨htext.of_infix hname, htext.of_infix hvalue, ?_, ?_⟩
  · exact fun hmem => hreference (hvalue.subset hmem)
  · exact isToken_of_attributes? hattributes attr hattr

theorem Tag.name_infix_of_parse? {text after : Text} {tag : Tag}
    (h : parse? text = some (tag, after)) : tag.name <:+: text := by
  have hqualified : tag.name <:+ tag.qualified := by
    unfold qualified qualifiedName
    split
    · rename_i qualifier _
      exact ⟨qualifier ++ [':'], by simp⟩
    · exact List.suffix_refl _
  have htext : tag.qualified <:+: text := by
    rw [parse?_eq h, written]
    exact ⟨['<'], tag.attributeText ++ ending tag.selfClosing ++ after, by simp⟩
  exact hqualified.isInfix.trans htext

/-- The code of a mixin opens and closes no buffer. -/
structure IsMixin (code : Text) : Prop where
  quiet : Quiet code
  shape : ∃ body, code = 'n' :: body ++ [')']

namespace Construction

/-- A construction whose code, up to the content, opens and closes no buffer. -/
structure IsQuiet (construction : Construction) : Prop where
  symbol : IsSymbol construction.symbol
  attributes : ∀ entry ∈ construction.attributes, Unbuffered entry.1 ∧ Unbuffered entry.2
  mixins : ∀ mixin ∈ construction.mixins, IsMixin mixin

variable {environment : Environment} {context : Context} {construction result : Construction}

theorem Mixes.isMixin {entry : Attribute × Text} {mixin : Text}
    (h : Mixes environment context entry mixin) (hregistry : environment.registry.Declared)
    (hvalue : IsArgument entry.2) : IsMixin mixin := by
  obtain ⟨qualifier, name, resolved, signature, -, hresolve, -, -, rfl⟩ := h
  have hsymbol := Environment.isSymbol_of_resolve hregistry hresolve
  have hargument : IsArgument (entry.2 ++ [')']) := by
    obtain ⟨c, rest, hopens, hc⟩ := hvalue.opens
    exact ⟨hvalue.unbuffered.concat (by decide), c, rest ++ [')'], by rw [hopens]; rfl, hc⟩
  have hcall := @IsSymbol.quiet_call _ "new ".toList _ hsymbol (by decide) (by decide) hargument
  constructor
  · simpa only [List.append_assoc, List.cons_append, List.nil_append] using hcall
  · exact ⟨"ew ".toList ++ resolved.symbol ++ ['('] ++ entry.2, rfl⟩

theorem mem_put {entry : Text × Text} {key value : Text} {entries : List (Text × Text)}
    (h : entry ∈ Keyed.put key value entries) : entry = (key, value) ∨ entry ∈ entries := by
  induction entries with
  | nil => exact Or.inl (List.mem_singleton.mp h)
  | cons first entries ih =>
    unfold Keyed.put at h
    split at h
    · rcases List.mem_cons.mp h with rfl | h
      · exact Or.inl rfl
      · exact Or.inr (List.mem_cons_of_mem _ h)
    · rcases List.mem_cons.mp h with rfl | h
      · exact Or.inr List.mem_cons_self
      · exact (ih h).imp_right (List.mem_cons_of_mem _)

theorem IsQuiet.add {attr : Attribute} (hregistry : environment.registry.Declared)
    (h : construction.IsQuiet) (hname : Unbuffered attr.name) (hvalue : attr.value.Plain)
    (hadd : add environment context construction attr = .ok result) : result.IsQuiet := by
  obtain ⟨value, hcode, ⟨-, rfl⟩ | ⟨mixin, hmixin, rfl⟩⟩ := add_ok hadd
  · have hargument := isArgument_valueCode hvalue hcode
    refine ⟨h.symbol, ?_, h.mixins⟩
    intro entry hentry
    rcases mem_put hentry with rfl | hentry
    · exact ⟨hname, hargument.unbuffered⟩
    · exact h.attributes entry hentry
  · refine ⟨h.symbol, h.attributes, ?_⟩
    intro other hother
    rcases List.mem_append.mp hother with hother | hother
    · exact h.mixins other hother
    · obtain rfl := List.mem_singleton.mp hother
      exact hmixin.isMixin hregistry (isArgument_valueCode hvalue hcode)

theorem IsQuiet.addAll {attributes : List Attribute} (hregistry : environment.registry.Declared)
    (h : construction.IsQuiet)
    (hattributes : ∀ attr ∈ attributes, Unbuffered attr.name ∧ attr.value.Plain)
    (hadd : addAll environment context construction attributes = .ok result) :
    result.IsQuiet := by
  induction attributes generalizing construction with
  | nil =>
    cases hadd
    exact h
  | cons attr attributes ih =>
    unfold Construction.addAll at hadd
    split at hadd
    · cases hadd
    · rename_i added hattr
      obtain ⟨hname, hvalue⟩ := hattributes attr List.mem_cons_self
      exact ih (h.add hregistry hname hvalue hattr)
        (fun attr hmem => hattributes attr (List.mem_cons_of_mem _ hmem)) hadd

/-- The construction of a tag without buffers and references is quiet. -/
theorem isQuiet_of_ofTag {text after qualifier : Text} {tag : Tag}
    (hregistry : environment.registry.Declared) (htag : Tag.parse? text = some (tag, after))
    (htext : Unbuffered text) (hreference : '&' ∉ text)
    (h : ofTag environment context qualifier tag = .ok construction) : construction.IsQuiet := by
  have hname : Unbuffered tag.name := htext.of_infix (Tag.name_infix_of_parse? htag)
  have hsubject : ∀ entry ∈ (subject context qualifier tag.name).2.2,
      Unbuffered entry.1 ∧ Unbuffered entry.2 := by
    unfold subject
    split
    · intro entry hentry
      obtain rfl := List.mem_singleton.mp hentry
      exact ⟨rfl, hname.singleQuoted⟩
    · intro entry hentry
      cases hentry
  unfold ofTag at h
  simp only at h
  split at h
  · cases h
  · rename_i resolved hresolve
    split at h
    · have hstart : IsQuiet ⟨resolved.symbol, (subject context qualifier tag.name).2.2, []⟩ := by
        refine ⟨Environment.isSymbol_of_resolve hregistry hresolve, hsubject, ?_⟩
        intro mixin hmixin
        cases hmixin
      refine hstart.addAll hregistry ?_ h
      intro attr hattr
      exact Tag.plain_of_parse? htag htext hreference hattr
    · cases h

theorem isMixin_join {mixins : List Text} (hne : mixins ≠ [])
    (h : ∀ mixin ∈ mixins, IsMixin mixin) : IsMixin (Text.join [','] mixins) := by
  induction mixins with
  | nil => exact absurd rfl hne
  | cons mixin mixins ih =>
    have hmixin := h mixin List.mem_cons_self
    cases mixins with
    | nil => rwa [Text.join_singleton]
    | cons second mixins =>
      have hrest := ih (List.cons_ne_nil _ _) fun mixin hmem =>
        h mixin (List.mem_cons_of_mem _ hmem)
      rw [Text.join_cons_cons]
      refine ⟨hmixin.quiet.append_cons hrest.quiet (by decide) (by decide), ?_⟩
      obtain ⟨body, hbody⟩ := hmixin.shape
      obtain ⟨later, hlater⟩ := hrest.shape
      exact ⟨body ++ ')' :: ',' :: 'n' :: later, by simp [hbody, hlater]⟩

def attributesCode (construction : Construction) : Text :=
  '[' :: (Text.join [','] (construction.attributes.map fun entry =>
    Code.singleQuoted entry.1 ++ "=>".toList ++ entry.2) ++ [']'])

def callsCode (construction : Construction) : Text :=
  (if construction.mixins.isEmpty then []
    else "->mixin(".toList ++ Text.join [','] construction.mixins ++ [')']) ++ "->run()".toList

theorem code_eq (construction : Construction) (content : Text) :
    construction.code content = "(new ".toList ++ construction.symbol ++ ['('] ++
      construction.attributesCode ++ ',' :: (content ++ ',' :: ("get_defined_vars()))".toList ++
        construction.callsCode)) := by
  have hopen : "([".toList = '(' :: ['['] := by decide
  have hclose : "],".toList = ']' :: [','] := by decide
  have hscope : ",get_defined_vars()))".toList = ',' :: "get_defined_vars()))".toList := by decide
  unfold code attributesCode callsCode
  simp only
  rw [hopen, hclose, hscope]
  simp only [List.append_assoc, List.cons_append, List.nil_append]

theorem IsQuiet.unbuffered_attributesCode (h : construction.IsQuiet) :
    Unbuffered construction.attributesCode := by
  refine (Unbuffered.concat ?_ (by decide)).cons (by decide)
  apply Unbuffered.join (by decide)
  intro part hpart
  obtain ⟨entry, hentry, rfl⟩ := List.mem_map.mp hpart
  obtain ⟨hname, hvalue⟩ := h.attributes entry hentry
  rw [List.append_assoc]
  exact hname.singleQuoted.append_cons (hvalue.cons (by decide)) (by decide)

theorem IsQuiet.quiet_calls {tail : Text} (h : construction.IsQuiet)
    (htail : Unbuffered (">run()".toList ++ tail)) :
    Quiet ("get_defined_vars()))".toList ++ construction.callsCode ++ tail) := by
  have hcapture : '-' ∉ Code.capture := by decide
  have hcaptured : '-' ∉ Code.captured := by decide
  have hscope : Quiet "get_defined_vars()))".toList := Unbuffered.quiet rfl
  unfold callsCode
  split
  · have hcalls := hscope.append_cons htail.quiet hcapture hcaptured
    simpa using hcalls
  · rename_i hmixins
    have hne : construction.mixins ≠ [] := fun hnil => hmixins (by rw [hnil]; rfl)
    have hjoined := isMixin_join hne h.mixins
    obtain ⟨body, hbody⟩ := hjoined.shape
    have hopened : Quiet (">mixin(".toList ++ Text.join [','] construction.mixins) := by
      refine Quiet.append (Unbuffered.quiet rfl) hjoined.quiet ?_
      rw [hbody]
      exact apart_of_call (by decide) ">mixin".toList _
    have hclosed : Quiet (">mixin(".toList ++ Text.join [','] construction.mixins ++ [')']) := by
      refine hopened.append (Unbuffered.quiet rfl) ?_
      rw [hbody, ← List.append_assoc]
      exact apart_of_pair (by rintro lead (rfl | rfl) <;> decide) _ []
    have hmixin := hscope.append_cons hclosed hcapture hcaptured
    have hcalls := hmixin.append_cons htail.quiet hcapture hcaptured
    simpa using hcalls

/-- Wherever the expression of a quiet construction stands, the steps are those of the content. -/
theorem IsQuiet.bufferSteps_code {first tail : Text} (h : construction.IsQuiet)
    (hfirst : Quiet (first ++ "(new ".toList ++ construction.symbol ++ ['(']))
    (htail : Unbuffered (">run()".toList ++ tail)) (content : Text) :
    bufferSteps (first ++ construction.code content ++ tail) = bufferSteps content := by
  have hparts := @bufferSteps_append_cons ',' (by decide) (by decide)
  have hleft : Quiet (first ++ "(new ".toList ++ construction.symbol ++ ['('] ++
      construction.attributesCode) :=
    hfirst.append_cons (h.unbuffered_attributesCode.of_infix (List.suffix_cons _ _).isInfix).quiet
      (by decide) (by decide)
  have htext : first ++ construction.code content ++ tail =
      first ++ "(new ".toList ++ construction.symbol ++ ['('] ++ construction.attributesCode ++
        ',' :: (content ++
          ',' :: ("get_defined_vars()))".toList ++ construction.callsCode ++ tail)) := by
    rw [code_eq]
    simp only [List.append_assoc, List.cons_append]
  rw [htext, hparts, hparts, hleft.bufferSteps_eq, (h.quiet_calls htail).bufferSteps_eq]
  rw [List.nil_append, List.append_nil]

end Construction

end TemplateCompiler
