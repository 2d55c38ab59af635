import TemplateCompiler.Proofs.BufferBalance
import TemplateCompiler.Proofs.PromotedElement

/-!
# Attributes as a map and mixins

The attributes of a component's tag are gone through in their order. A plain one becomes an entry of
a map, in which its name stays where it stood first and has the value it was given last; a directive
becomes a mixin behind those before it.
-/
namespace TemplateCompiler

namespace Keyed

variable {α : Type} {entries map : List (Text × α)} {key : Text} {value : α}

/-- A sequence of entries as a map: the keys stand in the order in which they first occur, each of
them once, and have the values of their last entries. -/
structure IsMapOf (entries map : List (Text × α)) : Prop where
  ordered : (map.map Prod.fst).Pairwise fun first second =>
    (entries.map Prod.fst).idxOf first < (entries.map Prod.fst).idxOf second
  lookup : ∀ key, map.lookup key = entries.reverse.lookup key

theorem mem_keys_iff : key ∈ map.map Prod.fst ↔ map.lookup key ≠ none := by
  rw [Ne, List.lookup_eq_none_iff, List.mem_map]
  constructor
  · rintro ⟨entry, hentry, rfl⟩ hnone
    simpa using hnone entry hentry
  · intro hsome
    by_contra hkey
    exact hsome fun entry hentry => by simpa using fun heq => hkey ⟨entry, hentry, heq.symm⟩

theorem keys_put (key : Text) (value : α) (map : List (Text × α)) :
    (put key value map).map Prod.fst =
      if key ∈ map.map Prod.fst then map.map Prod.fst else map.map Prod.fst ++ [key] := by
  induction map with
  | nil => rfl
  | cons entry map ih =>
    rw [put]
    split
    · rename_i hkey
      rw [if_pos (by simp [hkey])]
      simp [hkey]
    · rename_i hkey
      rw [List.map_cons, ih]
      by_cases hmem : key ∈ map.map Prod.fst
      · rw [if_pos hmem, if_pos (by rw [List.map_cons]; exact List.mem_cons_of_mem _ hmem)]
        rfl
      · have hnot : key ∉ (entry :: map).map Prod.fst := by
          rw [List.map_cons, List.mem_cons, not_or]
          exact ⟨Ne.symm hkey, hmem⟩
        rw [if_neg hmem, if_neg hnot]
        rfl

namespace IsMapOf

theorem nil : IsMapOf ([] : List (Text × α)) [] := ⟨List.Pairwise.nil, fun _ => rfl⟩

theorem mem_keys_iff (h : IsMapOf entries map) (key : Text) :
    key ∈ map.map Prod.fst ↔ key ∈ entries.map Prod.fst := by
  rw [Keyed.mem_keys_iff, h.lookup, ← Keyed.mem_keys_iff, List.map_reverse, List.mem_reverse]

theorem nodup (h : IsMapOf entries map) : (map.map Prod.fst).Nodup := by
  refine h.ordered.imp ?_
  rintro first _ hlt rfl
  exact Nat.lt_irrefl _ hlt

theorem put (h : IsMapOf entries map) (key : Text) (value : α) :
    IsMapOf (entries ++ [(key, value)]) (put key value map) where
  ordered := by
    -- the entry that is added comes last, so all keys stay where they first occur
    have hbefore : (map.map Prod.fst).Pairwise fun first second =>
        ((entries ++ [(key, value)]).map Prod.fst).idxOf first <
          ((entries ++ [(key, value)]).map Prod.fst).idxOf second := by
      refine h.ordered.imp_of_mem fun hfirst hsecond hlt => ?_
      rw [List.map_append, List.idxOf_append_of_mem ((h.mem_keys_iff _).mp hfirst),
        List.idxOf_append_of_mem ((h.mem_keys_iff _).mp hsecond)]
      exact hlt
    rw [keys_put]
    split
    · exact hbefore
    · rename_i hnew
      refine List.pairwise_append.mpr ⟨hbefore, List.pairwise_singleton _ _, ?_⟩
      intro first hfirst second hsecond
      obtain rfl := List.mem_singleton.mp hsecond
      have hfirst' := (h.mem_keys_iff first).mp hfirst
      have hsecond' := mt (h.mem_keys_iff second).mpr hnew
      rw [List.map_append, List.idxOf_append_of_mem hfirst', List.idxOf_append_of_notMem hsecond']
      exact Nat.lt_of_lt_of_le (List.idxOf_lt_length_of_mem hfirst') (Nat.le_add_right _ _)
  lookup other := by
    rw [lookup_put, h.lookup, List.reverse_append, List.reverse_singleton, List.singleton_append,
      lookup_cons]

end IsMapOf

end Keyed

theorem Code.singleQuoted_injective : Function.Injective Code.singleQuoted := by
  intro first second h
  have hspecial : isSingleQuotedSpecial '\\' := by decide
  have hescaped := List.append_cancel_right (List.cons.inj h).2
  rw [← unescape_escape hspecial first, hescaped, unescape_escape hspecial]

theorem Attribute.directive?_of_isXmlName {attr : Attribute} {qualifier name : Text}
    (h : attr.name = qualifier ++ ':' :: name) (hxml : isXmlName qualifier) :
    attr.directive? = none := by
  have hcolon : ':' ∉ qualifier := by
    intro hmem
    obtain ⟨xml, hlisted, hequal⟩ := List.any_eq_true.mp hxml
    have hnone : ["xml", "xlink", "xmlns"].all
        fun xml => !(xml.toList.map Char.toLower).contains ':' := by decide
    have hplain := List.all_eq_true.mp hnone xml hlisted
    rw [beq_iff_eq.mp hequal] at hplain
    have hlower : ':' ∈ qualifier.map Char.toLower := List.mem_map.mpr ⟨':', hmem, by decide⟩
    simp [hlower] at hplain
  rw [directive?, h, Text.cut?_of_not_mem hcolon, Option.bind_some]
  exact if_neg (by simp [hxml])

namespace Construction

variable {environment : Environment} {context : Context} {construction result : Construction}

/-- The entries of the attributes that are not directives, given the attributes with the
expressions for their values. -/
def plainEntries (compiled : List (Attribute × Text)) : List (Text × Text) :=
  (compiled.filter fun entry => entry.1.directive?.isNone).map fun entry => (entry.1.name, entry.2)

def directiveEntries (compiled : List (Attribute × Text)) : List (Attribute × Text) :=
  compiled.filter fun entry => entry.1.directive?.isSome

/-- The attributes that are added make, with the entries before them, the map; and the directives
among them make the mixins that come behind the others. -/
theorem addAll_ok_cases {attributes : List Attribute} {entries : List (Text × Text)}
    (h : addAll environment context construction attributes = .ok result)
    (hmap : Keyed.IsMapOf entries construction.attributes) :
    ∃ compiled mixins, compiled.map Prod.fst = attributes ∧
      (∀ entry ∈ compiled, valueCode environment.options.markers entry.1.value = .ok entry.2) ∧
      Keyed.IsMapOf (entries ++ plainEntries compiled) result.attributes ∧
      result.mixins = construction.mixins ++ mixins ∧
      List.Forall₂ (Mixes environment context) (directiveEntries compiled) mixins := by
  -- the sequence of entries grows with the map, one plain attribute at a time
  induction attributes generalizing construction entries with
  | nil =>
    cases h
    refine ⟨[], [], rfl, by simp, ?_, by simp, List.Forall₂.nil⟩
    simpa [plainEntries] using hmap
  | cons attr attributes ih =>
    rw [addAll] at h
    split at h
    · cases h
    · rename_i added hadd
      obtain ⟨value, hvalue, ⟨hplain, rfl⟩ | ⟨mixin, hmixin, rfl⟩⟩ := add_ok hadd
      · obtain ⟨compiled, mixins, hattributes, hvalues, hlater, hmixins, hall⟩ :=
          ih h (hmap.put attr.name value)
        refine ⟨(attr, value) :: compiled, mixins, by rw [List.map_cons, hattributes],
          List.forall_mem_cons.mpr ⟨hvalue, hvalues⟩, ?_, hmixins, ?_⟩
        · simpa [plainEntries, hplain] using hlater
        · simpa [directiveEntries, hplain] using hall
      · obtain ⟨compiled, mixins, hattributes, hvalues, hlater, hmixins, hall⟩ := ih h hmap
        obtain ⟨directive, hdirective⟩ := hmixin.exists_directive
        refine ⟨(attr, value) :: compiled, mixin :: mixins, by rw [List.map_cons, hattributes],
          List.forall_mem_cons.mpr ⟨hvalue, hvalues⟩, ?_, ?_, ?_⟩
        · simpa [plainEntries, hdirective] using hlater
        · simpa using hmixins
        · simpa [directiveEntries, hdirective] using ⟨hmixin, hall⟩

theorem isMapOf_subject (context : Context) (qualifier name : Text) :
    Keyed.IsMapOf (if Name.aliasKey qualifier = "html".toList ∧ context.binding? qualifier = none
        then [("tag".toList, Code.singleQuoted name)] else [])
      (subject context qualifier name).2.2 := by
  have hiff : (decide (Name.aliasKey qualifier = htmlQualifier) &&
      (context.binding? qualifier).isNone) = true ↔
      Name.aliasKey qualifier = "html".toList ∧ context.binding? qualifier = none := by
    rw [Bool.and_eq_true, decide_eq_true_iff, Option.isNone_iff_eq_none]
    rfl
  by_cases hplain : Name.aliasKey qualifier = "html".toList ∧ context.binding? qualifier = none
  · rw [if_pos hplain, subject, if_pos (hiff.mpr hplain)]
    exact Keyed.IsMapOf.nil.put "tag".toList (Code.singleQuoted name)
  · rw [if_neg hplain, subject, if_neg fun hother => hplain (hiff.mp hother)]
    exact Keyed.IsMapOf.nil

theorem ofTag_ok_cases {qualifier : Text} {tag : Tag}
    (h : ofTag environment context qualifier tag = .ok result) :
    ∃ compiled, compiled.map Prod.fst = tag.attributes ∧
      (∀ entry ∈ compiled, valueCode environment.options.markers entry.1.value = .ok entry.2) ∧
      Keyed.IsMapOf ((if Name.aliasKey qualifier = "html".toList ∧
            context.binding? qualifier = none
          then [("tag".toList, Code.singleQuoted tag.name)] else []) ++ plainEntries compiled)
        result.attributes ∧
      List.Forall₂ (Mixes environment context) (directiveEntries compiled) result.mixins := by
  unfold ofTag at h
  simp only at h
  split at h
  · cases h
  · rename_i resolved hresolve
    split at h
    · obtain ⟨compiled, mixins, hattributes, hvalues, hmap, hmixins, hall⟩ :=
        addAll_ok_cases h (isMapOf_subject context qualifier tag.name)
      rw [List.nil_append] at hmixins
      exact ⟨compiled, hattributes, hvalues, hmap, hmixins ▸ hall⟩
    · cases h

end Construction

namespace Component

variable {environment : Environment} {nested : Text → Pass Text} {place : Place}
  {fresh claimed more : Nat} {new : Text} {context after : Context}

theorem exists_code_eq (options : Options) (indent : Text) (construction : Construction)
    (compiled : Text) : ∃ front content back,
      code options indent construction compiled = front ++ construction.code content ++ back := by
  unfold code
  split
  · exact ⟨_, _, _, Code.output_eq _ _ _ _⟩
  · rename_i content _
    refine ⟨(if options.mode = .pretty then indent else []) ++ "<?php ob_start() ?>".toList ++
      content ++ indent ++ Code.outputStart options.mode [], Code.captured,
      Code.outputEnd options.mode indent, ?_⟩
    rw [Code.buffered, Code.output_eq]
    simp only [List.append_assoc]

/-- The code that takes the place of a component holds an array and a list of mixins. Each attribute
of the tag has its expression and goes to one of the two: to the mixins if it is a directive, to the
array if it is not, as with any prefix of XML. The array has the name of each attribute that goes
there once, in the order in which the names first occur, with the expression of the last attribute
of that name, and begins with the name of the tag if its qualifier is the one for plain markup and
is not bound. The mixins are those of the directives one by one, each of a handler that takes one
value. -/
theorem attributes_become_map_and_mixins
    (h : (step environment nested place fresh).run context =
      (.ok (.replace claimed more new), after)) :
    ∃ tag behind qualifier compiled symbol entries mixins content front back,
      Tag.parse? place.rest = some (tag, behind) ∧ qualifier? tag = some qualifier ∧
      compiled.map Prod.fst = tag.attributes ∧
      (∀ entry ∈ compiled,
        Construction.valueCode environment.options.markers entry.1.value = .ok entry.2) ∧
      new = front ++ ("(new ".toList ++ symbol ++ "([".toList ++
          Text.join [','] (entries.map fun entry =>
            Code.singleQuoted entry.1 ++ "=>".toList ++ entry.2) ++ "],".toList ++ content ++
          ",get_defined_vars()))".toList ++
          (if mixins.isEmpty then []
            else "->mixin(".toList ++ Text.join [','] mixins ++ [')']) ++
          "->run()".toList) ++ back ∧
      Keyed.IsMapOf ((if Name.aliasKey qualifier = "html".toList ∧
            context.binding? qualifier = none
          then [("tag".toList, Code.singleQuoted tag.name)] else []) ++
          Construction.plainEntries compiled) entries ∧
      (entries.map fun entry => Code.singleQuoted entry.1).Nodup ∧
      List.Forall₂ (Construction.Mixes environment context)
        (Construction.directiveEntries compiled) mixins ∧
      tag.attributes.length = (Construction.plainEntries compiled).length + mixins.length ∧
      ∀ attr ∈ tag.attributes, ∀ xml name, attr.name = xml ++ ':' :: name → isXmlName xml →
        attr.name ∈ entries.map Prod.fst ∧
          ∀ entry ∈ Construction.directiveEntries compiled, entry.1 ≠ attr := by
  obtain ⟨tag, behind, qualifier, element, rest, construction, content, later, htag, hqualifier, -,
    hconstruction, -, rfl⟩ := replaced_of_step h
  obtain ⟨compiled, hattributes, hvalues, hmap, hmixins⟩ :=
    Construction.ofTag_ok_cases hconstruction
  obtain ⟨front, argument, back, hcode⟩ := exists_code_eq environment.options
    (Layout.lineIndent place.before fresh) construction content
  refine ⟨tag, behind, qualifier, compiled, construction.symbol, construction.attributes,
    construction.mixins, argument, front, back, htag, hqualifier, hattributes, hvalues, hcode, hmap,
    ?_, hmixins, ?_, ?_⟩
  · have hkeys := hmap.nodup.map Code.singleQuoted_injective
    rwa [List.map_map] at hkeys
  · rw [← hattributes, ← hmixins.length_eq, List.length_map, Construction.plainEntries,
      List.length_map, Construction.directiveEntries, Nat.add_comm]
    simpa using @List.length_eq_length_filter_add _ compiled fun entry => entry.1.directive?.isSome
  · intro attr hattr xml name hname hxml
    have hplain := Attribute.directive?_of_isXmlName hname hxml
    refine ⟨?_, ?_⟩
    · rw [← hattributes] at hattr
      obtain ⟨entry, hentry, rfl⟩ := List.mem_map.mp hattr
      rw [hmap.mem_keys_iff, List.map_append, List.mem_append]
      refine Or.inr (List.mem_map.mpr ⟨(entry.1.name, entry.2), ?_, rfl⟩)
      refine List.mem_map.mpr ⟨entry, List.mem_filter.mpr ⟨hentry, ?_⟩, rfl⟩
      rw [hplain]
      rfl
    · rintro entry hentry rfl
      have hdirective := (List.mem_filter.mp hentry).2
      rw [hplain] at hdirective
      cases hdirective

/-- A plain paragraph in which a name occurs again behind another one and a hint is given twice. -/
theorem attributes_become_map_and_mixins_of_hints :
    let place := Place.start
      "<html:p a=\"1\" hint:tip=\"x\" xml:lang=en a=$y hint:tip=2/>".toList
    let new := ("<?php _h\\out((new \\hyperblade\\Html(['tag'=>'p','a'=>$y,'xml:lang'=>en],''," ++
      "get_defined_vars()))->mixin(new hint\\Tip(\"x\"),new hint\\Tip(2))->run(), '') ?> ").toList
    (step hintEnvironment pure place 0).run hintContext = (.ok (.replace 0 55 new), hintContext) ∧
    ∃ compiled entries mixins,
      Keyed.IsMapOf (("tag".toList, "'p'".toList) :: Construction.plainEntries compiled) entries ∧
      List.Forall₂ (Construction.Mixes hintEnvironment hintContext)
        (Construction.directiveEntries compiled) mixins ∧
      5 = (Construction.plainEntries compiled).length + mixins.length := by
  intro place new
  have hrun : (step hintEnvironment pure place 0).run hintContext =
      (.ok (.replace 0 55 new), hintContext) :=
    Prod.ext (eq_ok_of_toOption (by decide +kernel)) (by decide +kernel)
  obtain ⟨tag, behind, qualifier, compiled, -, entries, mixins, -, -, -, htag, hqualifier, -, -, -,
    hmap, -, hmixins, hlength, -⟩ := attributes_become_map_and_mixins hrun
  have hparse : (Tag.parse? place.rest).map (fun found => (qualifier? found.1, found.1.name,
      found.1.attributes.length)) = some (some "html".toList, "p".toList, 5) := by decide +kernel
  rw [htag, Option.map_some, hqualifier] at hparse
  simp only [Option.some.injEq, Prod.mk.injEq] at hparse
  obtain ⟨rfl, hname, hcount⟩ := hparse
  have hplain : Name.aliasKey "html".toList = "html".toList ∧
      hintContext.binding? "html".toList = none := by decide +kernel
  rw [if_pos hplain, hname] at hmap
  rw [hcount] at hlength
  exact ⟨hrun, compiled, entries, mixins, hmap, hmixins, hlength⟩

end Component

end TemplateCompiler
