import TemplateCompiler.Proofs.CallEnd
import TemplateCompiler.Proofs.ConstructFree
import TemplateCompiler.Proofs.UseLines

/-!
# Arguments of a call

The arguments of a call are code of the host language and go into the statement of the call as they
are written. The pass over the calls reads no more of them than their brackets and quotes. The other
passes do not know of arguments, though: a directive, the end of a block or a tag that one of them
would act upon is acted upon in the arguments of a call as well. Where there is nothing of this
kind, the arguments come out unchanged.
-/
namespace TemplateCompiler

namespace Tag.Everywhere

variable {p : Tag × Text → Prop} {first second : Text}

theorem append (hfirst : '<' ∉ first) (h : Everywhere p second) :
    Everywhere p (first ++ second) := by
  intro rest hrest found hfound
  rcases Text.suffix_append hrest with hlater | ⟨tail, htail, rfl⟩
  · exact h rest hlater found hfound
  · cases tail with
    | nil => exact h second (List.suffix_refl _) found hfound
    | cons c tail =>
      have hc : c ≠ '<' := by
        rintro rfl
        exact hfirst (htail.subset List.mem_cons_self)
      rw [List.cons_append, parse?_eq_none hc] at hfound
      cases hfound

theorem code (h : Everywhere p second) : Everywhere p ('<' :: '?' :: second) := by
  intro rest hrest found hfound
  rcases List.suffix_cons_iff.mp hrest with rfl | hlater
  · have hcode : parse? ('<' :: '?' :: second) = none := rfl
    rw [hcode] at hfound
    cases hfound
  · have hquestion : '<' ∉ ['?'] := by decide
    exact append hquestion h rest hlater found hfound

theorem callEnd {q : Tag × Text → Prop}
    (hq : ∀ text tag after, parse? text = some (tag, after) → p (tag, after) →
      q (tag, after ++ TemplateCompiler.callEnd))
    (h : Everywhere p first) : Everywhere q (first ++ TemplateCompiler.callEnd) := by
  intro rest hrest found hfound
  rcases Text.suffix_append hrest with hlater | ⟨tail, htail, rfl⟩
  · have hnil : Everywhere q [] := by
      intro rest hrest found hfound
      rw [List.suffix_nil.mp hrest] at hfound
      cases hfound
    have hend : '<' ∉ TemplateCompiler.callEnd := by decide
    have heverywhere := append hend hnil
    rw [List.append_nil] at heverywhere
    exact heverywhere rest hlater found hfound
  · rw [parse?_callEnd, Option.mem_def, Option.map_eq_some_iff] at hfound
    obtain ⟨⟨tag, after⟩, hparse, rfl⟩ := hfound
    exact hq tail tag after hparse (h tail htail (tag, after) hparse)

end Tag.Everywhere

/-- A tag, with what follows it, is no construct where the alias `util` is bound. -/
def Tag.IsForeign (found : Tag × Text) : Prop :=
  found.1.IsMarkup found.2 ∧
    ∀ directive ∈ found.1.directives, Name.aliasKey directive.1 ≠ "util".toList

instance : DecidablePred Tag.IsForeign := fun found =>
  inferInstanceAs (Decidable (found.1.IsMarkup found.2 ∧
    ∀ directive ∈ found.1.directives, Name.aliasKey directive.1 ≠ "util".toList))

/-- Only the pass over the calls has to do with an argument text, if the alias `util` is bound: no
other pass would act upon anything in it. -/
structure Unnoticed (argument : Text) : Prop where
  directive : DirectiveFree argument
  block : argument.contains "@@end".toList = false
  tag : Tag.Everywhere Tag.IsForeign argument

instance (argument : Text) : Decidable (Unnoticed argument) :=
  decidable_of_iff
    (DirectiveFree argument ∧ argument.contains "@@end".toList = false ∧
      Tag.Everywhere Tag.IsForeign argument)
    ⟨fun h => ⟨h.1, h.2.1, h.2.2⟩, fun h => ⟨h.directive, h.block, h.tag⟩⟩

def greetCall (argument : Text) : Text :=
  '\n' :: ("@@util.greet".toList ++ '(' :: (argument ++ [')']))

def greetStatement (argument : Text) : Text :=
  "\n<?php _h\\out(Util::greet".toList ++ '(' :: (argument ++ callEnd)

def utilContext : Context :=
  ⟨Context.initial.bindings ++ [("util".toList, ⟨"util".toList, ['U'], true⟩)], 1,
    ["use U as Util;".toList]⟩

variable {argument : Text}

theorem directiveFree_greetCall (h : DirectiveFree argument) :
    DirectiveFree (greetCall argument) := by
  intro keyword hkeyword
  have hopening : ∀ keyword ∈ ["@use", "@config", "@content", "xmlns:"],
      '(' ∉ keyword.toList ∧ ')' ∉ keyword.toList ∧
        Text.contains ('\n' :: "@@util.greet".toList) keyword.toList = false ∧
        Text.contains [] keyword.toList = false := by
    decide
  obtain ⟨hopen, hclose, hfirst, hlast⟩ := hopening keyword hkeyword
  exact Text.contains_append_cons hopen hfirst
    (Text.contains_append_cons hclose (h keyword hkeyword) hlast)

theorem binding?_utilContext {name : Text} (hruntime : Name.aliasKey name ≠ "_h".toList)
    (hutil : Name.aliasKey name ≠ "util".toList) : utilContext.binding? name = none := by
  have hkey : Name.aliasKey Binding.runtime.name = "_h".toList := by decide
  rw [← hkey] at hruntime
  simp only [Context.binding?, utilContext, Context.initial, List.cons_append, List.nil_append,
    List.lookup_cons, beq_eq_false_iff_ne.mpr hruntime, beq_eq_false_iff_ne.mpr hutil,
    List.lookup_nil]

/-- A tag that is no construct where the arguments end is none in front of the end of the call. -/
theorem Tag.IsForeign.callEnd {text after : Text} {tag : Tag}
    (hparse : Tag.parse? text = some (tag, after)) (h : Tag.IsForeign (tag, after)) :
    Tag.IsForeign (tag, after ++ TemplateCompiler.callEnd) := by
  obtain ⟨hmarkup, hfree⟩ := h
  refine ⟨?_, hfree⟩
  rcases hmarkup with hplain | hreserved | ⟨hqualifier, hopen⟩
  · exact Or.inl hplain
  · exact Or.inr (Or.inl hreserved)
  · refine Or.inr (Or.inr ⟨hqualifier, ?_⟩)
    rw [Element.ofTag?_callEnd hparse, hopen, Option.map_none]

theorem settled_greetStatement (h : Unnoticed argument) :
    Settled {} utilContext (greetStatement argument) := by
  have hprefix : "\n<?php _h\\out(Util::greet".toList =
      ['\n'] ++ '<' :: '?' :: "php _h\\out(Util::greet".toList := by decide
  have hstatement : greetStatement argument = ['\n'] ++
      '<' :: '?' :: ("php _h\\out(Util::greet".toList ++ (['('] ++ (argument ++ callEnd))) :=
    Text.append_of_eq hprefix _
  have htags : Tag.Everywhere Tag.IsForeign (greetStatement argument) := by
    have harguments : Tag.Everywhere Tag.IsForeign (argument ++ callEnd) :=
      h.tag.callEnd fun _ _ _ => Tag.IsForeign.callEnd
    have hline : '<' ∉ ['\n'] := by decide
    have hopening : '<' ∉ "php _h\\out(Util::greet".toList := by decide
    have hbracket : '<' ∉ ['('] := by decide
    rw [hstatement]
    exact .append hline (.code (.append hopening (.append hbracket harguments)))
  have hblock : (greetStatement argument).contains "@@end".toList = false := by
    have hfirst : Text.contains "\n<?php _h\\out(Util::greet".toList "@@end".toList = false := by
      decide
    have hlast : Text.contains ", '') ?> ".toList "@@end".toList = false := by
      decide
    exact Text.contains_append_cons (by decide) hfirst
      (Text.contains_append_cons (by decide) h.block hlast)
  refine ⟨Block.entries_eq_none hblock none, ?_, ?_⟩
  · intro rest hrest found hfound
    obtain ⟨hmarkup, hfree⟩ := htags rest hrest found hfound
    exact hmarkup.not_isPromotable fun directive hdirective hruntime =>
      binding?_utilContext hruntime (hfree directive hdirective)
  · intro rest hrest found hfound
    exact (htags rest hrest found hfound).1.isNone

/-- The directive binds the alias and goes; the line break after it stays. -/
theorem run_uses_greetCall (h : DirectiveFree (greetCall argument)) :
    (Directive.uses ("@use(U as util)".toList ++ greetCall argument)).run
      { Context.initial with level := Context.initial.level + 1 } =
        (.ok (greetCall argument), utilContext) := by
  have htarget : Directive.Use.IsTarget ['U'] := by decide
  have hname : "util".toList.all Directive.isNameChar := by decide
  have hnone : List.all [] Text.isSpaceOrTab := rfl
  have hend : Directive.isLineEnd (greetCall argument) := rfl
  have hblank : Text.isBlank [] := rfl
  have hunglued : ¬([] : Text).getLast?.any isWordChar := by decide
  have hdeclare : Context.declare { Context.initial with level := Context.initial.level + 1 }
      "util".toList ['U'] = .ok utilContext := rfl
  have hrun := (Directive.Use.run_written htarget hname hnone hend hblank hunglued _).2 _ hdeclare
  rw [h.uses_eq_pure] at hrun
  exact hrun

theorem length_splitArgumentsFrom_pos (quoting : Code.Quoting) (depth : Nat) (text : Text) :
    0 < (Code.splitArgumentsFrom quoting depth text).length := by
  have hcons (c : Char) (parts : List Text) : 0 < (Text.consFirst c parts).length := by
    cases parts <;> simp [Text.consFirst]
  cases text with
  | nil => simp [Code.splitArgumentsFrom]
  | cons c rest =>
    rw [Code.splitArgumentsFrom]
    split
    · simp
    · exact hcons c _

def greetHead (argument : Text) : Head :=
  ⟨"@@".toList, some ("util".toList, '.'), "greet".toList, some ([], '(' :: (argument ++ [')']))⟩

theorem parse?_greetHead (hgroup : Code.group? ('(' :: (argument ++ [')'])) =
    some ('(' :: (argument ++ [')']), [])) :
    Head.parse? {} ("@@util.greet".toList ++ '(' :: (argument ++ [')'])) =
      some (greetHead argument, []) := by
  have hcall : Text.after? ({} : Markers).call
      ("@@util.greet".toList ++ '(' :: (argument ++ [')'])) =
        some ("util".toList ++ '.' :: ("greet".toList ++ '(' :: (argument ++ [')']))) := rfl
  have hqualifier := @Text.takeWhile_word isNameChar "util".toList
    ("greet".toList ++ '(' :: (argument ++ [')'])) '.' (by decide) (by decide)
  have hmethod := @Text.takeWhile_word isNameChar "greet".toList (argument ++ [')']) '('
    (by decide) (by decide)
  have hseparated : Head.qualifier? {} ("util".toList ++ '.' ::
      ("greet".toList ++ '(' :: (argument ++ [')']))) =
        some (("util".toList, '.'), "greet".toList ++ '(' :: (argument ++ [')'])) := by
    unfold Head.qualifier?
    rw [hqualifier.1, hqualifier.2]
    exact if_pos (by decide)
  have hname : Head.name? {} ("util".toList ++ '.' ::
      ("greet".toList ++ '(' :: (argument ++ [')']))) =
        some (some ("util".toList, '.'), "greet".toList, '(' :: (argument ++ [')'])) := by
    unfold Head.name?
    rw [hqualifier.1, if_neg (by decide), hseparated]
    simp only [hmethod.1, hmethod.2]
  have harguments : Head.arguments? ('(' :: (argument ++ [')'])) =
      some (some ([], '(' :: (argument ++ [')'])), []) := by
    have hbracket : ('(' :: (argument ++ [')'])).dropWhile Unicode.isWhitespace =
        '(' :: (argument ++ [')']) := rfl
    unfold Head.arguments?
    rw [hbracket]
    simp only [hgroup, Option.map_some]
    rfl
  unfold Head.parse?
  rw [hcall, Option.bind_some, hname, Option.bind_some]
  simp only [harguments, Option.map_some]
  rfl

theorem argumentText_greetHead (argument : Text) :
    (greetHead argument).argumentText = some argument := by
  simp [Head.argumentText, greetHead]

section

variable {registry : Registry} {useCache : Bool} {handler : Handler}

theorem resolve_greetHead (hhandler : registry.get? ['U'] = some handler)
    (hmethod : handler.method? "greet".toList = some [⟨"name".toList, false⟩])
    (hblank : argument.isBlank = false) :
    (greetHead argument).resolve ⟨registry, ⟨{}, .pretty, useCache⟩⟩ utilContext 0 =
      .ok ⟨"Util".toList, "greet".toList⟩ := by
  have halias : Environment.resolveAlias ⟨registry, ⟨{}, .pretty, useCache⟩⟩ utilContext
      ((greetHead argument).qualifierName.getD []) = .ok ⟨"Util".toList, handler⟩ := by
    have hbinding : utilContext.binding ((greetHead argument).qualifierName.getD []) =
        .ok ⟨"util".toList, ['U'], true⟩ := rfl
    have hsymbol : Binding.symbol ⟨"util".toList, ['U'], true⟩ = "Util".toList := by decide
    unfold Environment.resolveAlias
    rw [hbinding]
    simp only [hhandler, hsymbol]
  have hcamel : Name.camel (greetHead argument).method = "greet".toList := by
    show Name.camel "greet".toList = "greet".toList
    decide
  have hgiven : ¬(greetHead argument).argumentCount + 0 <
      Signature.required [⟨"name".toList, false⟩] := by
    have hrequired : Signature.required [⟨"name".toList, false⟩] = 1 := by decide
    have hcount : (greetHead argument).argumentCount =
        (Code.splitArgumentsFrom .outside 0 argument).length := by
      rw [Head.argumentCount, argumentText_greetHead]
      simp [Code.countArguments, Code.splitArguments, hblank]
    have hpos := length_splitArgumentsFrom_pos .outside 0 argument
    omega
  unfold Head.resolve
  rw [halias]
  simp only [hcamel, hmethod]
  rw [if_neg hgiven]

theorem code_pretty (lead : Text) (call : ResolvedCall) (head : Head) :
    SimpleCall.code .pretty lead call head =
      (lead ++ ("<?php _h\\out(".toList ++ (call.symbol ++ ("::".toList ++ call.method)))) ++
        '(' :: (head.argumentText.getD [] ++ ')' :: (", ".toList ++
          (Code.singleQuoted (Layout.indentOf lead) ++ ") ?> ".toList))) := by
  unfold SimpleCall.code Code.output ResolvedCall.code
  generalize "<?php _h\\out(".toList = opening
  generalize "::".toList = colons
  generalize ", ".toList = comma
  generalize ") ?> ".toList = closing
  simp only [List.append_assoc, List.cons_append, List.nil_append]

theorem code_greetHead (argument : Text) :
    SimpleCall.code .pretty ['\n'] ⟨"Util".toList, "greet".toList⟩ (greetHead argument) =
      greetStatement argument := by
  have hfirst : ['\n'] ++ ("<?php _h\\out(".toList ++ ("Util".toList ++ ("::".toList ++
      "greet".toList))) = "\n<?php _h\\out(Util::greet".toList := by decide
  have hlast : ')' :: (", ".toList ++ (Code.singleQuoted (Layout.indentOf ['\n']) ++
      ") ?> ".toList)) = callEnd := by decide
  have hparts (first first' last last' : Text) (hfirst : first = first') (hlast : last = last') :
      first ++ '(' :: (argument ++ last) = first' ++ '(' :: (argument ++ last') := by
    rw [hfirst, hlast]
  rw [code_pretty, argumentText_greetHead]
  exact hparts _ _ _ _ hfirst hlast

theorem step_greetCall (hhandler : registry.get? ['U'] = some handler)
    (hmethod : handler.method? "greet".toList = some [⟨"name".toList, false⟩])
    (hblank : argument.isBlank = false)
    (hgroup : Code.group? ('(' :: (argument ++ [')'])) = some ('(' :: (argument ++ [')']), [])) :
    SimpleCall.step ⟨registry, ⟨{}, .pretty, useCache⟩⟩ utilContext
        ⟨['\n'], "@@util.greet".toList ++ '(' :: (argument ++ [')'])⟩ 1 =
      .ok (.replace 1 ((greetHead argument).written.length - 1) (greetStatement argument)) := by
  have hparse := parse?_greetHead hgroup
  have hglued : ¬(Place.previous
      ⟨['\n'], "@@util.greet".toList ++ '(' :: (argument ++ [')'])⟩).any isWordChar := by
    show ¬isWordChar '\n'
    decide
  have hend : (greetHead argument).isEndTag {} = false := by
    show Text.startsWith "util".toList ['e', 'n', 'd'] = false
    decide
  have hrest : ("@@util.greet".toList ++ '(' :: (argument ++ [')'])).drop
      (greetHead argument).opener.length = '(' :: (argument ++ [')']) := by
    apply List.drop_left'
    show "@@util.greet".toList.length =
      ("@@".toList ++ Head.qualifierPart (some ("util".toList, '.')) ++ "greet".toList).length
    decide
  have hlead : Layout.lead? ['\n'] 1 = some ['\n'] := by decide
  have hstops : SimpleCall.isNameEnd ('(' :: (argument ++ [')'])) := rfl
  have hgoes : SimpleCall.goesOn {} [] = false := rfl
  unfold SimpleCall.step
  simp only [hglued, hparse, hend, hrest, hstops, hgoes, hlead,
    resolve_greetHead hhandler hmethod hblank, code_greetHead]
  rfl

theorem simpleCalls_greetCall (hhandler : registry.get? ['U'] = some handler)
    (hmethod : handler.method? "greet".toList = some [⟨"name".toList, false⟩])
    (hblank : argument.isBlank = false)
    (hgroup : Code.group? ('(' :: (argument ++ [')'])) = some ('(' :: (argument ++ [')']), [])) :
    simpleCalls ⟨registry, ⟨{}, .pretty, useCache⟩⟩ utilContext (greetCall argument) =
      .ok (greetStatement argument) := by
  have hline : SimpleCall.step ⟨registry, ⟨{}, .pretty, useCache⟩⟩ utilContext
      ⟨[], greetCall argument⟩ 0 = .ok (.keep 0) := by
    have hnone : Head.parse? {} (greetCall argument) = none := Head.parse?_eq_none rfl
    unfold SimpleCall.step
    simp only [hnone]
    rfl
  have hstep := @step_greetCall argument registry useCache handler hhandler hmethod hblank hgroup
  have hwritten := Head.parse?_eq (parse?_greetHead hgroup)
  have hnonempty : "@@util.greet".toList ++ '(' :: (argument ++ [')']) ≠ [] := by simp
  unfold simpleCalls sweep
  rw [greetCall] at hline ⊢
  generalize "@@util.greet".toList ++ '(' :: (argument ++ [')']) = call at *
  cases call with
  | nil => exact absurd rfl hnonempty
  | cons c rest =>
    have hbusy : rest.length ≤ (greetHead argument).written.length - 1 := by
      rw [List.append_nil] at hwritten
      rw [← hwritten]
      exact Nat.le_refl _
    rw [Sweep.sweepFrom_keep hline, Sweep.sweepFrom_replace hstep hbusy]
    rfl

/-- A compile of the declaration and the call comes to the statement of the call, and to the import
that is to be put in front. -/
theorem runPasses_greetCall (hhandler : registry.get? ['U'] = some handler)
    (hmethod : handler.method? "greet".toList = some [⟨"name".toList, false⟩])
    (hblank : argument.isBlank = false)
    (hgroup : Code.group? ('(' :: (argument ++ [')'])) = some ('(' :: (argument ++ [')']), []))
    (h : Unnoticed argument) (depth : Nat) :
    (runPasses (passesWithin ⟨registry, ⟨{}, .pretty, useCache⟩⟩ depth)
      ("@use(U as util)".toList ++ greetCall argument)).run
        { Context.initial with level := Context.initial.level + 1 } =
          (.ok (greetStatement argument), utilContext) := by
  have hfree := directiveFree_greetCall h.directive
  have hothers : [Directive.namespaces, Directive.configBlocks, Directive.contents] ⊆
      (passesWithin ⟨registry, ⟨{}, .pretty, useCache⟩⟩ depth).take 4 := by
    simp [passesWithin, passes]
  have hcalls : (Pass.ofContext fun context => simpleCalls ⟨registry, ⟨{}, .pretty, useCache⟩⟩
      context (greetCall argument)).run utilContext =
        (.ok (greetStatement argument), utilContext) := by
    show (simpleCalls ⟨registry, ⟨{}, .pretty, useCache⟩⟩ utilContext (greetCall argument),
      utilContext) = _
    rw [simpleCalls_greetCall hhandler hmethod hblank hgroup]
  have hpasses : runPasses (passesWithin ⟨registry, ⟨{}, .pretty, useCache⟩⟩ depth) =
      runPasses (Directive.uses :: ([Directive.namespaces, Directive.configBlocks,
        Directive.contents] ++ (passesWithin ⟨registry, ⟨{}, .pretty, useCache⟩⟩ depth).drop 4)) :=
    rfl
  rw [hpasses, runPasses_cons, Pass.run_bind, run_uses_greetCall hfree]
  simp only
  rw [runPasses_append, Pass.run_bind, hfree.runPasses_eq hothers]
  simp only
  rw [runPasses_simpleCalls, Pass.run_bind, hcalls]
  exact (settled_greetStatement h).runPasses_eq depth

theorem greetCall_eq (argument : Text) :
    "\n@@util.greet(".toList ++ argument ++ ")".toList = greetCall argument := by
  have hopening : "\n@@util.greet(".toList = '\n' :: ("@@util.greet".toList ++ ['(']) := by
    decide
  have hclosing : ")".toList = [')'] := by decide
  have hparts (whole name closing : Text) (hwhole : whole = '\n' :: (name ++ ['('])) :
      whole ++ argument ++ closing = '\n' :: (name ++ '(' :: (argument ++ closing)) := by
    rw [hwhole]
    simp
  rw [hparts _ _ _ hopening, hclosing]
  rfl

theorem greetStatement_eq (argument : Text) :
    "\n<?php _h\\out(Util::greet(".toList ++ argument ++ "), '') ?> ".toList =
      greetStatement argument := by
  have hopening : "\n<?php _h\\out(Util::greet(".toList =
      "\n<?php _h\\out(Util::greet".toList ++ ['('] := by decide
  rw [List.append_assoc]
  exact Text.append_of_eq hopening _

/-- The pass over the calls puts the argument of a call into its statement as it is written,
whatever it may be. A template with the call is compiled to the import and that statement if no
other pass would act upon anything in the argument. -/
theorem argument_kept (hhandler : registry.get? "U".toList = some handler)
    (hmethod : handler.method? "greet".toList = some [⟨"name".toList, false⟩])
    (hblank : argument.isBlank = false)
    (hgroup : Code.group? ('(' :: (argument ++ [')'])) = some ('(' :: (argument ++ [')']), [])) :
    simpleCalls ⟨registry, ⟨{}, .pretty, useCache⟩⟩ utilContext
        ("\n@@util.greet(".toList ++ argument ++ ")".toList) =
      .ok ("\n<?php _h\\out(Util::greet(".toList ++ argument ++ "), '') ?> ".toList) ∧
    (Unnoticed argument → compileTemplate ⟨registry, ⟨{}, .pretty, useCache⟩⟩
        ("@use(U as util)\n@@util.greet(".toList ++ argument ++ ")".toList) =
      .ok ("<?php\nuse U as Util;\n?>\n\n<?php _h\\out(Util::greet(".toList ++ argument ++
        "), '') ?> ".toList)) := by
  constructor
  · rw [greetCall_eq, greetStatement_eq]
    exact simpleCalls_greetCall hhandler hmethod hblank hgroup
  · intro h
    have hsource : "@use(U as util)\n@@util.greet(".toList ++ argument ++ ")".toList =
        "@use(U as util)".toList ++ greetCall argument := by
      have hopening : "@use(U as util)\n@@util.greet(".toList =
          "@use(U as util)".toList ++ "\n@@util.greet(".toList := by decide
      rw [← greetCall_eq, List.append_assoc, List.append_assoc]
      exact Text.append_of_eq hopening _
    have hcompiled : "<?php\nuse U as Util;\n?>\n\n<?php _h\\out(Util::greet(".toList ++ argument ++
        "), '') ?> ".toList = preamble utilContext.prolog ++ greetStatement argument := by
      have hopening : "<?php\nuse U as Util;\n?>\n\n<?php _h\\out(Util::greet(".toList =
          preamble utilContext.prolog ++ "\n<?php _h\\out(Util::greet(".toList := by decide
      rw [← greetStatement_eq, List.append_assoc, List.append_assoc]
      exact Text.append_of_eq hopening _
    have hpreamble : utilContext.takePreamble.1.getD [] = preamble utilContext.prolog :=
      (Context.takePreamble_outermost _ _).1
    rw [hsource, hcompiled, compileTemplate, compile, compileWithin_run,
      runPasses_greetCall hhandler hmethod hblank hgroup h]
    simp only [hpreamble]

/-- A comparison in the argument is no tag. -/
theorem argument_kept_of_comparison :
    let handler : Handler := ⟨"U".toList, none, [("greet".toList, [⟨"name".toList, false⟩])]⟩
    let registry : Registry := Registry.builtin.insert handler
    let argument : Text := "'<b>' . ($a < $b)".toList
    registry.get? "U".toList = some handler ∧
    handler.method? "greet".toList = some [⟨"name".toList, false⟩] ∧
    argument.isBlank = false ∧
    Code.group? ('(' :: (argument ++ [')'])) = some ('(' :: (argument ++ [')']), []) ∧
    Unnoticed argument ∧
    compileTemplate ⟨registry, ⟨{}, .pretty, true⟩⟩
        ("@use(U as util)\n@@util.greet(".toList ++ argument ++ ")".toList) =
      .ok ("<?php\nuse U as Util;\n?>\n\n<?php _h\\out(Util::greet(".toList ++ argument ++
        "), '') ?> ".toList) := by
  intro handler registry argument
  have hhandler : registry.get? "U".toList = some handler := by decide
  have hmethod : handler.method? "greet".toList = some [⟨"name".toList, false⟩] := by decide
  have hblank : argument.isBlank = false := by decide
  have hgroup : Code.group? ('(' :: (argument ++ [')'])) =
      some ('(' :: (argument ++ [')']), []) := by decide
  have hunnoticed : Unnoticed argument := by decide +kernel
  exact ⟨hhandler, hmethod, hblank, hgroup, hunnoticed,
    (argument_kept hhandler hmethod hblank hgroup).2 hunnoticed⟩

/-- A tag in a quoted argument is taken for a component, whose alias nobody declared. -/
theorem argument_rejected_of_tag :
    let handler : Handler := ⟨"U".toList, none, [("greet".toList, [⟨"name".toList, false⟩])]⟩
    let registry : Registry := Registry.builtin.insert handler
    let argument : Text := "'<x:y/>'".toList
    registry.get? "U".toList = some handler ∧
    handler.method? "greet".toList = some [⟨"name".toList, false⟩] ∧
    argument.isBlank = false ∧
    Code.group? ('(' :: (argument ++ [')'])) = some ('(' :: (argument ++ [')']), []) ∧
    (failure? (compileTemplate ⟨registry, ⟨{}, .pretty, true⟩⟩
        ("@use(U as util)\n@@util.greet(".toList ++ argument ++ ")".toList))).map (·.cause) =
      some (.unboundAlias "x".toList) := by
  decide +kernel

end

end TemplateCompiler
