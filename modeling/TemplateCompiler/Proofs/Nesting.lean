import TemplateCompiler.Compile
import TemplateCompiler.Proofs.Moments

/-!
# Nested compiles and the preamble

The passes of a compile only collect, and so does a compile within a compile: it comes to what
its passes come to and leaves the preamble to the outermost compile, which puts in front all that
was collected. Components leave the context alone.
-/
namespace TemplateCompiler

open Pass

variable {environment : Environment} {floor : Nat} {allowed : Declaration → Prop}

namespace Directive

theorem collects_declare (name target : Text) :
    Collects floor (fun _ => True) (Pass.update fun context => context.declare name target) := by
  apply collects_update
  intro bindings
  obtain ⟨outcome, houtcome⟩ := Context.declare_eq bindings name target
  exact ⟨outcome, by simp, houtcome⟩

theorem Use.replace_collects (place : Place) (use : Use) :
    Collects floor (fun _ => True) (Use.replace place use) := by
  unfold Use.replace
  split
  · exact collects_pure _
  · exact (collects_declare use.name use.target).bind fun _ => collects_pure _

theorem Namespace.replace_collects (place : Place) (found : Namespace) :
    Collects floor (fun _ => True) (Namespace.replace place found) :=
  (collects_declare found.name found.target).bind fun _ => collects_pure _

theorem Config.replace_collects (place : Place) (body : Text) :
    Collects floor (fun _ => True) (Config.replace place body) := by
  have hupdate : Collects floor (fun _ => True) (Pass.update fun context =>
      (Config.entries body.lines).map fun entries =>
        context.push (Config.statement entries)) := by
    apply collects_update
    intro bindings
    refine ⟨(Config.entries body.lines).map fun entries =>
      [.statement (Config.statement entries)], by simp, ?_⟩
    intro level prolog
    cases Config.entries body.lines <;> rfl
  exact hupdate.bind fun _ => collects_pure _

theorem Content.replace_collects (place : Place) (found : Content) :
    Collects floor allowed (Content.replace place found) := by
  unfold Content.replace
  split <;> exact collects_pure _

end Directive

theorem simpleCalls_collects (text : Text) :
    Collects floor allowed (Pass.ofContext fun context => simpleCalls environment context text) :=
  collects_ofContext fun _ _ _ => rfl

theorem promote_eq (bindings : List (Text × Binding)) (level : Nat) (prolog : List Text)
    (text : Text) : promote ⟨bindings, level, prolog⟩ text = promote ⟨bindings, 0, []⟩ text := by
  rw [promote, promote]
  have hnested : (fun content : Text =>
      if content.length < text.length then promote ⟨bindings, level, prolog⟩ content
      else content) = fun content =>
      if content.length < text.length then promote ⟨bindings, 0, []⟩ content else content := by
    funext content
    split
    · exact promote_eq bindings level prolog content
    · rfl
  rw [hnested]
  rfl
termination_by text.length

namespace Construction

theorem addAll_eq (bindings : List (Text × Binding)) (level : Nat) (prolog : List Text)
    (construction : Construction) (attributes : List Attribute) :
    addAll environment ⟨bindings, level, prolog⟩ construction attributes =
      addAll environment ⟨bindings, 0, []⟩ construction attributes := by
  induction attributes generalizing construction with
  | nil => rfl
  | cons attr attributes ih =>
    have hadd : add environment ⟨bindings, level, prolog⟩ construction attr =
        add environment ⟨bindings, 0, []⟩ construction attr := rfl
    simp only [addAll, hadd, ih]

theorem ofTag_eq (bindings : List (Text × Binding)) (level : Nat) (prolog : List Text)
    (qualifier : Text) (tag : Tag) :
    ofTag environment ⟨bindings, level, prolog⟩ qualifier tag =
      ofTag environment ⟨bindings, 0, []⟩ qualifier tag := by
  have hsubject : subject ⟨bindings, level, prolog⟩ qualifier tag.name =
      subject ⟨bindings, 0, []⟩ qualifier tag.name := rfl
  have hresolve (qualifier name : Text) :
      environment.resolve ⟨bindings, level, prolog⟩ qualifier name =
        environment.resolve ⟨bindings, 0, []⟩ qualifier name := rfl
  simp only [ofTag, hsubject, hresolve, addAll_eq bindings level prolog]

end Construction

theorem Component.step_collects {nested : Text → Pass Text}
    (h : ∀ content, Collects floor allowed (nested content)) (place : Place) (fresh : Nat) :
    Collects floor allowed (Component.step environment nested place fresh) := by
  unfold Component.step
  repeat' split
  all_goals try exact collects_pure _
  rename_i tag _ _ _ qualifier _ _ _ _ _
  have hconstruction : Collects floor allowed (Pass.ofContext fun context =>
      Construction.ofTag environment context qualifier tag) := by
    apply collects_ofContext
    intro bindings level prolog
    exact Construction.ofTag_eq bindings level prolog qualifier tag
  apply (hconstruction.mapError _).bind
  intro construction
  exact ((h _).mapError _).bind fun _ => collects_pure _

theorem componentCalls_collects (text : Text) :
    Collects 0 (fun _ => False) (componentCalls environment text) := by
  rw [componentCalls]
  have hcontent (content : Text) : Collects 0 (fun _ => False)
      (if content.length < text.length then componentCalls environment content
        else pure content) := by
    split
    · exact componentCalls_collects content
    · exact collects_pure _
  exact (collects_sweep (Component.step_collects hcontent) text).nested (Nat.zero_le _)
termination_by text.length

theorem componentCalls_context (text : Text) (context : Context) :
    ((componentCalls environment text).run context).2 = context := by
  obtain ⟨bindings, level, prolog⟩ := context
  obtain ⟨result, declared, hnone, hrun⟩ := @componentCalls_collects environment text bindings
  rw [hrun level prolog (Nat.zero_le _), List.eq_nil_iff_forall_not_mem.mpr hnone]
  rfl

theorem BlockCall.step_collects {nested : Text → Pass Text}
    (h : ∀ content, Collects floor allowed (nested content)) (entries : List (Option Block))
    (place : Place) (fresh : Nat) :
    Collects floor allowed (BlockCall.step environment nested entries place fresh) := by
  unfold BlockCall.step
  repeat' split
  all_goals try exact collects_pure _
  apply ((h _).mapError _).bind
  intro compiled
  exact ((collects_ofContext fun _ _ _ => rfl).mapError _).bind fun _ => collects_pure _

theorem passes_collect {nested : Text → Pass Text}
    (h : ∀ content, Collects 1 (fun _ => True) (nested content)) :
    ∀ pass ∈ passes environment nested, ∀ text, Collects 1 (fun _ => True) (pass text) := by
  intro pass hpass text
  simp only [passes, List.mem_cons, List.not_mem_nil, or_false] at hpass
  rcases hpass with rfl | rfl | rfl | rfl | rfl | rfl | rfl | rfl
  · exact collects_substitute Directive.Use.replace_collects text
  · exact collects_substitute Directive.Namespace.replace_collects text
  · exact collects_substitute Directive.Config.replace_collects text
  · exact collects_substitute Directive.Content.replace_collects text
  · exact simpleCalls_collects text
  · exact collects_sweep (BlockCall.step_collects h _) text
  · exact collects_ofContext fun bindings level prolog => by rw [promote_eq bindings level prolog]
  · exact (componentCalls_collects text).mono (Nat.zero_le _) fun _ => False.elim

theorem runPasses_cons (pass : Text → Pass Text) (passes : List (Text → Pass Text)) (text : Text) :
    runPasses (pass :: passes) text = pass text >>= runPasses passes := rfl

theorem runPasses_collects {passes : List (Text → Pass Text)}
    (h : ∀ pass ∈ passes, ∀ text, Collects floor allowed (pass text)) (text : Text) :
    Collects floor allowed (runPasses passes text) := by
  induction passes generalizing text with
  | nil => exact collects_pure _
  | cons pass passes ih =>
    rw [runPasses_cons]
    apply (h pass List.mem_cons_self text).bind
    exact ih fun pass hpass => h pass (List.mem_cons_of_mem _ hpass)

theorem Context.takePreamble_inner (context : Context) (h : 2 ≤ context.level) :
    context.takePreamble = (none, context) := by
  have hinner : ¬(context.level = 1 ∧ context.prolog ≠ []) := by omega
  rw [takePreamble, if_neg hinner]

theorem takePreamble_collects : Collects 2 allowed Pass.takePreamble := by
  intro bindings
  refine ⟨.ok none, [], by simp, ?_⟩
  intro level prolog hlevel
  show (Except.ok (Context.takePreamble ⟨bindings, level, prolog⟩).1,
    (Context.takePreamble ⟨bindings, level, prolog⟩).2) = _
  rw [Context.takePreamble_inner ⟨bindings, level, prolog⟩ hlevel]
  rfl

theorem compileWithin_collects (depth : Nat) (text : Text) :
    Collects 1 (fun _ => True) (compileWithin environment depth text) := by
  induction depth generalizing text with
  | zero => exact collects_pure _
  | succ depth ih =>
    have hpasses : Collects 2 (fun _ => True)
        (runPasses (passes environment (compileWithin environment depth)) text) :=
      (runPasses_collects (passes_collect ih) text).mono (by omega) fun _ => id
    have hbody := hpasses.bind fun body =>
      takePreamble_collects.bind fun preamble => collects_pure (preamble.getD [] ++ body)
    exact hbody.nested (Nat.le_refl _)

theorem blockStep_collects (depth : Nat) (entries : List (Option Block)) (place : Place)
    (fresh : Nat) : Collects 1 (fun _ => True)
      (BlockCall.step environment (compileWithin environment depth) entries place fresh) :=
  BlockCall.step_collects (compileWithin_collects depth) entries place fresh

/-- The passes of a compile in which blocks nest at most `depth` deep. -/
def passesWithin (environment : Environment) (depth : Nat) : List (Text → Pass Text) :=
  passes environment (compileWithin environment depth)

theorem collects_of_subset {depth : Nat} {passes : List (Text → Pass Text)}
    (h : passes ⊆ passesWithin environment depth) (text : Text) :
    Collects 1 (fun _ => True) (runPasses passes text) :=
  runPasses_collects
    (fun pass hpass => passes_collect (compileWithin_collects depth) pass (h hpass)) text

theorem runPasses_append (first second : List (Text → Pass Text)) (text : Text) :
    runPasses (first ++ second) text = runPasses first text >>= runPasses second :=
  List.foldlM_append

theorem runPasses_passesWithin (environment : Environment) (depth : Nat) (text : Text) :
    runPasses (passesWithin environment depth) text =
      runPasses ((passesWithin environment depth).take 5) text >>= fun reached =>
        blockCalls environment (compileWithin environment depth) reached >>=
          runPasses ((passesWithin environment depth).drop 6) :=
  runPasses_append ((passesWithin environment depth).take 5)
    ((passesWithin environment depth).drop 5) text

/-- A compile is its passes one level further down, and what becomes of the preamble then. -/
theorem compileWithin_run (depth : Nat) (text : Text) (context : Context) :
    (compileWithin environment (depth + 1) text).run context =
      match (runPasses (passesWithin environment depth) text).run
          { context with level := context.level + 1 } with
      | (.ok body, after) => (.ok (after.takePreamble.1.getD [] ++ body),
          { after.takePreamble.2 with level := after.takePreamble.2.level - 1 })
      | (.error error, after) => (.error error, { after with level := after.level - 1 }) := by
  have hnested : compileWithin environment (depth + 1) text =
      nested (runPasses (passesWithin environment depth) text >>= fun body =>
        Pass.takePreamble >>= fun preamble => pure (preamble.getD [] ++ body)) := rfl
  rw [hnested, run_nested, run_bind]
  rcases (runPasses (passesWithin environment depth) text).run
    { context with level := context.level + 1 } with ⟨error | body, after⟩ <;> rfl

def failure? : Except CompileError Text → Option CompileError
  | .ok _ => none
  | .error error => some error

theorem failure?_compileTemplate (environment : Environment) (source : Text) :
    failure? (compileTemplate environment source) =
      failure? ((runPasses (passesWithin environment source.length) source).run
        { Context.initial with level := Context.initial.level + 1 }).1 := by
  rw [compileTemplate, compile, compileWithin_run]
  rcases (runPasses (passesWithin environment source.length) source).run
    { Context.initial with level := Context.initial.level + 1 } with ⟨error | body, after⟩ <;> rfl

def preamble (statements : List Text) : Text :=
  if statements = [] then []
  else "<?php\n".toList ++ Text.join ['\n'] statements ++ "\n?>\n".toList

theorem Context.takePreamble_outermost (bindings : List (Text × Binding)) (prolog : List Text) :
    (takePreamble ⟨bindings, 1, prolog⟩).1.getD [] = preamble prolog ∧
      (takePreamble ⟨bindings, 1, prolog⟩).2 = ⟨bindings, 1, []⟩ := by
  by_cases h : prolog = [] <;> simp [takePreamble, preamble, h]

/-- A compile of a text, begun in a context, has run the first `count` of its passes. -/
def HasRun (environment : Environment) (depth : Nat) (text : Text) (context : Context)
    (count : Nat) (reached : Text) (after : Context) : Prop :=
  (runPasses ((passesWithin environment depth).take count) text).run
    { context with level := context.level + 1 } = (.ok reached, after)

/-- A compile of a text, begun in a context, comes to the context `moment` on its way: between two
passes, before a directive that is to be run or a block that is to be compiled, or within the
compile of the content of a block. -/
inductive Moment (environment : Environment) : (depth : Nat) → Text → Context → Context → Prop
  | pass {depth count : Nat} {text reached : Text} {context moment : Context}
      (h : HasRun environment depth text context count reached moment) :
      Moment environment depth text context moment
  | aliasDirective {depth : Nat} {text reached : Text} {context after moment : Context}
      (h : HasRun environment depth text context 0 reached after)
      (hreaches : Substitution.Reaches (Matcher.leftmost Directive.Use.pattern)
        Directive.Use.replace (Place.start reached) after moment) :
      Moment environment depth text context moment
  | aliasAttribute {depth : Nat} {text reached : Text} {context after moment : Context}
      (h : HasRun environment depth text context 1 reached after)
      (hreaches : Substitution.Reaches (Matcher.leftmost Directive.Namespace.pattern)
        Directive.Namespace.replace (Place.start reached) after moment) :
      Moment environment depth text context moment
  | config {depth : Nat} {text reached : Text} {context after moment : Context}
      (h : HasRun environment depth text context 2 reached after)
      (hreaches : Substitution.Reaches (Matcher.leftmost Directive.Config.pattern)
        Directive.Config.replace (Place.start reached) after moment) :
      Moment environment depth text context moment
  | block {depth fresh : Nat} {text reached : Text} {context after moment : Context}
      {place : Place} (h : HasRun environment depth text context 5 reached after)
      (hreaches : Sweep.Reaches (BlockCall.step environment (compileWithin environment depth)
        (Block.entries environment.options.markers none reached)) [] [] 0 true reached after
        place fresh moment) :
      Moment environment depth text context moment
  | within {depth fresh : Nat} {text reached lead : Text} {context after before moment : Context}
      {place : Place} {block : Block}
      (h : HasRun environment (depth + 1) text context 5 reached after)
      (hreaches : Sweep.Reaches (BlockCall.step environment (compileWithin environment (depth + 1))
        (Block.entries environment.options.markers none reached)) [] [] 0 true reached after
        place fresh before)
      (hblock : (Block.entries environment.options.markers none reached)[place.before.length]?.join
        = some block)
      (hlead : Layout.lead? place.before fresh = some lead)
      (hwithin : Moment environment depth block.content.trimEnd before moment) :
      Moment environment (depth + 1) text context moment

variable {depth count : Nat} {text reached : Text} {context after moment : Context}

namespace HasRun

theorem level_eq (h : HasRun environment depth text context count reached after) :
    after.level = context.level + 1 :=
  (collects_of_subset (List.take_subset _ _) text).level_eq h (Nat.le_add_left 1 context.level)

theorem run_drop (h : HasRun environment depth text context count reached after) :
    (runPasses (passesWithin environment depth) text).run
        { context with level := context.level + 1 } =
      (runPasses ((passesWithin environment depth).drop count) reached).run after := by
  have hsplit := runPasses_append ((passesWithin environment depth).take count)
    ((passesWithin environment depth).drop count) text
  rw [List.take_append_drop] at hsplit
  rw [hsplit, run_bind, h]

theorem keptIn (h : HasRun environment depth text context count reached after) :
    after.KeptIn ((runPasses (passesWithin environment depth) text).run
      { context with level := context.level + 1 }).2 := by
  have hlevel : 1 ≤ after.level := by rw [h.level_eq]; omega
  rw [h.run_drop]
  exact (collects_of_subset (List.drop_subset _ _) reached).keptIn_run hlevel

theorem keptIn_next {pass : Text → Pass Text} {later : List (Text → Pass Text)}
    (h : HasRun environment depth text context count reached after)
    (hnext : (passesWithin environment depth).drop count = pass :: later) :
    ((pass reached).run after).2.KeptIn ((runPasses (passesWithin environment depth) text).run
      { context with level := context.level + 1 }).2 := by
  have hsubset : pass :: later ⊆ passesWithin environment depth := by
    rw [← hnext]
    exact List.drop_subset _ _
  have hpass : Collects 1 (fun _ => True) (pass reached) :=
    passes_collect (compileWithin_collects depth) pass (hsubset List.mem_cons_self) reached
  have hlevel : 1 ≤ after.level := by rw [h.level_eq]; omega
  rw [h.run_drop, hnext, runPasses_cons]
  refine keptIn_run_bind (collects_of_subset fun _ h => hsubset (List.mem_cons_of_mem _ h)) ?_
  rw [hpass.level_run hlevel]
  exact hlevel

end HasRun

theorem keptIn_compileWithin (hlevel : 1 ≤ context.level) :
    ((runPasses (passesWithin environment depth) text).run
      { context with level := context.level + 1 }).2.KeptIn
        ((compileWithin environment (depth + 1) text).run context).2 := by
  have hcollects := collects_of_subset (List.Subset.refl (passesWithin environment depth)) text
  rw [compileWithin_run]
  rcases hrun : (runPasses (passesWithin environment depth) text).run
    { context with level := context.level + 1 } with ⟨error | body, after⟩
  · exact ⟨List.prefix_refl _, List.prefix_refl _⟩
  · have hafter : after.level = context.level + 1 :=
      hcollects.level_eq hrun (Nat.le_add_left 1 context.level)
    simp only [Context.takePreamble_inner after (by omega)]
    exact ⟨List.prefix_refl _, List.prefix_refl _⟩

theorem BlockCall.keptIn_step {nested : Text → Pass Text} {entries : List (Option Block)}
    {place : Place} {fresh : Nat} {block : Block} {lead : Text}
    (hblock : entries[place.before.length]?.join = some block)
    (hlead : Layout.lead? place.before fresh = some lead) :
    ((nested block.content.trimEnd).run context).2.KeptIn
      ((BlockCall.step environment nested entries place fresh).run context).2 := by
  unfold BlockCall.step
  simp only [hblock, hlead]
  refine @keptIn_run_bind _ _ 0 (fun _ => True)
    (Pass.mapError _ (nested block.content.trimEnd)) _ context (fun compiled => ?_) (Nat.zero_le _)
  exact ((collects_ofContext fun _ _ _ => rfl).mapError _).bind fun _ => collects_pure _

/-- What is done about a block is kept, and it is done below the outermost compile. -/
theorem HasRun.keptIn_blockStep {place : Place} {fresh : Nat}
    (h : HasRun environment depth text context 5 reached after)
    (hreaches : Sweep.Reaches (BlockCall.step environment (compileWithin environment depth)
      (Block.entries environment.options.markers none reached)) [] [] 0 true reached after place
      fresh moment) :
    1 ≤ moment.level ∧
    ((BlockCall.step environment (compileWithin environment depth)
      (Block.entries environment.options.markers none reached) place fresh).run moment).2.KeptIn
        ((runPasses (passesWithin environment depth) text).run
          { context with level := context.level + 1 }).2 := by
  have hstep := @blockStep_collects environment depth
    (Block.entries environment.options.markers none reached)
  have hlevel : 1 ≤ after.level := by rw [h.level_eq]; omega
  have hpass : ((blockCalls environment (compileWithin environment depth) reached).run
      after).2.KeptIn ((runPasses (passesWithin environment depth) text).run
        { context with level := context.level + 1 }).2 := h.keptIn_next rfl
  constructor
  · rw [hreaches.level_eq hstep hlevel]
    exact hlevel
  · exact (hreaches.keptIn hstep hlevel).trans hpass

/-- Nothing of what a compile has declared at any moment is lost, however its passes end. -/
theorem Moment.keptIn (h : Moment environment depth text context moment) :
    moment.KeptIn ((runPasses (passesWithin environment depth) text).run
      { context with level := context.level + 1 }).2 := by
  induction h with
  | pass h => exact h.keptIn
  | aliasDirective h hreaches =>
    refine (hreaches.keptIn Directive.Use.replace_collects (Nat.zero_le _)).trans ?_
    exact h.keptIn_next rfl
  | aliasAttribute h hreaches =>
    refine (hreaches.keptIn Directive.Namespace.replace_collects (Nat.zero_le _)).trans ?_
    exact h.keptIn_next rfl
  | config h hreaches =>
    refine (hreaches.keptIn Directive.Config.replace_collects (Nat.zero_le _)).trans ?_
    exact h.keptIn_next rfl
  | block h hreaches =>
    obtain ⟨hlevel, hkept⟩ := h.keptIn_blockStep hreaches
    exact ((blockStep_collects _ _ _ _).keptIn_run hlevel).trans hkept
  | within h hreaches hblock hlead _ ih =>
    obtain ⟨hlevel, hkept⟩ := h.keptIn_blockStep hreaches
    refine ih.trans ((keptIn_compileWithin hlevel).trans ?_)
    exact (BlockCall.keptIn_step hblock hlead).trans hkept

/-- How a compile of a text treats the context that it is begun in, where its passes come to
`result` and declare `declared`. In all cases the level is in the end what it was. -/
structure Discipline (environment : Environment) (depth : Nat) (text : Text) (compile : Pass Text)
    (bindings : List (Text × Binding)) (result : Except CompileError Text)
    (declared : List Declaration) : Prop where
  passes (level : Nat) (prolog : List Text) :
    (runPasses (passesWithin environment depth) text).run ⟨bindings, level + 1, prolog⟩ =
      (result, ⟨bindings ++ declared.flatMap Declaration.bindings, level + 1,
        prolog ++ declared.flatMap Declaration.statements⟩)
  /-- Within another compile there is no preamble, and the statements are added to those before. -/
  inner (level : Nat) (prolog : List Text) :
    compile.run ⟨bindings, level + 1, prolog⟩ =
      (result, ⟨bindings ++ declared.flatMap Declaration.bindings, level + 1,
        prolog ++ declared.flatMap Declaration.statements⟩)
  /-- The outermost compile puts all statements in front, and none is left. -/
  outermost (prolog : List Text) (body : Text) (h : result = .ok body) :
    compile.run ⟨bindings, 0, prolog⟩ =
      (.ok (preamble (prolog ++ declared.flatMap Declaration.statements) ++ body),
        ⟨bindings ++ declared.flatMap Declaration.bindings, 0, []⟩)
  failed (prolog : List Text) (error : CompileError) (h : result = .error error) :
    compile.run ⟨bindings, 0, prolog⟩ =
      (.error error, ⟨bindings ++ declared.flatMap Declaration.bindings, 0,
        prolog ++ declared.flatMap Declaration.statements⟩)
  /-- All that is bound or pushed at some moment on the way is among it. -/
  kept (level : Nat) (prolog : List Text) (moment : Context)
    (h : Moment environment depth text ⟨bindings, level, prolog⟩ moment) :
    moment.KeptIn ⟨bindings ++ declared.flatMap Declaration.bindings, level,
      prolog ++ declared.flatMap Declaration.statements⟩

theorem compileWithin_discipline (environment : Environment) (depth : Nat) (text : Text)
    (bindings : List (Text × Binding)) : ∃ result declared,
      Discipline environment depth text (compileWithin environment (depth + 1) text) bindings result
        declared := by
  obtain ⟨result, declared, -, hcollects⟩ :=
    collects_of_subset (List.Subset.refl (passesWithin environment depth)) text bindings
  have hpasses (level : Nat) (prolog : List Text) :
      (runPasses (passesWithin environment depth) text).run ⟨bindings, level + 1, prolog⟩ =
        (result, ⟨bindings ++ declared.flatMap Declaration.bindings, level + 1,
          prolog ++ declared.flatMap Declaration.statements⟩) := by
    rw [hcollects (level + 1) prolog (Nat.le_add_left 1 level), Context.enactAll_eq]
  refine ⟨result, declared, hpasses, ?_, ?_, ?_, ?_⟩
  · intro level prolog
    rw [compileWithin_run, hpasses (level + 1) prolog]
    cases result with
    | error error => rfl
    | ok body =>
      simp only [Context.takePreamble_inner ⟨_, level + 1 + 1, _⟩ (Nat.le_add_left 2 level)]
      rfl
  · intro prolog body hbody
    obtain ⟨hfirst, hsecond⟩ := Context.takePreamble_outermost
      (bindings ++ declared.flatMap Declaration.bindings)
      (prolog ++ declared.flatMap Declaration.statements)
    rw [compileWithin_run, hpasses 0 prolog, hbody]
    simp only [Nat.zero_add, hfirst, hsecond]
  · intro prolog error herror
    rw [compileWithin_run, hpasses 0 prolog, herror]
    rfl
  · intro level prolog moment hmoment
    have hkept := hmoment.keptIn
    rw [hpasses level prolog] at hkept
    exact hkept

/-- Components leave the context alone; a compile, with blocks nested to whatever depth in it,
gives back the level it found, leaves the preamble to the outermost compile, which gives out each
statement once, and loses nothing when it fails. -/
theorem compile_discipline (environment : Environment) (text : Text) :
    (∀ context, ((componentCalls environment text).run context).2 = context) ∧
    (∀ depth bindings, ∃ result declared,
      Discipline environment depth text (compileWithin environment (depth + 1) text) bindings result
        declared) ∧
    ∀ bindings, ∃ result declared,
      Discipline environment text.length text (compile environment text) bindings result
        declared := by
  refine ⟨componentCalls_context text, ?_, ?_⟩
  · intro depth bindings
    exact compileWithin_discipline environment depth text bindings
  · intro bindings
    exact compileWithin_discipline environment text.length text bindings

/-- An alias stays bound when a call after it fails, and its import is still to be given out. -/
example : ((compile ⟨Registry.builtin, {}⟩ "@use(A.B as c)\n@@d.e()".toList).run
      Context.initial).2 =
    ⟨Context.initial.bindings ++ [(['c'], ⟨['c'], "A\\B".toList, true⟩)], 0,
      ["use A\\B as C;".toList]⟩ := by
  decide +kernel

end TemplateCompiler
