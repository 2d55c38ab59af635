import TemplateCompiler.Proofs.DeclarationRuns
import TemplateCompiler.Proofs.IdlePasses

/-!
# Compiling again in the same context

All that a compile declares is bound when the same text is compiled again in the context that it
leaves. Then the first two passes declare nothing and come to the same text, and the passes after
them, which look aliases up, find the same as before.
-/
namespace TemplateCompiler

variable {environment : Environment} {context after : Context}

namespace Pass

variable {α β : Type} {bindings : List (Text × Binding)} {pass : Pass α} {value : α}

/-- In every context with these bindings a pass gives a value and leaves the context alone. -/
def AtRest (bindings : List (Text × Binding)) (pass : Pass α) (value : α) : Prop :=
  ∀ level prolog, pass.run ⟨bindings, level, prolog⟩ = (.ok value, ⟨bindings, level, prolog⟩)

theorem atRest_pure (bindings : List (Text × Binding)) (value : α) :
    AtRest bindings (pure value) value := fun _ _ => rfl

theorem AtRest.bind {next : α → Pass β} {result : β} (h : AtRest bindings pass value)
    (hnext : AtRest bindings (next value) result) : AtRest bindings (pass >>= next) result := by
  intro level prolog
  rw [run_bind, h level prolog]
  exact hnext level prolog

/-- A pass that declares nothing and succeeds once does so wherever the same is bound. -/
theorem Collects.atRest (h : Collects 0 (fun _ => False) pass)
    (hrun : pass.run context = (.ok value, after)) :
    after = context ∧ AtRest context.bindings pass value := by
  obtain ⟨result, declared, hnone, hcollects⟩ := h context.bindings
  rw [List.eq_nil_iff_forall_not_mem.mpr hnone] at hcollects
  have hmoment := hcollects context.level context.prolog (Nat.zero_le _)
  cases hmoment.symm.trans hrun
  exact ⟨rfl, fun level prolog => hcollects level prolog (Nat.zero_le _)⟩

/-- Once a pass has succeeded, it has nothing left to do: with all its declarations, and maybe
more, it comes to the same. -/
def Settles (pass : Pass α) : Prop :=
  ∀ context value after, pass.run context = (.ok value, after) →
    context.bindings <+: after.bindings ∧
      ∀ bindings, after.bindings <+: bindings → AtRest bindings pass value

theorem settles_pure (value : α) : Settles (pure value) := by
  rintro context _ _ ⟨⟩
  exact ⟨List.prefix_refl _, fun bindings _ => atRest_pure bindings value⟩

theorem Settles.bind {next : α → Pass β} (h : Settles pass)
    (hnext : ∀ value, Settles (next value)) : Settles (pass >>= next) := by
  intro context result after hrun
  obtain ⟨value, reached, hpass, hlater⟩ := run_bind_ok hrun
  obtain ⟨hkept, hsettled⟩ := h _ _ _ hpass
  obtain ⟨hkept', hsettled'⟩ := hnext value _ _ _ hlater
  refine ⟨hkept.trans hkept', fun bindings hbindings => ?_⟩
  exact (hsettled bindings (hkept'.trans hbindings)).bind (hsettled' bindings hbindings)

theorem Settles.mapError (h : Settles pass) (f : CompileError → CompileError) :
    Settles (mapError f pass) := by
  intro context value after hrun
  obtain ⟨hkept, hsettled⟩ := h _ _ _ (run_mapError_ok hrun)
  refine ⟨hkept, fun bindings hbindings level prolog => ?_⟩
  rw [run_mapError, hsettled bindings hbindings level prolog]
  rfl

theorem settles_declare (name target : Text) :
    Settles (update fun context => context.declare name target) := by
  intro context value after hrun
  cases hdeclare : context.declare name target with
  | error error =>
    rw [run_update_error hdeclare] at hrun
    cases hrun
  | ok declared =>
    rw [run_update_ok hdeclare] at hrun
    cases hrun
    obtain ⟨path, hpath, hcases⟩ := Context.declare_cases hdeclare
    have hbound : context.bindings <+: after.bindings ∧ ∃ bound,
        after.binding? name = some bound ∧ Text.equalIgnoringAsciiCase bound.target path := by
      rcases hcases with ⟨bound, hbound, hsame, rfl⟩ | ⟨hfree, -, rfl⟩
      · exact ⟨List.prefix_refl _, bound, hbound, hsame⟩
      · rw [Context.bindings_add]
        refine ⟨List.prefix_append _ _, ⟨name, path, !name.isEmpty⟩, ?_, beq_self_eq_true _⟩
        unfold Context.binding? at hfree ⊢
        rw [Context.bindings_add, List.lookup_append, hfree]
        simp
    obtain ⟨hkept, bound, hbound, hsame⟩ := hbound
    refine ⟨hkept, fun bindings hbindings level prolog => run_update_ok ?_⟩
    have hlater : Context.binding? ⟨bindings, level, prolog⟩ name = some bound :=
      Context.lookup_of_prefix hbindings hbound
    exact (Context.declare_of_bound hlater _).mpr ⟨rfl, path, hpath, hsame⟩

theorem settles_substituteFrom {find : Matcher α} {replace : Replace α}
    (h : ∀ place captures, Settles (replace place captures)) (place : Place) :
    Settles (Substitution.substituteFrom find replace place) := by
  rw [Substitution.substituteFrom]
  split
  · exact settles_pure _
  · refine ((h _ _).mapError _).bind fun new => ?_
    split
    · exact settles_pure _
    · split
      · exact (settles_substituteFrom h _).bind fun rest => settles_pure _
      · exact settles_pure _
termination_by place.rest.length

end Pass

open Pass

namespace Directive

theorem Use.replace_settles (place : Place) (use : Use) : Settles (Use.replace place use) := by
  unfold Use.replace
  split
  · exact settles_pure _
  · exact (settles_declare use.name use.target).bind fun _ => settles_pure _

theorem Namespace.replace_settles (place : Place) (found : Namespace) :
    Settles (Namespace.replace place found) :=
  (settles_declare found.name found.target).bind fun _ => settles_pure _

end Directive

theorem Sweep.sweepFrom_eq_pure_of_reaches {step : Place → Nat → Pass Move}
    {before pending rest : Text} {keeping : Bool}
    (h : ∀ place fresh moment,
      Reaches step before pending 0 keeping rest context place fresh moment →
        step place fresh = pure (.keep 0)) :
    sweepFrom step before pending 0 keeping rest = pure (pending.reverse ++ rest) := by
  induction rest generalizing before pending keeping with
  | nil => simp [sweepFrom]
  | cons c rest ih =>
    have hkeep := h _ _ _ (.here before pending keeping c rest context)
    have hrest := @ih (c :: before) (c :: pending) true fun place fresh moment hreaches =>
      h place fresh moment (.keep (by rw [hkeep]; rfl) hreaches)
    rw [sweepFrom_keep hkeep, hrest, List.reverse_cons, List.append_assoc, List.singleton_append]

/-- A compile of a text, begun in a context, finds no configuration block. -/
def ConfigFree (environment : Environment) (depth : Nat) (text : Text) (context : Context) : Prop :=
  ∀ reached moment, HasRun environment depth text context 2 reached moment →
    ∀ place : Place, place.text = reached → Directive.Config.pattern place = none

/-- A compile of a text, begun in a context, compiles no block: none begins where it looks for one,
or it leaves the block alone as one that is glued to what stands before it. -/
def BlockFree (environment : Environment) (depth : Nat) (text : Text) (context : Context) : Prop :=
  ∀ reached moment, HasRun environment depth text context 5 reached moment →
    ∀ place fresh before,
      Sweep.Reaches (BlockCall.step environment (compileWithin environment depth)
        (Block.entries environment.options.markers none reached)) [] [] 0 true reached moment
        place fresh before →
      ∀ block,
        (Block.entries environment.options.markers none reached)[place.before.length]?.join =
          some block → Layout.lead? place.before fresh = none

section

variable {depth : Nat} {text reached body : Text} {moment : Context}

theorem ConfigFree.configBlocks_eq_pure (h : ConfigFree environment depth text context)
    (hrun : HasRun environment depth text context 2 reached moment) :
    Directive.configBlocks reached = pure reached :=
  Substitution.substituteFrom_eq_pure fun place hplace _ => h reached moment hrun place hplace

theorem BlockFree.blockCalls_eq_pure (h : BlockFree environment depth text context)
    (hrun : HasRun environment depth text context 5 reached moment) :
    blockCalls environment (compileWithin environment depth) reached = pure reached := by
  refine @Sweep.sweepFrom_eq_pure_of_reaches moment _ _ _ _ _ fun place fresh before hreaches => ?_
  unfold BlockCall.step
  split
  · rfl
  · rename_i block hblock
    rw [h reached moment hrun place fresh before hreaches block hblock]

theorem settles_first (environment : Environment) (depth : Nat) (text : Text) :
    Settles (runPasses ((passesWithin environment depth).take 2) text) := by
  have huses : Settles (Directive.uses text) :=
    settles_substituteFrom Directive.Use.replace_settles (Place.start text)
  refine huses.bind fun text => ?_
  have hnamespaces : Settles (Directive.namespaces text) :=
    settles_substituteFrom Directive.Namespace.replace_settles (Place.start text)
  exact hnamespaces.bind fun text => settles_pure text

theorem collects_middle (h : Directive.configBlocks text = pure text) :
    Collects 0 (fun _ => False)
      (runPasses (((passesWithin environment depth).drop 2).take 3) text) := by
  have hconfig : Collects 0 (fun _ => False) (Directive.configBlocks text) := by
    rw [h]
    exact collects_pure text
  refine hconfig.bind fun text => ?_
  refine (collects_substitute Directive.Content.replace_collects text).bind fun text => ?_
  exact (simpleCalls_collects text).bind fun text => collects_pure text

theorem collects_last
    (h : blockCalls environment (compileWithin environment depth) text = pure text) :
    Collects 0 (fun _ => False) (runPasses ((passesWithin environment depth).drop 5) text) := by
  have hblocks : Collects 0 (fun _ => False)
      (blockCalls environment (compileWithin environment depth) text) := by
    rw [h]
    exact collects_pure text
  have hpromote (text : Text) : Collects 0 (fun _ => False)
      (Pass.ofContext fun context => .ok (promote context text)) :=
    collects_ofContext fun bindings level prolog => by rw [promote_eq bindings level prolog]
  refine hblocks.bind fun text => (hpromote text).bind fun text => ?_
  exact (componentCalls_collects text).bind fun text => collects_pure text

/-- Passes that find no configuration block and compile no block have nothing left to do in the
context that they end in. -/
theorem atRest_passes (hconfig : ConfigFree environment depth text context)
    (hblocks : BlockFree environment depth text context)
    (hrun : (runPasses (passesWithin environment depth) text).run
      { context with level := context.level + 1 } = (.ok body, after)) :
    AtRest after.bindings (runPasses (passesWithin environment depth) text) body := by
  have hsplit : runPasses (passesWithin environment depth) text =
      runPasses ((passesWithin environment depth).take 2) text >>= fun reached =>
        runPasses (((passesWithin environment depth).drop 2).take 3) reached >>=
          runPasses ((passesWithin environment depth).drop 5) := by
    have hlater : runPasses ((passesWithin environment depth).drop 2) = fun reached =>
        runPasses (((passesWithin environment depth).drop 2).take 3) reached >>=
          runPasses ((passesWithin environment depth).drop 5) :=
      funext (runPasses_append (((passesWithin environment depth).drop 2).take 3)
        ((passesWithin environment depth).drop 5))
    rw [← hlater]
    exact runPasses_append ((passesWithin environment depth).take 2)
      ((passesWithin environment depth).drop 2) text
  rw [hsplit] at hrun ⊢
  obtain ⟨second, declared, hfirst, hlater⟩ := run_bind_ok hrun
  obtain ⟨fifth, moment, hmiddle, hlast⟩ := run_bind_ok hlater
  -- from the third pass on the context stays as it is
  obtain ⟨rfl, hmiddleRest⟩ :=
    (collects_middle (hconfig.configBlocks_eq_pure hfirst)).atRest hmiddle
  have hreached : HasRun environment depth text context 5 fifth moment := by
    have hfive : runPasses ((passesWithin environment depth).take 5) text =
        runPasses ((passesWithin environment depth).take 2) text >>=
          runPasses (((passesWithin environment depth).drop 2).take 3) :=
      runPasses_append ((passesWithin environment depth).take 2)
        (((passesWithin environment depth).drop 2).take 3) text
    rw [HasRun, hfive, run_bind, hfirst]
    exact hmiddle
  obtain ⟨rfl, hlastRest⟩ := (collects_last (hblocks.blockCalls_eq_pure hreached)).atRest hlast
  have hfirstRest := (settles_first environment depth text _ _ _ hfirst).2 _ (List.prefix_refl _)
  exact hfirstRest.bind (hmiddleRest.bind hlastRest)

end

/-- A text without configuration blocks, of which no block is compiled, compiles again in the
context that its compile leaves. That gives the same without the preamble, in which stood the
statements collected before and those of the aliases declared, and it declares nothing. -/
theorem recompiling_repeats_body {environment : Environment} {context after : Context}
    {source output : Text} (hlevel : context.level = 0)
    (h : (compile environment source).run context = (.ok output, after))
    (hconfig : ConfigFree environment source.length source context)
    (hblocks : BlockFree environment source.length source context) :
    ∃ (body : Text) (declared : List Declaration),
      (compile environment source).run after = (.ok body, after) ∧
      output = preamble (context.prolog ++ declared.flatMap Declaration.statements) ++ body ∧
      after = ⟨context.bindings ++ declared.flatMap Declaration.bindings, 0, []⟩ := by
  obtain ⟨bindings, level, prolog⟩ := context
  obtain rfl : level = 0 := hlevel
  obtain ⟨result, declared, hdiscipline⟩ :=
    compileWithin_discipline environment source.length source bindings
  cases result with
  | error error =>
    cases (hdiscipline.failed prolog error rfl).symm.trans h
  | ok body =>
    cases (hdiscipline.outermost prolog body rfl).symm.trans h
    have hrest := atRest_passes hconfig hblocks (hdiscipline.passes 0 prolog)
    refine ⟨body, declared, ?_, rfl, rfl⟩
    rw [compile, compileWithin_run, hrest]
    rfl

/-- The import of an alias is given out by the first compile only. -/
theorem recompiling_repeats_body_of_import :
    let environment : Environment := ⟨Registry.builtin, {}⟩
    let source := "@use(A.B as c)\n<i/>".toList
    let output := "<?php\nuse A\\B as C;\n?>\n\n<i/>".toList
    ∃ after body statements, (compile environment source).run Context.initial =
        (.ok output, after) ∧
      (compile environment source).run after = (.ok body, after) ∧
      output = preamble statements ++ body ∧ body.length = 5 := by
  intro environment source output
  let bindings := Context.initial.bindings ++ [(['c'], ⟨['c'], "A\\B".toList, true⟩)]
  have hfirst : (compile environment source).run Context.initial =
      (.ok output, ⟨bindings, 0, []⟩) :=
    Prod.ext (eq_ok_of_toOption (by decide +kernel)) (by decide +kernel)
  have hpasses (count : Nat) (hcount : count = 2 ∨ count = 5) :
      HasRun environment source.length source Context.initial count "\n<i/>".toList
        ⟨bindings, 1, ["use A\\B as C;".toList]⟩ := by
    rcases hcount with rfl | rfl <;>
      exact Prod.ext (eq_ok_of_toOption (by decide +kernel)) (by decide +kernel)
  have hconfig : ConfigFree environment source.length source Context.initial := by
    intro reached moment hrun
    cases (hpasses 2 (Or.inl rfl)).symm.trans hrun
    decide +kernel
  have hblocks : BlockFree environment source.length source Context.initial := by
    intro reached moment hrun place fresh before _ block hblock
    cases (hpasses 5 (Or.inr rfl)).symm.trans hrun
    have hentry := List.mem_of_getElem? (Option.join_eq_some_iff.mp hblock)
    cases Block.entries_eq_none (by decide) none _ hentry
  obtain ⟨body, declared, hagain, houtput, -⟩ :=
    recompiling_repeats_body rfl hfirst hconfig hblocks
  refine ⟨_, body, _, hfirst, hagain, houtput, ?_⟩
  have hbody : ((compile environment source).run ⟨bindings, 0, []⟩).1.toOption =
      some "\n<i/>".toList := by decide +kernel
  rw [hagain] at hbody
  cases hbody
  rfl

end TemplateCompiler
