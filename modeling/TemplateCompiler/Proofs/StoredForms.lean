import TemplateCompiler.Proofs.RepeatedRuns

/-!
# How compiled forms are stored

Compiling one template puts its compiled form where its output path leads, if the template yields
one, and beside it makes directories only. What is said of the template follows from its source.
-/
namespace TemplateCompiler

/-- Whether a compiled form could not be stored. -/
def Outcome.isUnwritten : Outcome → Bool
  | .failed (.directoryNotCreated _ _) | .failed (.notWritten _ _) => true
  | _ => false

namespace FileTree

variable {tree later last : FileTree} {place : Location} {path above : Path}

/-- A change puts a file at a place and beside it makes directories only. -/
structure Receives (tree later : FileTree) (place : Location) (content : ByteArray) : Prop where
  wellFormed : later.WellFormed
  grown : tree.Grown later
  here : later.node? place = some (.file content)
  elsewhere : ∀ location, location ≠ place → ∀ old,
    later.node? location = some (.file old) ↔ tree.node? location = some (.file old)

theorem Extended.file_iff (h : tree.Extended later) (location : Location) (content : ByteArray) :
    later.node? location = some (.file content) ↔ tree.node? location = some (.file content) := by
  rcases h.node? location with hsame | ⟨hnone, hdirectory⟩
  · rw [hsame]
  · rw [hnone, hdirectory]
    exact iff_of_false (by rintro ⟨⟩) (by rintro ⟨⟩)

theorem Grown.locate_ok (h : tree.Grown later) (hlocate : tree.locate path = .ok place) :
    later.locate path = .ok place := by
  rw [h.locate_eq (by rw [hlocate]; rintro ⟨⟩), hlocate]

theorem leads_of_text {source : Text}
    (h : (tree.read path).bind FileAccess.decode = .ok source) : tree.Leads path := by
  unfold read at h
  rcases hfind : tree.find path with error | ⟨place, _ | content⟩ <;> rw [hfind] at h
  · cases h
  · cases h
  · exact Or.inl ⟨place, content, hfind⟩

theorem Leads.locate_eq (h : tree.Leads path) (hgrown : tree.Grown later) :
    later.locate path = tree.locate path := by
  rcases h with ⟨place, content, hfind⟩ | ⟨error, herror, hlocate⟩
  · exact hgrown.locate_eq (by rw [(find_eq_ok hfind).1]; rintro ⟨⟩)
  · exact hgrown.locate_eq (by rw [hlocate]; simpa using herror)

theorem Leads.read_eq {other : Path} (h : tree.Leads path) (h' : tree.Leads other)
    (hgrown : tree.Grown later) (hsame : later.locate path = later.locate other) :
    tree.read path = tree.read other := by
  rw [h.locate_eq hgrown, h'.locate_eq hgrown] at hsame
  rw [read, read, find, find, hsame]

theorem read_eq_ok {content : ByteArray} (hlocate : tree.locate path = .ok place)
    (hnode : tree.node? place = some (.file content)) : tree.read path = .ok content := by
  unfold read find
  simp only [hlocate, Except.bind, hnode]

/-- A file is written where its path leads, once the directories above are there. -/
theorem WellFormed.receives (hwell : tree.WellFormed) {pieces : List Text} {name : Text}
    (hparts : path.parts.2 = pieces ++ [name]) (hname : Path.IsName name)
    (habove : path.parent? = some above) {made : FileTree} {content : ByteArray}
    (hmake : make (above.length + 1) above tree = (.ok (), made))
    (hwrite : made.write path content = .ok later) :
    ∃ place, later.locate path = .ok place ∧ Receives tree later place content := by
  have hstores := hwell.stores hparts hname habove content
  have hplain := ((Path.IsPlain.named hparts hname.1).of_parent? habove).1
  have hextended := (hwell.makes hplain (Nat.lt_succ_self above.length)).extended
  rw [hmake] at hextended
  have hstore : tree.store path above content = later := by simp only [store, hmake, hwrite]
  rw [write] at hwrite
  cases hlocate : made.locate path with
  | error error =>
    rw [hlocate] at hwrite
    cases hwrite
  | ok place =>
    rw [hlocate] at hwrite
    simp only [Except.bind] at hwrite
    split at hwrite
    · cases hwrite
    · rename_i hplace
      cases hwrite
      have hne : place ≠ [] := by
        rintro rfl
        exact hplace rfl
      refine ⟨place, (grown_put_file hplace content).locate_ok hlocate, ?_, ?_, ?_, ?_⟩
      · rw [← hstore]
        exact hstores.wellFormed
      · rw [← hstore]
        exact hstores.grown
      · rw [node?_put hne, if_pos rfl]
      · intro location hother old
        rw [node?_put hne, if_neg hother]
        exact hextended.file_iff location old

end FileTree

namespace Template

/-- What a template comes to that is text and compiles: the compiled form of its source, and the
path that this is written to. -/
structure Yields (configuration : Configuration) (tree : FileTree) (template : Template)
    (compiled : Text) (output : Path) : Prop where
  compiles : ∃ source, (tree.read template.path).bind FileAccess.decode = .ok source ∧
    compileTemplate configuration.environment source = .ok compiled
  output : configuration.outputPath? template.root template.path = some output

theorem Yields.unique {configuration : Configuration} {tree : FileTree} {template : Template}
    {compiled compiled' : Text} {output output' : Path}
    (h : template.Yields configuration tree compiled output)
    (h' : template.Yields configuration tree compiled' output') :
    compiled = compiled' ∧ output = output' := by
  obtain ⟨⟨source, hsource, hcompiled⟩, houtput⟩ := h
  obtain ⟨⟨source', hsource', hcompiled'⟩, houtput'⟩ := h'
  cases hsource.symm.trans hsource'
  cases hcompiled.symm.trans hcompiled'
  cases houtput.symm.trans houtput'
  exact ⟨rfl, rfl⟩

theorem Yields.compiled_eq {configuration : Configuration} {tree after : FileTree}
    {template other : Template} {compiled compiled' : Text} {output output' : Path}
    (h : template.Yields configuration tree compiled output)
    (h' : other.Yields configuration tree compiled' output') (hgrown : tree.Grown after)
    (hsame : after.locate template.path = after.locate other.path) : compiled' = compiled := by
  obtain ⟨⟨source, hsource, hcompiled⟩, -⟩ := h
  obtain ⟨⟨source', hsource', hcompiled'⟩, -⟩ := h'
  rw [(FileTree.leads_of_text hsource).read_eq (FileTree.leads_of_text hsource') hgrown hsame,
    hsource'] at hsource
  cases hsource
  exact Except.ok.inj (hcompiled'.symm.trans hcompiled)

/-- What becomes of a template of a tree, if its compiled form can be stored. -/
def outcome (configuration : Configuration) (tree : FileTree) (template : Template) : Outcome :=
  match (tree.read template.path).bind FileAccess.decode with
  | .error error => .failed (.unreadable error)
  | .ok source =>
    match compileTemplate configuration.environment source with
    | .error error => .rejected source error
    | .ok _ =>
      match configuration.outputPath? template.root template.path with
      | none => .failed .noOutput
      | some output => .written output

theorem Yields.outcome_eq {configuration : Configuration} {tree : FileTree} {template : Template}
    {compiled : Text} {output : Path} (h : template.Yields configuration tree compiled output) :
    template.outcome configuration tree = .written output := by
  obtain ⟨⟨source, hsource, hcompiled⟩, houtput⟩ := h
  simp only [outcome, hsource, hcompiled, houtput]

end Template

namespace Batch

variable {configuration : Configuration} {compiler : Compiler} {template : Template}
  {tree now : FileTree}

theorem writeCompiled_outcome {target above : Path}
    (htarget : configuration.outputPath? template.root template.path = some target)
    (habove : target.parent? = some above) (compiled : Text) (tree : FileTree) :
    ((writeCompiled (m := StateM FileTree) configuration template compiled).run tree).1 =
      match FileTree.make (above.length + 1) above tree with
      | (.error error, _) => .failed (.directoryNotCreated above error)
      | (.ok (), made) =>
        match made.write target (String.ofList compiled).toUTF8 with
        | .ok _ => .written target
        | .error error => .failed (.notWritten target error) := by
  have hmake : (FileAccess.createDirectories (m := StateM FileTree) above) tree =
      FileTree.make (above.length + 1) above tree := rfl
  unfold writeCompiled
  rw [htarget]
  simp only [habove]
  simp only [StateT.run, bind, StateT.bind, hmake]
  rcases FileTree.make (above.length + 1) above tree with ⟨result, made⟩
  cases result with
  | error error => rfl
  | ok done =>
    simp only [pure, StateT.pure, Except.mapError, StateT.bind, FileAccess.writeText,
      FileAccess.write, FileTree.change]
    cases made.write target (String.ofList compiled).toUTF8 <;> rfl

theorem writeCompiled_receives (hwell : tree.WellFormed) {output : Path}
    (houtput : configuration.outputPath? template.root template.path = some output)
    (compiled : Text) :
    let result := (writeCompiled (m := StateM FileTree) configuration template compiled).run tree
    ¬result.1.isUnwritten → result.1 = .written output ∧
      ∃ place, result.2.locate output = .ok place ∧
        FileTree.Receives tree result.2 place (String.ofList compiled).toUTF8 := by
  obtain ⟨⟨stem, extension⟩, htemplate, -⟩ := Option.map_eq_some_iff.mp houtput
  have hname := Configuration.isName_compiledName htemplate
  obtain ⟨output', houtput', hparts⟩ := Configuration.exists_outputPath? htemplate template.root
  obtain rfl : output = output' := Option.some.inj (houtput.symm.trans houtput')
  obtain ⟨above, habove⟩ : ∃ above, output.parent? = some above :=
    ⟨_, (Path.parent?_of_parts hparts hname.1).1⟩
  intro result hwritten
  have houtcome : result.1 = _ := writeCompiled_outcome houtput habove compiled tree
  have htree : result.2 = _ := writeCompiled_run houtput habove compiled tree
  rcases hmake : FileTree.make (above.length + 1) above tree with ⟨error | ⟨⟩, made⟩
  · rw [hmake] at houtcome
    rw [houtcome] at hwritten
    exact absurd rfl hwritten
  · rw [hmake] at houtcome
    cases hwrite : made.write output (String.ofList compiled).toUTF8 with
    | error error =>
      simp only [hwrite] at houtcome
      rw [houtcome] at hwritten
      exact absurd rfl hwritten
    | ok later =>
      simp only [hwrite] at houtcome
      have hstore : result.2 = later := by
        rw [htree]
        simp only [FileTree.store, hmake, hwrite]
      rw [hstore]
      exact ⟨houtcome, hwell.receives hparts hname habove hmake hwrite⟩

/-- What comes of a template depends on its source alone: what a compiler has kept makes no
difference. -/
theorem process_eq (hsound : compiler.Sound)
    (henvironment : compiler.environment = configuration.environment) (template : Template)
    (tree : FileTree) :
    let result := (process (m := StateM FileTree) configuration compiler template).run tree
    (result.1.1, result.2) =
      match (tree.read template.path).bind FileAccess.decode with
      | .error error => (.failed (.unreadable error), tree)
      | .ok source =>
        match compileTemplate configuration.environment source with
        | .error error => (.rejected source error, tree)
        | .ok compiled =>
          (writeCompiled (m := StateM FileTree) configuration template compiled).run tree := by
  unfold process
  simp only [StateT.run, bind, StateT.bind, FileAccess.readText, FileAccess.read, pure, StateT.pure]
  cases (tree.read template.path).bind FileAccess.decode with
  | error error => rfl
  | ok source =>
    obtain ⟨hresult, -, -⟩ := hsound.compile source
    rw [henvironment] at hresult
    rcases hcompile : compiler.compile source with ⟨result, compiler'⟩
    rw [hcompile] at hresult
    simp only at hresult
    simp only [← hresult, hcompile]
    cases result <;> rfl

theorem process_of_not_yields (hsound : compiler.Sound)
    (henvironment : compiler.environment = configuration.environment)
    (hread : now.read template.path = tree.read template.path)
    (htemplate : (configuration.template? template.path).isSome)
    (hnone : ∀ compiled output, ¬template.Yields configuration tree compiled output) :
    let result := (process (m := StateM FileTree) configuration compiler template).run now
    (result.1.1, result.2) = (template.outcome configuration tree, now) := by
  intro result
  have hresult : (result.1.1, result.2) = _ := process_eq hsound henvironment template now
  rw [hresult, hread, Template.outcome]
  cases hsource : (tree.read template.path).bind FileAccess.decode with
  | error error => rfl
  | ok source =>
    cases hcompile : compileTemplate configuration.environment source with
    | error error => simp only [hcompile]
    | ok compiled =>
      obtain ⟨⟨stem, extension⟩, hname⟩ := Option.isSome_iff_exists.mp htemplate
      obtain ⟨output, houtput, -⟩ := Configuration.exists_outputPath? hname template.root
      exact absurd ⟨⟨source, hsource, hcompile⟩, houtput⟩ (hnone compiled output)

theorem process_of_yields (hsound : compiler.Sound)
    (henvironment : compiler.environment = configuration.environment)
    (hread : now.read template.path = tree.read template.path) {compiled : Text} {output : Path}
    (hyields : template.Yields configuration tree compiled output) :
    let result := (process (m := StateM FileTree) configuration compiler template).run now
    (result.1.1, result.2) =
      (writeCompiled (m := StateM FileTree) configuration template compiled).run now := by
  intro result
  obtain ⟨source, hsource, hcompile⟩ := hyields.compiles
  have hresult : (result.1.1, result.2) = _ := process_eq hsound henvironment template now
  rw [hresult, hread, hsource]
  simp only [hcompile]

theorem compileAll_cons (configuration : Configuration) (compiler : Compiler)
    (template : Template) (templates : List Template) (tree : FileTree) :
    (compileAll (m := StateM FileTree) configuration compiler (template :: templates)).run tree =
      let first := (process (m := StateM FileTree) configuration compiler template).run tree
      let rest := (compileAll (m := StateM FileTree) configuration first.1.2 templates).run first.2
      (((template.path, first.1.1) :: rest.1.1, rest.1.2), rest.2) := rfl

theorem grown_compileInto (environment : Environment) (hwell : tree.WellFormed)
    (template : Template) :
    (compileInto configuration environment tree template).WellFormed ∧
      tree.Grown (compileInto configuration environment tree template) := by
  unfold compileInto
  split
  · exact ⟨hwell, .refl tree⟩
  · split
    · exact ⟨hwell, .refl tree⟩
    · rename_i compiled _
      cases htemplate : configuration.template? template.path with
      | none =>
        have hnone : configuration.outputPath? template.root template.path = none := by
          rw [Configuration.outputPath?, htemplate, Option.map_none]
        unfold writeCompiled
        rw [hnone]
        exact ⟨hwell, .refl tree⟩
      | some name =>
        have hname := Configuration.isName_compiledName htemplate
        obtain ⟨output, houtput, hparts⟩ :=
          Configuration.exists_outputPath? htemplate template.root
        have habove := (Path.parent?_of_parts hparts hname.1).1
        have hstores := hwell.stores hparts hname habove (String.ofList compiled).toUTF8
        rw [writeCompiled_run houtput habove]
        exact ⟨hstores.wellFormed, hstores.grown⟩

theorem grown_process (configuration : Configuration) (hsound : compiler.Sound)
    (hwell : tree.WellFormed) (template : Template) :
    let result := (process (m := StateM FileTree) configuration compiler template).run tree
    result.2.WellFormed ∧ tree.Grown result.2 := by
  intro result
  have htree : result.2 = _ := (process_run configuration hsound template tree).1
  rw [htree]
  exact grown_compileInto compiler.environment hwell template

theorem grown_compileAll (configuration : Configuration) (hsound : compiler.Sound)
    (hwell : tree.WellFormed) (templates : List Template) :
    let result := (compileAll (m := StateM FileTree) configuration compiler templates).run tree
    tree.Grown result.2 := by
  induction templates generalizing compiler tree with
  | nil => exact .refl tree
  | cons template templates ih =>
    obtain ⟨hwell', hgrown⟩ := grown_process configuration hsound hwell template
    obtain ⟨-, -, hsound'⟩ := process_run configuration hsound template tree
    exact hgrown.trans (ih hsound' hwell')

end Batch

end TemplateCompiler
