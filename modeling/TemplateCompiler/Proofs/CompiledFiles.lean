import TemplateCompiler.Proofs.CacheTransparency
import TemplateCompiler.Proofs.FileChanges
import TemplateCompiler.Proofs.OutputPaths

/-!
# What compiling templates does to files

Compiling templates one after another changes no file with the name of a template, as long as no
compiled form has such a name. What it changes depends on the templates alone, so it changes nothing
the second time.
-/
namespace TemplateCompiler

namespace Configuration

variable {configuration : Configuration} {path : Path} {stem extension : Text}

/-! ## Names of compiled forms -/

theorem exists_outputPath? (h : configuration.template? path = some (stem, extension))
    (root : Path) :
    ∃ output, configuration.outputPath? root path = some output ∧ output.parts.2 =
      (configuration.outputDirectory root path).front ++ [compiledName stem extension] := by
  refine ⟨_, by rw [outputPath?, h]; rfl, ?_⟩
  rw [Path.parts_join_name _ (isName_compiledName h)]

def IsTemplateName (configuration : Configuration) (name : Text) : Prop :=
  ∃ extension ∈ configuration.extensions, extension <:+ name ∧ extension ≠ name

instance (configuration : Configuration) (name : Text) :
    Decidable (configuration.IsTemplateName name) :=
  inferInstanceAs (Decidable (∃ extension ∈ configuration.extensions, _))

theorem isSome_template?_iff {name : Text} (h : path.fileName? = some name) :
    (configuration.template? path).isSome ↔ configuration.IsTemplateName name := by
  rw [template?, h, Option.bind_some, List.findSome?_isSome_iff]
  refine exists_congr fun extension => and_congr_right fun _ => ?_
  rw [Option.isSome_map, Option.isSome_iff_exists]
  constructor
  · rintro ⟨stem, hstem⟩
    obtain ⟨rfl, hne⟩ := stem?_eq_some_iff.mp hstem
    exact ⟨List.suffix_append _ _, fun heq => hne (List.self_eq_append_left.mp heq)⟩
  · rintro ⟨⟨stem, rfl⟩, hne⟩
    refine ⟨stem, stem?_eq_some_iff.mpr ⟨rfl, ?_⟩⟩
    rintro rfl
    exact hne rfl

/-- Whether the compiled form of a template with a stem is no template: the ending of compiled forms
ends in no extension of templates, and the stem does not end in what an extension has before that
ending, unless that is the stem itself. -/
def SetsApart (configuration : Configuration) (stem : Text) : Prop :=
  ∀ extension ∈ configuration.extensions, ¬extension <:+ compiledExtension ∧
    ∀ front, extension = front ++ compiledExtension → front <:+ stem → front = stem

theorem not_isTemplateName_append_iff (hstem : stem ≠ []) :
    ¬configuration.IsTemplateName (stem ++ compiledExtension) ↔ configuration.SetsApart stem := by
  constructor
  · refine fun h extension hmem => ⟨fun hending => ?_, ?_⟩
    · refine h ⟨extension, hmem, hending.trans (List.suffix_append _ _), ?_⟩
      rintro rfl
      have hlength := hending.length_le
      rw [List.length_append] at hlength
      exact hstem (List.length_eq_zero_iff.mp (by omega))
    · rintro front rfl hfront
      by_contra hne
      obtain ⟨before, rfl⟩ := hfront
      refine h ⟨_, hmem, ⟨before, by rw [List.append_assoc]⟩, fun heq => hne ?_⟩
      exact List.append_cancel_right heq
  · rintro h ⟨extension, hmem, hsuffix, hne⟩
    obtain ⟨hending, hfront⟩ := h extension hmem
    rcases List.suffix_or_suffix_of_suffix hsuffix (List.suffix_append stem compiledExtension) with
      hshort | ⟨front, rfl⟩
    · exact hending hshort
    · obtain ⟨before, hbefore⟩ := hsuffix
      rw [← List.append_assoc] at hbefore
      rw [hfront front rfl ⟨before, List.append_cancel_right hbefore⟩] at hne
      exact hne rfl

/-- The compiled form of a template is no template exactly if its stem sets it apart. -/
theorem not_isTemplateName_compiledName_iff
    (h : configuration.template? path = some (stem, extension)) :
    ¬configuration.IsTemplateName (compiledName stem extension) ↔ configuration.SetsApart stem := by
  obtain ⟨-, hmem, hne⟩ := template?_eq h
  by_cases hextension : extension = compiledExtension
  · refine iff_of_false (not_not_intro ?_) fun hapart => ?_
    · rw [compiledName_eq, compiledEnding, if_pos hextension, ← List.append_assoc]
      refine ⟨_, hextension ▸ hmem, List.suffix_append _ _, fun heq => ?_⟩
      have hnone := List.self_eq_append_left.mp heq
      exact hne (List.append_eq_nil_iff.mp hnone).1
    · exact (hapart extension hmem).1 (hextension ▸ List.suffix_refl _)
  · rw [compiledName_eq, compiledEnding, if_neg hextension]
    exact not_isTemplateName_append_iff hne

/-- With the usual extension, all stems do but those that end in the first part of it, and are not
just that. -/
theorem setsApart_iff_of_usual (h : configuration.extensions = usualExtensions) :
    configuration.SetsApart stem ↔ (".hyper".toList <:+ stem → stem = ".hyper".toList) := by
  have hlong : ¬".hyper.php".toList <:+ compiledExtension := by decide
  have hfront : ".hyper.php".toList = ".hyper".toList ++ compiledExtension := by decide
  rw [SetsApart, h, usualExtensions]
  simp only [List.mem_singleton, forall_eq]
  refine ⟨fun hset hsuffix => (hset.2 _ hfront hsuffix).symm, fun hset => ⟨hlong, ?_⟩⟩
  intro front heq hsuffix
  rw [hfront] at heq
  obtain rfl := List.append_cancel_right heq
  exact (hset hsuffix).symm

end Configuration

namespace FileTree

variable {configuration : Configuration} {tree later last : FileTree} {path : Path}

/-- A later tree has all that an earlier one has, and the same files with names of templates. -/
structure Keeps (configuration : Configuration) (tree later : FileTree) : Prop where
  grown : tree.Grown later
  templates : ∀ name location content, configuration.IsTemplateName name →
    (later.node? (name :: location) = some (.file content) ↔
      tree.node? (name :: location) = some (.file content))

theorem Keeps.refl (configuration : Configuration) (tree : FileTree) :
    tree.Keeps configuration tree := ⟨.refl tree, fun _ _ _ _ => Iff.rfl⟩

theorem Keeps.trans (h : Keeps configuration tree later) (h' : Keeps configuration later last) :
    Keeps configuration tree last :=
  ⟨h.grown.trans h'.grown, fun name location content hname =>
    (h'.templates name location content hname).trans (h.templates name location content hname)⟩

theorem Stores.keeps {above : Path} {content : ByteArray} {name : Text}
    (h : Stores path above content name tree) (hname : ¬configuration.IsTemplateName name) :
    Keeps configuration tree (tree.store path above content) := by
  refine ⟨h.grown, fun name' location content' hname' => ?_⟩
  rcases h.node? (name' :: location) with hsame | ⟨hnone, hdirectory⟩ | ⟨front, hplace⟩
  · rw [hsame]
  · rw [hnone, hdirectory]
    exact iff_of_false (by rintro ⟨⟩) (by rintro ⟨⟩)
  · rw [List.cons.injEq] at hplace
    exact absurd (hplace.1 ▸ hname') hname

theorem Keeps.read_eq (h : Keeps configuration tree later) (hwell : tree.WellFormed)
    (htemplate : (configuration.template? path).isSome) (hleads : tree.Leads path) :
    later.read path = tree.read path := by
  unfold read find
  rcases hleads with ⟨place, content, hfind⟩ | ⟨error, herror, hlocate⟩
  · obtain ⟨hlocate, hnode⟩ := find_eq_ok hfind
    obtain ⟨name, location, rfl, hname⟩ := hwell.name_of_find hfind
    have hlater := (h.templates name location content
      ((Configuration.isSome_template?_iff hname).mp htemplate)).mpr hnode
    rw [h.grown.locate_eq (by rw [hlocate]; rintro ⟨⟩), hlocate]
    simp only [Except.bind, hnode, hlater]
  · rw [h.grown.locate_eq (by rw [hlocate]; simpa using herror), hlocate]
    rfl

theorem Keeps.leads (h : Keeps configuration tree later) (hleads : tree.Leads path) :
    later.Leads path := by
  rcases hleads with ⟨place, content, hfind⟩ | ⟨error, herror, hlocate⟩
  · obtain ⟨content', hlater⟩ := h.grown.find_file hfind
    exact Or.inl ⟨place, content', hlater⟩
  · refine Or.inr ⟨error, herror, ?_⟩
    rw [h.grown.locate_eq (by rw [hlocate]; simpa using herror), hlocate]

/-- Whether a change keeps the files of templates, and changes nothing else when it is made again
in a tree that has come from the first change. -/
structure Repeats (configuration : Configuration) (change : FileTree → FileTree) (tree : FileTree) :
    Prop where
  wellFormed : (change tree).WellFormed
  keeps : Keeps configuration tree (change tree)
  again : ∀ later, later.WellFormed → Keeps configuration (change tree) later →
    SameEffect tree (change tree) later (change later)

theorem repeats_id (configuration : Configuration) (hwell : tree.WellFormed) :
    Repeats configuration id tree :=
  ⟨hwell, .refl configuration tree, fun _ _ _ _ => Or.inl ⟨rfl, rfl⟩⟩

theorem Repeats.comp {change next : FileTree → FileTree} (h : Repeats configuration change tree)
    (hnext : Repeats configuration next (change tree))
    (hlater : ∀ later, later.WellFormed → Keeps configuration tree later →
      Repeats configuration change later) :
    Repeats configuration (fun tree => next (change tree)) tree := by
  refine ⟨hnext.wellFormed, h.keeps.trans hnext.keeps, fun later hwell hkeeps => ?_⟩
  have hkeeps' := hnext.keeps.trans hkeeps
  obtain ⟨hwell', hgoes, -⟩ := hlater later hwell (h.keeps.trans hkeeps')
  exact (h.again later hwell hkeeps').trans (hnext.again (change later) hwell' (hkeeps.trans hgoes))

theorem Repeats.node?_eq {change : FileTree → FileTree} (h : Repeats configuration change tree)
    (location : Location) :
    (change (change tree)).node? location = (change tree).node? location := by
  rcases h.again (change tree) h.wellFormed (.refl configuration _) location with ⟨-, hsame⟩ | hsame
  · exact hsame
  · exact hsame

theorem Repeats.congr {change change' : FileTree → FileTree} (h : Repeats configuration change tree)
    (heq : ∀ later, Keeps configuration tree later → change' later = change later) :
    Repeats configuration change' tree := by
  have htree := heq tree (.refl configuration tree)
  refine ⟨?_, ?_, fun later hwell hkeeps => ?_⟩
  · rw [htree]
    exact h.wellFormed
  · rw [htree]
    exact h.keeps
  · rw [htree] at hkeeps ⊢
    rw [heq later (h.keeps.trans hkeeps)]
    exact h.again later hwell hkeeps

theorem repeats_store {above : Path} {content : ByteArray} {name : Text} (hwell : tree.WellFormed)
    (hname : ¬configuration.IsTemplateName name)
    (hstores : ∀ tree : FileTree, tree.WellFormed → Stores path above content name tree) :
    Repeats configuration (store path above content) tree := by
  have h := hstores tree hwell
  exact ⟨h.wellFormed, h.keeps hname, fun later hlater hkeeps => h.again later hlater hkeeps.grown⟩

end FileTree

namespace Template

variable {configuration : Configuration} {tree later : FileTree} {template : Template}

/-- Whether a template is set apart from its compiled form, and leads to a file. -/
structure IsSetApart (configuration : Configuration) (tree : FileTree) (template : Template) :
    Prop where
  setsApart : ∃ stem extension, configuration.template? template.path = some (stem, extension) ∧
    configuration.SetsApart stem
  leads : tree.Leads template.path

theorem IsSetApart.of_keeps (h : template.IsSetApart configuration tree)
    (hkeeps : FileTree.Keeps configuration tree later) : template.IsSetApart configuration later :=
  ⟨h.setsApart, hkeeps.leads h.leads⟩

end Template

namespace Batch

variable {configuration : Configuration} {compiler : Compiler} {template : Template}

/-! ## The tree after templates were compiled -/

theorem writeCompiled_run {target above : Path}
    (htarget : configuration.outputPath? template.root template.path = some target)
    (habove : target.parent? = some above) (compiled : Text) (tree : FileTree) :
    ((writeCompiled (m := StateM FileTree) configuration template compiled).run tree).2 =
      tree.store target above (String.ofList compiled).toUTF8 := by
  have hmake : (FileAccess.createDirectories (m := StateM FileTree) above) tree =
      FileTree.make (above.length + 1) above tree := rfl
  unfold writeCompiled FileTree.store
  rw [htarget]
  simp only [habove]
  simp only [StateT.run, bind, StateT.bind, hmake]
  rcases FileTree.make (above.length + 1) above tree with ⟨result, later⟩
  cases result with
  | error error => rfl
  | ok done =>
    simp only [pure, StateT.pure, Except.mapError, StateT.bind, FileAccess.writeText,
      FileAccess.write, FileTree.change]
    cases later.write target (String.ofList compiled).toUTF8 <;> rfl

/-- The tree after one template was compiled, and after that nothing is said of the compiler. -/
def compileInto (configuration : Configuration) (environment : Environment) (tree : FileTree)
    (template : Template) : FileTree :=
  match (tree.read template.path).bind FileAccess.decode with
  | .error _ => tree
  | .ok source =>
    match compileTemplate environment source with
    | .error _ => tree
    | .ok compiled =>
      ((writeCompiled (m := StateM FileTree) configuration template compiled).run tree).2

/-- What a compiler has kept makes no difference to the tree. -/
theorem process_run (configuration : Configuration) (hsound : compiler.Sound) (template : Template)
    (tree : FileTree) :
    let result := (process (m := StateM FileTree) configuration compiler template).run tree
    result.2 = compileInto configuration compiler.environment tree template ∧
      result.1.2.environment = compiler.environment ∧ result.1.2.Sound := by
  unfold process compileInto
  simp only [StateT.run, bind, StateT.bind, FileAccess.readText, FileAccess.read, pure, StateT.pure]
  cases (tree.read template.path).bind FileAccess.decode with
  | error error => exact ⟨rfl, rfl, hsound⟩
  | ok source =>
    obtain ⟨hresult, henvironment, hsound'⟩ := hsound.compile source
    rcases hcompile : compiler.compile source with ⟨result, compiler'⟩
    rw [hcompile] at hresult henvironment hsound'
    simp only at hresult henvironment hsound'
    simp only [← hresult, hcompile]
    cases result with
    | error error => exact ⟨rfl, henvironment, hsound'⟩
    | ok compiled => exact ⟨rfl, henvironment, hsound'⟩

theorem compileAll_run (configuration : Configuration) (hsound : compiler.Sound)
    (templates : List Template) (tree : FileTree) :
    let result := (compileAll (m := StateM FileTree) configuration compiler templates).run tree
    result.2 = templates.foldl (compileInto configuration compiler.environment) tree ∧
      result.1.2.environment = compiler.environment ∧ result.1.2.Sound := by
  induction templates generalizing compiler tree with
  | nil => exact ⟨rfl, rfl, hsound⟩
  | cons template templates ih =>
    obtain ⟨htree, henvironment, hsound'⟩ := process_run configuration hsound template tree
    rw [compileAll]
    simp only [StateT.run, bind, StateT.bind, pure, StateT.pure]
    rcases hprocess : process (m := StateM FileTree) configuration compiler template tree with
      ⟨⟨outcome, compiler'⟩, tree'⟩
    simp only [StateT.run, hprocess] at htree henvironment hsound'
    obtain ⟨hrest, henvironment', hsound''⟩ := ih hsound' tree'
    rw [List.foldl_cons, ← htree, ← henvironment]
    exact ⟨hrest, henvironment', hsound''⟩

theorem repeats_compileInto (environment : Environment) {tree : FileTree}
    (hwell : tree.WellFormed) (hapart : template.IsSetApart configuration tree) :
    FileTree.Repeats configuration (compileInto configuration environment · template) tree := by
  obtain ⟨⟨stem, extension, htemplate, hsets⟩, hleads⟩ := hapart
  have hname := Configuration.isName_compiledName htemplate
  have hcompiled := (Configuration.not_isTemplateName_compiledName_iff htemplate).mpr hsets
  obtain ⟨target, htarget, hparts⟩ := Configuration.exists_outputPath? htemplate template.root
  have habove := (Path.parent?_of_parts hparts hname.1).1
  -- The template reads the same in all later trees, so it compiles to the same text there.
  have hread {later : FileTree} (h : FileTree.Keeps configuration tree later) :
      later.read template.path = tree.read template.path :=
    h.read_eq hwell (by rw [htemplate]; rfl) hleads
  cases hsource : (tree.read template.path).bind FileAccess.decode with
  | error error =>
    refine (FileTree.repeats_id configuration hwell).congr fun later hkeeps => ?_
    simp only [compileInto, hread hkeeps, hsource, id]
  | ok source =>
    cases hcompile : compileTemplate environment source with
    | error error =>
      refine (FileTree.repeats_id configuration hwell).congr fun later hkeeps => ?_
      simp only [compileInto, hread hkeeps, hsource, hcompile, id]
    | ok compiled =>
      have hstores (tree : FileTree) (hwell : tree.WellFormed) :=
        hwell.stores hparts hname habove (String.ofList compiled).toUTF8
      refine (FileTree.repeats_store hwell hcompiled hstores).congr fun later hkeeps => ?_
      simp only [compileInto, hread hkeeps, hsource, hcompile, writeCompiled_run htarget habove]

theorem repeats_foldl_compileInto (environment : Environment) {templates : List Template}
    {tree : FileTree} (hwell : tree.WellFormed)
    (hapart : ∀ template ∈ templates, template.IsSetApart configuration tree) :
    FileTree.Repeats configuration (templates.foldl (compileInto configuration environment))
      tree := by
  induction templates generalizing tree with
  | nil => exact FileTree.repeats_id configuration hwell
  | cons template templates ih =>
    have htemplate := hapart template List.mem_cons_self
    have hstep := repeats_compileInto environment hwell htemplate
    refine hstep.comp (ih hstep.wellFormed fun other hother => ?_) fun later hlater hkeeps => ?_
    · exact (hapart other (List.mem_cons_of_mem _ hother)).of_keeps hstep.keeps
    · exact repeats_compileInto environment hlater (htemplate.of_keeps hkeeps)

end Batch

end TemplateCompiler
