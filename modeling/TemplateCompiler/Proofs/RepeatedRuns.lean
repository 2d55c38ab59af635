import TemplateCompiler.Proofs.CompiledFiles

/-!
# Runs that are repeated

Where no compiled form has the name of a template, a batch finds the same templates after it has
run, and another run leaves all files as they are.
-/
namespace TemplateCompiler

namespace Text

theorem le_cons_iff {c d : Char} {first second : Text} :
    le (c :: first) (d :: second) ↔ c.toNat < d.toNat ∨ c = d ∧ le first second := by
  rw [le]
  split
  · rename_i h
    simp [h]
  · rename_i h
    simp [h]

theorem le_total (first second : Text) : le first second ∨ le second first := by
  induction first generalizing second with
  | nil => exact Or.inl rfl
  | cons c first ih =>
    cases second with
    | nil => exact Or.inr rfl
    | cons d second =>
      rw [le_cons_iff, le_cons_iff]
      rcases Nat.lt_trichotomy c.toNat d.toNat with hless | heq | hmore
      · exact Or.inl (Or.inl hless)
      · obtain rfl := Char.toNat_inj.mp heq
        exact (ih second).imp (fun h => Or.inr ⟨rfl, h⟩) fun h => Or.inr ⟨rfl, h⟩
      · exact Or.inr (Or.inl hmore)

theorem le_antisymm {first second : Text} (h : le first second) (h' : le second first) :
    first = second := by
  induction first generalizing second with
  | nil =>
    cases second with
    | nil => rfl
    | cons d second => cases h'
  | cons c first ih =>
    cases second with
    | nil => cases h
    | cons d second =>
      rw [le_cons_iff] at h h'
      rcases h with hless | ⟨rfl, h⟩
      · rcases h' with hmore | ⟨rfl, -⟩ <;> omega
      · rcases h' with hmore | ⟨-, h'⟩
        · omega
        · rw [ih h h']

theorem le_trans {first second third : Text} (h : le first second) (h' : le second third) :
    le first third := by
  induction first generalizing second third with
  | nil => rfl
  | cons c first ih =>
    cases second with
    | nil => cases h
    | cons d second =>
      cases third with
      | nil => cases h'
      | cons e third =>
        rw [le_cons_iff] at h h' ⊢
        rcases h with hless | ⟨rfl, h⟩
        · rcases h' with hmore | ⟨rfl, -⟩
          · exact Or.inl (Nat.lt_trans hless hmore)
          · exact Or.inl hless
        · exact h'.imp_right fun h' => ⟨h'.1, ih h h'.2⟩

theorem filter_mergeSort_eq {first second : List Text} {p : Text → Bool}
    (h : (first.filter p).Perm (second.filter p)) :
    (first.mergeSort le).filter p = (second.mergeSort le).filter p := by
  have htotal (a b : Text) : (le a b || le b a) = true := by
    rw [Bool.or_eq_true]
    exact le_total a b
  have hsorted (texts : List Text) :
      ((texts.mergeSort le).filter p).Pairwise fun a b => le a b :=
    (@List.pairwise_mergeSort Text le (fun _ _ _ => le_trans) htotal texts).filter p
  refine List.Perm.eq_of_pairwise (fun _ _ _ _ => le_antisymm) (hsorted first) (hsorted second) ?_
  calc (first.mergeSort le).filter p
    _ |>.Perm (first.filter p) := (List.mergeSort_perm first _).filter p
    _ |>.Perm (second.filter p) := h
    _ |>.Perm ((second.mergeSort le).filter p) := ((List.mergeSort_perm second _).filter p).symm

end Text

namespace FileTree

variable {configuration : Configuration} {tree later : FileTree} {root path : Path}
  {location place top : Location}

/-! ## Templates under a directory -/

def pathOf? (top : Location) (root : Path) : Location × Node → Option Path
  | (location, .file _) => (namesBelow? top location).map fun names => names.foldl Path.join root
  | (_, .directory) => none

theorem filesUnder_eq (h : tree.find root = .ok (top, .directory)) :
    tree.filesUnder root = (tree.nodes.filterMap (pathOf? top root)).mergeSort Text.le := by
  unfold filesUnder
  rw [h]
  refine congrArg (List.mergeSort · Text.le) (List.filterMap_congr fun entry _ => ?_)
  rcases entry with ⟨location, node⟩
  cases node <;> rfl

theorem WellFormed.fileName?_of_pathOf? (hwell : tree.WellFormed) {entry : Location × Node}
    (hentry : entry ∈ tree.nodes) (h : pathOf? top root entry = some path) :
    ∃ name names content, entry = (name :: (names ++ top), .file content) ∧
      path.fileName? = some name := by
  rcases entry with ⟨location, node⟩
  cases node with
  | directory => cases h
  | file content =>
    obtain ⟨names, hnames, rfl⟩ := Option.map_eq_some_iff.mp h
    obtain ⟨rfl, hne⟩ := namesBelow?_eq hnames
    have hvalid : ∀ name ∈ names, Path.IsName name := fun name hname =>
      hwell.names _ hentry name (List.mem_append_left _ (List.mem_reverse.mpr hname))
    have hparts := congrArg Prod.snd (Path.parts_foldl_join root hvalid hne)
    obtain ⟨front, name, rfl⟩ := (List.eq_nil_or_concat names).resolve_left hne
    rw [List.concat_eq_append] at *
    have hname := hvalid name (List.mem_append_right _ List.mem_cons_self)
    refine ⟨name, front.reverse, content, ?_, ?_⟩
    · rw [List.reverse_append]
      rfl
    · exact Path.fileName?_of_parts (hparts.trans (List.append_assoc _ _ _).symm) hname.1 hname.2.1

def isTemplateEntry (configuration : Configuration) : Location × Node → Bool
  | (name :: _, .file _) => configuration.IsTemplateName name
  | _ => false

theorem WellFormed.nodup_nodes (hwell : tree.WellFormed) : tree.nodes.Nodup :=
  List.Nodup.of_map _ hwell.nodup

theorem Keeps.perm_filter (h : Keeps configuration tree later) (hwell : tree.WellFormed)
    (hwell' : later.WellFormed) :
    (later.nodes.filter (isTemplateEntry configuration)).Perm
      (tree.nodes.filter (isTemplateEntry configuration)) := by
  refine (List.perm_ext_iff_of_nodup (hwell'.nodup_nodes.filter _) (hwell.nodup_nodes.filter _)).mpr
    fun entry => ?_
  rw [List.mem_filter, List.mem_filter]
  refine and_congr_left fun hentry => ?_
  obtain ⟨name, location, content, rfl, hname⟩ : ∃ name location content,
      entry = (name :: location, Node.file content) ∧ configuration.IsTemplateName name := by
    unfold isTemplateEntry at hentry
    split at hentry
    · exact ⟨_, _, _, rfl, by simpa using hentry⟩
    · cases hentry
  have hmem {tree : FileTree} (hwell : tree.WellFormed) :
      (name :: location, Node.file content) ∈ tree.nodes ↔
        tree.node? (name :: location) = some (.file content) :=
    ⟨fun hentry => hwell.node?_of_mem hentry (List.cons_ne_nil _ _),
      fun hnode => mem_of_node? hnode (List.cons_ne_nil _ _)⟩
  rw [hmem hwell, hmem hwell']
  exact h.templates name location content hname

theorem Keeps.filter_filesUnder_eq (h : Keeps configuration tree later) (hwell : tree.WellFormed)
    (hwell' : later.WellFormed) (hroot : tree.find root = .ok (top, .directory))
    {p : Path → Bool} (hp : ∀ path, p path → (configuration.template? path).isSome) :
    (later.filesUnder root).filter p = (tree.filesUnder root).filter p := by
  have hroot' := h.grown.find_directory hroot
  -- Only entries that are templates pass, and those are the same in both trees.
  have htemplates {tree : FileTree} (hwell : tree.WellFormed) :
      (tree.nodes.filterMap (pathOf? top root)).filter p =
        (tree.nodes.filter (isTemplateEntry configuration)).filterMap
          fun entry => (pathOf? top root entry).filter p := by
    rw [List.filter_filterMap, List.filterMap_filter]
    refine List.filterMap_congr fun entry hentry => ?_
    split
    · rfl
    · rename_i hno
      rw [Option.filter_eq_none_iff]
      intro path hpath hpass
      obtain ⟨name, names, content, rfl, hname⟩ := hwell.fileName?_of_pathOf? hentry hpath
      refine hno ?_
      simpa [isTemplateEntry] using (Configuration.isSome_template?_iff hname).mp (hp path hpass)
  rw [filesUnder_eq hroot, filesUnder_eq hroot']
  refine Text.filter_mergeSort_eq ?_
  rw [htemplates hwell, htemplates hwell']
  exact (h.perm_filter hwell hwell').filterMap _

/-! ## Ways to what was there before -/

/-- A way that never leads up goes down by all that it says. -/
theorem follow_down {pieces : List Text} (hup : ['.', '.'] ∉ pieces)
    (h : tree.follow location pieces = .ok place) :
    place = (pieces.filter (!Path.isSilent ·)).reverse ++ location := by
  induction pieces generalizing location with
  | nil =>
    cases h
    rfl
  | cons piece pieces ih =>
    have hdirectory := isDirectoryAt_iff.mp (isDirectoryAt_of_follow h)
    have hrest : ['.', '.'] ∉ pieces := fun hmem => hup (List.mem_cons_of_mem _ hmem)
    have hpiece : piece ≠ ['.', '.'] := fun heq => hup (heq ▸ List.mem_cons_self)
    rw [follow, hdirectory] at h
    simp only [if_neg hpiece] at h
    split at h
    · rename_i hsilent
      rw [ih hrest h, List.filter_cons_of_neg (by simpa using hsilent)]
    · rename_i hsilent
      split at h
      · cases h
      · rw [ih hrest h, List.filter_cons_of_pos (by simpa using hsilent), List.reverse_cons,
          List.append_assoc, List.singleton_append]

theorem Grown.isDirectoryAt_of_isSome (h : tree.Grown later) (hnode : (tree.node? location).isSome)
    (hlater : later.isDirectoryAt location) : tree.isDirectoryAt location := by
  obtain ⟨node, hnode⟩ := Option.isSome_iff_exists.mp hnode
  cases node with
  | directory => exact isDirectoryAt_iff.mpr hnode
  | file content =>
    obtain ⟨content', hfile⟩ := h.files location content hnode
    rw [isDirectoryAt_iff, hfile] at hlater
    cases hlater

/-- A way that never leads up and ends at something that was there before was there before. -/
theorem Grown.follow_of_isSome (h : tree.Grown later) (hwell : tree.WellFormed) {pieces : List Text}
    (hup : ['.', '.'] ∉ pieces) (hplace : (tree.node? place).isSome)
    (hlater : later.follow location pieces = .ok place) :
    tree.follow location pieces = .ok place := by
  induction pieces generalizing location with
  | nil => exact hlater
  | cons piece pieces ih =>
    have hdirectory := isDirectoryAt_of_follow hlater
    have hrest : ['.', '.'] ∉ pieces := fun hmem => hup (List.mem_cons_of_mem _ hmem)
    have hpiece : piece ≠ ['.', '.'] := fun heq => hup (heq ▸ List.mem_cons_self)
    have hbefore : tree.isDirectoryAt location := by
      refine h.isDirectoryAt_of_isSome ?_ hdirectory
      obtain ⟨names, rfl⟩ : ∃ names, place = names ++ location := ⟨_, follow_down hup hlater⟩
      by_cases hnames : names = []
      · rw [hnames] at hplace
        exact hplace
      · rw [isDirectoryAt_iff.mp (hwell.isDirectoryAt_of_append hplace hnames)]
        rfl
    rw [follow, isDirectoryAt_iff.mp hdirectory] at hlater
    rw [follow, isDirectoryAt_iff.mp hbefore]
    simp only [if_neg hpiece] at hlater ⊢
    split at hlater
    · rename_i hsilent
      rw [if_pos hsilent]
      exact ih hrest hlater
    · rename_i hsilent
      rw [if_neg hsilent]
      split at hlater
      · cases hlater
      · rename_i hlong
        rw [if_neg hlong]
        exact ih hrest hlater

theorem Grown.find_of_isSome (h : tree.Grown later) (hwell : tree.WellFormed)
    (hup : ['.', '.'] ∉ path.names) (hlater : later.locate path = .ok place)
    (hplace : (tree.node? place).isSome) : tree.find path ≠ .error .notFound := by
  obtain ⟨hnone, hfollow⟩ := locate_eq_ok hlater
  have hparts : ['.', '.'] ∉ path.parts.2 := fun hmem =>
    hup (List.mem_filter.mpr ⟨hmem, by decide⟩)
  rw [h.start_eq] at hfollow
  have hlocate : tree.locate path = .ok place := by
    rw [locate_of_none hnone]
    exact h.follow_of_isSome hwell hparts hplace hfollow
  obtain ⟨node, hnode⟩ := Option.isSome_iff_exists.mp hplace
  rw [find, hlocate]
  simp only [Except.bind, hnode]
  rintro ⟨⟩

end FileTree

namespace Batch

variable {configuration : Configuration} {tree later : FileTree} {root : Path}

/-! ## What is found again -/

theorem withRoot_of_file {place : Location} {content : ByteArray}
    (h : tree.find root = .ok (place, .file content)) (templates : List Template) :
    withRoot configuration tree templates root =
      if (configuration.templateExtension? root).isSome then
        Template.put templates ⟨root, root.parent?.getD root⟩
      else templates := by
  rw [withRoot, FileTree.isFile, h]
  exact if_pos rfl

theorem withRoot_of_directory {place : Location} (h : tree.find root = .ok (place, .directory))
    (templates : List Template) :
    withRoot configuration tree templates root =
      ((tree.filesUnder root).filter (isTemplateUnder configuration root)).foldl
        (fun templates path => Template.add templates ⟨path, root⟩) templates := by
  rw [withRoot, FileTree.isFile, h]
  exact if_neg Bool.false_ne_true

theorem withRoot_of_error {error : FileError} (h : tree.find root = .error error)
    (templates : List Template) : withRoot configuration tree templates root = templates := by
  rw [withRoot, FileTree.isFile, FileTree.filesUnder, h]
  exact if_neg Bool.false_ne_true

/-- A root that leads nowhere, and can only lead to something new later, has no templates later. -/
theorem withRoot_of_notFound (h : FileTree.Keeps configuration tree later) (hwell : tree.WellFormed)
    (hwell' : later.WellFormed) (hroot : tree.find root = .error .notFound)
    (hup : ['.', '.'] ∉ root.names) (templates : List Template) :
    withRoot configuration later templates root = templates := by
  have hnew {place : Location} {node : Node} (hfind : later.find root = .ok (place, node)) :
      tree.node? place = none := by
    rw [← Option.not_isSome_iff_eq_none]
    exact fun hplace => h.grown.find_of_isSome hwell hup (FileTree.find_eq_ok hfind).1 hplace hroot
  -- A template under the root, or at it, would have been there before, and so would the root.
  rcases hfind : later.find root with error | ⟨place, _ | content⟩
  · exact withRoot_of_error hfind templates
  · suffices hnone : (later.filesUnder root).filter (isTemplateUnder configuration root) = [] by
      rw [withRoot_of_directory hfind, hnone]
      rfl
    refine List.filter_eq_nil_iff.mpr fun path hpath htemplate => ?_
    rw [FileTree.filesUnder_eq hfind, List.mem_mergeSort, List.mem_filterMap] at hpath
    obtain ⟨entry, hentry, hpath⟩ := hpath
    obtain ⟨name, names, content, rfl, hname⟩ := hwell'.fileName?_of_pathOf? hentry hpath
    have hbefore := (h.templates name (names ++ place) content
      ((Configuration.isSome_template?_iff hname).mp (isSome_of_isTemplateUnder htemplate))).mp
        (hwell'.node?_of_mem hentry (List.cons_ne_nil _ _))
    rw [← List.cons_append] at hbefore
    have hplace := hwell.isDirectoryAt_of_append (by rw [hbefore]; rfl) (List.cons_ne_nil _ _)
    rw [FileTree.isDirectoryAt_iff, hnew hfind] at hplace
    cases hplace
  · rw [withRoot_of_file hfind, if_neg]
    intro htemplate
    obtain ⟨name, location, rfl, hname⟩ := hwell'.name_of_find hfind
    have hbefore := (h.templates name location content
      ((Configuration.isSome_template?_iff hname).mp (isSome_template? htemplate))).mp
        (FileTree.find_eq_ok hfind).2
    rw [hnew hfind] at hbefore
    cases hbefore

theorem withRoot_eq (h : FileTree.Keeps configuration tree later) (hwell : tree.WellFormed)
    (hwell' : later.WellFormed)
    (hroot : tree.find root = .error .notFound → ['.', '.'] ∉ root.names)
    (templates : List Template) :
    withRoot configuration later templates root = withRoot configuration tree templates root := by
  rcases hfind : tree.find root with error | ⟨place, _ | content⟩
  · rw [withRoot_of_error hfind]
    by_cases herror : error = .notFound
    · rw [herror] at hfind
      exact withRoot_of_notFound h hwell hwell' hfind (hroot hfind) templates
    · exact withRoot_of_error (h.grown.find_error hfind herror) templates
  · rw [withRoot_of_directory hfind, withRoot_of_directory (h.grown.find_directory hfind),
      h.filter_filesUnder_eq hwell hwell' hfind fun path hpath => isSome_of_isTemplateUnder hpath]
  · obtain ⟨content', hlater⟩ := h.grown.find_file hfind
    rw [withRoot_of_file hfind, withRoot_of_file hlater]

/-- Whether a root leads nowhere and goes back up: it may lead to something old once a directory on
its way has been created. -/
def Strays (tree : FileTree) (root : Path) : Prop :=
  tree.find root = .error .notFound ∧ ['.', '.'] ∈ root.names

theorem found_eq_of_keeps {batch : Batch} (h : FileTree.Keeps batch.configuration tree later)
    (hwell : tree.WellFormed) (hwell' : later.WellFormed)
    (hroots : ∀ root ∈ batch.roots, ¬Strays tree root) : batch.found later = batch.found tree := by
  rw [found_eq, found_eq]
  have hfold (roots : List Path) (templates : List Template)
      (hroots : ∀ root ∈ roots, ¬Strays tree root) :
      roots.foldl (withRoot batch.configuration later) templates =
        roots.foldl (withRoot batch.configuration tree) templates := by
    induction roots generalizing templates with
    | nil => rfl
    | cons root roots ih =>
      have hroot := hroots root List.mem_cons_self
      rw [List.foldl_cons, List.foldl_cons,
        withRoot_eq h hwell hwell' (fun hfind hup => hroot ⟨hfind, hup⟩) templates]
      exact ih _ fun other hother => hroots other (List.mem_cons_of_mem _ hother)
  exact hfold batch.roots [] hroots

/-! ## Runs -/

theorem run_eq (batch : Batch) (hsound : batch.compiler.Sound) (tree : FileTree) :
    let result := (batch.run (m := StateM FileTree)).run tree
    result.2 = (batch.found tree).foldl
        (compileInto batch.configuration batch.compiler.environment) tree ∧
      result.1.2.configuration = batch.configuration ∧ result.1.2.roots = batch.roots ∧
      result.1.2.compiler.environment = batch.compiler.environment ∧ result.1.2.compiler.Sound := by
  have htemplates := batch.templates_run tree
  rw [← found_eq] at htemplates
  obtain ⟨htree, henvironment, hsound'⟩ :=
    compileAll_run batch.configuration hsound (batch.found tree) tree
  unfold run
  simp only [StateT.run, bind, StateT.bind, pure, StateT.pure]
    at htemplates htree henvironment hsound' ⊢
  rw [htemplates]
  simp only
  rcases hcompile : compileAll (m := StateM FileTree) batch.configuration batch.compiler
    (batch.found tree) tree with ⟨⟨outcomes, compiler⟩, later⟩
  rw [hcompile] at htree henvironment hsound'
  exact ⟨htree, rfl, rfl, henvironment, hsound'⟩

end Batch

/-- The compiled form of a template is no template exactly if its stem sets it apart. If that holds
of all templates that a batch finds, and no root strays, a run leaves these templates as they are,
the same ones are found after it, and another run changes nothing. -/
theorem compiled_forms_set_apart (configuration : Configuration) :
    (∀ root path stem extension, configuration.template? path = some (stem, extension) →
      ∃ output, configuration.outputPath? root path = some output ∧
        (configuration.templateExtension? output = none ↔ configuration.SetsApart stem)) ∧
    ∀ (batch : Batch) (tree : FileTree), batch.configuration = configuration → tree.WellFormed →
      batch.compiler.Sound → (∀ root ∈ batch.roots, ¬Batch.Strays tree root) →
      (∀ template ∈ batch.found tree, ∀ stem extension,
        configuration.template? template.path = some (stem, extension) →
          configuration.SetsApart stem) →
      let first := (batch.run (m := StateM FileTree)).run tree
      let second := (first.1.2.run (m := StateM FileTree)).run first.2
      (∀ template ∈ batch.found tree, first.2.read template.path = tree.read template.path) ∧
        first.1.2.found first.2 = batch.found tree ∧
        ∀ location, second.2.node? location = first.2.node? location := by
  refine ⟨fun root path stem extension htemplate => ?_, ?_⟩
  · have hname := Configuration.isName_compiledName htemplate
    obtain ⟨output, houtput, hparts⟩ := Configuration.exists_outputPath? htemplate root
    have hfileName := Path.fileName?_of_parts hparts hname.1 hname.2.1
    refine ⟨output, houtput, ?_⟩
    rw [← Configuration.not_isTemplateName_compiledName_iff htemplate,
      ← Configuration.isSome_template?_iff hfileName, Configuration.templateExtension?]
    simp
  · rintro batch tree rfl hwell hsound hroots hapart first second
    obtain ⟨htree, hconfiguration, hroots', henvironment, hsound'⟩ := batch.run_eq hsound tree
    have hset : ∀ template ∈ batch.found tree,
        template.IsSetApart batch.configuration tree := fun template hmem => by
      have hfound := batch.isFound_of_mem_found hwell hmem
      obtain ⟨⟨stem, extension⟩, htemplate⟩ := Option.isSome_iff_exists.mp hfound.isTemplate
      have hstem := hapart template hmem stem extension htemplate
      exact ⟨⟨stem, extension, htemplate, hstem⟩, hfound.leads⟩
    have hrepeats := Batch.repeats_foldl_compileInto batch.compiler.environment hwell hset
    have hkeeps : FileTree.Keeps batch.configuration tree first.2 := htree ▸ hrepeats.keeps
    have hagain : first.1.2.found first.2 = batch.found tree := by
      rw [Batch.found_eq, hconfiguration, hroots', ← Batch.found_eq,
        Batch.found_eq_of_keeps hkeeps hwell (htree ▸ hrepeats.wellFormed) hroots]
    refine ⟨fun template hmem => ?_, hagain, fun location => ?_⟩
    · have hfound := batch.isFound_of_mem_found hwell hmem
      exact hkeeps.read_eq hwell hfound.isTemplate hfound.leads
    · obtain ⟨htree', -⟩ := first.1.2.run_eq hsound' first.2
      rw [hagain, hconfiguration, henvironment] at htree'
      rw [htree', htree]
      exact hrepeats.node?_eq location

theorem compiled_forms_set_apart_of_usual :
    let batch := Batch.over ["/w".toList] Configuration.usualExtensions none
    let tree := FileTree.ofFiles [(['w'], ["a.hyper.php".toList])]
    let first := (batch.run (m := StateM FileTree)).run tree
    let second := (first.1.2.run (m := StateM FileTree)).run first.2
    (∃ output, batch.configuration.outputPath? "/w".toList "/w/a.hyper.php".toList = some output ∧
      batch.configuration.templateExtension? output = none) ∧
    first.1.2.found first.2 = [⟨"/w/a.hyper.php".toList, "/w".toList⟩] ∧
    ∀ location, second.2.node? location = first.2.node? location := by
  intro batch tree first second
  have hstem : ¬".hyper".toList <:+ ['a'] := by decide
  have hset : batch.configuration.SetsApart ['a'] :=
    (Configuration.setsApart_iff_of_usual rfl).mpr fun h => absurd h hstem
  have htemplate : batch.configuration.template? "/w/a.hyper.php".toList =
      some (['a'], ".hyper.php".toList) := by decide +kernel
  have hfound : batch.found tree = [⟨"/w/a.hyper.php".toList, "/w".toList⟩] := by cbv
  have hwell : tree.WellFormed := ⟨by decide, by decide, by decide, by decide⟩
  obtain ⟨hone, hall⟩ := compiled_forms_set_apart batch.configuration
  obtain ⟨output, houtput, hiff⟩ := hone "/w".toList _ _ _ htemplate
  obtain ⟨-, hagain, hsame⟩ := hall batch tree rfl hwell (Compiler.sound_new _ _)
    (by
      intro root hroot
      cases List.mem_singleton.mp hroot
      rintro ⟨-, hup⟩
      exact absurd hup (by decide))
    (by
      intro template hmem stem extension h
      rw [hfound] at hmem
      cases List.mem_singleton.mp hmem
      rw [htemplate] at h
      cases h
      exact hset)
  exact ⟨⟨output, houtput, hiff.mpr hset⟩, hagain.trans hfound, hsame⟩

/-- The compiled form of a template that repeats the usual extension is a template, which the next
run finds. And once the output directory has been created, a root leads through it to an old
template. -/
theorem compiled_form_found_again :
    let batch := Batch.over ["/w".toList] Configuration.usualExtensions none
    let tree := FileTree.ofFiles [(['w'], ["a.hyper.hyper.php".toList])]
    let first := (batch.run (m := StateM FileTree)).run tree
    let batch' := Batch.over ["/v".toList, "/out/../w".toList] Configuration.usualExtensions
      (some "/out".toList)
    let tree' := FileTree.ofFiles [(['v'], ["a.hyper.php".toList]), (['w'], ["b.hyper.php".toList])]
    let first' := (batch'.run (m := StateM FileTree)).run tree'
    batch.configuration.outputPath? "/w".toList "/w/a.hyper.hyper.php".toList =
        some "/w/a.hyper.php".toList ∧
      batch.configuration.templateExtension? "/w/a.hyper.php".toList = some ".hyper.php".toList ∧
      batch.found tree = [⟨"/w/a.hyper.hyper.php".toList, "/w".toList⟩] ∧
      first.1.2.found first.2 = [⟨"/w/a.hyper.hyper.php".toList, "/w".toList⟩,
        ⟨"/w/a.hyper.php".toList, "/w".toList⟩] ∧
      batch'.found tree' = [⟨"/v/a.hyper.php".toList, "/v".toList⟩] ∧
      first'.1.2.found first'.2 = [⟨"/v/a.hyper.php".toList, "/v".toList⟩,
        ⟨"/out/../w/b.hyper.php".toList, "/out/../w".toList⟩] := by
  refine ⟨by decide +kernel, by decide +kernel, by cbv, by cbv, by cbv, by cbv⟩

end TemplateCompiler
