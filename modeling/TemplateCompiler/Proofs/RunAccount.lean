import TemplateCompiler.Proofs.ReportedErrors
import TemplateCompiler.Proofs.StoredForms

/-!
# What a run accounts for

While a run goes on, the templates compiled so far have their compiled forms in the tree, and all
other files are as they were. So the next template reads as it did at first, as long as no compiled
form takes its place, and what becomes of it follows from the first tree alone.
-/
namespace TemplateCompiler

/-! ## Compiled forms in their places -/

/-- No compiled form is to take the place of a template, and two of them have one place only if they
come from one template. Where paths lead is seen at the end of a run. -/
structure OutputsApart (configuration : Configuration) (after : FileTree)
    (templates : List Template) : Prop where
  apart_template : ∀ template ∈ templates, ∀ other ∈ templates, ∀ output place,
    configuration.outputPath? template.root template.path = some output →
    after.locate output = .ok place → after.locate other.path ≠ .ok place
  apart_output : ∀ template ∈ templates, ∀ other ∈ templates, ∀ output output' place,
    configuration.outputPath? template.root template.path = some output →
    configuration.outputPath? other.root other.path = some output' →
    after.locate output = .ok place → after.locate output' = .ok place →
    after.locate template.path = after.locate other.path

/-- How a tree looks during a run, after some of the templates of the first tree: they have their
compiled forms, and all other files are as they were. -/
structure Accounts (configuration : Configuration) (tree now : FileTree)
    (done : List Template) : Prop where
  wellFormed : now.WellFormed
  grown : tree.Grown now
  written : ∀ template ∈ done, ∀ compiled output,
    template.Yields configuration tree compiled output →
    ∃ place, now.locate output = .ok place ∧
      now.node? place = some (.file (String.ofList compiled).toUTF8)
  unchanged : ∀ location content,
    (∀ template ∈ done, ∀ compiled output, template.Yields configuration tree compiled output →
      now.locate output ≠ .ok location) →
    (now.node? location = some (.file content) ↔ tree.node? location = some (.file content))

namespace Accounts

variable {configuration : Configuration} {compiler : Compiler} {tree now after : FileTree}
  {done todo : List Template} {template : Template}

theorem start (configuration : Configuration) (hwell : tree.WellFormed) :
    Accounts configuration tree tree [] :=
  ⟨hwell, .refl tree, fun _ hnone => absurd hnone List.not_mem_nil, fun _ _ _ => Iff.rfl⟩

theorem read_eq (h : Accounts configuration tree now done) (hgrown : now.Grown after)
    (hleads : tree.Leads template.path)
    (hapart : ∀ other ∈ done, ∀ output place,
      configuration.outputPath? other.root other.path = some output →
      after.locate output = .ok place → after.locate template.path ≠ .ok place) :
    now.read template.path = tree.read template.path := by
  rcases hleads with ⟨place, content, hfind⟩ | ⟨error, herror, hlocate⟩
  · obtain ⟨hlocate, hnode⟩ := FileTree.find_eq_ok hfind
    have hnow := h.grown.locate_ok hlocate
    have hkept : now.node? place = some (.file content) := by
      refine (h.unchanged place content fun other hother compiled output hyields hplace => ?_).mpr
        hnode
      exact hapart other hother output place hyields.output (hgrown.locate_ok hplace)
        (hgrown.locate_ok hnow)
    rw [FileTree.read_eq_ok hnow hkept, FileTree.read_eq_ok hlocate hnode]
  · unfold FileTree.read FileTree.find
    rw [h.grown.locate_eq (by rw [hlocate]; simpa using herror), hlocate]
    rfl

theorem receives (h : Accounts configuration tree now done) {later : FileTree} {place : Location}
    {compiled : Text} {output : Path} (hyields : template.Yields configuration tree compiled output)
    (hplace : later.locate output = .ok place)
    (hreceives : now.Receives later place (String.ofList compiled).toUTF8)
    (hsame : ∀ other ∈ done, ∀ compiled' output',
      other.Yields configuration tree compiled' output' → later.locate output' = .ok place →
      compiled' = compiled) :
    Accounts configuration tree later (done ++ [template]) := by
  have hlater {path : Path} {location : Location} (hnow : now.locate path = .ok location) :
      later.locate path = .ok location := hreceives.grown.locate_ok hnow
  refine ⟨hreceives.wellFormed, h.grown.trans hreceives.grown, ?_, ?_⟩
  · rw [List.forall_mem_append, List.forall_mem_singleton]
    constructor
    · intro other hother compiled' output' hyields'
      obtain ⟨place', hplace', hnode⟩ := h.written other hother compiled' output' hyields'
      refine ⟨place', hlater hplace', ?_⟩
      by_cases heq : place' = place
      · rw [heq, hsame other hother compiled' output' hyields' (heq ▸ hlater hplace')]
        exact hreceives.here
      · exact (hreceives.elsewhere place' heq _).mpr hnode
    · intro compiled' output' hyields'
      obtain ⟨rfl, rfl⟩ := hyields.unique hyields'
      exact ⟨place, hplace, hreceives.here⟩
  · intro location content hnone
    rw [List.forall_mem_append, List.forall_mem_singleton] at hnone
    have hne : location ≠ place := by
      rintro rfl
      exact hnone.2 compiled output hyields hplace
    rw [hreceives.elsewhere location hne content]
    refine h.unchanged location content fun other hother compiled' output' hyields' hlocate => ?_
    exact hnone.1 other hother compiled' output' hyields' (hlater hlocate)

theorem skips (h : Accounts configuration tree now done)
    (hnone : ∀ compiled output, ¬template.Yields configuration tree compiled output) :
    Accounts configuration tree now (done ++ [template]) := by
  refine ⟨h.wellFormed, h.grown, ?_, fun location content hplaces => ?_⟩
  · rw [List.forall_mem_append, List.forall_mem_singleton]
    exact ⟨h.written, fun compiled output hyields => absurd hyields (hnone compiled output)⟩
  · rw [List.forall_mem_append] at hplaces
    exact h.unchanged location content hplaces.1

theorem step (h : Accounts configuration tree now done) (hsound : compiler.Sound)
    (henvironment : compiler.environment = configuration.environment)
    (hfound : template.IsFound configuration tree) :
    let result := (Batch.process (m := StateM FileTree) configuration compiler template).run now
    ¬result.1.1.isUnwritten → result.2.Grown after →
    OutputsApart configuration after (done ++ template :: todo) →
    result.1.1 = template.outcome configuration tree ∧
      Accounts configuration tree result.2 (done ++ [template]) := by
  intro result hwritten hgrown hapart
  have hmem : template ∈ done ++ template :: todo :=
    List.mem_append_right done List.mem_cons_self
  have hgrown' : now.Grown result.2 :=
    (Batch.grown_process configuration hsound h.wellFormed template).2
  have hread : now.read template.path = tree.read template.path :=
    h.read_eq (hgrown'.trans hgrown) hfound.leads fun other hother output place houtput hplace =>
      hapart.apart_template other (List.mem_append_left _ hother) template hmem output place houtput
        hplace
  by_cases hyields : ∃ compiled output, template.Yields configuration tree compiled output
  · obtain ⟨compiled, output, hyields⟩ := hyields
    have hresult : (result.1.1, result.2) = _ :=
      Batch.process_of_yields hsound henvironment hread hyields
    have hstored := Batch.writeCompiled_receives h.wellFormed hyields.output compiled
    simp only [← hresult] at hstored
    obtain ⟨hdone, place, hplace, hreceives⟩ := hstored hwritten
    refine ⟨hdone.trans hyields.outcome_eq.symm,
      h.receives hyields hplace hreceives fun other hother compiled' output' hyields' hplace' => ?_⟩
    refine hyields.compiled_eq hyields' (h.grown.trans (hgrown'.trans hgrown)) ?_
    exact hapart.apart_output template hmem other (List.mem_append_left _ hother) output output'
      place hyields.output hyields'.output (hgrown.locate_ok hplace) (hgrown.locate_ok hplace')
  · have hnone : ∀ compiled output, ¬template.Yields configuration tree compiled output :=
      fun compiled output h => hyields ⟨compiled, output, h⟩
    obtain ⟨houtcome, htree⟩ := Prod.mk.inj
      (Batch.process_of_not_yields hsound henvironment hread hfound.isTemplate hnone)
    refine ⟨houtcome, ?_⟩
    rw [htree]
    exact h.skips hnone

/-- A run over the templates left keeps the account. -/
theorem compileAll (h : Accounts configuration tree now done) (hsound : compiler.Sound)
    (henvironment : compiler.environment = configuration.environment)
    (hfound : ∀ template ∈ todo, template.IsFound configuration tree) :
    let result := (Batch.compileAll (m := StateM FileTree) configuration compiler todo).run now
    (∀ entry ∈ result.1.1, ¬entry.2.isUnwritten) →
    OutputsApart configuration result.2 (done ++ todo) →
    result.1.1 = todo.map (fun template => (template.path, template.outcome configuration tree)) ∧
      Accounts configuration tree result.2 (done ++ todo) := by
  induction todo generalizing compiler now done with
  | nil =>
    intro result _ _
    rw [List.append_nil]
    exact ⟨rfl, h⟩
  | cons template todo ih =>
    rw [Batch.compileAll_cons]
    intro result hwritten hapart
    rw [List.forall_mem_cons] at hfound hwritten
    obtain ⟨-, henvironment', hsound'⟩ := Batch.process_run configuration hsound template now
    obtain ⟨hwell, -⟩ := Batch.grown_process configuration hsound h.wellFormed template
    have hgrown := Batch.grown_compileAll configuration hsound' hwell todo
    obtain ⟨hfirst, haccount⟩ := h.step hsound henvironment hfound.1 hwritten.1 hgrown hapart
    rw [List.append_cons] at hapart ⊢
    obtain ⟨hothers, haccount'⟩ := ih haccount hsound' (henvironment'.trans henvironment) hfound.2
      hwritten.2 hapart
    refine ⟨?_, haccount'⟩
    rw [List.map_cons]
    exact congrArg₂ List.cons (congrArg (Prod.mk template.path) hfirst) hothers

theorem read_output (h : Accounts configuration tree now done) (hmem : template ∈ done)
    {compiled : Text} {output : Path}
    (hyields : template.Yields configuration tree compiled output) :
    now.read output = .ok (String.ofList compiled).toUTF8 := by
  obtain ⟨place, hplace, hnode⟩ := h.written template hmem compiled output hyields
  exact FileTree.read_eq_ok hplace hnode

/-- The output path of a template that yields nothing leads to no compiled form. -/
theorem node?_of_not_yields (h : Accounts configuration tree now done)
    (hapart : OutputsApart configuration now done) (hmem : template ∈ done)
    (hleads : tree.Leads template.path)
    (hnone : ∀ compiled output, ¬template.Yields configuration tree compiled output)
    {output : Path} {place : Location}
    (houtput : configuration.outputPath? template.root template.path = some output)
    (hplace : now.locate output = .ok place) (content : ByteArray) :
    now.node? place = some (.file content) ↔ tree.node? place = some (.file content) := by
  refine h.unchanged place content fun other hother compiled output' hyields hplace' => ?_
  -- Else the template is the one that the compiled form comes from, and yields the same.
  have hsame := hapart.apart_output template hmem other hother output output' place houtput
    hyields.output hplace hplace'
  obtain ⟨source, hsource, hcompiled⟩ := hyields.compiles
  rw [← hleads.read_eq (FileTree.leads_of_text hsource) h.grown hsame] at hsource
  exact hnone compiled output ⟨⟨source, hsource, hcompiled⟩, houtput⟩

end Accounts

/-! ## Paths that do not lead up -/

namespace Path

/-- A path from the root that never leads up. -/
structure IsStraight (path : Path) : Prop where
  origin : path.origin = .root
  down : ['.', '.'] ∉ path.names

theorem IsStraight.locate_eq {path : Path} {tree : FileTree} {place : Location}
    (h : path.IsStraight) (hlocate : tree.locate path = .ok place) :
    place = path.names.reverse := by
  obtain ⟨-, hfollow⟩ := FileTree.locate_eq_ok hlocate
  have hdown : ['.', '.'] ∉ path.parts.2 := fun hmem =>
    h.down (List.mem_filter.mpr ⟨hmem, by decide⟩)
  have hstart : tree.start path = [] := if_pos (Path.isAbsolute_iff.mpr h.origin)
  rw [FileTree.follow_down hdown hfollow, hstart, List.append_nil]
  rfl

theorem IsStraight.same {path other : Path} {tree : FileTree} {place : Location}
    (h : path.IsStraight) (h' : other.IsStraight) (hlocate : tree.locate path = .ok place)
    (hlocate' : tree.locate other = .ok place) : path.same other :=
  same_iff.mpr ⟨h.origin.trans h'.origin.symm,
    List.reverse_injective ((h.locate_eq hlocate).symm.trans (h'.locate_eq hlocate'))⟩

end Path

/-- Where no path leads up, it is enough that no output path is one of the templates, and that two
templates never have the same one. -/
theorem OutputsApart.of_straight {configuration : Configuration} {templates : List Template}
    (after : FileTree) (hstraight : ∀ template ∈ templates, template.path.IsStraight)
    (hstraight' : ∀ template ∈ templates, ∀ output,
      configuration.outputPath? template.root template.path = some output → output.IsStraight)
    (htemplate : ∀ template ∈ templates, ∀ other ∈ templates, ∀ output,
      configuration.outputPath? template.root template.path = some output →
      ¬output.same other.path)
    (houtput : ∀ template ∈ templates, ∀ other ∈ templates, ∀ output,
      configuration.outputPath? template.root template.path = some output → ∀ output',
      configuration.outputPath? other.root other.path = some output' →
      output.same output' → template = other) :
    OutputsApart configuration after templates := by
  constructor
  · intro template hmem other hother output place hout hplace hplace'
    exact htemplate template hmem other hother output hout
      ((hstraight' template hmem output hout).same (hstraight other hother) hplace hplace')
  · intro template hmem other hother output output' place hout hout' hplace hplace'
    rw [houtput template hmem other hother output hout output' hout'
      ((hstraight' template hmem output hout).same (hstraight' other hother output' hout') hplace
        hplace')]

/-! ## Whole runs -/

namespace Batch

variable {current : Path} {arguments : Arguments} {batch : Batch}

/-- How a batch comes about: from the command line, or as what is left of a run. -/
inductive IsPrepared (current : Path) (arguments : Arguments) : Batch → Prop
  | new {batch : Batch} (tree : FileTree)
    (h : ((Batch.new (m := StateM FileTree) current arguments).run tree).1 = .ok batch) :
    IsPrepared current arguments batch
  | again {batch : Batch} (tree : FileTree) (h : IsPrepared current arguments batch) :
    IsPrepared current arguments ((batch.run (m := StateM FileTree)).run tree).1.2

theorem exists_configuration_of_new {tree : FileTree}
    (h : ((Batch.new (m := StateM FileTree) current arguments).run tree).1 = .ok batch) :
    ∃ configuration, batch = ⟨arguments, arguments.paths.map current.join, configuration,
      Compiler.new configuration.environment.registry configuration.environment.options⟩ := by
  obtain ⟨loaded, hloaded⟩ : ∃ loaded : Except ConfigurationError Configuration,
      ((Batch.new (m := StateM FileTree) current arguments).run tree).1 =
        loaded.map fun configuration => ⟨arguments, arguments.paths.map current.join, configuration,
          Compiler.new configuration.environment.registry configuration.environment.options⟩ :=
    ⟨_, rfl⟩
  rw [hloaded] at h
  cases loaded with
  | error error => cases h
  | ok configuration => exact ⟨configuration, (Except.ok.inj h).symm⟩

theorem run_outcomes (batch : Batch) (tree : FileTree) :
    let result := (batch.run (m := StateM FileTree)).run tree
    let compiled := (compileAll (m := StateM FileTree) batch.configuration batch.compiler
      (batch.found tree)).run tree
    result.1.1.outcomes = compiled.1.1 ∧ result.2 = compiled.2 ∧
      result.1.2.arguments = batch.arguments := by
  have htemplates := batch.templates_run tree
  rw [← found_eq] at htemplates
  unfold run
  simp only [StateT.run, bind, StateT.bind, pure, StateT.pure] at htemplates ⊢
  rw [htemplates]
  exact ⟨rfl, rfl, rfl⟩

theorem IsPrepared.keeps (h : IsPrepared current arguments batch) :
    batch.arguments = arguments ∧ batch.compiler.Sound ∧
      batch.compiler.environment = batch.configuration.environment := by
  induction h with
  | new tree h =>
    obtain ⟨configuration, rfl⟩ := exists_configuration_of_new h
    exact ⟨rfl, Compiler.sound_new _ _, rfl⟩
  | @again batch tree h ih =>
    obtain ⟨harguments, hsound, henvironment⟩ := ih
    obtain ⟨-, hconfiguration, -, henvironment', hsound'⟩ := batch.run_eq hsound tree
    obtain ⟨-, -, harguments'⟩ := batch.run_outcomes tree
    exact ⟨harguments'.trans harguments, hsound',
      henvironment'.trans (henvironment.trans (congrArg _ hconfiguration.symm))⟩

/-- Every template that a run finds is accounted for, in the report, in what is printed of it and in
the tree. -/
structure Account (arguments : Arguments) (batch : Batch) (tree : FileTree) (report : Report)
    (after : FileTree) : Prop where
  files : report.tally.files = (batch.found tree).length
  split : report.tally.files = report.tally.written + report.tally.errors
  outcomes : report.outcomes = (batch.found tree).map fun template =>
    (template.path, template.outcome batch.configuration tree)
  /-- A template that is text and compiles has its compiled form at its output path. -/
  compiled : ∀ template ∈ batch.found tree, ∀ source compiled,
    (tree.read template.path).bind FileAccess.decode = .ok source →
    compileTemplate batch.configuration.environment source = .ok compiled →
    ∃ output, batch.configuration.outputPath? template.root template.path = some output ∧
      after.read output = .ok (String.ofList compiled).toUTF8
  /-- There are no other changes to files. -/
  elsewhere : ∀ location, (∀ template ∈ batch.found tree, ∀ compiled output,
      template.Yields batch.configuration tree compiled output →
      after.locate output ≠ .ok location) →
    ∀ content, after.node? location = some (.file content) ↔
      tree.node? location = some (.file content)
  /-- Where a template that comes to nothing would have its compiled form, all is as it was. -/
  failed : ∀ template ∈ batch.found tree,
    (∀ compiled output, ¬template.Yields batch.configuration tree compiled output) →
    ∀ output place, batch.configuration.outputPath? template.root template.path = some output →
      after.locate output = .ok place →
      ∀ content, after.node? place = some (.file content) ↔
        tree.node? place = some (.file content)
  /-- As JSON, the first errors have a line each, as many as may be shown. -/
  json : arguments.report = .json → ∀ milliseconds, ∃ objects : List Json,
    objects.length = min (arguments.maxErrors.getD report.tally.errors) report.tally.errors ∧
    objects.map some = ((Report.errors report.outcomes).take
      (arguments.maxErrors.getD report.tally.errors)).map
        (fun entry => Report.event? entry.1 entry.2) ∧
    report.outputLines arguments milliseconds =
      objects.map Json.render ++ [(Report.Tally.event report.tally milliseconds).render]
  /-- For people, the errors that are not among those shown are counted. -/
  human : arguments.report = .human → report.tally.errors ≠ 0 → ∀ milliseconds,
    report.errorLines arguments milliseconds =
      ((report.shown arguments).flatMap fun entry =>
        Report.outcomeLines arguments.verbose entry.1 entry.2) ++
      (if arguments.timings then report.timingLines milliseconds else []) ++
      [[], Report.coloured Report.red ['✗'] ++ " Found ".toList ++
        Text.ofNat report.tally.errors ++ " error".toList ++ Report.plural report.tally.errors ++
        " in ".toList ++ Text.ofNat report.tally.files ++ " files".toList] ++
      (if report.tally.errors = report.shownCount arguments then []
        else ["  (".toList ++ Text.ofNat (report.tally.errors - report.shownCount arguments) ++
          " not shown)".toList]) ++
      ["Time: ".toList ++ Report.duration milliseconds]

end Batch

/-- A run whose compiled forms can all be stored, and go to places of their own, accounts for every
template that it finds. -/
theorem run_accounts_for_templates {current : Path} {arguments : Arguments} {batch : Batch}
    {tree : FileTree} (hbatch : Batch.IsPrepared current arguments batch)
    (hwell : tree.WellFormed) :
    let result := (batch.run (m := StateM FileTree)).run tree
    (∀ entry ∈ result.1.1.outcomes, ¬entry.2.isUnwritten) →
    OutputsApart batch.configuration result.2 (batch.found tree) →
    Batch.Account arguments batch tree result.1.1 result.2 := by
  obtain ⟨-, hsound, henvironment⟩ := hbatch.keeps
  obtain ⟨houtcomes, hafter, -⟩ := batch.run_outcomes tree
  intro result hwritten hapart
  have hfound : ∀ template ∈ batch.found tree, template.IsFound batch.configuration tree :=
    fun template hmem => batch.isFound_of_mem_found hwell hmem
  have hrun := (Accounts.start batch.configuration hwell).compileAll hsound henvironment hfound
  simp only [List.nil_append, ← houtcomes, ← hafter] at hrun
  obtain ⟨hreport, haccounts⟩ := hrun hwritten hapart
  constructor
  case files =>
    rw [Report.tally, hreport, List.length_map]
  case split => exact result.1.1.tally_files
  case outcomes => exact hreport
  case compiled =>
    intro template hmem source compiled hsource hcompiled
    obtain ⟨name, hname⟩ := Option.isSome_iff_exists.mp (hfound template hmem).isTemplate
    obtain ⟨output, houtput, -⟩ := Configuration.exists_outputPath? hname template.root
    exact ⟨output, houtput, haccounts.read_output hmem ⟨⟨source, hsource, hcompiled⟩, houtput⟩⟩
  case elsewhere =>
    exact fun location hnone content => haccounts.unchanged location content hnone
  case failed =>
    intro template hmem hnone output place houtput hplace content
    exact haccounts.node?_of_not_yields hapart hmem (hfound template hmem).leads hnone houtput
      hplace content
  case json =>
    intro hjson milliseconds
    obtain ⟨objects, hobjects, hlength, hlines⟩ :=
      Report.outputLines_json hjson result.1.1 milliseconds
    rw [Report.errors_shown] at hobjects
    exact ⟨objects, hlength.trans (result.1.1.shownCount_eq arguments), hobjects, hlines⟩
  case human =>
    exact fun hhuman herrors milliseconds => Report.errorLines_human hhuman _ herrors milliseconds

/-- A batch as it is prepared where a manifest has extensions at most. -/
def Batch.plain (arguments : Arguments) (roots : List Path) (source : Option Path)
    (extensions : List Text) : Batch :=
  ⟨arguments, roots, ⟨source, ⟨Registry.builtin, {}⟩, extensions,
    Configuration.usualIgnorePatterns,
    (Configuration.globs Configuration.usualIgnorePatterns).toOption.getD [], none⟩,
    Compiler.new Registry.builtin {}⟩

theorem run_accounts_for_templates_of_two :
    let arguments : Arguments :=
      { paths := ["a.hyper.php".toList, "b.hyper.php".toList], report := .json }
    let tree : FileTree := ⟨[(["w".toList], .directory),
      (["a.hyper.php".toList, "w".toList], .file ByteArray.empty),
      (["b.hyper.php".toList, "w".toList], .file ⟨#[60, 120, 58, 121, 47, 62]⟩)], []⟩
    let batch := Batch.plain arguments ["/w/a.hyper.php".toList, "/w/b.hyper.php".toList] none
      Configuration.usualExtensions
    let result := (batch.run (m := StateM FileTree)).run tree
    Batch.IsPrepared "/w".toList arguments batch ∧ tree.WellFormed ∧
      (∀ entry ∈ result.1.1.outcomes, ¬entry.2.isUnwritten) ∧
      OutputsApart batch.configuration result.2 (batch.found tree) ∧
      Batch.Account arguments batch tree result.1.1 result.2 := by
  intro arguments tree batch result
  have hnew : ((Batch.new (m := StateM FileTree) "/w".toList arguments).run tree).1 =
      .ok (Batch.plain arguments ["/w/a.hyper.php".toList, "/w/b.hyper.php".toList] none
        Configuration.usualExtensions) := by cbv
  have hwell : tree.WellFormed := ⟨by decide, by decide, by decide, by decide⟩
  have hfound : batch.found tree = [⟨"/w/a.hyper.php".toList, "/w".toList⟩,
    ⟨"/w/b.hyper.php".toList, "/w".toList⟩] := by cbv
  have hstored : result.1.1.outcomes.map (fun entry => entry.2.isUnwritten) = [false, false] := by
    subst result batch tree arguments
    cbv
  have hwritten : ∀ entry ∈ result.1.1.outcomes, ¬entry.2.isUnwritten := by
    intro entry hentry hunwritten
    have hmem := List.mem_map_of_mem (f := fun entry => entry.2.isUnwritten) hentry
    rw [hstored, hunwritten] at hmem
    exact absurd hmem (by decide)
  have hfirst : batch.configuration.outputPath? "/w".toList "/w/a.hyper.php".toList =
      some "/w/a.php".toList := by decide +kernel
  have hsecond : batch.configuration.outputPath? "/w".toList "/w/b.hyper.php".toList =
      some "/w/b.php".toList := by decide +kernel
  have hapart : OutputsApart batch.configuration result.2 (batch.found tree) := by
    rw [hfound]
    refine .of_straight _ ?_ ?_ ?_ ?_ <;>
      simp only [List.forall_mem_cons, List.not_mem_nil, IsEmpty.forall_iff, implies_true, and_true,
        hfirst, hsecond, Option.some.injEq, forall_eq']
    · exact ⟨⟨by decide +kernel, by decide +kernel⟩, ⟨by decide +kernel, by decide +kernel⟩⟩
    · exact ⟨⟨by decide +kernel, by decide +kernel⟩, ⟨by decide +kernel, by decide +kernel⟩⟩
    · decide +kernel
    · decide +kernel
  exact ⟨.new tree hnew, hwell, hwritten, hapart,
    run_accounts_for_templates (.new tree hnew) hwell hwritten hapart⟩

/-- It is not enough that the output paths are different, and no templates. Here the second template
does not compile, and the first one is compiled over what stands at the output path of the second
one. -/
theorem output_of_failed_template_changes :
    let arguments : Arguments :=
      { paths := ["a/home.tpl".toList, "b/../a/home.hyper".toList], report := .json }
    let tree : FileTree := ⟨[(["a".toList], .directory), (["b".toList], .directory),
      (["hyperblade.json".toList],
        .file "\x7b\"extensions\":[\".tpl\",\".hyper\"]\x7d".toUTF8),
      (["home.tpl".toList, "a".toList], .file ByteArray.empty),
      (["home.hyper".toList, "a".toList], .file ⟨#[60, 120, 58, 121, 47, 62]⟩),
      (["home.php".toList, "a".toList], .file ⟨#[111, 108, 100]⟩)], []⟩
    let batch := Batch.plain arguments ["/a/home.tpl".toList, "/b/../a/home.hyper".toList]
      (some "/hyperblade.json".toList) [".tpl".toList, ".hyper".toList]
    let result := (batch.run (m := StateM FileTree)).run tree
    let first : Template := ⟨"/a/home.tpl".toList, "/a".toList⟩
    let second : Template := ⟨"/b/../a/home.hyper".toList, "/b/../a".toList⟩
    let output := "/a/home.php".toList
    let output' := "/b/../a/home.php".toList
    ((Batch.new (m := StateM FileTree) "/".toList arguments).run tree).1 = .ok batch ∧
      batch.found tree = [first, second] ∧
      batch.configuration.outputPath? first.root first.path = some output ∧
      batch.configuration.outputPath? second.root second.path = some output' ∧
      (¬Path.same output output' ∧ ∀ template ∈ [first, second],
        ¬Path.same output template.path ∧ ¬Path.same output' template.path) ∧
      result.1.1.outcomes.map (fun entry => (entry.2.isError, entry.2.isUnwritten)) =
        [(false, false), (true, false)] ∧
      tree.read output' = .ok ⟨#[111, 108, 100]⟩ ∧
      result.2.read output' = .ok ByteArray.empty := by
  intro arguments tree batch result first second output output'
  subst output' output second first result batch tree arguments
  refine ⟨by cbv, by cbv, by decide +kernel, by decide +kernel, by decide +kernel, by cbv, by cbv,
    by cbv⟩

end TemplateCompiler
