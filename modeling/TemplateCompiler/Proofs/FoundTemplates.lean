import Mathlib.Data.List.Pairwise
import TemplateCompiler.Batch
import TemplateCompiler.Proofs.FileTrees

/-!
# The templates that a batch finds

A batch finds no path twice. Each template that it finds carries an extension of templates, leads
to a file of the tree, and lies below the root recorded for it or right in it.
-/
namespace TemplateCompiler

namespace Template

/-- What a batch knows of a template that it has found in a tree. -/
structure IsFound (configuration : Configuration) (tree : FileTree) (template : Template) :
    Prop where
  isTemplate : (configuration.template? template.path).isSome
  leads : tree.Leads template.path
  origin : template.path.origin = template.root.origin
  below : ∃ names, (∀ name ∈ names, Path.IsName name) ∧
    template.path.names.dropLast = template.root.names ++ names

def Apart (first second : Template) : Prop := first.path.same second.path = false

instance : Std.Symm Apart where
  symm first second h := by
    rw [Apart, Bool.eq_false_iff, ne_eq, Path.same_iff] at h ⊢
    exact fun hsame => h ⟨hsame.1.symm, hsame.2.symm⟩

variable {templates : List Template} {template found : Template}

theorem mem_add (h : found ∈ add templates template) : found ∈ templates ∨ found = template := by
  unfold add at h
  split at h
  · exact Or.inl h
  · simpa using h

theorem mem_foldl_add {paths : List Path} {root : Path}
    (h : found ∈ paths.foldl (fun templates path => add templates ⟨path, root⟩) templates) :
    found ∈ templates ∨ ∃ path ∈ paths, found = ⟨path, root⟩ := by
  induction paths generalizing templates with
  | nil => exact Or.inl h
  | cons path paths ih =>
    rcases ih h with h | ⟨other, hother, rfl⟩
    · exact (mem_add h).imp_right fun hfound => ⟨path, List.mem_cons_self, hfound⟩
    · exact Or.inr ⟨other, List.mem_cons_of_mem _ hother, rfl⟩

theorem mem_put (h : found ∈ put templates template) :
    found ∈ templates ∨ found = template ∨
      ∃ other ∈ templates, other.path.same template.path ∧
        found = { other with root := template.root } := by
  unfold put at h
  split at h
  · obtain ⟨other, hother, rfl⟩ := List.mem_map.mp h
    split
    · rename_i hsame
      exact Or.inr (Or.inr ⟨other, hother, hsame, rfl⟩)
    · exact Or.inl hother
  · rcases List.mem_append.mp h with h | h
    · exact Or.inl h
    · exact Or.inr (Or.inl (List.mem_singleton.mp h))

end Template

namespace Batch

variable {configuration : Configuration} {tree : FileTree} {templates : List Template}

/-- The templates found with those under one more root of a tree. -/
def withRoot (configuration : Configuration) (tree : FileTree) (templates : List Template)
    (root : Path) : List Template :=
  if tree.isFile root then
    if (configuration.templateExtension? root).isSome then
      Template.put templates ⟨root, root.parent?.getD root⟩
    else templates
  else
    ((tree.filesUnder root).filter (isTemplateUnder configuration root)).foldl
      (fun templates path => Template.add templates ⟨path, root⟩) templates

theorem addRoot_run (configuration : Configuration) (tree : FileTree) (templates : List Template)
    (root : Path) : (addRoot (m := StateM FileTree) configuration templates root).run tree =
      (withRoot configuration tree templates root, tree) := by
  unfold addRoot withRoot
  cases h : tree.isFile root <;>
    simp only [StateT.run, bind, StateT.bind, FileAccess.isFile, h] <;> rfl

/-- The search reads the tree and leaves it alone. -/
theorem templates_run (batch : Batch) (tree : FileTree) :
    (batch.templates (m := StateM FileTree)).run tree =
      (batch.roots.foldl (withRoot batch.configuration tree) [], tree) := by
  have hroots (roots : List Path) (templates : List Template) :
      (roots.foldlM (addRoot (m := StateM FileTree) batch.configuration) templates).run tree =
        (roots.foldl (withRoot batch.configuration tree) templates, tree) := by
    induction roots generalizing templates with
    | nil => rfl
    | cons root roots ih =>
      rw [List.foldlM_cons, List.foldl_cons, StateT.run_bind, addRoot_run]
      exact ih _
  exact hroots batch.roots []

def found (batch : Batch) (tree : FileTree) : List Template :=
  ((batch.templates (m := StateM FileTree)).run tree).1

theorem found_eq (batch : Batch) (tree : FileTree) :
    batch.found tree = batch.roots.foldl (withRoot batch.configuration tree) [] := by
  rw [found, templates_run]

theorem isSome_template? {path : Path} (h : (configuration.templateExtension? path).isSome) :
    (configuration.template? path).isSome := by
  simpa [Configuration.templateExtension?] using h

theorem isSome_of_isTemplateUnder {root path : Path} (h : isTemplateUnder configuration root path) :
    (configuration.template? path).isSome := by
  rw [isTemplateUnder, Bool.and_eq_true] at h
  exact isSome_template? h.1

theorem names_ne_nil {path : Path} (h : (configuration.template? path).isSome) :
    path.names ≠ [] := by
  intro hnil
  rw [Configuration.template?, Path.fileName?, hnil] at h
  cases h

theorem isFound_of_isFile {root : Path} (hfile : tree.isFile root)
    (htemplate : (configuration.template? root).isSome) :
    Template.IsFound configuration tree ⟨root, root.parent?.getD root⟩ := by
  obtain ⟨above, habove, hnames, horigin⟩ := Path.exists_parent? (names_ne_nil htemplate)
  have hleads : tree.Leads root := by
    unfold FileTree.isFile at hfile
    split at hfile
    · rename_i hfind
      exact Or.inl ⟨_, _, hfind⟩
    · cases hfile
  rw [habove]
  exact ⟨htemplate, hleads, horigin.symm, [], by simp, by simp [hnames]⟩

theorem isFound_of_mem_filesUnder (hwell : tree.WellFormed) {root path : Path}
    (hunder : path ∈ tree.filesUnder root) (htemplate : (configuration.template? path).isSome) :
    Template.IsFound configuration tree ⟨path, root⟩ := by
  obtain ⟨top, names, content, hroot, hentry, hne, hpath⟩ := FileTree.mem_filesUnder hunder
  have hvalid : ∀ name ∈ names, Path.IsName name := fun name hname =>
    hwell.names _ hentry name (List.mem_append_left _ (List.mem_reverse.mpr hname))
  refine ⟨htemplate, hwell.leads_of_mem_filesUnder hunder, ?_, names.dropLast, ?_, ?_⟩
  · rw [hpath]
    exact Path.origin_foldl_join root hvalid hne
  · exact fun name hname => hvalid name ((List.dropLast_sublist _).subset hname)
  · rw [hpath]
    change (names.foldl Path.join root).names.dropLast = _
    rw [Path.names_foldl_join root hvalid hne, List.dropLast_append_of_ne_nil hne]

theorem isFound_withRoot (hwell : tree.WellFormed)
    (h : ∀ template ∈ templates, template.IsFound configuration tree) (root : Path) :
    ∀ template ∈ withRoot configuration tree templates root,
      template.IsFound configuration tree := by
  unfold withRoot
  split
  · rename_i hfile
    split
    · rename_i hextension
      have hroot := isFound_of_isFile hfile (isSome_template? hextension)
      intro template hmem
      rcases Template.mem_put hmem with hmem | rfl | ⟨other, hother, hsame, rfl⟩
      · exact h template hmem
      · exact hroot
      · obtain ⟨horigins, hsaid⟩ := Path.same_iff.mp hsame
        obtain ⟨names, hvalid, hbelow⟩ := hroot.below
        exact ⟨(h other hother).isTemplate, (h other hother).leads, horigins.trans hroot.origin,
          names, hvalid, by rw [hsaid, hbelow]⟩
    · exact h
  · intro template hmem
    rcases Template.mem_foldl_add hmem with hmem | ⟨path, hpath, rfl⟩
    · exact h template hmem
    · obtain ⟨hunder, htemplate⟩ := List.mem_filter.mp hpath
      exact isFound_of_mem_filesUnder hwell hunder (isSome_of_isTemplateUnder htemplate)

theorem isFound_of_mem_found (batch : Batch) (hwell : tree.WellFormed) {template : Template}
    (h : template ∈ batch.found tree) : template.IsFound batch.configuration tree := by
  have hroots (roots : List Path) (templates : List Template)
      (h : ∀ template ∈ templates, template.IsFound batch.configuration tree) :
      ∀ template ∈ roots.foldl (withRoot batch.configuration tree) templates,
        template.IsFound batch.configuration tree := by
    induction roots generalizing templates with
    | nil => exact h
    | cons root roots ih => exact ih _ (isFound_withRoot hwell h root)
  rw [found_eq] at h
  exact hroots batch.roots [] (by simp) template h

end Batch

end TemplateCompiler
