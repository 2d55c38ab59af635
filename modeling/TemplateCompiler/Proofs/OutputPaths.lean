import Mathlib
import TemplateCompiler.Proofs.FoundTemplates

/-!
# Where compiled templates go

The compiled form of a template has the name of the template with another extension. It goes into
the directory of the template, or below the output directory into the directory that the names
below the template's root lead to. So what is found in one place, or below one root, stays apart if
it has the same extension.
-/
namespace TemplateCompiler

namespace Configuration

variable {configuration : Configuration} {path : Path} {stem extension : Text}

theorem stem?_eq_some_iff {name : Text} :
    stem? extension name = some stem ↔ name = stem ++ extension ∧ stem ≠ [] := by
  unfold stem?
  rw [Option.filter_eq_some_iff]
  refine and_congr ?_ (by simp)
  constructor
  · intro h
    obtain ⟨rest, hrest, rfl⟩ := Option.map_eq_some_iff.mp h
    have hname := congrArg List.reverse (Text.after?_eq_some_iff.mp hrest)
    rwa [List.reverse_reverse, List.reverse_append, List.reverse_reverse] at hname
  · rintro rfl
    have hrest : Text.after? extension.reverse (stem ++ extension).reverse = some stem.reverse :=
      Text.after?_eq_some_iff.mpr List.reverse_append
    rw [hrest, Option.map_some, List.reverse_reverse]

theorem template?_eq (h : configuration.template? path = some (stem, extension)) :
    path.fileName? = some (stem ++ extension) ∧ extension ∈ configuration.extensions ∧
      stem ≠ [] := by
  obtain ⟨name, hname, h⟩ := Option.bind_eq_some_iff.mp h
  obtain ⟨extension', hmem, h⟩ := List.exists_of_findSome?_eq_some h
  obtain ⟨stem', hstem, hpair⟩ := Option.map_eq_some_iff.mp h
  cases hpair
  obtain ⟨rfl, hne⟩ := stem?_eq_some_iff.mp hstem
  exact ⟨hname, hmem, hne⟩

/-- What the compiled form of a template has in place of the extension. -/
def compiledEnding (extension : Text) : Text :=
  if extension = compiledExtension then ".compiled".toList ++ compiledExtension
  else compiledExtension

theorem compiledName_eq (stem extension : Text) :
    compiledName stem extension = stem ++ compiledEnding extension := by
  unfold compiledName compiledEnding
  by_cases h : extension = compiledExtension
  · rw [h, if_pos rfl, if_pos rfl, List.append_assoc]
  · rw [if_neg fun heq => h (List.append_cancel_left heq).symm, if_neg h]

theorem isName_compiledName (h : configuration.template? path = some (stem, extension)) :
    Path.IsName (compiledName stem extension) := by
  obtain ⟨hname, -, hne⟩ := template?_eq h
  obtain ⟨-, -, -, hslash⟩ := Path.names_of_fileName? hname
  rw [compiledName_eq]
  have hending : '/' ∉ compiledEnding extension := by
    have hcompiled : '/' ∉ ".compiled".toList ++ compiledExtension := by decide
    have hplain : '/' ∉ compiledExtension := by decide
    unfold compiledEnding
    split
    · exact hcompiled
    · exact hplain
  have hlength : 4 ≤ (compiledEnding extension).length := by
    unfold compiledEnding
    split <;> decide
  have hlong : 2 < (stem ++ compiledEnding extension).length := by
    rw [List.length_append]
    omega
  generalize hcompiled : stem ++ compiledEnding extension = compiled at hlong ⊢
  refine ⟨?_, ?_, ?_⟩
  · have hempty : compiled.isEmpty = false := by
      cases compiled with
      | nil => cases hlong
      | cons c rest => rfl
    have hdot : (compiled == ['.']) = false := by
      rw [beq_eq_false_iff_ne]
      rintro rfl
      exact absurd hlong (by decide)
    rw [Path.isSilent, hempty, hdot]
    rfl
  · rintro rfl
    exact absurd hlong (by decide)
  · rw [← hcompiled, List.mem_append, not_or]
    exact ⟨fun hmem => hslash (List.mem_append_left _ hmem), hending⟩

end Configuration

namespace Template

/-- The names that lead from the root recorded for a template to its directory. -/
def within (template : Template) : List Text :=
  template.path.names.dropLast.drop template.root.names.length

/-- Whether the compiled forms of two templates go into one directory. -/
def Together (configuration : Configuration) (first second : Template) : Prop :=
  match configuration.outDir with
  | none => first.path.origin = second.path.origin ∧
      first.path.names.dropLast = second.path.names.dropLast
  | some _ => first.within = second.within

variable {configuration : Configuration} {tree : FileTree} {template : Template} {output : Path}

namespace IsFound

theorem names_eq (h : template.IsFound configuration tree) :
    template.path.names.dropLast = template.root.names ++ template.within ∧
      ∀ name ∈ template.within, Path.IsName name := by
  obtain ⟨names, hvalid, hbelow⟩ := h.below
  have hwithin : template.within = names := by rw [within, hbelow, List.drop_left]
  rw [hwithin]
  exact ⟨hbelow, hvalid⟩

end IsFound

/-- The compiled form of a template with a stem and an extension goes to a path. -/
structure HasOutput (configuration : Configuration) (template : Template) (stem extension : Text)
    (output : Path) : Prop where
  template?_eq : configuration.template? template.path = some (stem, extension)
  outputPath?_eq : configuration.outputPath? template.root template.path = some output
  origin_eq : output.origin = (configuration.outDir.map Path.origin).getD template.path.origin
  names_eq : output.names = (configuration.outDir.map (·.names ++ template.within)).getD
    template.path.names.dropLast ++ [Configuration.compiledName stem extension]

variable {first second : Template} {stem extension stem' extension' : Text} {output' : Path}

theorem HasOutput.same_iff (h : first.HasOutput configuration stem extension output)
    (h' : second.HasOutput configuration stem' extension' output') :
    output.same output' ↔
      Configuration.compiledName stem extension = Configuration.compiledName stem' extension' ∧
        Together configuration first second := by
  have hsplit {front front' : List Text} {last last' : Text} :
      front ++ [last] = front' ++ [last'] ↔ last = last' ∧ front = front' := by
    rw [List.append_eq_append_iff_of_size_eq_right (by simp), List.singleton_inj, and_comm]
  rw [Path.same_iff, h.origin_eq, h.names_eq, h'.origin_eq, h'.names_eq, hsplit]
  unfold Together
  cases configuration.outDir with
  | none => exact and_left_comm
  | some outDir =>
    simp only [Option.map_some, Option.getD_some, List.append_cancel_left_eq, true_and]

namespace HasOutput

variable {later : FileTree} {place file : Location} {node : Node}

end HasOutput

end Template

/-- A batch over some directories, with the handlers that come with the compiler. -/
def Batch.over (roots : List Path) (extensions : List Text) (outDir : Option Path) : Batch :=
  ⟨{}, roots, ⟨none, ⟨Registry.builtin, {}⟩, extensions, [], [], outDir⟩,
    Compiler.new Registry.builtin {}⟩

def FileTree.ofFiles (files : List (Text × List Text)) : FileTree :=
  ⟨files.flatMap fun (directory, names) => ([directory], .directory) ::
    names.map fun name => ([name, directory], .file ByteArray.empty), []⟩

end TemplateCompiler
