import TemplateCompiler.Files.Tree
import TemplateCompiler.Proofs.PathPieces

/-!
# Trees of files and the ways through them

In a tree of files every file and directory is within a directory, under a name. A path that leads
to a file ends in the name of the file, and where a path leads stays the same while files and
directories are only added.
-/
namespace TemplateCompiler

namespace FileTree

/-- A tree as a disk holds it: nothing is there twice, all has a name and is within a directory. -/
structure WellFormed (tree : FileTree) : Prop where
  nodup : (tree.nodes.map Prod.fst).Nodup
  names : ∀ entry ∈ tree.nodes, ∀ name ∈ entry.1, Path.IsName name
  above : ∀ entry ∈ tree.nodes, tree.isDirectoryAt entry.1.tail
  current : tree.isDirectoryAt tree.current

variable {tree later : FileTree} {location place : Location} {node : Node} {content : ByteArray}

/-! ## What is at a location -/

theorem isDirectoryAt_iff :
    tree.isDirectoryAt location ↔ tree.node? location = some .directory := by
  unfold isDirectoryAt
  split
  · rename_i h
    simp [h]
  · rename_i h
    simp only [Bool.false_eq_true, false_iff]
    exact h

theorem node?_cons (name : Text) (location : Location) :
    tree.node? (name :: location) = tree.nodes.lookup (name :: location) := rfl

theorem mem_of_node? (h : tree.node? location = some node) (hne : location ≠ []) :
    (location, node) ∈ tree.nodes := by
  cases location with
  | nil => exact absurd rfl hne
  | cons name location =>
    obtain ⟨before, after, hnodes, -⟩ := List.lookup_eq_some_iff.mp h
    rw [hnodes]
    exact List.mem_append_right _ List.mem_cons_self

theorem WellFormed.node?_of_mem (hwell : tree.WellFormed) (h : (location, node) ∈ tree.nodes)
    (hne : location ≠ []) : tree.node? location = some node := by
  cases location with
  | nil => exact absurd rfl hne
  | cons name location =>
    obtain ⟨before, after, hnodes⟩ := List.append_of_mem h
    have hnodup := hwell.nodup
    rw [hnodes, List.map_append, List.nodup_append] at hnodup
    rw [node?_cons, List.lookup_eq_some_iff]
    refine ⟨before, after, hnodes, fun entry hentry => ?_⟩
    rw [bne_iff_ne]
    exact fun heq => hnodup.2.2 _ (List.mem_map_of_mem hentry) _ List.mem_cons_self heq.symm

theorem WellFormed.isDirectoryAt_tail (hwell : tree.WellFormed)
    (h : (tree.node? location).isSome) : tree.isDirectoryAt location.tail := by
  cases location with
  | nil => rfl
  | cons name location =>
    obtain ⟨node, hnode⟩ := Option.isSome_iff_exists.mp h
    exact hwell.above _ (mem_of_node? hnode (List.cons_ne_nil _ _))

theorem node?_put (hplace : place ≠ []) :
    (tree.put place node).node? location =
      if location = place then some node else tree.node? location := by
  cases location with
  | nil => rw [if_neg (Ne.symm hplace)]; rfl
  | cons name location =>
    by_cases heq : name :: location = place
    · rw [if_pos heq, node?_cons, heq, put, List.lookup_cons_self]
    · have hbeq : (name :: location == place) = false := by simpa using heq
      rw [if_neg heq, node?_cons, node?_cons, put, List.lookup_cons, hbeq]
      simp only
      induction tree.nodes with
      | nil => rfl
      | cons entry nodes ih =>
        by_cases hentry : entry.1 = place
        · have hother : (name :: location == entry.1) = false := by simpa [hentry] using heq
          rw [List.filter_cons_of_neg (by simpa using hentry), ih, List.lookup_cons, hother]
        · rw [List.filter_cons_of_pos (by simpa using hentry), List.lookup_cons, List.lookup_cons,
            ih]

/-! ## Ways through a tree -/

theorem follow_append (pieces more : List Text) :
    tree.follow location (pieces ++ more) =
      (tree.follow location pieces).bind fun below => tree.follow below more := by
  induction pieces generalizing location with
  | nil => rfl
  | cons piece pieces ih =>
    simp only [List.cons_append, follow]
    split
    · rfl
    · rfl
    · split
      · exact ih
      · split
        · exact ih
        · split
          · rfl
          · exact ih

theorem follow_silent {pieces : List Text} (h : pieces.all Path.isSilent)
    (hdirectory : tree.isDirectoryAt location) : tree.follow location pieces = .ok location := by
  induction pieces with
  | nil => rfl
  | cons piece pieces ih =>
    rw [List.all_cons, Bool.and_eq_true] at h
    rw [follow, isDirectoryAt_iff.mp hdirectory]
    simp only [if_pos h.1]
    exact ih h.2

theorem follow_name {name : Text} (hsilent : Path.isSilent name = false) (hup : name ≠ ['.', '.'])
    (hdirectory : tree.isDirectoryAt location) :
    tree.follow location [name] =
      if nameLimit < name.size then .error .nameTooLong else .ok (name :: location) := by
  rw [follow, isDirectoryAt_iff.mp hdirectory]
  simp only [hsilent, Bool.false_eq_true, if_false, if_neg hup]
  rfl

theorem isDirectoryAt_of_follow {piece : Text} {pieces : List Text}
    (h : tree.follow location (piece :: pieces) = .ok place) : tree.isDirectoryAt location := by
  rw [follow] at h
  split at h
  · cases h
  · cases h
  · rename_i hnode
    exact isDirectoryAt_iff.mpr hnode

/-- A way from a directory ends at a directory, or with a name that may be anything. -/
theorem WellFormed.follow_cases (hwell : tree.WellFormed) {pieces : List Text}
    (hstart : tree.isDirectoryAt location) (h : tree.follow location pieces = .ok place) :
    tree.isDirectoryAt place ∨ ∃ front name above, pieces = front ++ [name] ∧
      Path.isSilent name = false ∧ name ≠ ['.', '.'] ∧ place = name :: above ∧
      tree.isDirectoryAt above := by
  rcases List.eq_nil_or_concat pieces with rfl | ⟨front, name, rfl⟩
  · cases h
    exact Or.inl hstart
  · rw [List.concat_eq_append, follow_append] at h
    cases hfront : tree.follow location front with
    | error error =>
      rw [hfront] at h
      cases h
    | ok above =>
      rw [hfront] at h
      change tree.follow above [name] = .ok place at h
      have habove := isDirectoryAt_of_follow h
      by_cases hsilent : Path.isSilent name
      · rw [follow_silent (by simpa using hsilent) habove] at h
        cases h
        exact Or.inl habove
      · by_cases hup : name = ['.', '.']
        · rw [follow, isDirectoryAt_iff.mp habove, hup] at h
          cases h
          exact Or.inl (hwell.isDirectoryAt_tail (by rw [isDirectoryAt_iff.mp habove]; rfl))
        · rw [follow_name (Bool.eq_false_iff.mpr hsilent) hup habove] at h
          split at h
          · cases h
          · cases h
            exact Or.inr ⟨front, name, above, List.concat_eq_append, Bool.eq_false_iff.mpr hsilent,
              hup, rfl, habove⟩

def start (tree : FileTree) (path : Path) : Location :=
  if path.isAbsolute then [] else tree.current

theorem WellFormed.isDirectoryAt_start (hwell : tree.WellFormed) (path : Path) :
    tree.isDirectoryAt (tree.start path) := by
  unfold start
  split
  · rfl
  · exact hwell.current

theorem locate_of_some {path : Path} {error : FileError} (h : FileError.ofPath? path = some error) :
    tree.locate path = .error error := by
  rw [locate, h]

theorem locate_of_none {path : Path} (h : FileError.ofPath? path = none) :
    tree.locate path = tree.follow (tree.start path) path.parts.2 := by
  rw [locate, h]
  rfl

theorem locate_eq_ok {path : Path} (h : tree.locate path = .ok place) :
    FileError.ofPath? path = none ∧ tree.follow (tree.start path) path.parts.2 = .ok place := by
  unfold locate at h
  split at h
  · cases h
  · rename_i hnone
    exact ⟨hnone, h⟩

theorem find_eq_ok {path : Path} (h : tree.find path = .ok (place, node)) :
    tree.locate path = .ok place ∧ tree.node? place = some node := by
  unfold find at h
  cases hlocate : tree.locate path with
  | error error =>
    rw [hlocate] at h
    cases h
  | ok location =>
    rw [hlocate] at h
    simp only [Except.bind] at h
    split at h
    · rename_i hnode
      cases h
      exact ⟨rfl, hnode⟩
    · cases h

/-- A path leads to a directory, or to what has its name in a directory. -/
theorem WellFormed.locate_cases (hwell : tree.WellFormed) {path : Path}
    (h : tree.locate path = .ok place) :
    tree.isDirectoryAt place ∨ ∃ name above, place = name :: above ∧ path.fileName? = some name ∧
      tree.isDirectoryAt above := by
  obtain ⟨-, hfollow⟩ := locate_eq_ok h
  rcases hwell.follow_cases (hwell.isDirectoryAt_start path) hfollow with
    hdirectory | ⟨front, name, above, hpieces, hsilent, hup, rfl, habove⟩
  · exact Or.inl hdirectory
  · exact Or.inr ⟨name, above, rfl, Path.fileName?_of_parts hpieces hsilent hup, habove⟩

theorem WellFormed.name_of_find (hwell : tree.WellFormed) {path : Path}
    (h : tree.find path = .ok (place, .file content)) :
    ∃ name above, place = name :: above ∧ path.fileName? = some name := by
  obtain ⟨hlocate, hnode⟩ := find_eq_ok h
  rcases hwell.locate_cases hlocate with hdirectory | ⟨name, above, hplace, hname, -⟩
  · rw [isDirectoryAt_iff, hnode] at hdirectory
    cases hdirectory
  · exact ⟨name, above, hplace, hname⟩

theorem follow_of_append_silent {pieces silent : List Text} (hsilent : silent.all Path.isSilent)
    (h : tree.follow location (pieces ++ silent) = .ok place) :
    tree.follow location pieces = .ok place := by
  rw [follow_append] at h
  cases hfollow : tree.follow location pieces with
  | error error =>
    rw [hfollow] at h
    cases h
  | ok below =>
    rw [hfollow] at h
    change tree.follow below silent = .ok place at h
    cases silent with
    | nil => exact h
    | cons piece silent =>
      rw [follow_silent hsilent (isDirectoryAt_of_follow h)] at h
      exact h

theorem follow_front {path : Path} (h : tree.follow location path.parts.2 = .ok place) :
    tree.follow location path.front = .ok place := by
  rcases Path.parts_eq_front path with hfront | hfront <;> rw [hfront] at h
  · exact h
  · exact follow_of_append_silent (by decide) h

/-! ## Trees that grow -/

/-- A later tree has all directories and files of an earlier one, and maybe more. Files may hold
something else. -/
structure Grown (tree later : FileTree) : Prop where
  current : later.current = tree.current
  directories : ∀ location, tree.isDirectoryAt location → later.isDirectoryAt location
  files : ∀ location content, tree.node? location = some (.file content) →
    ∃ content', later.node? location = some (.file content')

theorem Grown.refl (tree : FileTree) : tree.Grown tree :=
  ⟨rfl, fun _ h => h, fun _ content h => ⟨content, h⟩⟩

theorem Grown.trans {last : FileTree} (h : tree.Grown later) (h' : later.Grown last) :
    tree.Grown last := by
  refine ⟨h'.current.trans h.current, fun location hdirectory => ?_,
    fun location content hfile => ?_⟩
  · exact h'.directories location (h.directories location hdirectory)
  · obtain ⟨content', hfile'⟩ := h.files location content hfile
    exact h'.files location content' hfile'

/-- Where a way leads stays the same, unless it was left unfinished. -/
theorem Grown.follow_eq (h : tree.Grown later) {pieces : List Text}
    (hfound : tree.follow location pieces ≠ .error .notFound) :
    later.follow location pieces = tree.follow location pieces := by
  induction pieces generalizing location with
  | nil => rfl
  | cons piece pieces ih =>
    cases hnode : tree.node? location with
    | none =>
      rw [follow, hnode] at hfound
      exact absurd rfl hfound
    | some node =>
      cases node with
      | file content =>
        obtain ⟨content', hlater⟩ := h.files location content hnode
        rw [follow, follow, hnode, hlater]
      | directory =>
        have hlater := isDirectoryAt_iff.mp (h.directories location (isDirectoryAt_iff.mpr hnode))
        rw [follow, hnode] at hfound
        rw [follow, follow, hnode, hlater]
        simp only at hfound ⊢
        split
        · rename_i hsilent
          rw [if_pos hsilent] at hfound
          exact ih hfound
        · rename_i hsilent
          rw [if_neg hsilent] at hfound
          split
          · rename_i hup
            rw [if_pos hup] at hfound
            exact ih hfound
          · rename_i hup
            rw [if_neg hup] at hfound
            split
            · rfl
            · rename_i hlong
              rw [if_neg hlong] at hfound
              exact ih hfound

theorem Grown.start_eq (h : tree.Grown later) (path : Path) :
    later.start path = tree.start path := by
  rw [start, start, h.current]

theorem Grown.locate_eq (h : tree.Grown later) {path : Path}
    (hfound : tree.locate path ≠ .error .notFound) : later.locate path = tree.locate path := by
  unfold locate at hfound ⊢
  rw [h.current]
  split
  · rfl
  · rename_i hnone
    rw [hnone] at hfound
    exact h.follow_eq hfound

theorem Grown.find_directory (h : tree.Grown later) {path : Path}
    (hfind : tree.find path = .ok (place, .directory)) :
    later.find path = .ok (place, .directory) := by
  obtain ⟨hlocate, hnode⟩ := find_eq_ok hfind
  have hlater := isDirectoryAt_iff.mp (h.directories place (isDirectoryAt_iff.mpr hnode))
  rw [find, h.locate_eq (by rw [hlocate]; rintro ⟨⟩), hlocate]
  simp only [Except.bind, hlater]

theorem Grown.find_file (h : tree.Grown later) {path : Path}
    (hfind : tree.find path = .ok (place, .file content)) :
    ∃ content', later.find path = .ok (place, .file content') := by
  obtain ⟨hlocate, hnode⟩ := find_eq_ok hfind
  obtain ⟨content', hlater⟩ := h.files place content hnode
  refine ⟨content', ?_⟩
  rw [find, h.locate_eq (by rw [hlocate]; rintro ⟨⟩), hlocate]
  simp only [Except.bind, hlater]

/-- A path that cannot be followed for another reason than that something is missing cannot be
followed later. -/
theorem Grown.find_error (h : tree.Grown later) {path : Path} {error : FileError}
    (hfind : tree.find path = .error error) (herror : error ≠ .notFound) :
    later.find path = .error error := by
  have hlocate : tree.locate path = .error error := by
    unfold find at hfind
    cases hlocate : tree.locate path with
    | error error' =>
      rw [hlocate] at hfind
      exact congrArg _ (Except.error.inj hfind)
    | ok place =>
      rw [hlocate] at hfind
      simp only [Except.bind] at hfind
      split at hfind
      · cases hfind
      · exact absurd (Except.error.inj hfind).symm herror
  rw [find, h.locate_eq (by rw [hlocate]; simpa using herror), hlocate]
  rfl

/-! ## Files under a directory -/

theorem start_eq {path other : Path} (h : path.origin = other.origin) :
    tree.start path = tree.start other := by
  simp only [start, Path.isAbsolute_iff, h]

theorem ofPath?_ne_notFound {path : Path} (h : path ≠ []) :
    FileError.ofPath? path ≠ some .notFound := by
  unfold FileError.ofPath?
  split
  · rintro ⟨⟩
  · split
    · rename_i hempty
      exact absurd (List.isEmpty_iff.mp hempty) h
    · split <;> rintro ⟨⟩

theorem namesBelow?_eq {names : List Text} (h : namesBelow? place location = some names) :
    location = names.reverse ++ place ∧ names ≠ [] := by
  unfold namesBelow? at h
  split at h
  · rename_i hbelow
    cases h
    have hparts := List.take_append_drop (location.length - place.length) location
    rw [hbelow.1] at hparts
    refine ⟨by rw [List.reverse_reverse, hparts], fun hnil => hbelow.2 ?_⟩
    rw [List.reverse_eq_nil_iff.mp hnil, List.nil_append] at hparts
    exact hparts.symm
  · cases h

theorem mem_filesUnder {root path : Path} (h : path ∈ tree.filesUnder root) :
    ∃ top names content, tree.find root = .ok (top, .directory) ∧
      (names.reverse ++ top, .file content) ∈ tree.nodes ∧ names ≠ [] ∧
      path = names.foldl Path.join root := by
  unfold filesUnder at h
  split at h
  · rename_i top hfind
    rw [List.mem_mergeSort, List.mem_filterMap] at h
    obtain ⟨⟨location, node⟩, hentry, hpath⟩ := h
    cases node with
    | directory => cases hpath
    | file content =>
      obtain ⟨names, hnames, rfl⟩ := Option.map_eq_some_iff.mp hpath
      obtain ⟨rfl, hne⟩ := namesBelow?_eq hnames
      exact ⟨top, names, content, hfind, hentry, hne, rfl⟩
  · cases h

theorem WellFormed.isDirectoryAt_of_append (hwell : tree.WellFormed) {names : Location}
    (h : (tree.node? (names ++ location)).isSome) (hne : names ≠ []) :
    tree.isDirectoryAt location := by
  induction names with
  | nil => exact absurd rfl hne
  | cons name names ih =>
    have hbelow : tree.isDirectoryAt (names ++ location) := hwell.isDirectoryAt_tail h
    cases names with
    | nil => exact hbelow
    | cons next names =>
      exact ih (by rw [isDirectoryAt_iff.mp hbelow]; rfl) (List.cons_ne_nil _ _)

theorem WellFormed.follow_names (hwell : tree.WellFormed) {names : List Text}
    (hnames : ∀ name ∈ names, Path.IsName name)
    (h : (tree.node? (names.reverse ++ location)).isSome) :
    tree.follow location names = .ok (names.reverse ++ location) ∨
      tree.follow location names = .error .nameTooLong := by
  induction names generalizing location with
  | nil => exact Or.inl rfl
  | cons name names ih =>
    have hdirectory := hwell.isDirectoryAt_of_append h (by simp)
    have hname := hnames name List.mem_cons_self
    rw [List.reverse_cons, List.append_assoc, List.singleton_append] at h ⊢
    rw [← List.singleton_append, follow_append, follow_name hname.1 hname.2.1 hdirectory]
    split
    · exact Or.inr rfl
    · exact ih (fun other hother => hnames other (List.mem_cons_of_mem _ hother)) h

/-- A path leads to a file, or is not one that a tree can be asked for. -/
def Leads (tree : FileTree) (path : Path) : Prop :=
  (∃ place content, tree.find path = .ok (place, .file content)) ∨
    ∃ error, error ≠ .notFound ∧ tree.locate path = .error error

theorem WellFormed.leads_of_mem_filesUnder (hwell : tree.WellFormed) {root path : Path}
    (h : path ∈ tree.filesUnder root) : tree.Leads path := by
  obtain ⟨top, names, content, hroot, hentry, hne, rfl⟩ := mem_filesUnder h
  have hvalid : ∀ name ∈ names, Path.IsName name := fun name hname =>
    hwell.names _ hentry name (List.mem_append_left _ (List.mem_reverse.mpr hname))
  have hnode := hwell.node?_of_mem hentry (by simp [hne])
  obtain ⟨-, htop⟩ := locate_eq_ok (find_eq_ok hroot).1
  have hparts := Path.parts_foldl_join root hvalid hne
  have hfollow : tree.follow (tree.start (names.foldl Path.join root))
      (names.foldl Path.join root).parts.2 = tree.follow top names := by
    rw [hparts, start_eq (Path.origin_foldl_join root hvalid hne), follow_append, follow_front htop]
    rfl
  cases herror : FileError.ofPath? (names.foldl Path.join root) with
  | some error =>
    refine Or.inr ⟨error, ?_, locate_of_some herror⟩
    rintro rfl
    refine ofPath?_ne_notFound (fun hnil => ?_) herror
    have hnone := Path.names_foldl_join root hvalid hne
    rw [hnil] at hnone
    exact hne (List.append_eq_nil_iff.mp hnone.symm).2
  | none =>
    have hlocate := (locate_of_none herror).trans hfollow
    rcases hwell.follow_names hvalid (by rw [hnode]; rfl) with hplace | htooLong
    · refine Or.inl ⟨names.reverse ++ top, content, ?_⟩
      rw [find, hlocate, hplace]
      simp only [Except.bind, hnode]
    · exact Or.inr ⟨.nameTooLong, by rintro ⟨⟩, hlocate.trans htooLong⟩

end FileTree

end TemplateCompiler
