import TemplateCompiler.Proofs.FileTrees

/-!
# Changes of trees

What is created is put into directories, where nothing was before. So the way to a directory, once
it was created, is there in every tree that grows from that one, and whoever creates the directory
again changes nothing there; and where the creation failed, it fails again.
-/
namespace TemplateCompiler

namespace FileTree

variable {tree later last : FileTree} {location place : Location} {node : Node} {path above : Path}

/-! ## Putting something into a directory -/

theorem WellFormed.put (hwell : tree.WellFormed) {name : Text} (hname : Path.IsName name)
    (habove : tree.isDirectoryAt location) (hplace : ¬tree.isDirectoryAt (name :: location))
    (node : Node) : (tree.put (name :: location) node).WellFormed := by
  have hdirectory {below : Location} (h : tree.isDirectoryAt below) :
      (tree.put (name :: location) node).isDirectoryAt below := by
    rw [isDirectoryAt_iff, node?_put (List.cons_ne_nil _ _), if_neg, isDirectoryAt_iff.mp h]
    rintro rfl
    exact hplace h
  have hentries {entry : Location × Node}
      (h : entry ∈ (tree.put (name :: location) node).nodes) :
      entry = (name :: location, node) ∨ entry ∈ tree.nodes :=
    (List.mem_cons.mp h).imp_right fun h => (List.mem_filter.mp h).1
  refine ⟨?_, fun entry hentry => ?_, fun entry hentry => ?_, hdirectory hwell.current⟩
  · rw [FileTree.put, List.map_cons, List.nodup_cons]
    refine ⟨fun hmem => ?_, hwell.nodup.sublist (List.filter_sublist.map _)⟩
    obtain ⟨entry, hentry, heq⟩ := List.mem_map.mp hmem
    simpa [heq] using (List.mem_filter.mp hentry).2
  · rcases hentries hentry with rfl | hentry
    · intro other hother
      rcases List.mem_cons.mp hother with rfl | hother
      · exact hname
      · have hne : location ≠ [] := List.ne_nil_of_mem hother
        exact hwell.names _ (mem_of_node? (isDirectoryAt_iff.mp habove) hne) other hother
    · exact hwell.names entry hentry
  · rcases hentries hentry with rfl | hentry
    · exact hdirectory habove
    · exact hdirectory (hwell.above entry hentry)

/-- A later tree has what an earlier one has, and maybe more directories. -/
structure Extended (tree later : FileTree) : Prop where
  current : later.current = tree.current
  node? : ∀ location, later.node? location = tree.node? location ∨
    tree.node? location = none ∧ later.node? location = some .directory

theorem Extended.refl (tree : FileTree) : tree.Extended tree := ⟨rfl, fun _ => Or.inl rfl⟩

theorem Extended.trans (h : tree.Extended later) (h' : later.Extended last) :
    tree.Extended last := by
  refine ⟨h'.current.trans h.current, fun location => ?_⟩
  rcases h'.node? location with hsame | ⟨hnone, hdirectory⟩
  · rw [hsame]
    exact h.node? location
  · rcases h.node? location with hsame | ⟨-, hlater⟩
    · exact Or.inr ⟨hsame ▸ hnone, hdirectory⟩
    · rw [hnone] at hlater
      cases hlater

theorem Extended.node?_eq (h : tree.Extended later) (hnode : tree.node? location = some node) :
    later.node? location = some node := by
  rcases h.node? location with hsame | ⟨hnone, -⟩
  · rw [hsame, hnode]
  · rw [hnone] at hnode
    cases hnode

theorem Extended.grown (h : tree.Extended later) : tree.Grown later := by
  refine ⟨h.current, fun location hdirectory => ?_,
    fun _ content hfile => ⟨content, h.node?_eq hfile⟩⟩
  rw [isDirectoryAt_iff] at hdirectory ⊢
  exact h.node?_eq hdirectory

theorem grown_put_file (hplace : ¬tree.isDirectoryAt place) (content : ByteArray) :
    tree.Grown (tree.put place (.file content)) := by
  have hne : place ≠ [] := by
    rintro rfl
    exact hplace rfl
  refine ⟨rfl, fun location hdirectory => ?_, fun location old hfile => ?_⟩
  · rw [isDirectoryAt_iff, node?_put hne, if_neg, isDirectoryAt_iff.mp hdirectory]
    rintro rfl
    exact hplace hdirectory
  · rw [node?_put hne]
    split
    · exact ⟨content, rfl⟩
    · exact ⟨old, hfile⟩

/-! ## Creating one directory -/

theorem createDirectory_eq_ok (hwell : tree.WellFormed)
    (h : tree.createDirectory path = .ok later) :
    later.WellFormed ∧ tree.Extended later ∧ later.isDirectory path := by
  unfold createDirectory at h
  cases hlocate : tree.locate path with
  | error error =>
    rw [hlocate] at h
    cases h
  | ok place =>
    rw [hlocate] at h
    simp only [Except.bind] at h
    split at h
    · cases h
    · rename_i hnone
      cases h
      have hplace : ¬tree.isDirectoryAt place := by
        rw [isDirectoryAt_iff, hnone]
        rintro ⟨⟩
      obtain ⟨name, location, rfl, hname, habove⟩ :=
        (hwell.locate_cases hlocate).resolve_left hplace
      have hput (other : Location) : (tree.put (name :: location) .directory).node? other =
          if other = name :: location then some .directory else tree.node? other :=
        node?_put (List.cons_ne_nil _ _)
      have hextended : tree.Extended (tree.put (name :: location) .directory) := by
        refine ⟨rfl, fun other => ?_⟩
        rw [hput]
        split
        · rename_i heq
          exact Or.inr ⟨heq ▸ hnone, rfl⟩
        · exact Or.inl rfl
      refine ⟨hwell.put (Path.names_of_fileName? hname).2 habove hplace _, hextended, ?_⟩
      have hlater : (tree.put (name :: location) .directory).locate path =
          .ok (name :: location) := by
        rw [hextended.grown.locate_eq (by rw [hlocate]; rintro ⟨⟩), hlocate]
      rw [isDirectory, find, hlater]
      simp only [Except.bind, hput, if_pos]

/-- The creation of a directory that fails for another reason than that the directory above is
missing fails in all trees that grow from there. -/
theorem Grown.createDirectory_eq (h : tree.Grown later) {error : FileError}
    (hfailed : tree.createDirectory path = .error error)
    (hlocate : tree.locate path ≠ .error .notFound) :
    later.createDirectory path = .error error ∧ later.isDirectory path = tree.isDirectory path := by
  unfold createDirectory isDirectory find at *
  rw [h.locate_eq hlocate]
  cases hplace : tree.locate path with
  | error error' =>
    rw [hplace] at hfailed
    exact ⟨hfailed, rfl⟩
  | ok place =>
    rw [hplace] at hfailed
    simp only [Except.bind] at hfailed ⊢
    cases hnode : tree.node? place with
    | none =>
      rw [hnode] at hfailed
      cases hfailed
    | some node =>
      rw [hnode] at hfailed
      cases node with
      | directory =>
        have hlater := isDirectoryAt_iff.mp (h.directories place (isDirectoryAt_iff.mpr hnode))
        rw [hlater]
        exact ⟨hfailed, rfl⟩
      | file content =>
        obtain ⟨content', hlater⟩ := h.files place content hnode
        rw [hlater]
        exact ⟨hfailed, rfl⟩

/-! ## The directory above -/

theorem isDirectory_iff :
    tree.isDirectory path ↔ ∃ place, tree.locate path = .ok place ∧ tree.isDirectoryAt place := by
  unfold isDirectory find
  cases hplace : tree.locate path with
  | error error => simp [Except.bind]
  | ok place =>
    simp only [Except.bind, Except.ok.injEq, exists_eq_left', isDirectoryAt_iff]
    cases hnode : tree.node? place with
    | none => simp
    | some node => cases node <;> simp

/-- Whether nothing is left to create for a path: it is a directory, or it says nothing at all, as
the path above a single name. -/
def IsMade (tree : FileTree) (path : Path) : Prop := path = [] ∨ tree.isDirectory path

theorem Grown.isMade (h : tree.Grown later) (hmade : tree.IsMade path) : later.IsMade path := by
  refine hmade.imp_right fun hdirectory => ?_
  obtain ⟨place, hlocate, hplace⟩ := isDirectory_iff.mp hdirectory
  refine isDirectory_iff.mpr ⟨place, ?_, h.directories place hplace⟩
  rw [h.locate_eq (by rw [hlocate]; rintro ⟨⟩), hlocate]

theorem ofPath?_of_lead (hlead : above <+: path) (hne : above ≠ [])
    (h : FileError.ofPath? path = none) : FileError.ofPath? above = none := by
  obtain ⟨rest, rfl⟩ := hlead
  unfold FileError.ofPath? at *
  rw [List.any_append, Text.size_append] at h
  split at h
  · cases h
  · rename_i hnull
    split at h
    · cases h
    · split at h
      · cases h
      · rename_i hlong
        rw [if_neg (by simp_all), if_neg (by simpa using hne), if_neg (by omega)]

theorem follow_ofParts {origin : Path.Origin} {pieces : List Text}
    (h : Path.CanFollow origin pieces) (hdirectory : tree.isDirectoryAt location) :
    tree.follow location (Path.ofParts origin pieces).parts.2 = tree.follow location pieces := by
  rw [Path.parts_ofParts h]
  simp only
  split
  · rename_i hnone
    rw [hnone.1, follow_silent (by decide) hdirectory]
    rfl
  · rfl

theorem WellFormed.isMade_iff (hwell : tree.WellFormed) {pieces : List Text} {name : Text}
    (hparts : path.parts.2 = pieces ++ [name]) (hname : Path.isSilent name = false)
    (habove : path.parent? = some above) (hnone : FileError.ofPath? path = none) :
    tree.IsMade above ↔
      ∃ place, tree.follow (tree.start path) pieces = .ok place ∧ tree.isDirectoryAt place := by
  have hlead := ((Path.IsPlain.named hparts hname).of_parent? habove).2.1
  obtain ⟨hparent, hfollow⟩ := Path.parent?_of_parts hparts hname
  rw [hparent] at habove
  obtain rfl := Option.some.inj habove
  have hstart := hwell.isDirectoryAt_start path
  have hsame : tree.start (Path.ofParts path.origin (Path.trimPieces pieces)) = tree.start path :=
    start_eq (Path.origin_ofParts hfollow)
  have hway : tree.follow (tree.start path)
      (Path.ofParts path.origin (Path.trimPieces pieces)).parts.2 =
        tree.follow (tree.start path) (Path.trimPieces pieces) := follow_ofParts hfollow hstart
  obtain ⟨behind, hbehind, hsilent⟩ := Path.trimPieces_eq pieces
  constructor
  · intro hmade
    obtain ⟨place, hthere, hplace⟩ : ∃ place, tree.follow (tree.start path)
        (Path.trimPieces pieces) = .ok place ∧ tree.isDirectoryAt place := by
      rw [← hway]
      rcases hmade with hnil | hdirectory
      · rw [hnil]
        exact ⟨_, follow_silent (by decide) hstart, hstart⟩
      · obtain ⟨place, hlocate, hplace⟩ := isDirectory_iff.mp hdirectory
        rw [← hsame]
        exact ⟨place, (locate_eq_ok hlocate).2, hplace⟩
    refine ⟨place, ?_, hplace⟩
    rw [hbehind, follow_append, hthere]
    exact follow_silent hsilent hplace
  · rintro ⟨place, hthere, hplace⟩
    rw [hbehind] at hthere
    have hfront := follow_of_append_silent hsilent hthere
    rw [← hway, ← hsame] at hfront
    by_cases hne : Path.ofParts path.origin (Path.trimPieces pieces) = []
    · exact Or.inl hne
    · refine Or.inr (isDirectory_iff.mpr ⟨place, ?_, hplace⟩)
      rw [locate_of_none (ofPath?_of_lead hlead hne hnone), hfront]

theorem WellFormed.isMade_of_locate (hwell : tree.WellFormed) (hplain : path.IsPlain)
    (habove : path.parent? = some above) (h : tree.locate path = .ok place) :
    tree.IsMade above := by
  cases hplain with
  | root => cases habove
  | dot =>
    cases habove
    exact Or.inl rfl
  | empty => cases habove
  | @named _ pieces name hparts hname =>
    obtain ⟨hnone, hfollow⟩ := locate_eq_ok h
    refine (hwell.isMade_iff hparts hname habove hnone).mpr ?_
    rw [hparts, follow_append] at hfollow
    cases hfront : tree.follow (tree.start path) pieces with
    | error error =>
      rw [hfront] at hfollow
      cases hfollow
    | ok location =>
      rw [hfront] at hfollow
      exact ⟨location, rfl, isDirectoryAt_of_follow hfollow⟩

theorem WellFormed.locate_ne_notFound (hwell : tree.WellFormed) (hplain : path.IsPlain)
    (habove : path.parent? = some above) (hmade : tree.IsMade above) :
    tree.locate path ≠ .error .notFound := by
  cases hplain with
  | root => cases habove
  | dot => rintro ⟨⟩
  | empty => cases habove
  | @named _ pieces name hparts hname =>
    cases hnone : FileError.ofPath? path with
    | some error =>
      rw [locate_of_some hnone]
      rintro ⟨⟩
      refine ofPath?_ne_notFound ?_ hnone
      rintro rfl
      cases habove
    | none =>
      obtain ⟨location, hfront, hdirectory⟩ :=
        (hwell.isMade_iff hparts hname habove hnone).mp hmade
      rw [locate_of_none hnone, hparts, follow_append, hfront]
      change tree.follow location [name] ≠ _
      by_cases hup : name = ['.', '.']
      · rw [follow, isDirectoryAt_iff.mp hdirectory, hup]
        rintro ⟨⟩
      · rw [follow_name hname hup hdirectory]
        split <;> rintro ⟨⟩

/-! ## Creating directories with those above them -/

/-- The creation of a directory with those above it, of which the nearest ones are considered: what
it ends with, and the tree after it. -/
def make (n : Nat) (path : Path) (tree : FileTree) : Except FileError Unit × FileTree :=
  (FileAccess.createFirst (m := StateM FileTree) (Path.ancestors.go n path)).run tree

theorem make_of_parent?_none (h : path.parent? = none) (n : Nat) (tree : FileTree) :
    make (n + 1) path tree = (.ok (), tree) := by
  rw [make, Path.ancestors.go, h]
  rfl

/-- The end of a creation that did not create anything. -/
def orThere (path : Path) (tree : FileTree) (error : FileError) :
    Except FileError Unit × FileTree :=
  (if tree.isDirectory path then .ok () else .error error, tree)

theorem make_eq (h : path.parent? = some above) (n : Nat) (tree : FileTree) :
    make (n + 2) path tree =
      match tree.createDirectory path with
      | .ok later => (.ok (), later)
      | .error .notFound =>
        match make (n + 1) above tree with
        | (.error error, later) => (.error error, later)
        | (.ok (), later) =>
          match later.createDirectory path with
          | .ok last => (.ok (), last)
          | .error error => orThere path later error
      | .error error => orThere path tree error := by
  obtain ⟨rest, hrest⟩ : ∃ rest, Path.ancestors.go (n + 1) above = above :: rest := ⟨_, rfl⟩
  unfold make
  rw [Path.ancestors.go, h]
  simp only
  rw [hrest, FileAccess.createFirst]
  case x_1 => rintro ⟨⟩
  simp only [StateT.run, bind, StateT.bind, FileAccess.createDirectory, FileAccess.isDirectory,
    change]
  cases hcreate : tree.createDirectory path with
  | ok later => rfl
  | error error =>
    cases error with
    | notFound =>
      simp only [StateT.bind]
      rcases FileAccess.createFirst (m := StateM FileTree) (above :: rest) tree with ⟨result, later⟩
      cases result with
      | error error => rfl
      | ok done =>
        simp only [bind, StateT.bind]
        cases later.createDirectory path <;> rfl
    | _ => rfl

theorem createDirectory_eq_notFound (h : tree.createDirectory path = .error .notFound) :
    tree.locate path = .error .notFound := by
  unfold createDirectory at h
  cases hlocate : tree.locate path with
  | error error =>
    rw [hlocate] at h
    exact congrArg _ (Except.error.inj h)
  | ok place =>
    rw [hlocate] at h
    simp only [Except.bind] at h
    split at h <;> cases h

theorem make_of_isMade (hmade : tree.IsMade path) (n : Nat) :
    make (n + 1) path tree = (.ok (), tree) := by
  cases habove : path.parent? with
  | none => exact make_of_parent?_none habove n tree
  | some above =>
    have hdirectory : tree.isDirectory path := by
      refine hmade.resolve_left ?_
      rintro rfl
      cases habove
    obtain ⟨place, hlocate, hplace⟩ := isDirectory_iff.mp hdirectory
    have hcreate : tree.createDirectory path = .error .alreadyExists := by
      unfold createDirectory
      rw [hlocate]
      simp only [Except.bind, isDirectoryAt_iff.mp hplace]
    cases n with
    | zero =>
      unfold make
      rw [Path.ancestors.go, habove]
      rfl
    | succ n =>
      rw [make_eq habove, hcreate]
      simp only [orThere, if_pos hdirectory]

/-- What the creation of a directory with those above it comes to: the tree has more directories,
the one that was wanted among them if there was no error; and in trees that grow from there, another
creation changes nothing and ends with an error if this one did. -/
structure Makes (n : Nat) (path : Path) (tree : FileTree) : Prop where
  wellFormed : (make n path tree).2.WellFormed
  extended : tree.Extended (make n path tree).2
  isMade : (make n path tree).1 = .ok () → (make n path tree).2.IsMade path
  again : ∀ later, later.WellFormed → (make n path tree).2.Grown later →
    (make n path later).2 = later ∧
      ((make n path later).1 = .ok () ↔ (make n path tree).1 = .ok ())

theorem make_of_error (habove : path.parent? = some above) {error : FileError}
    (hcreate : tree.createDirectory path = .error error) (herror : error ≠ .notFound) (n : Nat) :
    make (n + 2) path tree = orThere path tree error := by
  rw [make_eq habove, hcreate]
  cases error with
  | notFound => exact absurd rfl herror
  | _ => rfl

theorem make_again_of_error (habove : path.parent? = some above) {error : FileError}
    (hcreate : tree.createDirectory path = .error error)
    (hlocate : tree.locate path ≠ .error .notFound) (hgrown : tree.Grown later) (n : Nat) :
    make (n + 2) path later = ((orThere path tree error).1, later) := by
  obtain ⟨hlater, hthere⟩ := hgrown.createDirectory_eq hcreate hlocate
  have herror : error ≠ .notFound := by
    rintro rfl
    exact hlocate (createDirectory_eq_notFound hcreate)
  rw [make_of_error habove hlater herror, orThere, orThere, hthere]

theorem make_of_failed (hwell : tree.WellFormed) (hplain : path.IsPlain)
    (habove : path.parent? = some above) {n : Nat} (hsame : (make (n + 1) above tree).2 = tree)
    (hfailed : (make (n + 1) above tree).1 ≠ .ok ()) :
    (make (n + 2) path tree).2 = tree ∧ (make (n + 2) path tree).1 ≠ .ok () := by
  -- If the path led anywhere, the directory above would be there, and its creation would not fail.
  have hlocate {place : Location} : tree.locate path ≠ .ok place := fun hplace => by
    have hmade := hwell.isMade_of_locate hplain habove hplace
    rw [make_of_isMade hmade] at hfailed
    exact hfailed rfl
  have hmissing : ∃ error, tree.locate path = .error error := by
    cases herror : tree.locate path with
    | error error => exact ⟨error, rfl⟩
    | ok place => exact absurd herror hlocate
  obtain ⟨error, herror⟩ := hmissing
  have hcreate : tree.createDirectory path = .error error := by
    rw [createDirectory, herror]
    rfl
  by_cases hnotFound : error = .notFound
  · rw [make_eq habove, hcreate, hnotFound]
    rcases hmake : make (n + 1) above tree with ⟨result, later⟩
    rw [hmake] at hsame hfailed
    cases result with
    | error error => exact ⟨hsame, by rintro ⟨⟩⟩
    | ok done => exact absurd rfl hfailed
  · have hno : tree.isDirectory path = false := by
      rw [isDirectory, find, herror]
      rfl
    rw [make_of_error habove hcreate hnotFound, orThere, hno]
    exact ⟨rfl, by rintro ⟨⟩⟩

theorem Makes.of_isMade {n : Nat} (hmake : make (n + 1) path tree = (.ok (), later))
    (hwell : later.WellFormed) (hextended : tree.Extended later) (hmade : later.IsMade path) :
    Makes (n + 1) path tree := by
  refine ⟨?_, ?_, ?_, ?_⟩ <;> rw [hmake]
  · exact hwell
  · exact hextended
  · exact fun _ => hmade
  · intro last _ hgrown
    rw [make_of_isMade (hgrown.isMade hmade)]
    exact ⟨rfl, Iff.rfl⟩

theorem Makes.of_orThere {n : Nat} {error : FileError} (habove : path.parent? = some above)
    (hmake : make (n + 2) path tree = orThere path later error)
    (hcreate : later.createDirectory path = .error error)
    (hlocate : later.locate path ≠ .error .notFound) (hwell : later.WellFormed)
    (hextended : tree.Extended later) : Makes (n + 2) path tree := by
  refine ⟨?_, ?_, ?_, ?_⟩ <;> rw [hmake]
  · exact hwell
  · exact hextended
  · intro hok
    by_cases hthere : later.isDirectory path
    · exact Or.inr hthere
    · rw [orThere, if_neg hthere] at hok
      cases hok
  · intro last _ hgrown
    rw [make_again_of_error habove hcreate hlocate hgrown]
    exact ⟨rfl, Iff.rfl⟩

theorem Makes.of_failed {n : Nat} {error : FileError} (hplain : path.IsPlain)
    (habove : path.parent? = some above) (h : Makes (n + 1) above tree)
    (hresult : make (n + 1) above tree = (.error error, later))
    (hmake : make (n + 2) path tree = (.error error, later)) : Makes (n + 2) path tree := by
  obtain ⟨hwell, hextended, -, hagain⟩ := h
  rw [hresult] at hwell hextended hagain
  refine ⟨?_, ?_, ?_, ?_⟩ <;> rw [hmake]
  · exact hwell
  · exact hextended
  · rintro ⟨⟩
  · intro last hlast hgrown
    obtain ⟨hsame, hiff⟩ := hagain last hlast hgrown
    have hfailed := make_of_failed hlast hplain habove hsame (mt hiff.mp (by rintro ⟨⟩))
    exact ⟨hfailed.1, iff_of_false hfailed.2 (by rintro ⟨⟩)⟩

theorem makes_of_parent?_none (hwell : tree.WellFormed) (hplain : path.IsPlain)
    (hnone : path.parent? = none) (n : Nat) : Makes (n + 1) path tree := by
  refine Makes.of_isMade (make_of_parent?_none hnone n tree) hwell (.refl tree) ?_
  cases hplain with
  | root => exact Or.inr rfl
  | dot => cases hnone
  | empty => exact Or.inl rfl
  | named hparts hname =>
    rw [(Path.parent?_of_parts hparts hname).1] at hnone
    cases hnone

theorem makes_of_notFound {n : Nat} (hplain : path.IsPlain) (habove : path.parent? = some above)
    (hcreate : tree.createDirectory path = .error .notFound) (h : Makes (n + 1) above tree) :
    Makes (n + 2) path tree := by
  have hmake := make_eq habove n tree
  have hwell := h.wellFormed
  have hextended := h.extended
  have hmade := h.isMade
  rcases hresult : make (n + 1) above tree with ⟨result, later⟩
  rw [hcreate, hresult] at hmake
  rw [hresult] at hwell hextended hmade
  cases result with
  | error error => exact h.of_failed hplain habove hresult hmake
  | ok done =>
    have hlocate := hwell.locate_ne_notFound hplain habove (hmade rfl)
    cases hcreate' : later.createDirectory path with
    | ok last =>
      obtain ⟨hlast, hextended', hdirectory⟩ := createDirectory_eq_ok hwell hcreate'
      refine Makes.of_isMade ?_ hlast (hextended.trans hextended') (Or.inr hdirectory)
      rw [hmake]
      simp only [hcreate']
    | error error =>
      refine Makes.of_orThere habove ?_ hcreate' hlocate hwell hextended
      rw [hmake]
      simp only [hcreate']

/-- The creation of a directory comes to this wherever the path is plain and all that is above it is
considered. -/
theorem WellFormed.makes {n : Nat} (hwell : tree.WellFormed) (hplain : path.IsPlain)
    (hn : path.length < n) : Makes n path tree := by
  -- The path above is shorter, so it is within what is considered, too.
  induction n generalizing path with
  | zero => omega
  | succ n ih =>
    cases habove : path.parent? with
    | none => exact makes_of_parent?_none hwell hplain habove n
    | some above =>
      obtain ⟨hplain', -, hlength⟩ := hplain.of_parent? habove
      obtain ⟨n, rfl⟩ : ∃ k, n = k + 1 := ⟨n - 1, by omega⟩
      cases hcreate : tree.createDirectory path with
      | ok later =>
        obtain ⟨hwell', hextended, hdirectory⟩ := createDirectory_eq_ok hwell hcreate
        refine Makes.of_isMade ?_ hwell' hextended (Or.inr hdirectory)
        rw [make_eq habove, hcreate]
      | error error =>
        by_cases herror : error = .notFound
        · rw [herror] at hcreate
          exact makes_of_notFound hplain habove hcreate (ih hplain' (by omega))
        · refine Makes.of_orThere habove (make_of_error habove hcreate herror n) hcreate ?_ hwell
            (.refl tree)
          intro hlocate
          rw [createDirectory, hlocate] at hcreate
          exact herror (Except.error.inj hcreate).symm

/-! ## Writing a file -/

/-- A file in a directory is written under its name, or nothing is written in any tree that grows
from here. -/
theorem WellFormed.write_cases (hwell : tree.WellFormed) {pieces : List Text} {name : Text}
    (hparts : path.parts.2 = pieces ++ [name]) (hname : Path.IsName name)
    (habove : path.parent? = some above) (hmade : tree.IsMade above) (content : ByteArray) :
    (∃ error, ∀ later, tree.Grown later → later.write path content = .error error) ∨
      ∃ location, tree.locate path = .ok (name :: location) ∧ tree.isDirectoryAt location ∧
        ¬tree.isDirectoryAt (name :: location) := by
  have hfound := hwell.locate_ne_notFound (.named hparts hname.1) habove hmade
  have hfileName := Path.fileName?_of_parts hparts hname.1 hname.2.1
  cases hlocate : tree.locate path with
  | error error =>
    refine Or.inl ⟨error, fun later hgrown => ?_⟩
    rw [write, hgrown.locate_eq hfound, hlocate]
    rfl
  | ok place =>
    by_cases hdirectory : tree.isDirectoryAt place
    · refine Or.inl ⟨.isADirectory, fun later hgrown => ?_⟩
      rw [write, hgrown.locate_eq hfound, hlocate]
      exact if_pos (hgrown.directories place hdirectory)
    · obtain ⟨name', location, rfl, hname', hlocation⟩ :=
        (hwell.locate_cases hlocate).resolve_left hdirectory
      rw [hfileName] at hname'
      cases hname'
      exact Or.inr ⟨location, rfl, hlocation, hdirectory⟩

theorem write_eq (hlocate : tree.locate path = .ok place) (hplace : ¬tree.isDirectoryAt place)
    (content : ByteArray) : tree.write path content = .ok (tree.put place (.file content)) := by
  rw [write, hlocate]
  exact if_neg hplace

/-- Wherever one of two changes, from a tree to another one, puts something, both trees hold the
same in the end. -/
def SameEffect (tree tree' later later' : FileTree) : Prop :=
  ∀ location, (tree'.node? location = tree.node? location ∧
      later'.node? location = later.node? location) ∨
    later'.node? location = tree'.node? location

theorem SameEffect.trans {tree tree' tree'' later later' later'' : FileTree}
    (h : SameEffect tree tree' later later') (h' : SameEffect tree' tree'' later' later'') :
    SameEffect tree tree'' later later'' := by
  intro location
  rcases h' location with ⟨hfirst, hsecond⟩ | hsame
  · rw [hfirst, hsecond]
    exact h location
  · exact Or.inr hsame

theorem SameEffect.put {tree tree' later later' : FileTree}
    (h : SameEffect tree tree' later later') (hplace : place ≠ []) (node : Node) :
    SameEffect tree (tree'.put place node) later (later'.put place node) := by
  intro location
  rw [node?_put hplace, node?_put hplace]
  split
  · exact Or.inr rfl
  · exact h location

theorem Extended.sameEffect (h : tree.Extended later) (hgrown : later.Grown last) :
    SameEffect tree later last last := by
  intro location
  rcases h.node? location with hsame | ⟨-, hdirectory⟩
  · exact Or.inl ⟨hsame, rfl⟩
  · have hlast := hgrown.directories location (isDirectoryAt_iff.mpr hdirectory)
    exact Or.inr ((isDirectoryAt_iff.mp hlast).trans hdirectory.symm)

/-- The tree after a file was written into a directory, which was created before. -/
def store (path above : Path) (content : ByteArray) (tree : FileTree) : FileTree :=
  match make (above.length + 1) above tree with
  | (.error _, later) => later
  | (.ok (), later) =>
    match later.write path content with
    | .ok last => last
    | .error _ => later

/-- What writing a file under a name comes to: beside the file there are only more directories, and
the same in trees that grow from there changes nothing else. -/
structure Stores (path above : Path) (content : ByteArray) (name : Text) (tree : FileTree) :
    Prop where
  wellFormed : (tree.store path above content).WellFormed
  grown : tree.Grown (tree.store path above content)
  node? : ∀ location, (tree.store path above content).node? location = tree.node? location ∨
    tree.node? location = none ∧
      (tree.store path above content).node? location = some .directory ∨
    ∃ front, location = name :: front
  again : ∀ later, later.WellFormed → (tree.store path above content).Grown later →
    SameEffect tree (tree.store path above content) later (later.store path above content)

theorem store_eq {content : ByteArray} {made : FileTree}
    (hmake : make (above.length + 1) above tree = (.ok (), made))
    (hlocate : made.locate path = .ok place)
    (hplace : ¬made.isDirectoryAt place) :
    tree.store path above content = made.put place (.file content) := by
  simp only [store, hmake, write_eq hlocate hplace]

theorem Stores.of_extended {name : Text} {content : ByteArray} {made : FileTree}
    (hstore : tree.store path above content = made) (hwell : made.WellFormed)
    (hextended : tree.Extended made)
    (hagain : ∀ later : FileTree, later.WellFormed → made.Grown later →
      later.store path above content = later) : Stores path above content name tree := by
  refine ⟨?_, ?_, fun location => ?_, fun later hlater hgrown => ?_⟩
  · rw [hstore]
    exact hwell
  · rw [hstore]
    exact hextended.grown
  · rw [hstore]
    exact (hextended.node? location).imp_right Or.inl
  · rw [hstore] at hgrown ⊢
    rw [hagain later hlater hgrown]
    exact hextended.sameEffect hgrown

theorem Stores.of_put {name : Text} {content : ByteArray} {made : FileTree}
    (hname : Path.IsName name)
    (hmake : ∀ later : FileTree, later.WellFormed → made.Grown later →
      make (above.length + 1) above later = (.ok (), later))
    (hmade : make (above.length + 1) above tree = (.ok (), made)) (hwell : made.WellFormed)
    (hextended : tree.Extended made) (hlocate : made.locate path = .ok (name :: location))
    (hlocation : made.isDirectoryAt location) (hplace : ¬made.isDirectoryAt (name :: location)) :
    Stores path above content name tree := by
  have hstore : tree.store path above content = made.put (name :: location) (.file content) :=
    store_eq hmade hlocate hplace
  have hput := grown_put_file hplace content
  refine ⟨?_, ?_, fun other => ?_, fun later hlater hgrown => ?_⟩ <;> rw [hstore] at *
  · exact hwell.put hname hlocation hplace _
  · exact hextended.grown.trans hput
  · rw [node?_put (List.cons_ne_nil _ _)]
    split
    · rename_i heq
      exact Or.inr (Or.inr ⟨location, heq⟩)
    · exact (hextended.node? other).imp_right Or.inl
  · have hgrown' := hput.trans hgrown
    have hlocate' : later.locate path = .ok (name :: location) := by
      rw [hgrown'.locate_eq (by rw [hlocate]; rintro ⟨⟩), hlocate]
    have hfile : (made.put (name :: location) (.file content)).node? (name :: location) =
        some (.file content) := by
      rw [node?_put (List.cons_ne_nil _ _), if_pos rfl]
    have hplace' : ¬later.isDirectoryAt (name :: location) := by
      obtain ⟨content', hlater'⟩ := hgrown.files _ _ hfile
      rw [isDirectoryAt_iff, hlater']
      rintro ⟨⟩
    rw [store_eq (hmake later hlater hgrown') hlocate' hplace']
    exact (hextended.sameEffect hgrown').put (List.cons_ne_nil _ _) _

theorem WellFormed.stores (hwell : tree.WellFormed) {pieces : List Text} {name : Text}
    (hparts : path.parts.2 = pieces ++ [name]) (hname : Path.IsName name)
    (habove : path.parent? = some above) (content : ByteArray) :
    Stores path above content name tree := by
  have hplain := ((Path.IsPlain.named hparts hname.1).of_parent? habove).1
  obtain ⟨hmade, hextended, hdone, hagain⟩ := hwell.makes hplain (Nat.lt_succ_self above.length)
  rcases hmake : make (above.length + 1) above tree with ⟨result, made⟩
  rw [hmake] at hmade hextended hdone hagain
  cases result with
  | error error =>
    refine Stores.of_extended (by simp only [store, hmake]) hmade hextended ?_
    intro later hlater hgrown
    obtain ⟨hsame, hiff⟩ := hagain later hlater hgrown
    rcases hresult : make (above.length + 1) above later with ⟨result', later'⟩
    rw [hresult] at hsame hiff
    cases result' with
    | error error' => simpa only [store, hresult] using hsame
    | ok done => cases hiff.mp rfl
  | ok done =>
    have hlater (later : FileTree) (hlater : later.WellFormed) (hgrown : made.Grown later) :
        make (above.length + 1) above later = (.ok (), later) := by
      obtain ⟨hsame, hiff⟩ := hagain later hlater hgrown
      exact Prod.ext (hiff.mpr rfl) hsame
    rcases hmade.write_cases hparts hname habove (hdone rfl) content with
      ⟨error, hfailed⟩ | ⟨location, hlocate, hlocation, hplace⟩
    · refine Stores.of_extended ?_ hmade hextended fun later hwell' hgrown => ?_
      · simp only [store, hmake, hfailed made (.refl made)]
      · simp only [store, hlater later hwell' hgrown, hfailed later hgrown]
    · exact Stores.of_put hname hlater hmake hmade hextended hlocate hlocation hplace

end FileTree

end TemplateCompiler
