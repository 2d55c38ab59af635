import TemplateCompiler.Path
import TemplateCompiler.Proofs.CanonicalPath

/-!
# Pieces of paths

What a path says is what it starts from and the names in it. Joined paths say both one after the
other, the path above another one says all but its last name, and the part of a path that follows
another says the names that are left.
-/
namespace TemplateCompiler

namespace Text

variable {isSeparator : Char → Bool}

theorem not_isSeparator_of_mem_split {text part : Text} (h : part ∈ split isSeparator text) :
    ∀ c ∈ part, isSeparator c = false := by
  induction text generalizing part with
  | nil =>
    cases List.mem_singleton.mp h
    exact fun _ hc => absurd hc List.not_mem_nil
  | cons d text ih =>
    rw [split] at h
    split at h
    · rcases List.mem_cons.mp h with rfl | h
      · exact fun _ hc => absurd hc List.not_mem_nil
      · exact ih h
    · rename_i hd
      cases hparts : split isSeparator text with
      | nil => exact absurd hparts (split_ne_nil text)
      | cons first parts =>
        rw [hparts, consFirst] at h
        rw [hparts] at ih
        rcases List.mem_cons.mp h with rfl | h
        · intro c hc
          rcases List.mem_cons.mp hc with rfl | hc
          · exact Bool.eq_false_iff.mpr hd
          · exact ih List.mem_cons_self c hc
        · exact ih (List.mem_cons_of_mem _ h)

theorem split_append_separator {c : Char} (hc : isSeparator c) (first second : Text) :
    split isSeparator (first ++ c :: second) =
      split isSeparator first ++ split isSeparator second := by
  induction first with
  | nil => simp [split, hc]
  | cons d first ih =>
    rw [List.cons_append, split, split, ih]
    split
    · rfl
    · cases hparts : split isSeparator first with
      | nil => exact absurd hparts (split_ne_nil first)
      | cons part parts => rfl

theorem join_split (c : Char) (text : Text) : join [c] (split (· == c) text) = text := by
  induction text with
  | nil => rfl
  | cons d text ih =>
    rw [split]
    cases hparts : split (· == c) text with
    | nil => exact absurd hparts (split_ne_nil text)
    | cons part parts =>
      rw [hparts] at ih
      split
      · rename_i hd
        rw [join_cons_cons, ih, beq_iff_eq.mp hd]
        rfl
      · rw [← ih, consFirst]
        cases parts with
        | nil => rw [join_singleton, join_singleton]
        | cons next parts => rw [join_cons_cons, join_cons_cons, List.cons_append]

theorem join_append {separator : Text} {first second : List Text} (hfirst : first ≠ [])
    (hsecond : second ≠ []) :
    join separator (first ++ second) =
      join separator first ++ separator ++ join separator second := by
  induction first with
  | nil => exact absurd rfl hfirst
  | cons part first ih =>
    cases first with
    | nil =>
      obtain ⟨next, rest, rfl⟩ := List.exists_cons_of_ne_nil hsecond
      rw [List.singleton_append, join_cons_cons, join_singleton, List.append_assoc]
    | cons part' first =>
      rw [List.cons_append, List.cons_append, join_cons_cons, ← List.cons_append,
        ih (List.cons_ne_nil _ _), join_cons_cons]
      simp only [List.append_assoc]

end Text

namespace Path

/-- Whether a piece of a path says a name: it is not silent, and is no piece that leads up. -/
def IsName (name : Text) : Prop := isSilent name = false ∧ name ≠ ['.', '.'] ∧ '/' ∉ name

instance (name : Text) : Decidable (IsName name) := inferInstanceAs (Decidable (_ ∧ _))

def origin (path : Path) : Origin := path.parts.1

theorem split_name {name : Text} (h : '/' ∉ name) : Text.split (· == '/') name = [name] :=
  Text.split_eq_singleton fun c hc => by
    rw [beq_eq_false_iff_ne]
    rintro rfl
    exact h hc

theorem names_eq (path : Path) :
    path.names = (Text.split (· == '/') path).filter (!isSilent ·) := by
  unfold names parts
  cases hsplit : Text.split (· == '/') path with
  | nil => rfl
  | cons piece pieces =>
    simp only
    split
    · rename_i habsolute
      have hpiece : piece = [] := by
        cases path with
        | nil => cases habsolute
        | cons c rest =>
          have hc : c = '/' := by simpa [isAbsolute] using habsolute
          rw [hc, Text.split, if_pos (by decide)] at hsplit
          exact (List.cons.inj hsplit).1.symm
      rw [hpiece, List.filter_cons_of_neg (by decide)]
    · split
      · rename_i hdot
        rw [hdot, List.filter_cons_of_neg (by decide)]
      · rfl

theorem origin_eq (path : Path) : path.origin =
    if path.isAbsolute then .root
    else if (Text.split (· == '/') path).head? = some ['.'] then .dot else .unwritten := by
  unfold origin parts
  cases hsplit : Text.split (· == '/') path with
  | nil => exact absurd hsplit (Text.split_ne_nil path)
  | cons piece pieces =>
    simp only [List.head?_cons, Option.some.injEq]
    split
    · rfl
    · split <;> rfl

theorem not_isSilent_of_mem_names {path : Path} {name : Text} (h : name ∈ path.names) :
    isSilent name = false ∧ '/' ∉ name := by
  rw [names_eq, List.mem_filter] at h
  refine ⟨by simpa using h.2, fun hslash => ?_⟩
  have hnone := Text.not_isSeparator_of_mem_split h.1 '/' hslash
  cases hnone

theorem names_of_fileName? {path : Path} {name : Text} (h : path.fileName? = some name) :
    path.names = path.names.dropLast ++ [name] ∧ IsName name := by
  obtain ⟨hlast, hup⟩ := Option.filter_eq_some_iff.mp h
  obtain ⟨before, hnames⟩ := List.getLast?_eq_some_iff.mp hlast
  have hmem : name ∈ path.names := by
    rw [hnames]
    exact List.mem_append_right _ List.mem_cons_self
  obtain ⟨hsilent, hslash⟩ := not_isSilent_of_mem_names hmem
  exact ⟨by rw [hnames, List.dropLast_concat], hsilent, by simpa using hup, hslash⟩

theorem fileName?_of_parts {path : Path} {pieces : List Text} {name : Text}
    (h : path.parts.2 = pieces ++ [name]) (hsilent : isSilent name = false)
    (hup : name ≠ ['.', '.']) : path.fileName? = some name := by
  rw [fileName?, names, h, List.filter_append, List.filter_cons_of_pos (by rw [hsilent]; rfl),
    List.filter_nil, List.getLast?_concat, Option.filter_some, if_pos (by simpa using hup)]

theorem same_iff {first second : Path} :
    first.same second ↔ first.origin = second.origin ∧ first.names = second.names := by
  simp [same, origin]

/-! ## Joined paths -/

/-- The pieces of a path, but not the empty one after a slash at the end. -/
def front (path : Path) : List Text :=
  if path.getLast? = some '/' ∨ path = [] then path.parts.2.dropLast else path.parts.2

theorem isAbsolute_append {base : Path} (h : base ≠ []) (rest : Text) :
    isAbsolute (base ++ rest) = base.isAbsolute := by
  cases base with
  | nil => exact absurd rfl h
  | cons c base => rfl

theorem parts_append_slash {base : Path} (h : base ≠ []) (path : Path) :
    parts (base ++ '/' :: path) =
      (base.parts.1, base.parts.2 ++ Text.split (· == '/') path) := by
  unfold parts
  rw [isAbsolute_append h, Text.split_append_separator (by decide)]
  cases hsplit : Text.split (· == '/') base with
  | nil => exact absurd hsplit (Text.split_ne_nil base)
  | cons piece pieces =>
    simp only [List.cons_append]
    split
    · rfl
    · split <;> rfl

theorem parts_slash (path : Path) : parts ('/' :: path) = (.root, Text.split (· == '/') path) := by
  unfold parts
  rw [Text.split, if_pos (by decide)]
  rfl

/-- The pieces of a path and those in front of its end are the same up to an empty one. -/
theorem parts_eq_front (path : Path) :
    path.parts.2 = path.front ∨ path.parts.2 = path.front ++ [[]] := by
  unfold front
  split
  · rename_i hend
    refine Or.inr ?_
    rcases hend with hlast | rfl
    · obtain ⟨before, rfl⟩ := List.getLast?_eq_some_iff.mp hlast
      cases before with
      | nil => rfl
      | cons c before =>
        rw [parts_append_slash (List.cons_ne_nil _ _), Text.split, List.dropLast_concat]
    · rfl
  · exact Or.inl rfl

theorem front_eq {path : Path} {pieces : List Text} {last : Text}
    (h : path.parts.2 = pieces ++ [last]) (hlast : last ≠ []) : path.front = path.parts.2 := by
  rcases parts_eq_front path with hfront | hfront
  · exact hfront.symm
  · rw [h] at hfront
    exact absurd (List.append_inj_right' hfront rfl |> List.singleton_inj.mp) hlast

theorem split_eq_parts {path : Path} (h : path.origin = .unwritten) :
    Text.split (· == '/') path = path.parts.2 := by
  unfold origin parts at *
  cases hsplit : Text.split (· == '/') path with
  | nil => rfl
  | cons piece pieces =>
    rw [hsplit] at h
    simp only at h ⊢
    split at h
    · cases h
    · split at h
      · cases h
      · rename_i habsolute hdot
        rw [if_neg habsolute, if_neg hdot]

theorem isAbsolute_eq_false {path : Path} (h : path.origin = .unwritten) :
    path.isAbsolute = false := by
  rw [origin_eq] at h
  split at h
  · cases h
  · rename_i habsolute
    exact Bool.eq_false_iff.mpr habsolute

theorem parts_join {path : Path} (base : Path) (h : path.origin = .unwritten) :
    (base.join path).parts = (base.origin, base.front ++ path.parts.2) := by
  unfold join
  rw [isAbsolute_eq_false h, Bool.false_or, ← split_eq_parts h]
  by_cases hempty : base = []
  · rw [hempty, if_pos (by rfl), split_eq_parts h]
    exact Prod.ext h rfl
  · rw [if_neg (by simpa using hempty)]
    split
    · rename_i hlast
      obtain ⟨before, rfl⟩ := List.getLast?_eq_some_iff.mp hlast
      rw [front, if_pos (Or.inl hlast), List.append_assoc, List.singleton_append]
      cases before with
      | nil => exact parts_slash path
      | cons c before =>
        have hne := List.cons_ne_nil c before
        rw [origin, parts_append_slash hne, parts_append_slash hne, Text.split,
          List.dropLast_concat]
    · rename_i hlast
      rw [front, if_neg (by simp [hlast, hempty]), parts_append_slash hempty, origin]

theorem parts_name {name : Text} (h : IsName name) : parts name = (.unwritten, [name]) := by
  have hslash := h.2.2
  have habsolute : isAbsolute name = false := by
    cases name with
    | nil => rfl
    | cons c rest =>
      have hc : c ≠ '/' := fun hc => hslash (hc ▸ List.mem_cons_self)
      simp [isAbsolute, hc]
  have hdot : name ≠ ['.'] := by
    rintro rfl
    cases h.1
  unfold parts
  rw [split_name hslash]
  simp only [habsolute, Bool.false_eq_true, if_false, if_neg hdot]

theorem IsName.ne_nil {name : Text} (h : IsName name) : name ≠ [] := by
  rintro rfl
  cases h.1

theorem parts_join_name {name : Text} (base : Path) (h : IsName name) :
    (base.join name).parts = (base.origin, base.front ++ [name]) := by
  rw [parts_join base (by rw [origin, parts_name h]), parts_name h]

theorem parts_foldl_join {names : List Text} (base : Path) (h : ∀ name ∈ names, IsName name)
    (hne : names ≠ []) :
    (names.foldl join base).parts = (base.origin, base.front ++ names) := by
  induction names generalizing base with
  | nil => exact absurd rfl hne
  | cons name names ih =>
    have hname := h name List.mem_cons_self
    have hbase := parts_join_name base hname
    rw [List.foldl_cons]
    cases names with
    | nil => exact hbase
    | cons next names =>
      have hfront : (base.join name).front = base.front ++ [name] := by
        have hparts := congrArg Prod.snd hbase
        rw [front_eq hparts hname.ne_nil, hparts]
      rw [ih (base.join name) (fun other hother => h other (List.mem_cons_of_mem _ hother))
        (List.cons_ne_nil _ _), hfront, origin, hbase, List.append_assoc, List.singleton_append]

theorem origin_foldl_join {names : List Text} (base : Path) (h : ∀ name ∈ names, IsName name)
    (hne : names ≠ []) : (names.foldl join base).origin = base.origin := by
  rw [origin, parts_foldl_join base h hne]

theorem filter_names {names : List Text} (h : ∀ name ∈ names, IsName name) :
    names.filter (!isSilent ·) = names :=
  List.filter_eq_self.mpr fun name hname => by rw [(h name hname).1]; rfl

theorem names_foldl_join {names : List Text} (base : Path) (h : ∀ name ∈ names, IsName name)
    (hne : names ≠ []) : (names.foldl join base).names = base.names ++ names := by
  rw [Path.names, parts_foldl_join base h hne, List.filter_append, filter_names h, Path.names]
  rcases parts_eq_front base with hfront | hfront <;> rw [hfront]
  rw [List.filter_append, List.filter_cons_of_neg (by decide), List.filter_nil, List.append_nil]

theorem isAbsolute_iff {path : Path} : path.isAbsolute ↔ path.origin = .root := by
  rw [origin_eq]
  split
  · rename_i habsolute
    simp [habsolute]
  · rename_i habsolute
    split <;> simp [habsolute]

/-! ## The path above -/

theorem trimPieces_concat {piece : Text} (h : isSilent piece = false) (pieces : List Text) :
    trimPieces (pieces ++ [piece]) = pieces ++ [piece] := by
  rw [trimPieces, List.reverse_append, List.reverse_singleton, List.singleton_append,
    List.dropWhile_cons, h, if_neg Bool.false_ne_true, List.reverse_cons, List.reverse_reverse]

theorem trimPieces_eq (pieces : List Text) :
    ∃ silent : List Text, pieces = trimPieces pieces ++ silent ∧ silent.all isSilent := by
  refine ⟨(pieces.reverse.takeWhile isSilent).reverse, ?_, ?_⟩
  · rw [trimPieces, ← List.reverse_append, List.takeWhile_append_dropWhile, List.reverse_reverse]
  · rw [List.all_reverse]
    exact List.all_takeWhile

theorem trimPieces_cases (pieces : List Text) :
    trimPieces pieces = [] ∨
      ∃ front last, trimPieces pieces = front ++ [last] ∧ isSilent last = false := by
  have hhead := List.head?_dropWhile_not isSilent pieces.reverse
  unfold trimPieces
  cases hdrop : pieces.reverse.dropWhile isSilent with
  | nil => exact Or.inl rfl
  | cons last front =>
    rw [hdrop] at hhead
    exact Or.inr ⟨front.reverse, last, List.reverse_cons, by simpa using hhead⟩

theorem filter_silent {pieces : List Text} (h : pieces.all isSilent) :
    pieces.filter (!isSilent ·) = [] := by
  rw [List.filter_eq_nil_iff]
  intro piece hpiece
  rw [List.all_eq_true.mp h piece hpiece]
  decide

theorem filter_trimPieces (pieces : List Text) :
    (trimPieces pieces).filter (!isSilent ·) = pieces.filter (!isSilent ·) := by
  obtain ⟨silent, hpieces, hsilent⟩ := trimPieces_eq pieces
  have hfilter := congrArg (List.filter (!isSilent ·)) hpieces
  rw [List.filter_append, filter_silent hsilent, List.append_nil] at hfilter
  exact hfilter.symm

/-- Pieces that can follow an origin: they hold no slash, and without a written origin the first
one is neither empty nor a dot. -/
def CanFollow (origin : Origin) (pieces : List Text) : Prop :=
  (∀ piece ∈ pieces, '/' ∉ piece) ∧
    (origin = .unwritten → ∀ piece, pieces.head? = some piece → isSilent piece = false)

theorem CanFollow.mono {origin : Origin} {front pieces : List Text}
    (h : CanFollow origin pieces) (hfront : front <+: pieces) : CanFollow origin front := by
  refine ⟨fun piece hpiece => h.1 piece (hfront.subset hpiece), fun horigin piece hpiece => ?_⟩
  obtain ⟨rest, rfl⟩ := hfront
  cases front with
  | nil => cases hpiece
  | cons first front => exact h.2 horigin piece hpiece

theorem ne_nil_of_split {path : Path} {piece : Text} {pieces : List Text}
    (h : Text.split (· == '/') path = piece :: pieces) (habsolute : path.isAbsolute = false)
    (hpath : path ≠ []) : piece ≠ [] := by
  rintro rfl
  obtain ⟨c, rest, rfl⟩ := List.exists_cons_of_ne_nil hpath
  have hc : ¬(c == '/') = true := by
    intro hslash
    rw [beq_iff_eq.mp hslash] at habsolute
    cases habsolute
  rw [Text.split, if_neg hc] at h
  cases hparts : Text.split (· == '/') rest with
  | nil => exact Text.split_ne_nil rest hparts
  | cons first parts =>
    rw [hparts] at h
    cases h

theorem canFollow_parts {path : Path} (hpath : path ≠ []) :
    CanFollow path.parts.1 path.parts.2 := by
  have hslash {piece : Text} (h : piece ∈ Text.split (· == '/') path) : '/' ∉ piece := by
    intro hmem
    cases Text.not_isSeparator_of_mem_split h '/' hmem
  unfold parts
  cases hsplit : Text.split (· == '/') path with
  | nil => exact absurd hsplit (Text.split_ne_nil path)
  | cons piece pieces =>
    rw [hsplit] at hslash
    have hrest : ∀ other ∈ pieces, '/' ∉ other := fun other h =>
      hslash (List.mem_cons_of_mem _ h)
    simp only
    split
    · refine ⟨hrest, ?_⟩
      rintro ⟨⟩
    · rename_i habsolute
      split
      · refine ⟨hrest, ?_⟩
        rintro ⟨⟩
      · rename_i hdot
        refine ⟨fun other h => hslash h, fun _ other hother => ?_⟩
        cases hother
        have hne := ne_nil_of_split hsplit (Bool.eq_false_iff.mpr habsolute) hpath
        simp [isSilent, hne, hdot]

theorem canFollow_trimPieces (path : Path) :
    CanFollow path.parts.1 (trimPieces path.parts.2) := by
  by_cases hpath : path = []
  · rw [hpath]
    refine ⟨fun piece hpiece => ?_, fun _ piece hpiece => ?_⟩
    · cases hpiece
    · cases hpiece
  · obtain ⟨silent, hpieces, -⟩ := trimPieces_eq path.parts.2
    exact (canFollow_parts hpath).mono ⟨silent, hpieces.symm⟩

/-- The pieces of a path made of pieces. Where a path has no names, there is an empty piece. -/
theorem parts_ofParts {origin : Origin} {pieces : List Text} (h : CanFollow origin pieces) :
    (ofParts origin pieces).parts =
      (origin, if pieces = [] ∧ origin ≠ .dot then [[]] else pieces) := by
  have hsplit (hne : pieces ≠ []) :
      Text.split (· == '/') (Text.join ['/'] pieces) = pieces := by
    refine Text.split_join (by decide) hne fun piece hpiece c hc => ?_
    rw [beq_eq_false_iff_ne]
    rintro rfl
    exact h.1 piece hpiece hc
  cases hpieces : pieces with
  | nil => cases origin <;> rfl
  | cons piece rest =>
    rw [hpieces] at hsplit
    have hsplit := hsplit (List.cons_ne_nil _ _)
    rw [if_neg (by simp)]
    cases origin with
    | root =>
      have hwhole : Text.split (· == '/') ('/' :: Text.join ['/'] (piece :: rest)) =
          [] :: piece :: rest := by rw [Text.split, if_pos (by decide), hsplit]
      simp only [parts, ofParts, hwhole]
      rfl
    | dot =>
      have hwhole : Text.split (· == '/') ('.' :: '/' :: Text.join ['/'] (piece :: rest)) =
          ['.'] :: piece :: rest := by
        rw [Text.split, if_neg (by decide), Text.split, if_pos (by decide), hsplit]
        rfl
      simp only [parts, ofParts, hwhole]
      rfl
    | unwritten =>
      have hfirst := h.2 rfl piece (by rw [hpieces]; rfl)
      have hslash : '/' ∉ piece := h.1 piece (by rw [hpieces]; exact List.mem_cons_self)
      have habsolute : isAbsolute (Text.join ['/'] (piece :: rest)) = false := by
        cases piece with
        | nil => cases hfirst
        | cons c piece =>
          have hc : c ≠ '/' := fun hc => hslash (hc ▸ List.mem_cons_self)
          cases rest with
          | nil => simp [Text.join_singleton, isAbsolute, hc]
          | cons next rest => simp [Text.join_cons_cons, isAbsolute, hc]
      have hdot : piece ≠ ['.'] := by
        rintro rfl
        cases hfirst
      simp only [parts, ofParts, hsplit, habsolute, Bool.false_eq_true, if_false, if_neg hdot]

theorem names_ofParts {origin : Origin} {pieces : List Text} (h : CanFollow origin pieces) :
    (ofParts origin pieces).names = pieces.filter (!isSilent ·) := by
  rw [names, parts_ofParts h]
  split
  · rename_i hnone
    rw [hnone.1]
    rfl
  · rfl

theorem origin_ofParts {origin : Origin} {pieces : List Text} (h : CanFollow origin pieces) :
    (ofParts origin pieces).origin = origin := by
  rw [Path.origin, parts_ofParts h]

theorem parent?_of_trimPieces {path : Path} {pieces : List Text} {name : Text}
    (h : trimPieces path.parts.2 = pieces ++ [name]) :
    path.parent? = some (ofParts path.origin (trimPieces pieces)) ∧
      CanFollow path.origin (trimPieces pieces) := by
  have hfollow := canFollow_trimPieces path
  obtain ⟨behind, hbehind, -⟩ := trimPieces_eq pieces
  rw [h] at hfollow
  refine ⟨?_, hfollow.mono (List.IsPrefix.trans ⟨behind, hbehind.symm⟩ (List.prefix_append _ _))⟩
  unfold parent?
  simp only [h]
  split
  · rename_i hnone
    cases List.append_ne_nil_of_right_ne_nil pieces (List.cons_ne_nil name []) hnone
  · rw [List.dropLast_concat]
    rfl

theorem parent?_of_parts {path : Path} {pieces : List Text} {name : Text}
    (h : path.parts.2 = pieces ++ [name]) (hname : isSilent name = false) :
    path.parent? = some (ofParts path.origin (trimPieces pieces)) ∧
      CanFollow path.origin (trimPieces pieces) :=
  parent?_of_trimPieces (by rw [h, trimPieces_concat hname])

/-- A path with names has a path above it, which says all but the last of them. -/
theorem exists_parent? {path : Path} (h : path.names ≠ []) :
    ∃ above, path.parent? = some above ∧ above.names = path.names.dropLast ∧
      above.origin = path.origin := by
  rw [names, ← filter_trimPieces] at h ⊢
  rcases trimPieces_cases path.parts.2 with hnone | ⟨front, name, hlast, hname⟩
  · rw [hnone] at h
    exact absurd rfl h
  · obtain ⟨habove, hfollow⟩ := parent?_of_trimPieces hlast
    refine ⟨_, habove, ?_, origin_ofParts hfollow⟩
    rw [names_ofParts hfollow, filter_trimPieces, hlast, List.filter_append,
      List.filter_cons_of_pos (by rw [hname]; rfl), List.filter_nil, List.dropLast_concat]

/-- Paths that do not end in silent pieces, as the paths above other paths. -/
inductive IsPlain : Path → Prop
  | root : IsPlain ['/']
  | dot : IsPlain ['.']
  | empty : IsPlain []
  | named {path : Path} {pieces : List Text} {name : Text} (h : path.parts.2 = pieces ++ [name])
      (hname : isSilent name = false) : IsPlain path

theorem isPlain_ofParts {origin : Origin} {pieces : List Text}
    (h : CanFollow origin (trimPieces pieces)) : IsPlain (ofParts origin (trimPieces pieces)) := by
  have hparts := congrArg Prod.snd (parts_ofParts h)
  rcases trimPieces_cases pieces with hnone | ⟨front, name, hlast, hname⟩
  · rw [hnone]
    cases origin with
    | root => exact .root
    | dot => exact .dot
    | unwritten => exact .empty
  · rw [if_neg (by simp [hlast])] at hparts
    exact .named (hparts.trans hlast) hname

theorem ofParts_parts (path : Path) : ofParts path.parts.1 path.parts.2 = path := by
  have hjoin := Text.join_split '/' path
  unfold parts
  cases hsplit : Text.split (· == '/') path with
  | nil => exact absurd hsplit (Text.split_ne_nil path)
  | cons piece pieces =>
    rw [hsplit] at hjoin
    simp only
    split
    · rename_i habsolute
      cases path with
      | nil => cases habsolute
      | cons c rest =>
        obtain rfl : c = '/' := by simpa [isAbsolute] using habsolute
        rw [Text.split, if_pos (by decide)] at hsplit
        rw [← (List.cons.inj hsplit).2, ofParts, Text.join_split]
    · split
      · rename_i hdot
        rw [hdot] at hjoin
        cases pieces with
        | nil => exact hjoin
        | cons next pieces => exact hjoin
      · exact hjoin

/-- More pieces make a longer path that starts the same, unless they are one empty piece. -/
theorem ofParts_append_lead (origin : Origin) (front : List Text) {more : List Text}
    (hmore : Text.join ['/'] more ≠ []) :
    ofParts origin front <+: ofParts origin (front ++ more) ∧
      (ofParts origin front).length < (ofParts origin (front ++ more)).length := by
  suffices h : ∃ rest, rest ≠ [] ∧ ofParts origin front ++ rest = ofParts origin (front ++ more) by
    obtain ⟨rest, hrest, hwhole⟩ := h
    have hlength := List.length_pos_iff.mpr hrest
    rw [← hwhole, List.length_append]
    exact ⟨List.prefix_append _ _, by omega⟩
  have hne : more ≠ [] := by
    rintro rfl
    exact hmore rfl
  cases front with
  | nil =>
    rw [List.nil_append]
    cases origin with
    | root => exact ⟨_, hmore, rfl⟩
    | dot =>
      obtain ⟨piece, more, rfl⟩ := List.exists_cons_of_ne_nil hne
      exact ⟨'/' :: Text.join ['/'] (piece :: more), List.cons_ne_nil _ _, rfl⟩
    | unwritten => exact ⟨_, hmore, rfl⟩
  | cons piece front =>
    have hjoin := @Text.join_append ['/'] _ _ (List.cons_ne_nil piece front) hne
    refine ⟨['/'] ++ Text.join ['/'] more, List.cons_ne_nil _ _, ?_⟩
    cases origin <;> simp only [ofParts, List.cons_append, List.append_assoc] at hjoin ⊢ <;>
      rw [hjoin]

theorem IsPlain.of_parent? {path above : Path} (h : path.IsPlain)
    (habove : path.parent? = some above) :
    above.IsPlain ∧ above <+: path ∧ above.length < path.length := by
  cases h with
  | root => cases habove
  | dot =>
    cases habove
    exact ⟨.empty, List.nil_prefix, by decide⟩
  | empty => cases habove
  | @named _ pieces name h hname =>
    obtain ⟨hparent, hfollow⟩ := parent?_of_parts h hname
    rw [hparent] at habove
    cases habove
    obtain ⟨behind, hbehind, -⟩ := trimPieces_eq pieces
    have hsplit : path.parts.2 = trimPieces pieces ++ (behind ++ [name]) := by
      rw [h, ← List.append_assoc, ← hbehind]
    have hne : name ≠ [] := by
      rintro rfl
      cases hname
    have hmore : Text.join ['/'] (behind ++ [name]) ≠ [] := by
      by_cases hnone : behind = []
      · rw [hnone, List.nil_append, Text.join_singleton]
        exact hne
      · rw [Text.join_append hnone (List.cons_ne_nil _ _), Text.join_singleton]
        exact List.append_ne_nil_of_right_ne_nil _ hne
    have hlead := ofParts_append_lead path.origin (trimPieces pieces) hmore
    rw [← hsplit, show ofParts path.origin path.parts.2 = path from ofParts_parts path] at hlead
    exact ⟨isPlain_ofParts hfollow, hlead⟩

/-! ## The part of a path that follows another -/

end Path

end TemplateCompiler
