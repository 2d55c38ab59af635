import TemplateCompiler.Proofs.DeclarationRuns
import TemplateCompiler.Proofs.DefaultAlias

/-!
# The order of declarations

Whether an alias can be bound depends on what is bound already, but only two at a time: two
declarations agree if they have different keys or one target, and neither is the default one of a
target that reads like the other's alias. Declarations that all agree, with each other and with the
runtime, succeed in every order and bind the same.
-/
namespace TemplateCompiler

namespace Unicode

theorem isCased_toLower (c : Char) : isCased c.toLower = isCased c :=
  apply_toLower (by decide) c

theorem isCaseIgnorable_toLower (c : Char) : isCaseIgnorable c.toLower = isCaseIgnorable c :=
  apply_toLower (by decide) c

theorem meetsCased_map_toLower (text : Text) :
    meetsCased (text.map Char.toLower) = meetsCased text := by
  have hignorable : isCaseIgnorable ∘ Char.toLower = isCaseIgnorable :=
    funext isCaseIgnorable_toLower
  unfold meetsCased
  rw [List.dropWhile_map, hignorable]
  cases text.dropWhile isCaseIgnorable with
  | nil => rfl
  | cons c rest => exact isCased_toLower c

/-- Lower-casing a text is blind to the case of ASCII letters, also where it looks at what stands
around a sigma. -/
theorem lowerAfter_map_toLower (before text : Text) :
    lowerAfter (before.map Char.toLower) (text.map Char.toLower) = lowerAfter before text := by
  induction text generalizing before with
  | nil => rfl
  | cons c rest ih =>
    have hsigma : (c.toLower == 'Σ') = (c == 'Σ') :=
      @apply_toLower Bool (· == 'Σ') (by decide) c
    have hrest := ih (c :: before)
    rw [List.map_cons] at hrest
    rw [List.map_cons, lowerAfter, lowerAfter, hsigma, meetsCased_map_toLower,
      meetsCased_map_toLower, lower_toLower, hrest]

end Unicode

namespace Text

variable {a b c : Text}

theorem equalIgnoringAsciiCase_iff :
    equalIgnoringAsciiCase a b ↔ a.map Char.toLower = b.map Char.toLower := beq_iff_eq

theorem equalIgnoringAsciiCase_refl (a : Text) : equalIgnoringAsciiCase a a :=
  equalIgnoringAsciiCase_iff.mpr rfl

theorem equalIgnoringAsciiCase_symm (h : equalIgnoringAsciiCase a b) :
    equalIgnoringAsciiCase b a :=
  equalIgnoringAsciiCase_iff.mpr (equalIgnoringAsciiCase_iff.mp h).symm

theorem equalIgnoringAsciiCase_trans (h : equalIgnoringAsciiCase a b)
    (h' : equalIgnoringAsciiCase b c) : equalIgnoringAsciiCase a c :=
  equalIgnoringAsciiCase_iff.mpr
    ((equalIgnoringAsciiCase_iff.mp h).trans (equalIgnoringAsciiCase_iff.mp h'))

end Text

namespace HandlerPath

theorem terminal_map_toLower (path : Text) :
    terminal (path.map Char.toLower) = (terminal path).map Char.toLower := by
  have hseparator : (fun c => c != pathSeparator) ∘ Char.toLower = fun c => c != pathSeparator :=
    funext (@Unicode.apply_toLower Bool (· != pathSeparator) (by decide))
  unfold terminal
  rw [← List.map_reverse, List.takeWhile_map, hseparator, List.map_reverse]

theorem key_terminal_eq {first second : Text} (h : Text.equalIgnoringAsciiCase first second) :
    key (terminal first) = key (terminal second) := by
  have hfold (path : Text) : key (terminal (path.map Char.toLower)) = key (terminal path) := by
    rw [terminal_map_toLower]
    exact Unicode.lowerAfter_map_toLower [] (terminal path)
  rw [← hfold first, ← hfold second, Text.equalIgnoringAsciiCase_iff.mp h]

end HandlerPath

theorem Name.aliasKey_ne_nil {name : Text} (h : ∃ c ∈ name, c ≠ '-') : aliasKey name ≠ [] := by
  obtain ⟨c, hc, hdash⟩ := h
  unfold aliasKey
  rw [ne_eq, List.flatMap_eq_nil_iff]
  intro hnone
  exact Unicode.lower_ne_nil c (hnone c (List.mem_filter.mpr ⟨hc, bne_iff_ne.mpr hdash⟩))

/-- Whether two aliases can be bound together, each with the canonical path of its target. -/
structure Compatible (first second : Text × Text) : Prop where
  target : Name.aliasKey first.1 = Name.aliasKey second.1 →
    Text.equalIgnoringAsciiCase first.2 second.2
  /-- If the first is the default alias, the second does not read like its target. -/
  apart : first.1 = [] → second.1 ≠ [] →
    HandlerPath.key (HandlerPath.terminal first.2) ≠ Name.aliasKey second.1
  apart' : second.1 = [] → first.1 ≠ [] →
    HandlerPath.key (HandlerPath.terminal second.2) ≠ Name.aliasKey first.1

namespace Compatible

variable {first second second' : Text × Text}

protected theorem refl (declaration : Text × Text) : Compatible declaration declaration where
  target _ := Text.equalIgnoringAsciiCase_refl declaration.2
  apart hdefault hnamed := absurd hdefault hnamed
  apart' hdefault hnamed := absurd hdefault hnamed

protected theorem symm (h : Compatible first second) : Compatible second first where
  target hkey := Text.equalIgnoringAsciiCase_symm (h.target hkey.symm)
  apart := h.apart'
  apart' := h.apart

/-- Only the key of an alias, whether it is the default one, and its target up to letter case
matter. -/
theorem congr (h : Compatible first second)
    (hkey : Name.aliasKey second.1 = Name.aliasKey second'.1)
    (hdefault : second.1 = [] ↔ second'.1 = [])
    (htarget : Text.equalIgnoringAsciiCase second.2 second'.2) : Compatible first second' where
  target hsame :=
    Text.equalIgnoringAsciiCase_trans (h.target (hsame.trans hkey.symm)) htarget
  apart hfirst hsecond := by
    rw [← hkey]
    exact h.apart hfirst (mt hdefault.mp hsecond)
  apart' hsecond hfirst := by
    rw [← HandlerPath.key_terminal_eq htarget]
    exact h.apart' (hdefault.mpr hsecond) hfirst

end Compatible

namespace Context

/-- The declarations that a context comes from, each with the canonical path of its target: they
are compatible with each other, each of them is bound, and nothing else is. -/
structure ComesFrom (context : Context) (made : List (Text × Text)) : Prop where
  compatible : ∀ first ∈ made, ∀ second ∈ made, Compatible first second
  named : ∀ declaration ∈ made, Name.aliasKey declaration.1 = [] → declaration.1 = []
  bound : ∀ declaration ∈ made, ∃ bound, context.binding? declaration.1 = some bound ∧
    Text.equalIgnoringAsciiCase bound.target declaration.2
  made : ∀ key bound, context.bindings.lookup key = some bound →
    key = Name.aliasKey bound.name ∧ (bound.name, bound.target) ∈ made

/-- The runtime's alias is declared at first. -/
def atFirst : List (Text × Text) := [(Binding.runtime.name, Binding.runtime.target)]

theorem comesFrom_initial : initial.ComesFrom atFirst where
  compatible first hfirst second hsecond := by
    rw [List.mem_singleton.mp hfirst, List.mem_singleton.mp hsecond]
    exact Compatible.refl _
  named declaration hdeclaration hkey := by
    rw [List.mem_singleton.mp hdeclaration] at hkey
    exact absurd hkey (by decide)
  bound declaration hdeclaration := by
    rw [List.mem_singleton.mp hdeclaration]
    exact ⟨Binding.runtime, by decide, Text.equalIgnoringAsciiCase_refl _⟩
  made key bound hbound := by
    simp only [initial, Keyed.lookup_cons, List.lookup_nil] at hbound
    split at hbound
    · rename_i hkey
      cases hbound
      exact ⟨hkey, List.mem_singleton_self _⟩
    · cases hbound

variable {context after : Context} {made : List (Text × Text)} {name target path : Text}

namespace ComesFrom

theorem compatible_of_declare (h : context.ComesFrom made)
    (hname : Name.aliasKey name = [] → name = [])
    (hpath : HandlerPath.canonical? target = some path)
    (hdeclare : context.declare name target = .ok after) :
    ∀ declaration ∈ made, Compatible declaration (name, path) := by
  intro declaration hdeclaration
  obtain ⟨path', hpath', hcases⟩ := declare_cases hdeclare
  obtain rfl : path = path' := Option.some.inj (hpath.symm.trans hpath')
  rcases hcases with ⟨bound, hbound, htarget, -⟩ | ⟨hfree, hclear, -⟩
  · -- the same alias was declared before, so the new one is as compatible as that
    obtain ⟨hkey, hmade⟩ := h.made _ _ hbound
    refine (h.compatible declaration hdeclaration _ hmade).congr hkey.symm ⟨?_, ?_⟩ htarget
    · intro hempty
      exact hname (hkey.trans (congrArg Name.aliasKey hempty))
    · intro hempty
      exact h.named _ hmade (hkey.symm.trans (congrArg Name.aliasKey hempty))
  · obtain ⟨bound, hbound, htarget⟩ := h.bound declaration hdeclaration
    constructor
    · intro hkey
      unfold binding? at hbound hfree
      rw [hkey, hfree] at hbound
      cases hbound
    · intro hdefault hnamed hkey
      have hlookup : context.bindings.lookup [] = some bound := by
        rw [← hbound, hdefault]
        rfl
      have hempty : name.isEmpty = false := List.isEmpty_eq_false_iff.mpr hnamed
      rw [← HandlerPath.key_terminal_eq htarget] at hkey
      simp [shadowing?, hempty, hlookup, hkey] at hclear
    · intro hdefault hnamed hkey
      obtain rfl : name = [] := hdefault
      simp only [shadowing?, List.isEmpty_nil, if_true, Option.map_eq_none_iff] at hclear
      unfold binding? at hbound
      rw [← hkey, hclear] at hbound
      cases hbound

/-- A declaration that is compatible with all that were made succeeds. -/
theorem declare_of_compatible (h : context.ComesFrom made)
    (hpath : HandlerPath.canonical? target = some path)
    (hcompatible : ∀ declaration ∈ made, Compatible declaration (name, path)) :
    ∃ after, context.declare name target = .ok after := by
  cases hbound : context.binding? name with
  | some bound =>
    obtain ⟨hkey, hmade⟩ := h.made _ _ hbound
    have htarget := (hcompatible _ hmade).target hkey.symm
    simp only [declare, hpath, hbound]
    exact ⟨context, if_pos htarget⟩
  | none =>
    have hclear : context.shadowing? name path = none := by
      unfold shadowing?
      split
      · rename_i hempty
        obtain rfl : name = [] := List.isEmpty_iff.mp hempty
        rw [Option.map_eq_none_iff]
        cases hnamed : context.bindings.lookup (HandlerPath.key (HandlerPath.terminal path)) with
        | none => rfl
        | some named =>
          obtain ⟨hkey, hmade⟩ := h.made _ _ hnamed
          by_cases hdefault : named.name = []
          · rw [hkey, hdefault] at hnamed
            exact absurd (hbound.symm.trans hnamed) (by simp)
          · exact absurd hkey ((hcompatible _ hmade).apart' rfl hdefault)
      · rename_i hnamed
        cases hdefault : context.bindings.lookup [] with
        | none => rfl
        | some default =>
          obtain ⟨hkey, hmade⟩ := h.made _ _ hdefault
          have hempty := h.named _ hmade hkey.symm
          have hread := (hcompatible _ hmade).apart hempty (by simpa using hnamed)
          exact if_neg hread
    simp only [declare, hpath, hbound, hclear]
    exact ⟨_, rfl⟩

theorem declare (h : context.ComesFrom made) (hname : Name.aliasKey name = [] → name = [])
    (hpath : HandlerPath.canonical? target = some path)
    (hdeclare : context.declare name target = .ok after) :
    after.ComesFrom (made ++ [(name, path)]) := by
  have hcompatible := h.compatible_of_declare hname hpath hdeclare
  obtain ⟨path', hpath', hcases⟩ := declare_cases hdeclare
  obtain rfl : path = path' := Option.some.inj (hpath.symm.trans hpath')
  constructor
  case compatible =>
    simp only [List.forall_mem_append, List.forall_mem_singleton]
    exact ⟨fun first hfirst => ⟨h.compatible first hfirst, hcompatible first hfirst⟩,
      fun second hsecond => (hcompatible second hsecond).symm, Compatible.refl _⟩
  case named =>
    rw [List.forall_mem_append, List.forall_mem_singleton]
    exact ⟨h.named, hname⟩
  all_goals rcases hcases with ⟨bound, hbound, htarget, rfl⟩ | ⟨hfree, -, rfl⟩
  case bound.inl =>
    rw [List.forall_mem_append, List.forall_mem_singleton]
    exact ⟨h.bound, bound, hbound, htarget⟩
  case bound.inr =>
    rw [List.forall_mem_append, List.forall_mem_singleton]
    refine ⟨fun declaration hdeclaration => ?_, ⟨name, path, !name.isEmpty⟩, ?_,
      Text.equalIgnoringAsciiCase_refl path⟩
    · obtain ⟨bound, hbound, htarget⟩ := h.bound declaration hdeclaration
      refine ⟨bound, ?_, htarget⟩
      unfold binding? at hbound ⊢
      rw [lookup_add, hbound, Option.some_or]
    · unfold binding? at hfree ⊢
      rw [lookup_add, hfree, if_pos rfl, Option.none_or]
  case made.inl =>
    intro key bound hbound
    obtain ⟨hkey, hmade⟩ := h.made key bound hbound
    exact ⟨hkey, List.mem_append_left _ hmade⟩
  case made.inr =>
    intro key bound hbound
    rw [lookup_add, Option.or_eq_some_iff] at hbound
    rcases hbound with hbound | ⟨-, hbound⟩
    · obtain ⟨hkey, hmade⟩ := h.made key bound hbound
      exact ⟨hkey, List.mem_append_left _ hmade⟩
    · split at hbound
      · rename_i hkey
        cases hbound
        exact ⟨hkey, List.mem_append_right _ (List.mem_singleton_self _)⟩
      · cases hbound

theorem mem_keys_iff (h : context.ComesFrom made) (key : Text) :
    key ∈ context.bindings.map (·.1) ↔ ∃ declaration ∈ made, Name.aliasKey declaration.1 = key := by
  constructor
  · intro hkey
    cases hbound : context.bindings.lookup key with
    | none =>
      obtain ⟨entry, hentry, hsame⟩ := List.mem_map.mp hkey
      exact absurd hsame (ne_key_of_lookup hbound entry hentry)
    | some bound =>
      obtain ⟨hkey, hmade⟩ := h.made key bound hbound
      exact ⟨_, hmade, hkey.symm⟩
  · rintro ⟨declaration, hdeclaration, rfl⟩
    obtain ⟨bound, hbound, -⟩ := h.bound declaration hdeclaration
    obtain ⟨before, after, hsplit, -⟩ := List.lookup_eq_some_iff.mp hbound
    rw [hsplit]
    simp

end ComesFrom

/-- The declarations of aliases and targets one after the other, up to the first that fails. -/
def declareAll (context : Context) : List (Text × Text) → Except CompileError Context
  | [] => .ok context
  | declaration :: declarations =>
    match context.declare declaration.1 declaration.2 with
    | .ok context => context.declareAll declarations
    | .error error => .error error

/-- A declaration with the canonical path of its target. -/
def settled (declaration : Text × Text) : Text × Text :=
  (declaration.1, (HandlerPath.canonical? declaration.2).getD [])

variable {declarations : List (Text × Text)}

namespace ComesFrom

theorem declareAll (h : context.ComesFrom made)
    (hnames : ∀ declaration ∈ declarations, Name.aliasKey declaration.1 = [] → declaration.1 = [])
    (hdeclare : context.declareAll declarations = .ok after) :
    (∀ declaration ∈ declarations,
      HandlerPath.canonical? declaration.2 = some (settled declaration).2) ∧
    after.ComesFrom (made ++ declarations.map settled) := by
  induction declarations generalizing context made with
  | nil =>
    cases hdeclare
    refine ⟨fun declaration hnone => (List.not_mem_nil hnone).elim, ?_⟩
    rwa [List.map_nil, List.append_nil]
  | cons declaration declarations ih =>
    rw [List.forall_mem_cons] at hnames
    unfold Context.declareAll at hdeclare
    split at hdeclare
    · rename_i middle hfirst
      obtain ⟨path, hpath, -⟩ := declare_cases hfirst
      have hsettled : settled declaration = (declaration.1, path) := by
        rw [settled, hpath]
        rfl
      obtain ⟨hpaths, hafter⟩ := ih (h.declare hnames.1 hpath hfirst) hnames.2 hdeclare
      rw [List.append_assoc] at hafter
      rw [List.forall_mem_cons, List.map_cons, hsettled]
      exact ⟨⟨hpath, hpaths⟩, hafter⟩
    · cases hdeclare

theorem exists_declareAll (h : context.ComesFrom made)
    (hnames : ∀ declaration ∈ declarations, Name.aliasKey declaration.1 = [] → declaration.1 = [])
    (hpaths : ∀ declaration ∈ declarations,
      HandlerPath.canonical? declaration.2 = some (settled declaration).2)
    (hcompatible : ∀ first ∈ made ++ declarations.map settled, ∀ second ∈ declarations.map settled,
      Compatible first second) :
    ∃ after, context.declareAll declarations = .ok after := by
  induction declarations generalizing context made with
  | nil => exact ⟨context, rfl⟩
  | cons declaration declarations ih =>
    rw [List.forall_mem_cons] at hnames hpaths
    rw [List.map_cons] at hcompatible
    obtain ⟨middle, hmiddle⟩ := h.declare_of_compatible hpaths.1 fun first hfirst =>
      hcompatible first (List.mem_append_left _ hfirst) _ List.mem_cons_self
    obtain ⟨after, hafter⟩ := ih (h.declare hnames.1 hpaths.1 hmiddle) hnames.2 hpaths.2 <| by
      intro first hfirst second hsecond
      rw [List.append_assoc] at hfirst
      exact hcompatible first hfirst second (List.mem_cons_of_mem _ hsecond)
    refine ⟨after, ?_⟩
    rw [Context.declareAll, hmiddle]
    exact hafter

end ComesFrom

end Context

/-- Declarations that all succeed in a fresh context, of aliases that are empty or more than
dashes, succeed in any other order, and bind the same keys, each to the same target up to letter
case. -/
theorem declarations_in_any_order {declarations permuted : List (Text × Text)} {context : Context}
    (hnames : ∀ declaration ∈ declarations, declaration.1 = [] ∨ ∃ c ∈ declaration.1, c ≠ '-')
    (h : Context.initial.declareAll declarations = .ok context)
    (hpermuted : permuted.Perm declarations) :
    ∃ context', Context.initial.declareAll permuted = .ok context' ∧
      (∀ key, key ∈ context'.bindings.map (·.1) ↔ key ∈ context.bindings.map (·.1)) ∧
      ∀ key bound bound', context.bindings.lookup key = some bound →
        context'.bindings.lookup key = some bound' →
        Text.equalIgnoringAsciiCase bound'.target bound.target := by
  have hkeys : ∀ declaration ∈ declarations,
      Name.aliasKey declaration.1 = [] → declaration.1 = [] := by
    intro declaration hdeclaration hkey
    rcases hnames declaration hdeclaration with hempty | hsome
    · exact hempty
    · exact absurd hkey (Name.aliasKey_ne_nil hsome)
  have hkeys' : ∀ declaration ∈ permuted,
      Name.aliasKey declaration.1 = [] → declaration.1 = [] :=
    fun declaration hdeclaration => hkeys declaration (hpermuted.mem_iff.mp hdeclaration)
  obtain ⟨hpaths, hfrom⟩ := Context.comesFrom_initial.declareAll hkeys h
  have hmembers (declaration) : declaration ∈ Context.atFirst ++ permuted.map Context.settled ↔
      declaration ∈ Context.atFirst ++ declarations.map Context.settled :=
    ((hpermuted.map Context.settled).append_left _).mem_iff
  obtain ⟨context', h'⟩ := Context.comesFrom_initial.exists_declareAll hkeys'
    (fun declaration hdeclaration => hpaths declaration (hpermuted.mem_iff.mp hdeclaration))
    (fun first hfirst second hsecond => hfrom.compatible first ((hmembers first).mp hfirst) second
      ((hmembers second).mp (List.mem_append_right _ hsecond)))
  obtain ⟨-, hfrom'⟩ := Context.comesFrom_initial.declareAll hkeys' h'
  refine ⟨context', h', fun key => ?_, fun key bound bound' hbound hbound' => ?_⟩
  · simp only [hfrom.mem_keys_iff, hfrom'.mem_keys_iff, hmembers]
  · obtain ⟨hkey, hmade⟩ := hfrom.made key bound hbound
    obtain ⟨hkey', hmade'⟩ := hfrom'.made key bound' hbound'
    exact (hfrom.compatible _ ((hmembers _).mp hmade') _ hmade).target (hkey'.symm.trans hkey)

/-- The default alias before a named one and after it, and one alias in two spellings. -/
theorem declarations_in_any_order_of_spellings :
    ∃ context', Context.initial.declareAll [("My-Ui".toList, "App.Ui".toList),
        ([], "app/Form".toList), ("myui".toList, "app.ui".toList)] = .ok context' ∧
      "myui".toList ∈ context'.bindings.map (·.1) ∧ "ui".toList ∉ context'.bindings.map (·.1) := by
  obtain ⟨context', hcontext', hkeys, -⟩ := @declarations_in_any_order
    [([], "app/Form".toList), ("myui".toList, "app.ui".toList), ("My-Ui".toList, "App.Ui".toList)]
    [("My-Ui".toList, "App.Ui".toList), ([], "app/Form".toList), ("myui".toList, "app.ui".toList)]
    ⟨[("_h".toList, Binding.runtime), ([], ⟨[], "app\\Form".toList, false⟩),
      ("myui".toList, ⟨"myui".toList, "app\\ui".toList, true⟩)], 0,
      ["use app\\ui as myui;".toList]⟩
    (by simp) rfl (by decide)
  refine ⟨context', hcontext', ?_, ?_⟩
  all_goals
    rw [hkeys]
    decide

end TemplateCompiler
