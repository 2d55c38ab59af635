import Mathlib.Data.List.Dedup
import TemplateCompiler.Proofs.PathSpellings

/-!
# Registered handlers

Handlers are registered one by one or as the entries of a manifest, and some of them have no valid
path. A registry comes down to the list of the handlers that were stored: under each key it has
the last of them, and nothing else.
-/
namespace TemplateCompiler

namespace Handler

def canonical? (handler : Handler) : Option Handler :=
  (HandlerPath.canonical? handler.path).map fun path => { handler with path := path }

def key (handler : Handler) : Text := HandlerPath.key handler.path

theorem canonical?_of_canonical? {handler stored : Handler}
    (h : handler.canonical? = some stored) : stored.canonical? = some stored := by
  obtain ⟨path, hpath, rfl⟩ := Option.map_eq_some_iff.mp h
  rw [canonical?, HandlerPath.canonical?_of_canonical? hpath, Option.map_some]

end Handler

inductive Registration
  | single (handler : Handler)
  /-- The entries of a manifest in order. -/
  | manifest (handlers : List Handler)

/-- The handlers that a call stores: of a manifest, those in front of the first without a valid
path. -/
def Registration.stored : Registration → List Handler
  | single handler => handler.canonical?.toList
  | manifest handlers =>
    (handlers.takeWhile fun handler => handler.canonical?.isSome).filterMap Handler.canonical?

theorem Registration.canonical?_of_mem_stored {call : Registration} {handler : Handler}
    (h : handler ∈ call.stored) : handler.canonical? = some handler := by
  cases call with
  | single declared => exact Handler.canonical?_of_canonical? (Option.mem_toList.mp h)
  | manifest declared =>
    obtain ⟨_, -, hstored⟩ := List.mem_filterMap.mp h
    exact Handler.canonical?_of_canonical? hstored

namespace Registry

/-- The registry after a call, which leaves it alone if it fails. -/
def perform (registry : Registry) : Registration → Registry
  | .single handler => (registry.register handler).toOption.getD registry
  | .manifest handlers => (registry.extend handlers).1

def performAll (registry : Registry) (calls : List Registration) : Registry :=
  calls.foldl perform registry

def insertAll (registry : Registry) (handlers : List Handler) : Registry :=
  handlers.foldl insert registry

theorem insertAll_append (registry : Registry) (first second : List Handler) :
    registry.insertAll (first ++ second) = (registry.insertAll first).insertAll second :=
  List.foldl_append

section Calls

variable {handler stored : Handler}

theorem register_of_some (h : handler.canonical? = some stored) (registry : Registry) :
    registry.register handler = .ok (registry.insert stored) := by
  obtain ⟨path, hpath, rfl⟩ := Option.map_eq_some_iff.mp h
  rw [register, hpath]

theorem register_of_none (h : handler.canonical? = none) (registry : Registry) :
    registry.register handler = .error (.ofCause (.invalidTarget handler.path)) := by
  rw [register, Option.map_eq_none_iff.mp h]

theorem perform_single (registry : Registry) (handler : Handler) :
    registry.perform (.single handler) = registry.insertAll handler.canonical?.toList := by
  rw [perform]
  cases h : handler.canonical? with
  | none =>
    rw [register_of_none h]
    rfl
  | some stored =>
    rw [register_of_some h]
    rfl

theorem performAll_single (registry : Registry) (handlers : List Handler) :
    registry.performAll (handlers.map .single) =
      registry.insertAll (handlers.filterMap Handler.canonical?) := by
  induction handlers generalizing registry with
  | nil => rfl
  | cons handler handlers ih =>
    have hstep : registry.performAll ((handler :: handlers).map .single) =
        (registry.perform (.single handler)).performAll (handlers.map .single) := rfl
    rw [hstep, ih, perform_single, ← insertAll_append]
    cases h : handler.canonical? with
    | none => rw [List.filterMap_cons_none h, Option.toList_none, List.nil_append]
    | some stored =>
      rw [List.filterMap_cons_some h, Option.toList_some, List.singleton_append]

theorem extend_append {first : List Handler} (h : ∀ handler ∈ first, handler.canonical?.isSome)
    (registry : Registry) (rest : List Handler) :
    registry.extend (first ++ rest) =
      (registry.performAll (first.map .single)).extend rest := by
  induction first generalizing registry with
  | nil => rfl
  | cons handler first ih =>
    obtain ⟨stored, hstored⟩ := Option.isSome_iff_exists.mp (h handler List.mem_cons_self)
    have hstep : registry.performAll ((handler :: first).map .single) =
        (registry.perform (.single handler)).performAll (first.map .single) := rfl
    rw [List.cons_append, extend, register_of_some hstored, hstep, perform_single, hstored]
    exact ih (fun handler hmem => h handler (List.mem_cons_of_mem _ hmem)) _

theorem extend_of_none {bad : Handler} (h : bad.canonical? = none) (registry : Registry)
    (rest : List Handler) :
    registry.extend (bad :: rest) = (registry, some (.ofCause (.invalidTarget bad.path))) := by
  rw [extend, register_of_none h]

/-- A call amounts to inserting the handlers that it stores. -/
theorem perform_eq (registry : Registry) (call : Registration) :
    registry.perform call = registry.insertAll call.stored := by
  cases call with
  | single handler => exact perform_single registry handler
  | manifest handlers =>
    have hvalid : ∀ handler ∈ handlers.takeWhile fun handler => handler.canonical?.isSome,
        handler.canonical?.isSome := fun handler hmem =>
      @List.mem_takeWhile_imp _ (fun handler : Handler => handler.canonical?.isSome) _ _ hmem
    have hextend := extend_append hvalid registry
      (handlers.dropWhile fun handler => handler.canonical?.isSome)
    rw [List.takeWhile_append_dropWhile] at hextend
    rw [perform, hextend, Registration.stored, ← performAll_single]
    cases hrest : handlers.dropWhile fun handler => handler.canonical?.isSome with
    | nil => rfl
    | cons bad rest =>
      have hbad : bad.canonical? = none := by
        have hhead := List.head?_dropWhile_not (fun handler : Handler => handler.canonical?.isSome)
          handlers
        rw [hrest, List.head?_cons] at hhead
        simpa using hhead
      rw [extend_of_none hbad]

theorem performAll_eq (registry : Registry) (calls : List Registration) :
    registry.performAll calls = registry.insertAll (calls.flatMap Registration.stored) := by
  induction calls generalizing registry with
  | nil => rfl
  | cons call calls ih =>
    have hstep : registry.performAll (call :: calls) =
        (registry.perform call).performAll calls := rfl
    rw [hstep, ih, perform_eq, List.flatMap_cons, insertAll_append]

end Calls

section Entries

variable {key : Text}

theorem lookup_filter_ne {entries : List (Text × Handler)} {removed : Text} (h : key ≠ removed) :
    (entries.filter (·.1 != removed)).lookup key = entries.lookup key := by
  induction entries with
  | nil => rfl
  | cons entry entries ih =>
    obtain ⟨first, handler⟩ := entry
    by_cases hfirst : first = removed
    · have hkey : key ≠ first := hfirst ▸ h
      rw [List.filter_cons_of_neg (by simpa using hfirst), ih, Keyed.lookup_cons, if_neg hkey]
    · rw [List.filter_cons_of_pos (by simpa using hfirst), Keyed.lookup_cons, Keyed.lookup_cons, ih]

theorem lookup_insert (registry : Registry) (handler : Handler) (key : Text) :
    (registry.insert handler).entries.lookup key =
      if key = handler.key then some handler else registry.entries.lookup key := by
  have hentries : (registry.insert handler).entries =
      (handler.key, handler) :: registry.entries.filter (·.1 != handler.key) := rfl
  rw [hentries, Keyed.lookup_cons]
  split
  · rfl
  · rename_i hkey
    exact lookup_filter_ne hkey

theorem lookup_insertAll (registry : Registry) (handlers : List Handler) (key : Text) :
    (registry.insertAll handlers).entries.lookup key =
      (handlers.reverse.find? fun handler => handler.key = key).or
        (registry.entries.lookup key) := by
  induction handlers generalizing registry with
  | nil => rfl
  | cons handler handlers ih =>
    have hstep : registry.insertAll (handler :: handlers) =
        (registry.insert handler).insertAll handlers := rfl
    rw [hstep, ih, lookup_insert, List.reverse_cons, List.find?_append, Option.or_assoc]
    by_cases hkey : handler.key = key
    · simp [hkey]
    · simp [hkey, Ne.symm hkey]

/-- What holds of the entries of a registry: they stand under the keys of their handlers, no key
occurs twice, and the paths are canonical. -/
structure IsTable (registry : Registry) : Prop where
  nodup : (registry.entries.map (·.1)).Nodup
  key_eq : ∀ entry ∈ registry.entries, entry.1 = entry.2.key
  canonical : ∀ entry ∈ registry.entries, entry.2.canonical? = some entry.2

theorem isTable_empty : empty.IsTable where
  nodup := List.nodup_nil
  key_eq _ hentry := (List.not_mem_nil hentry).elim
  canonical _ hentry := (List.not_mem_nil hentry).elim

variable {registry : Registry} {handler : Handler}

theorem IsTable.insert (h : registry.IsTable) (hhandler : handler.canonical? = some handler) :
    (registry.insert handler).IsTable where
  nodup := by
    have hrest : ((registry.entries.filter (·.1 != handler.key)).map (·.1)).Nodup :=
      h.nodup.sublist (List.filter_sublist.map _)
    refine List.nodup_cons.mpr ⟨?_, hrest⟩
    intro hmem
    obtain ⟨entry, hentry, hkey⟩ := List.mem_map.mp hmem
    exact bne_iff_ne.mp (List.mem_filter.mp hentry).2 hkey
  key_eq := by
    intro entry hentry
    rcases List.mem_cons.mp hentry with rfl | hentry
    · rfl
    · exact h.key_eq entry (List.mem_filter.mp hentry).1
  canonical := by
    intro entry hentry
    rcases List.mem_cons.mp hentry with rfl | hentry
    · exact hhandler
    · exact h.canonical entry (List.mem_filter.mp hentry).1

theorem IsTable.insertAll (h : registry.IsTable) {handlers : List Handler}
    (hhandlers : ∀ handler ∈ handlers, handler.canonical? = some handler) :
    (registry.insertAll handlers).IsTable := by
  induction handlers generalizing registry with
  | nil => exact h
  | cons handler handlers ih =>
    exact ih (h.insert (hhandlers handler List.mem_cons_self))
      fun handler hmem => hhandlers handler (List.mem_cons_of_mem _ hmem)

/-- What stands in a registry is found by its own path. -/
theorem IsTable.get?_of_mem (h : registry.IsTable) (hmem : handler ∈ registry.handlers) :
    registry.get? handler.path = some handler := by
  obtain ⟨entry, hentry, rfl⟩ := List.mem_map.mp (List.mem_mergeSort.mp hmem)
  have hpath : HandlerPath.canonical? entry.2.path = some entry.2.path := by
    obtain ⟨path, hpath, hsame⟩ := Option.map_eq_some_iff.mp (h.canonical entry hentry)
    rw [hpath, ← hsame]
  have hlookup := Keyed.lookup_of_mem h.nodup hentry
  rw [h.key_eq entry hentry] at hlookup
  rw [get?, hpath, Option.bind_some]
  exact hlookup

theorem mem_keys_iff : key ∈ registry.entries.map (·.1) ↔
    (registry.entries.lookup key).isSome := by
  constructor
  · intro hkey
    obtain ⟨entry, hentry, rfl⟩ := List.mem_map.mp hkey
    rw [Option.isSome_iff_ne_none]
    intro hnone
    exact absurd (List.lookup_eq_none_iff.mp hnone entry hentry) (by simp)
  · intro hfound
    obtain ⟨handler, hlookup⟩ := Option.isSome_iff_exists.mp hfound
    obtain ⟨before, after, hsplit, -⟩ := List.lookup_eq_some_iff.mp hlookup
    rw [hsplit, List.map_append, List.map_cons]
    exact List.mem_append_right _ List.mem_cons_self

theorem size_insertAll (handlers : List Handler)
    (h : ∀ handler ∈ handlers, handler.canonical? = some handler) :
    (empty.insertAll handlers).size = (handlers.map Handler.key).dedup.length := by
  have hkeys : ∀ key, key ∈ (empty.insertAll handlers).entries.map (·.1) ↔
      key ∈ (handlers.map Handler.key).dedup := by
    intro key
    rw [mem_keys_iff, lookup_insertAll, List.mem_dedup]
    simp [empty, List.find?_isSome]
  have hnodup := (isTable_empty.insertAll h).nodup
  have hperm := (List.perm_ext_iff_of_nodup hnodup (List.nodup_dedup _)).mpr hkeys
  rw [← hperm.length_eq, List.length_map]
  rfl

end Entries

end Registry

/-- A registry after any calls, from the empty one and so also from that with the handlers of the
runtime. A path that is not valid finds nothing; any other finds the last handler that was stored
under its key, as declared and with its path canonical. There are as many entries as keys, and
each handler is found by its own path. A call that fails stores nothing, or of a manifest the
entries in front of the one that fails. White space around a path, backslashes in front of it,
the choice of separators and the case of ASCII letters make no difference. -/
theorem registry_keeps_last_stored (calls : List Registration) :
    let registry := Registry.empty.performAll calls
    let stored := calls.flatMap Registration.stored
    (∀ path, HandlerPath.canonical? path = none → registry.get? path = none) ∧
    (∀ path canonical, HandlerPath.canonical? path = some canonical →
      registry.get? path =
        stored.reverse.find? fun handler => handler.key = HandlerPath.key canonical) ∧
    registry.size = (stored.map Handler.key).dedup.length ∧
    (∀ handler ∈ registry.handlers, registry.get? handler.path = some handler) ∧
    (∀ handler, HandlerPath.canonical? handler.path = none →
      registry.register handler = .error (.ofCause (.invalidTarget handler.path)) ∧
      registry.perform (.single handler) = registry) ∧
    (∀ valid, (∀ handler ∈ valid, (HandlerPath.canonical? handler.path).isSome) →
      registry.extend valid = (registry.performAll (valid.map .single), none) ∧
      ∀ bad rest, HandlerPath.canonical? bad.path = none →
        registry.extend (valid ++ bad :: rest) =
          (registry.performAll (valid.map .single),
            some (.ofCause (.invalidTarget bad.path)))) ∧
    Registry.builtin = Registry.empty.performAll [.single Handler.html] ∧
    ∀ path other before after count, HandlerPath.IsBare path →
      List.Forall₂ HandlerPath.SameMeaning path other → before.isBlank → after.isBlank →
      registry.get? (before ++ (List.replicate count pathSeparator ++ other) ++ after) =
        registry.get? path := by
  intro registry stored
  have hregistry : registry = Registry.empty.insertAll stored :=
    Registry.performAll_eq Registry.empty calls
  have hstored : ∀ handler ∈ stored, handler.canonical? = some handler := by
    intro handler hmem
    obtain ⟨call, -, hcall⟩ := List.mem_flatMap.mp hmem
    exact Registration.canonical?_of_mem_stored hcall
  have htable : registry.IsTable := by
    rw [hregistry]
    exact Registry.isTable_empty.insertAll hstored
  refine ⟨?_, ?_, ?_, ?_, ?_, ?_, ?_, ?_⟩
  · intro path hpath
    rw [Registry.get?, hpath, Option.bind_none]
  · intro path canonical hpath
    rw [Registry.get?, hpath, Option.bind_some, hregistry, Registry.lookup_insertAll]
    exact Option.or_none
  · rw [hregistry, Registry.size_insertAll stored hstored]
  · exact fun handler hmem => htable.get?_of_mem hmem
  · intro handler hpath
    have hinvalid : handler.canonical? = none := Option.map_eq_none_iff.mpr hpath
    refine ⟨Registry.register_of_none hinvalid registry, ?_⟩
    rw [Registry.perform_single, hinvalid]
    rfl
  · intro valid hvalid
    have hvalid : ∀ handler ∈ valid, handler.canonical?.isSome := fun handler hmem => by
      rw [Handler.canonical?, Option.isSome_map]
      exact hvalid handler hmem
    constructor
    · have hextend := Registry.extend_append hvalid registry []
      rwa [List.append_nil] at hextend
    · intro bad rest hbad
      rw [Registry.extend_append hvalid, Registry.extend_of_none (Option.map_eq_none_iff.mpr hbad)]
  · have hhtml : Handler.html.canonical? = some Handler.html := by decide +kernel
    rw [Registry.performAll_eq, List.flatMap_singleton, Registration.stored, hhtml]
    rfl
  · intro path other before after count hbare hother hbefore hafter
    exact registry.get?_alike hbare hother hbefore hafter count

end TemplateCompiler
