import TemplateCompiler.Compiler

/-!
# Transparency of the cache

What a compiler keeps for a source is always what the source compiles to with the handlers and
options of the moment, so nobody can tell an answer from the cache from a compile. The invariant
is `Sound`. It holds after every sequence of requests, and also while several calls of `compile`
are under way at once, each between its look-up and the moment its result is kept.
-/
namespace TemplateCompiler

namespace Cache

@[simp] theorem find_fst (cache : Cache) (source : Text) :
    (cache.find source).1 = cache.entries.lookup source := by
  unfold find
  cases cache.entries.lookup source <;> rfl

@[simp] theorem find_entries (cache : Cache) (source : Text) :
    (cache.find source).2.entries = cache.entries := by
  unfold find
  cases cache.entries.lookup source <;> rfl

theorem mem_of_lookup {entries : List (Text × Text)} {source compiled : Text}
    (h : entries.lookup source = some compiled) : (source, compiled) ∈ entries := by
  obtain ⟨before, after, he, _⟩ := List.lookup_eq_some_iff.mp h
  simp [he]

theorem mem_insert {cache : Cache} {source compiled : Text} {entry : Text × Text}
    (h : entry ∈ (cache.insert source compiled).entries) :
    entry = (source, compiled) ∨ entry ∈ cache.entries := by
  rcases List.mem_cons.mp h with rfl | h
  · exact Or.inl rfl
  · exact Or.inr (List.mem_filter.mp h).1

end Cache

namespace Compiler

/-- Every result kept is that of its source, and a source that fails has none. -/
def Sound (compiler : Compiler) : Prop :=
  ∀ entry ∈ compiler.cache.entries,
    compileTemplate compiler.environment entry.1 = .ok entry.2

theorem sound_of_empty {compiler : Compiler} (h : compiler.cache.entries = []) :
    compiler.Sound := by
  intro entry hentry
  simp [h] at hentry

theorem sound_new (registry : Registry) (options : Options) : (new registry options).Sound :=
  sound_of_empty rfl

theorem sound_setRegistry (compiler : Compiler) (registry : Registry) :
    (compiler.setRegistry registry).Sound := sound_of_empty rfl

theorem sound_setOptions (compiler : Compiler) (options : Options) :
    (compiler.setOptions options).Sound := sound_of_empty rfl

@[simp] theorem lookup_environment (compiler : Compiler) (source : Text) :
    (compiler.lookup source).2.environment = compiler.environment := by
  unfold lookup
  split <;> rfl

@[simp] theorem lookup_entries (compiler : Compiler) (source : Text) :
    (compiler.lookup source).2.cache.entries = compiler.cache.entries := by
  unfold lookup
  split
  · exact Cache.find_entries compiler.cache source
  · rfl

@[simp] theorem store_environment (compiler : Compiler) (source compiled : Text) :
    (compiler.store source compiled).environment = compiler.environment := by
  unfold store
  split <;> rfl

theorem Sound.lookup {compiler : Compiler} (hsound : compiler.Sound) (source : Text) :
    (compiler.lookup source).2.Sound := by
  intro entry hentry
  rw [lookup_entries] at hentry
  rw [lookup_environment]
  exact hsound entry hentry

theorem Sound.of_lookup_eq {compiler : Compiler} (hsound : compiler.Sound)
    {source compiled : Text} (h : (compiler.lookup source).1 = some compiled) :
    compileTemplate compiler.environment source = .ok compiled := by
  unfold Compiler.lookup at h
  split at h
  · rw [Cache.find_fst] at h
    exact hsound (source, compiled) (Cache.mem_of_lookup h)
  · simp at h

theorem Sound.store {compiler : Compiler} (hsound : compiler.Sound) {source compiled : Text}
    (h : compileTemplate compiler.environment source = .ok compiled) :
    (compiler.store source compiled).Sound := by
  intro entry hentry
  rw [store_environment]
  unfold Compiler.store at hentry
  split at hentry
  · rcases Cache.mem_insert hentry with rfl | hentry
    · exact h
    · exact hsound entry hentry
  · exact hsound entry hentry

/-! ## One request after the other -/

inductive Request
  | compile (source : Text)
  | setRegistry (registry : Registry)
  | setOptions (options : Options)

/-- The handlers and options that hold after a request. -/
def Request.configure (environment : Environment) : Request → Environment
  | compile _ => environment
  | setRegistry registry => { environment with registry := registry }
  | setOptions options => { environment with options := options }

def perform (compiler : Compiler) : Request → Compiler
  | .compile source => (compiler.compile source).2
  | .setRegistry registry => compiler.setRegistry registry
  | .setOptions options => compiler.setOptions options

/-- A compile answers as if there were no cache, and keeps the invariant. -/
theorem Sound.compile {compiler : Compiler} (hsound : compiler.Sound) (source : Text) :
    (compiler.compile source).1 = compileTemplate compiler.environment source ∧
      (compiler.compile source).2.environment = compiler.environment ∧
      (compiler.compile source).2.Sound := by
  have hfound (compiled : Text) (h : (compiler.lookup source).1 = some compiled) :=
    hsound.of_lookup_eq h
  have hsound' := hsound.lookup source
  have henvironment := compiler.lookup_environment source
  unfold Compiler.compile
  rcases hl : compiler.lookup source with ⟨found, looked⟩
  simp only [hl] at hfound hsound' henvironment
  cases found with
  | some compiled => exact ⟨(hfound compiled rfl).symm, henvironment, hsound'⟩
  | none =>
    simp only [compileAnew, henvironment]
    cases hc : compileTemplate compiler.environment source with
    | error error => exact ⟨rfl, henvironment, hsound'⟩
    | ok compiled =>
      refine ⟨rfl, by simpa using henvironment, hsound'.store ?_⟩
      rw [henvironment, hc]

theorem Sound.perform {compiler : Compiler} (hsound : compiler.Sound) (request : Request) :
    (compiler.perform request).environment = request.configure compiler.environment ∧
      (compiler.perform request).Sound := by
  cases request with
  | compile source => exact (hsound.compile source).2
  | setRegistry registry => exact ⟨rfl, compiler.sound_setRegistry registry⟩
  | setOptions options => exact ⟨rfl, compiler.sound_setOptions options⟩

theorem Sound.performAll {compiler : Compiler} (hsound : compiler.Sound)
    (requests : List Request) :
    (requests.foldl Compiler.perform compiler).environment =
        requests.foldl Request.configure compiler.environment ∧
      (requests.foldl Compiler.perform compiler).Sound := by
  induction requests generalizing compiler with
  | nil => exact ⟨rfl, hsound⟩
  | cons request requests ih =>
    have hstep := hsound.perform request
    rw [List.foldl_cons, List.foldl_cons, ← hstep.1]
    exact ih hstep.2

/-! ## Calls that interleave -/

inductive Call
  /-- The source was looked up and not found. -/
  | missed (source : Text)
  /-- The source was compiled, and the result is not kept yet. -/
  | compiled (source result : Text)
  deriving DecidableEq

structure Answer where
  source : Text
  result : Except CompileError Text

/-- A compiler together with the calls under way on it. -/
structure Session where
  compiler : Compiler
  calls : List Call

inductive Move
  /-- A call begins with its look-up. -/
  | call (source : Text)
  /-- One of the calls under way goes on. -/
  | proceed (index : Nat)
  | setRegistry (registry : Registry)
  | setOptions (options : Options)

namespace Session

def start (registry : Registry) (options : Options) : Session := ⟨new registry options, []⟩

/-- Begins a call, which ends at once if the source is found. -/
def call (session : Session) (source : Text) : Session × Option Answer :=
  match session.compiler.lookup source with
  | (some compiled, compiler) => (⟨compiler, session.calls⟩, some ⟨source, .ok compiled⟩)
  | (none, compiler) => (⟨compiler, session.calls ++ [.missed source]⟩, none)

/-- Lets one of the calls under way take its next step. -/
def proceed (session : Session) (index : Nat) : Session × Option Answer :=
  match session.calls[index]? with
  | none => (session, none)
  | some (.missed source) =>
    match compileTemplate session.compiler.environment source with
    | .ok compiled =>
      (⟨session.compiler, session.calls.set index (.compiled source compiled)⟩, none)
    | .error error =>
      (⟨session.compiler, session.calls.eraseIdx index⟩, some ⟨source, .error error⟩)
  | some (.compiled source compiled) =>
    (⟨session.compiler.store source compiled, session.calls.eraseIdx index⟩,
      some ⟨source, .ok compiled⟩)

/-- The session after a move, and the answer of the call that it ends. Handlers and options
cannot be set while a call is under way. -/
def act (session : Session) : Move → Session × Option Answer
  | .call source => session.call source
  | .proceed index => session.proceed index
  | .setRegistry registry =>
    if session.calls = [] then (⟨session.compiler.setRegistry registry, []⟩, none)
    else (session, none)
  | .setOptions options =>
    if session.calls = [] then (⟨session.compiler.setOptions options, []⟩, none)
    else (session, none)

/-- The invariant of a session: the cache is sound, and so are the results still to be kept. -/
def Sound (session : Session) : Prop :=
  session.compiler.Sound ∧ ∀ source result, Call.compiled source result ∈ session.calls →
    compileTemplate session.compiler.environment source = .ok result

theorem sound_start (registry : Registry) (options : Options) : (start registry options).Sound :=
  ⟨sound_new registry options, by simp [start]⟩

theorem Sound.call {session : Session} (hsound : session.Sound) (source : Text) :
    (session.call source).1.Sound ∧ ∀ answer ∈ (session.call source).2,
      answer.result = compileTemplate session.compiler.environment answer.source := by
  have hfound (compiled : Text) (h : (session.compiler.lookup source).1 = some compiled) :=
    hsound.1.of_lookup_eq h
  have hlooked := hsound.1.lookup source
  have henvironment := session.compiler.lookup_environment source
  rcases hl : session.compiler.lookup source with ⟨found, looked⟩
  simp only [hl] at hfound hlooked henvironment
  cases found with
  | some compiled =>
    simp only [Session.call, hl]
    refine ⟨⟨hlooked, ?_⟩, ?_⟩
    · simpa only [henvironment] using hsound.2
    · simpa using (hfound compiled rfl).symm
  | none =>
    simp only [Session.call, hl]
    refine ⟨⟨hlooked, ?_⟩, by simp⟩
    simpa [henvironment] using hsound.2

theorem Sound.proceed {session : Session} (hsound : session.Sound) (index : Nat) :
    (session.proceed index).1.Sound ∧ ∀ answer ∈ (session.proceed index).2,
      answer.result = compileTemplate session.compiler.environment answer.source := by
  have hkept (source result : Text)
      (h : Call.compiled source result ∈ session.calls.eraseIdx index) :=
    hsound.2 source result (List.mem_of_mem_eraseIdx h)
  cases hcall : session.calls[index]? with
  | none =>
    simp only [Session.proceed, hcall]
    exact ⟨hsound, by simp⟩
  | some call =>
    cases call with
    | missed source =>
      cases hc : compileTemplate session.compiler.environment source with
      | error error =>
        simp only [Session.proceed, hcall, hc]
        exact ⟨⟨hsound.1, hkept⟩, by simp [hc]⟩
      | ok compiled =>
        simp only [Session.proceed, hcall, hc]
        refine ⟨⟨hsound.1, ?_⟩, by simp⟩
        intro other result h
        rcases List.mem_or_eq_of_mem_set h with h | h
        · exact hsound.2 other result h
        · cases h
          exact hc
    | compiled source compiled =>
      have hc := hsound.2 source compiled (List.mem_of_getElem? hcall)
      simp only [Session.proceed, hcall]
      refine ⟨⟨hsound.1.store hc, ?_⟩, by simp [hc]⟩
      simpa only [store_environment] using hkept

theorem Sound.act {session : Session} (hsound : session.Sound) (move : Move) :
    (session.act move).1.Sound ∧ ∀ answer ∈ (session.act move).2,
      answer.result = compileTemplate session.compiler.environment answer.source := by
  cases move with
  | call source => exact hsound.call source
  | proceed index => exact hsound.proceed index
  | setRegistry registry =>
    by_cases h : session.calls = []
    · simp only [Session.act, if_pos h]
      exact ⟨⟨session.compiler.sound_setRegistry registry, by simp⟩, by simp⟩
    · simp only [Session.act, if_neg h]
      exact ⟨hsound, by simp⟩
  | setOptions options =>
    by_cases h : session.calls = []
    · simp only [Session.act, if_pos h]
      exact ⟨⟨session.compiler.sound_setOptions options, by simp⟩, by simp⟩
    · simp only [Session.act, if_neg h]
      exact ⟨hsound, by simp⟩

/-- The session after a sequence of moves, which decides how the calls interleave. -/
def run (session : Session) (moves : List Move) : Session :=
  moves.foldl (fun session move => (session.act move).1) session

theorem Sound.run {session : Session} (hsound : session.Sound) (moves : List Move) :
    (session.run moves).Sound := by
  induction moves generalizing session with
  | nil => exact hsound
  | cons move moves ih => exact ih (hsound.act move).1

end Session

/-- No answer of a compiler depends on its cache: neither when one request follows the other nor
when calls interleave. -/
theorem compile_eq_compileTemplate (registry : Registry) (options : Options) :
    (∀ (requests : List Request) (source : Text),
      let compiler := requests.foldl perform (new registry options)
      let environment := requests.foldl Request.configure ⟨registry, options⟩
      (compiler.compile source).1 = compileTemplate environment source ∧
        ∀ entry ∈ compiler.cache.entries,
          compileTemplate environment entry.1 = .ok entry.2) ∧
    (∀ (moves : List Move) (move : Move),
      let session := (Session.start registry options).run moves
      (∀ answer ∈ (session.act move).2,
          answer.result = compileTemplate session.compiler.environment answer.source) ∧
        ∀ entry ∈ session.compiler.cache.entries,
          compileTemplate session.compiler.environment entry.1 = .ok entry.2) := by
  constructor
  · intro requests source
    obtain ⟨henvironment, hsound⟩ := (sound_new registry options).performAll requests
    refine ⟨by rw [(hsound.compile source).1, henvironment]; rfl, ?_⟩
    intro entry hentry
    rw [← hsound entry hentry, henvironment]
    rfl
  · intro moves move
    have hsound := (Session.sound_start registry options).run moves
    exact ⟨(hsound.act move).2, hsound.1⟩

/-- Of two calls with one source the second may miss what the first is about to keep. -/
example :
    let session := (Session.start Registry.builtin { mode := .compact }).run
      [.call ['a'], .call ['a'], .proceed 0, .proceed 0]
    session.calls = [.missed ['a']] ∧ session.compiler.cache.entries = [(['a'], ['a'])] := by
  decide +kernel

end Compiler

end TemplateCompiler
