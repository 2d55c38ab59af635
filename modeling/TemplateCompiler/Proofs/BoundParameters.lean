import TemplateCompiler.Call.Resolve
import TemplateCompiler.Component.Construction
import TemplateCompiler.Proofs.Collecting

/-!
# Parameters that calls bind

Arguments are bound by their position, but calls are checked by the number of parameters that are
required, wherever these stand. The check is that of positions just for the signatures in which the
required parameters come first. A required parameter after an optional one may go without a value.
-/
namespace TemplateCompiler

namespace Signature

variable {signature : Signature} {count : Nat}

/-- Every argument of a call has a parameter, and every parameter behind them may be left out. -/
structure Binds (signature : Signature) (count : Nat) : Prop where
  count_le : count ≤ signature.length
  left_out : ∀ param ∈ signature.drop count, param.optional

def RequiredFirst (signature : Signature) : Prop :=
  signature.Pairwise fun first later => first.optional → later.optional

instance (signature : Signature) (count : Nat) : Decidable (signature.Binds count) :=
  decidable_of_iff
    (count ≤ signature.length ∧ ∀ param ∈ signature.drop count, param.optional)
    ⟨fun h => ⟨h.1, h.2⟩, fun h => ⟨h.count_le, h.left_out⟩⟩

instance (signature : Signature) : Decidable signature.RequiredFirst :=
  inferInstanceAs (Decidable (List.Pairwise _ signature))

theorem required_append (first second : Signature) :
    required (first ++ second) = required first + required second :=
  List.countP_append

theorem required_eq_zero_iff : signature.required = 0 ↔ ∀ param ∈ signature, param.optional := by
  simp [required, List.countP_eq_zero]

theorem required_eq_length_iff :
    signature.required = signature.length ↔ ∀ param ∈ signature, param.optional = false := by
  simp [required, List.countP_eq_length]

theorem required_le_length (signature : Signature) : signature.required ≤ signature.length :=
  List.countP_le_length

theorem required_take_add_drop (signature : Signature) (count : Nat) :
    required (signature.take count) + required (signature.drop count) = signature.required := by
  rw [← required_append, List.take_append_drop]

/-- So many arguments are accepted if the optional parameters that get one are no fewer than the
required ones that get none. -/
theorem accepts_iff : signature.accepts count ↔ count ≤ signature.length ∧
    required (signature.drop count) ≤ (signature.take count).countP (·.optional) := by
  have hsplit := signature.required_take_add_drop count
  have htaken : (signature.take count).countP (·.optional) + required (signature.take count) =
      (signature.take count).length := by
    rw [required, List.length_eq_countP_add_countP (·.optional)]
    congr 2
    funext param
    simp
  rw [List.length_take] at htaken
  simp only [accepts, Bool.and_eq_true, decide_eq_true_eq]
  omega

theorem required_le_of_left_out (h : ∀ param ∈ signature.drop count, param.optional) :
    signature.required ≤ count := by
  have hsplit := signature.required_take_add_drop count
  have hnone := required_eq_zero_iff.mpr h
  have htaken := required_le_length (signature.take count)
  rw [List.length_take] at htaken
  omega

theorem RequiredFirst.left_out (h : signature.RequiredFirst) (hcount : signature.required ≤ count) :
    ∀ param ∈ signature.drop count, param.optional := by
  induction signature generalizing count with
  | nil => simp
  | cons first later ih =>
    obtain ⟨hfirst, hlater⟩ := List.pairwise_cons.mp h
    cases hoptional : first.optional with
    | true =>
      intro param hparam
      rcases List.mem_cons.mp (List.mem_of_mem_drop hparam) with rfl | hparam
      · exact hoptional
      · exact hfirst param hparam hoptional
    | false =>
      have hrequired : required (first :: later) = required later + 1 := by
        simp [required, hoptional]
      obtain ⟨count, rfl⟩ : ∃ count', count = count' + 1 := ⟨count - 1, by omega⟩
      exact ih hlater (by omega)

theorem requiredFirst_of_left_out
    (h : ∀ param ∈ signature.drop signature.required, param.optional) :
    signature.RequiredFirst := by
  have hsplit := signature.required_take_add_drop signature.required
  have hlength : (signature.take signature.required).length = signature.required :=
    List.length_take_of_le signature.required_le_length
  have hfirst : ∀ param ∈ signature.take signature.required, param.optional = false := by
    apply required_eq_length_iff.mp
    rw [hlength]
    exact Nat.add_right_cancel (hsplit.trans (by rw [required_eq_zero_iff.mpr h, Nat.add_zero]))
  unfold RequiredFirst
  rw [← List.take_append_drop signature.required signature, List.pairwise_append]
  refine ⟨List.pairwise_of_forall_mem_list ?_, List.pairwise_of_forall_mem_list ?_, ?_⟩
  · intro first hparam _ _ hoptional
    rw [hfirst first hparam] at hoptional
    cases hoptional
  · exact fun _ _ later hlater _ => h later hlater
  · exact fun _ _ later hlater _ => h later hlater

theorem RequiredFirst.accepts_iff_binds (h : signature.RequiredFirst) :
    signature.accepts count ↔ signature.Binds count := by
  simp only [accepts, Bool.and_eq_true, decide_eq_true_eq]
  exact ⟨fun ⟨hrequired, hlength⟩ => ⟨hlength, h.left_out hrequired⟩,
    fun hbinds => ⟨required_le_of_left_out hbinds.left_out, hbinds.count_le⟩⟩

/-- The check is that of positions for all numbers of arguments, or the signature is to blame. -/
theorem forall_accepts_iff_binds_iff :
    (∀ count, signature.accepts count ↔ signature.Binds count) ↔ signature.RequiredFirst := by
  constructor
  · intro h
    apply requiredFirst_of_left_out
    have haccepts : signature.accepts signature.required := by
      simp [accepts, required_le_length]
    exact ((h signature.required).mp haccepts).left_out
  · exact fun h _ => h.accepts_iff_binds

end Signature

theorem Head.exists_of_resolve {environment : Environment} {context : Context} {head : Head}
    {extra : Nat} {call : ResolvedCall} (h : head.resolve environment context extra = .ok call) :
    ∃ resolved signature,
      environment.resolveAlias context (head.qualifierName.getD []) = .ok resolved ∧
      resolved.handler.method? (Name.camel head.method) = some signature ∧
      signature.required ≤ head.argumentCount + extra := by
  unfold resolve at h
  split at h
  · cases h
  · rename_i resolved hresolved
    simp only at h
    split at h
    · cases h
    · rename_i signature hmethod
      split at h
      · cases h
      · rename_i hrequired
        exact ⟨resolved, signature, hresolved, hmethod, Nat.not_lt.mp hrequired⟩

theorem Construction.exists_of_mixinCode {environment : Environment} {context : Context}
    {qualifier name value code : Text}
    (h : mixinCode environment context qualifier name value = .ok code) :
    ∃ mixin signature, environment.resolve context qualifier name = .ok mixin ∧
      mixin.handler.constructor = some signature ∧ Signature.accepts signature 1 := by
  unfold mixinCode at h
  split at h
  · cases h
  · rename_i mixin hresolved
    cases hconstructor : mixin.handler.constructor with
    | none =>
      rw [hconstructor] at h
      cases h
    | some signature =>
      rw [hconstructor, Option.any_some] at h
      split at h
      · rename_i haccepts
        exact ⟨mixin, signature, hresolved, hconstructor, haccepts⟩
      · cases h

/-- The check of a signature counts: a number of arguments is accepted if there are no more required
parameters without one than optional parameters with one. That no parameter without an argument is
required, comes to the same for all numbers exactly if no required parameter comes after an optional
one. Then a call that is resolved leaves no required parameter of its method without a value, and a
mixin leaves none of its constructor. -/
theorem checked_calls_bind_parameters (signature : Signature) (environment : Environment)
    (context : Context) :
    (∀ count, signature.accepts count ↔
      count ≤ signature.length ∧ Signature.required (signature.drop count) ≤
        (signature.take count).countP (·.optional)) ∧
    ((∀ count, signature.accepts count ↔ signature.Binds count) ↔ signature.RequiredFirst) ∧
    (∀ (head : Head) extra call,
      head.resolve environment context extra = .ok call → ∃ resolved parameters,
        environment.resolveAlias context (head.qualifierName.getD []) = .ok resolved ∧
        resolved.handler.method? (Name.camel head.method) = some parameters ∧
        (parameters.RequiredFirst →
          ∀ param ∈ parameters.drop (head.argumentCount + extra), param.optional)) ∧
    ∀ qualifier name value code,
      Construction.mixinCode environment context qualifier name value = .ok code →
      ∃ mixin parameters, environment.resolve context qualifier name = .ok mixin ∧
        mixin.handler.constructor = some parameters ∧
        (parameters.RequiredFirst → parameters.Binds 1) := by
  refine ⟨fun _ => Signature.accepts_iff, Signature.forall_accepts_iff_binds_iff, ?_, ?_⟩
  · intro head extra call h
    obtain ⟨resolved, parameters, hresolved, hmethod, hrequired⟩ := Head.exists_of_resolve h
    exact ⟨resolved, parameters, hresolved, hmethod, fun hfirst => hfirst.left_out hrequired⟩
  · intro qualifier name value code h
    obtain ⟨mixin, parameters, hmixin, hconstructor, haccepts⟩ :=
      Construction.exists_of_mixinCode h
    exact ⟨mixin, parameters, hmixin, hconstructor,
      fun hfirst => hfirst.accepts_iff_binds.mp haccepts⟩

/-- A call with one argument for a method whose second parameter is optional. -/
theorem checked_calls_bind_parameters_of_greeting :
    let signature : Signature := [⟨"name".toList, false⟩, ⟨"greeting".toList, true⟩]
    let handler : Handler := ⟨['U'], none, [("greet".toList, signature)]⟩
    let environment : Environment := ⟨Registry.builtin.insert handler, ⟨{}, .pretty, true⟩⟩
    let context := Context.initial.add ⟨"u".toList, ['U'], true⟩
    let head : Head :=
      ⟨"@@".toList, some ("u".toList, '.'), "greet".toList, some ([], "('a, b')".toList)⟩
    signature.RequiredFirst ∧
      head.resolve environment context 0 = .ok ⟨"U".toList, "greet".toList⟩ ∧
      ∀ param ∈ signature.drop head.argumentCount, param.optional := by
  intro signature handler environment context head
  have hfirst : signature.RequiredFirst := by decide
  have hcall : (head.resolve environment context 0).toOption =
      some ⟨"U".toList, "greet".toList⟩ := by decide +kernel
  have hresolve := eq_ok_of_toOption hcall
  obtain ⟨resolved, parameters, hresolved, hmethod, hbound⟩ :=
    (checked_calls_bind_parameters signature environment context).2.2.1 head 0 _ hresolve
  have hsame : (environment.resolveAlias context (head.qualifierName.getD [])).toOption.bind
      (fun resolved => resolved.handler.method? (Name.camel head.method)) = some signature := by
    decide +kernel
  rw [hresolved] at hsame
  obtain rfl : parameters = signature := Option.some.inj (hmethod.symm.trans hsame)
  exact ⟨hfirst, hresolve, hbound hfirst⟩

/-- One argument is accepted for an optional parameter and a required one after it, by the signature
and in a call, although it goes to the optional one. -/
theorem call_leaves_required_parameter :
    let signature : Signature := [⟨"a".toList, true⟩, ⟨"b".toList, false⟩]
    let handler : Handler := ⟨['U'], some signature, [("g".toList, signature)]⟩
    let environment : Environment := ⟨Registry.builtin.insert handler, ⟨{}, .pretty, true⟩⟩
    let context := Context.initial.add ⟨"u".toList, ['U'], true⟩
    let head : Head := ⟨"@@".toList, some ("u".toList, '.'), "g".toList, some ([], "(1)".toList)⟩
    ¬(signature.accepts 1 ↔ 1 ≤ signature.length ∧ ∀ param ∈ signature.drop 1, param.optional) ∧
      head.argumentCount = 1 ∧
      (head.resolve environment context 0).toOption = some ⟨"U".toList, "g".toList⟩ ∧
      (⟨"b".toList, false⟩ : Param) ∈ signature.drop head.argumentCount := by
  decide +kernel

end TemplateCompiler
