import Mathlib
import CallBundle.Proofs.Compilation
import CallBundle.Proofs.Origin
import CallBundle.Proofs.Signature

/-!
Where failures of format come from. A signature that cannot be read and a wrong number of parameters
are found before anything is asked, while the length of a list is looked at only by the encoder. Main
statement: `format_failure_asks_nothing_unless_wrongLength`.
-/

namespace CallBundle

variable {σ : Type}

theorem Failure.isFormat_of_isCoercion {e : Failure} (h : e.isCoercion) : e.isFormat = false := by
  cases e with
  | invalidSignature | unsupportedType | arityMismatch => cases h
  | _ => rfl

namespace Abi

theorem failure?_encodeCall {signature : Signature} {vs : List Value}
    (h : signature.inputs.length = vs.length) :
    failure? (encodeCall signature vs) =
      (tupleSites signature.inputs vs (.ofRoot "arg")).findSome? Site.fault? := by
  rw [encodeCall, if_pos h, failure?_bind_pure, failure?_encodeTuple h]

end Abi

theorem Context.length_of_coerceAll {ctx : Context σ} {signature : String} {tys : List Abi.Ty}
    {ps : List (Param σ)} {s : σ} {vs : List Abi.Value}
    (h : (ctx.coerceAll signature tys ps s).result = .ok vs) : tys.length = vs.length := by
  rw [coerceAll] at h
  split at h
  case isFalse => cases h
  case isTrue hlength =>
    have hvalues : List.Forall₂ (fun (_ : Visit σ) (_ : Abi.Value) => True) (tys.zip ps) vs :=
      Run.Yields.mapM (fun _ _ _ _ _ => trivial) s vs h
    rw [← hvalues.length_eq, List.length_zip, hlength, Nat.min_self]

namespace Call

/-- If the directory itself never fails with a failure of format, a call that does so has asked
nothing, or has read all its parameters and one of them holds a list that is not as long as its type
says. -/
theorem format_failure_asks_nothing_unless_wrongLength {call : Call σ} {s : σ} {e : Failure}
    (hdirectory : ∀ e, call.context.Answers e → e.isFormat = false)
    (hresult : (call.action s).result = .error e) (hformat : e.isFormat) :
    requests (call.action s).events = [] ∨
      ∃ signature s' vs, call.HasSignature signature ∧
        (call.context.coerceAll signature.text signature.inputs call.params s').result = .ok vs ∧
        ∃ site ∈ Abi.tupleSites signature.inputs vs (.ofRoot "arg"), site.WrongLength e := by
  have hread : ¬ (e.isCoercion ∨ call.context.Answers e) := by
    rintro (hcoercion | hanswer)
    · exact absurd hformat (by simp [Failure.isFormat_of_isCoercion hcoercion])
    · exact absurd hformat (by simp [hdirectory e hanswer])
  have hstages := call.action_compiles s
  rw [hresult] at hstages
  generalize requests (call.action s).events = trace at hstages ⊢
  generalize (call.action s).state = s' at hstages
  generalize hfailed : Except.error e = result at hstages
  cases hstages with
  | badSignature | badCount => exact .inl rfl
  | badTarget _ htarget =>
    cases hfailed
    exact absurd htarget.failure_origin hread
  | badParam _ _ hparams =>
    cases hfailed
    exact absurd hparams.failure_origin hread
  | @encoded signature _ _ _ vs _ _ h _ _ hvs =>
    have hfault := Abi.failure?_encodeCall (Context.length_of_coerceAll hvs)
    rw [← failure?_map, ← hfailed, failure?_error] at hfault
    obtain ⟨site, hsite, he⟩ := List.exists_of_findSome?_eq_some hfault.symm
    have hproper := Abi.proper_of_mem_tupleSites (Signature.proper_of_ofText h.1) vs _ site hsite
    exact .inr ⟨signature, _, vs, h, hvs, site, hsite,
      Abi.Site.wrongLength_of_isFormat hproper he hformat⟩

theorem format_failure_asks_nothing_unless_wrongLength_deferred :
    let call : Call Nat :=
      { context := ⟨18, some ⟨fun _ n => (.ok .zero, n + 1)⟩⟩
        target := .identifier "alice"
        signature := "f(bool[3][],string)"
        params := [.list [.list [], .deferred "flags" (fun _ => .list []) id], .string ""] }
    ∃ e, (∀ e, call.context.Answers e → e.isFormat = false) ∧
      (call.action 0).result = .error e ∧ e.isFormat = true ∧
      (requests (call.action 0).events = [] ∨
        ∃ signature s' vs, call.HasSignature signature ∧
          (call.context.coerceAll signature.text signature.inputs call.params s').result = .ok vs ∧
          ∃ site ∈ Abi.tupleSites signature.inputs vs (.ofRoot "arg"), site.WrongLength e) := by
  intro call
  have hdirectory : ∀ e, call.context.Answers e → e.isFormat = false := by
    rintro e ⟨_, _, _, _, ⟨⟩, ⟨⟩⟩
  have hfailure : (failure? (call.action 0).result).map Failure.isFormat = some true := by
    decide +kernel
  obtain ⟨e, he, hformat⟩ := Option.map_eq_some_iff.mp hfailure
  have hresult := failure?_eq_some_iff.mp he
  exact ⟨e, hdirectory, hresult, hformat,
    format_failure_asks_nothing_unless_wrongLength hdirectory hresult hformat⟩

/-- A failure of format may come after a look-up, where a list is too short. -/
theorem format_failure_after_lookup :
    let call : Call Unit :=
      { context := ⟨18, some ⟨fun _ s => (.ok .zero, s)⟩⟩
        target := .address .zero
        signature := "f(address,uint256[2])"
        params := [.string "alice", .list [.uint 1]] }
    ∃ e, (∀ e, call.context.Answers e → e.isFormat = false) ∧
      (call.action ()).result = .error e ∧ e.isFormat = true ∧
      requests (call.action ()).events ≠ [] := by
  intro call
  have hdirectory : ∀ e, call.context.Answers e → e.isFormat = false := by
    rintro e ⟨_, _, _, _, ⟨⟩, ⟨⟩⟩
  have hfailure : (failure? (call.action ()).result).map Failure.isFormat = some true := by
    decide +kernel
  obtain ⟨e, he, hformat⟩ := Option.map_eq_some_iff.mp hfailure
  exact ⟨e, hdirectory, failure?_eq_some_iff.mp he, hformat,
    List.ne_nil_of_length_pos (by decide +kernel)⟩

end Call

end CallBundle
