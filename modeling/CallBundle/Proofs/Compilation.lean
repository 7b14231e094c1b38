import CallBundle.Proofs.Coercion
import CallBundle.Source

/-!
Compiling a call to an action: what collaborators are asked, in which order, and which of its stages
decides the result. Main statement: `compiles_iff_action`.
-/

namespace CallBundle

namespace Call

variable {σ : Type}

/-- The signature can be read, and there are as many parameters as it has inputs. -/
def HasSignature (call : Call σ) (signature : Signature) : Prop :=
  Signature.ofText call.signature = .ok signature ∧ call.params.length = signature.inputs.length

/-- The stages of compiling a call, as far as it gets: what collaborators are asked, the result, and
the state that is left. The signature and the number of parameters come before all that is asked,
the target before the parameters, and encoding after them. -/
inductive Compiles (call : Call σ) (s : σ) : List Event → Except Failure Action → σ → Prop
  | badSignature {e : Failure} :
      Signature.ofText call.signature = .error e → Compiles call s [] (.error e) s
  | badCount {signature : Signature} :
      Signature.ofText call.signature = .ok signature →
      call.params.length ≠ signature.inputs.length →
        Compiles call s [] (.error (.arityMismatch (.parameters signature.text)
          signature.inputs.length call.params.length)) s
  | badTarget {signature : Signature} {trace : List Event} {e : Failure} {s' : σ} :
      call.HasSignature signature → call.context.Locates call.target s trace (.error e) s' →
        Compiles call s trace (.error e) s'
  | badParam {signature : Signature} {target : Address} {trace trace' : List Event} {e : Failure}
      {s' s'' : σ} :
      call.HasSignature signature → call.context.Locates call.target s trace (.ok target) s' →
      call.context.Walk (signature.inputs.zip call.params) s' trace' (some e) s'' →
        Compiles call s (trace ++ trace') (.error e) s''
  | encoded {signature : Signature} {target : Address} {trace trace' : List Event}
      {vs : List Abi.Value} {s' s'' : σ} :
      call.HasSignature signature → call.context.Locates call.target s trace (.ok target) s' →
      call.context.Walk (signature.inputs.zip call.params) s' trace' none s'' →
      (call.context.coerceAll signature.text signature.inputs call.params s').result = .ok vs →
        Compiles call s (trace ++ trace')
          ((Abi.encodeCall signature vs).map (⟨target, ·, call.value⟩)) s''

theorem action_of_hasSignature {call : Call σ} {signature : Signature}
    (h : call.HasSignature signature) :
    call.action = do
      let target ← call.context.entity call.target
      let vs ← call.context.coerceAll signature.text signature.inputs call.params
      let data ← Run.ofExcept (Abi.encodeCall signature vs)
      Run.log (.callEncoded signature.text target data.length)
      return ⟨target, data, call.value⟩ := by
  rw [action, h.1, Run.ofExcept_ok, pure_bind, if_pos h.2]

/-- Encoding asks nothing and leaves the state as it is. -/
theorem encode_apply (signature : Signature) (target : Address) (vs : List Abi.Value)
    (value : Uint256) (s : σ) :
    ∃ events, requests events = [] ∧
      (do
        let data ← Run.ofExcept (Abi.encodeCall signature vs)
        Run.log (.callEncoded signature.text target data.length)
        return ⟨target, data, value⟩ : Run σ Action) s =
      ⟨(Abi.encodeCall signature vs).map (⟨target, ·, value⟩), s, events⟩ := by
  cases Abi.encodeCall signature vs with
  | error e => exact ⟨[], rfl, rfl⟩
  | ok data => exact ⟨[.log (.callEncoded signature.text target data.length)], rfl, rfl⟩

/-- A run of a call goes through its stages. -/
theorem action_compiles (call : Call σ) (s : σ) :
    call.Compiles s (requests (call.action s).events) (call.action s).result
      (call.action s).state := by
  cases hsignature : Signature.ofText call.signature with
  | error e =>
    rw [action, hsignature]
    exact .badSignature hsignature
  | ok signature =>
    by_cases hcount : call.params.length = signature.inputs.length
    · have h : call.HasSignature signature := ⟨hsignature, hcount⟩
      have htarget := call.context.locates_entity call.target s
      rw [action_of_hasSignature h]
      rcases hentity : call.context.entity call.target s with ⟨_ | target, s', events⟩
      · rw [hentity] at htarget
        rw [Run.bind_of_error hentity]
        exact .badTarget h htarget
      · have hparams := call.context.walks_coerceAll signature.text hcount s'
        rw [hentity] at htarget
        rw [Run.bind_of_ok hentity]
        rcases hcoerce : call.context.coerceAll signature.text signature.inputs call.params s' with
          ⟨_ | vs, s'', events'⟩
        · rw [hcoerce] at hparams
          rw [Run.bind_of_error hcoerce, Outcome.after, requests_append]
          exact .badParam h htarget hparams
        · rw [hcoerce] at hparams
          obtain ⟨events'', hnone, hencode⟩ := encode_apply signature target vs call.value s''
          rw [Run.bind_of_ok hcoerce, hencode]
          simp only [Outcome.after, requests_append, hnone, List.append_nil]
          exact .encoded h htarget hparams (congrArg Outcome.result hcoerce)
    · rw [action, hsignature, Run.ofExcept_ok, pure_bind, if_neg hcount]
      exact .badCount hsignature hcount

/-- No other stages than those of its run are stages of a call. -/
theorem Compiles.exists_action {call : Call σ} {s s' : σ} {trace : List Event}
    {result : Except Failure Action} (h : call.Compiles s trace result s') :
    ∃ events, call.action s = ⟨result, s', events⟩ ∧ requests events = trace := by
  cases h with
  | badSignature hsignature =>
    rw [action, hsignature]
    exact ⟨[], rfl, rfl⟩
  | badCount hsignature hcount =>
    rw [action, hsignature, Run.ofExcept_ok, pure_bind, if_neg hcount]
    exact ⟨[], rfl, rfl⟩
  | badTarget h htarget =>
    obtain ⟨events, hentity, rfl⟩ := htarget.exists_entity
    rw [action_of_hasSignature h, Run.bind_of_error hentity]
    exact ⟨events, rfl, rfl⟩
  | @badParam signature _ _ _ _ _ _ h htarget hparams =>
    obtain ⟨events, hentity, rfl⟩ := htarget.exists_entity
    obtain ⟨_ | vs, events', hcoerce, hfailure, rfl⟩ :=
      hparams.exists_coerceAll h.2 signature.text
    · cases hfailure
      rw [action_of_hasSignature h, Run.bind_of_ok hentity, Run.bind_of_error hcoerce]
      exact ⟨events ++ events', rfl, requests_append ..⟩
    · cases hfailure
  | @encoded signature target _ _ vs _ _ h htarget hparams hvs =>
    obtain ⟨events, hentity, rfl⟩ := htarget.exists_entity
    obtain ⟨_, events', hcoerce, -, rfl⟩ := hparams.exists_coerceAll h.2 signature.text
    rw [hcoerce] at hvs
    cases hvs
    obtain ⟨events'', hnone, hencode⟩ := encode_apply signature target vs call.value _
    rw [action_of_hasSignature h, Run.bind_of_ok hentity, Run.bind_of_ok hcoerce, hencode]
    refine ⟨events ++ (events' ++ events''), rfl, ?_⟩
    rw [requests_append, requests_append, hnone, List.append_nil]

/-- The stages of a call say just what it asks of its collaborators, what it results in, and which
state it leaves. -/
theorem compiles_iff_action (call : Call σ) (s : σ) (trace : List Event)
    (result : Except Failure Action) (s' : σ) :
    call.Compiles s trace result s' ↔
      requests (call.action s).events = trace ∧ (call.action s).result = result ∧
        (call.action s).state = s' := by
  constructor
  · intro h
    obtain ⟨events, hrun, htrace⟩ := h.exists_action
    rw [hrun]
    exact ⟨htrace, rfl, rfl⟩
  · rintro ⟨rfl, rfl, rfl⟩
    exact action_compiles call s

end Call

end CallBundle
