import CallBundle.Forwarding
import CallBundle.Proofs.Event
import CallBundle.Proofs.Run

/-!
What is submitted of a plan, in which order, and what comes of it. The submitter may answer as it
likes and is described by its answers alone. What one pre-action does is said in `sendPre_cons` and
what all of them do in `exists_preSent`. Main statement: `submit_stops_at_first_failure`.
-/

namespace CallBundle

/-- An action sent to a submitter, and the answer. -/
structure Submission where
  action : Action
  gas : Gas
  answer : Except Failure Receipt

namespace Submission

/-- There is a receipt, and it reports success. -/
def Confirmed (x : Submission) : Prop :=
  ∃ receipt, x.answer = .ok receipt ∧ receipt.success = true

/-- What a plan makes of the answer to its pre-action of the given index. -/
def preResult (index : Nat) (x : Submission) : Except Failure Unit :=
  match x.answer with
  | .ok receipt =>
    if receipt.success then .ok () else .error (.submission (.reverted index receipt.txHash))
  | .error e => .error e

def preLine (index : Nat) (x : Submission) : LogLine :=
  match x.answer with
  | .ok receipt =>
    if receipt.success then .preActionConfirmed index receipt.txHash
    else .preActionReverted index receipt.txHash
  | .error e => .preActionFailed index e

def preEvents (index : Nat) (x : Submission) : List Event :=
  [.log (.preActionSubmit index x.action.target), .submit x.action x.gas, .log (x.preLine index)]

/-- The first is sent as the pre-action of the given index, the next as the one after it. -/
def allPreEvents : Nat → List Submission → List Event
  | _, [] => []
  | index, x :: history => x.preEvents index ++ allPreEvents (index + 1) history

def mainLine (x : Submission) : LogLine :=
  match x.answer with
  | .ok receipt => .mainActionConfirmed receipt.txHash receipt.success
  | .error e => .mainActionFailed e

def mainEvents (x : Submission) : List Event :=
  [.log (.mainActionSubmit x.action.target), .submit x.action x.gas, .log x.mainLine]

theorem preResult_eq_ok_iff {index : Nat} {x : Submission} :
    x.preResult index = .ok () ↔ x.Confirmed := by
  unfold preResult Confirmed
  cases x.answer with
  | error e => simp
  | ok receipt => simp

theorem submitted_allPreEvents (index : Nat) (history : List Submission) :
    submitted (allPreEvents index history) = history.map fun x => (x.action, x.gas) := by
  induction history generalizing index with
  | nil => rfl
  | cons x history ih =>
    rw [allPreEvents, submitted_append, ih]
    rfl

end Submission

variable {σ : Type}

/-- Sent the actions of the history one after another, beginning in one state and ending in
another, the submitter gives the answers of the history. -/
inductive Submitter.Answers (submitter : Submitter σ) : σ → List Submission → σ → Prop
  | nil (s : σ) : Answers submitter s [] s
  | cons {s s' s'' : σ} {x : Submission} {history : List Submission} :
      submitter.submit x.action x.gas s = (x.answer, s') → Answers submitter s' history s'' →
        Answers submitter s (x :: history) s''

theorem Submitter.Answers.concat {submitter : Submitter σ} {s s' s'' : σ} {x : Submission}
    {history : List Submission} (h : submitter.Answers s history s')
    (hx : submitter.submit x.action x.gas s' = (x.answer, s'')) :
    submitter.Answers s (history ++ [x]) s'' := by
  induction h with
  | nil s => exact .cons hx (.nil _)
  | cons hy _ ih => exact .cons hy (ih hx)

namespace Plan

section

variable {submitter : Submitter σ} {gas : Gas}

theorem send_apply {failed : Failure → LogLine} {action : Action} {s s' : σ}
    {answer : Except Failure Receipt} (h : submitter.submit action gas s = (answer, s')) :
    send submitter gas failed action s = match answer with
      | .ok receipt => ⟨.ok receipt, s', [.submit action gas]⟩
      | .error e => ⟨.error e, s', [.submit action gas, .log (failed e)]⟩ := by
  have hask : (Run.ask (.submit action gas) (submitter.submit action gas)).attempt s =
      ⟨.ok answer, s', [.submit action gas]⟩ := by
    simp only [Run.attempt, Run.ask, h]
  rw [send, Run.bind_of_ok hask]
  cases answer with
  | ok receipt => rfl
  | error e => rfl

/-- One pre-action: unless it is confirmed, it is the last. -/
theorem sendPre_cons {index : Nat} {x : Submission} {actions : List Action} {s s' : σ}
    (h : submitter.submit x.action x.gas s = (x.answer, s')) :
    sendPre submitter x.gas index (x.action :: actions) s = match x.preResult index with
      | .ok () => (sendPre submitter x.gas (index + 1) actions s').after (x.preEvents index)
      | .error e => ⟨.error e, s', x.preEvents index⟩ := by
  obtain ⟨action, gas, answer⟩ := x
  rw [sendPre, Run.log_bind_apply]
  cases answer with
  | error e =>
    rw [Run.bind_of_error (send_apply h)]
    rfl
  | ok receipt =>
    rw [Run.bind_of_ok (send_apply h)]
    cases hsuccess : receipt.success with
    | true =>
      simp only [Submission.preResult, Submission.preEvents, Submission.preLine, hsuccess, if_true]
      rfl
    | false =>
      simp only [Submission.preResult, Submission.preEvents, Submission.preLine, hsuccess,
        Bool.false_eq_true, if_false]
      rfl

/-- What becomes of pre-actions that are sent until one is not confirmed. -/
inductive PreSent (gas : Gas) : Nat → List Action → List Submission → Except Failure Unit → Prop
  | nil (index : Nat) : PreSent gas index [] [] (.ok ())
  | stopped {index : Nat} {x : Submission} {actions : List Action} {e : Failure} :
      x.gas = gas → x.preResult index = .error e →
        PreSent gas index (x.action :: actions) [x] (.error e)
  | confirmed {index : Nat} {x : Submission} {actions : List Action} {history : List Submission}
      {result : Except Failure Unit} :
      x.gas = gas → x.Confirmed → PreSent gas (index + 1) actions history result →
        PreSent gas index (x.action :: actions) (x :: history) result

theorem exists_preSent (submitter : Submitter σ) (gas : Gas) (index : Nat) (actions : List Action)
    (s : σ) :
    ∃ history result s', submitter.Answers s history s' ∧
      PreSent gas index actions history result ∧
      sendPre submitter gas index actions s =
        ⟨result, s', Submission.allPreEvents index history⟩ := by
  induction actions generalizing index s with
  | nil => exact ⟨[], .ok (), s, .nil s, .nil index, rfl⟩
  | cons action actions ih =>
    rcases hx : submitter.submit action gas s with ⟨answer, s'⟩
    let x : Submission := ⟨action, gas, answer⟩
    have hstep : sendPre submitter gas index (action :: actions) s = _ := sendPre_cons (x := x) hx
    cases hresult : x.preResult index with
    | error e =>
      refine ⟨[x], .error e, s', .cons hx (.nil s'), .stopped rfl hresult, ?_⟩
      rw [hstep, hresult]
      rfl
    | ok =>
      have hconfirmed : x.Confirmed := Submission.preResult_eq_ok_iff.mp hresult
      obtain ⟨history, result, s'', hanswers, hsent, hrun⟩ := ih (index + 1) s'
      refine ⟨x :: history, result, s'', .cons hx hanswers, .confirmed rfl hconfirmed hsent, ?_⟩
      rw [hstep, hresult]
      simp only [hrun, Outcome.after, Submission.allPreEvents, x]

theorem PreSent.gas_eq {index : Nat} {actions : List Action} {history : List Submission}
    {result : Except Failure Unit} (h : PreSent gas index actions history result) :
    ∀ x ∈ history, x.gas = gas := by
  induction h with
  | nil => exact List.forall_mem_nil _
  | stopped hgas _ => exact List.forall_mem_singleton.mpr hgas
  | confirmed hgas _ _ ih => exact List.forall_mem_cons.mpr ⟨hgas, ih⟩

theorem PreSent.map_action_of_ok {index : Nat} {actions : List Action} {history : List Submission}
    (h : PreSent gas index actions history (.ok ())) :
    history.map Submission.action = actions ∧ ∀ x ∈ history, x.Confirmed := by
  generalize hresult : Except.ok () = result at h
  induction h with
  | nil => exact ⟨rfl, List.forall_mem_nil _⟩
  | stopped => cases hresult
  | confirmed _ hx _ ih =>
    obtain ⟨hactions, hconfirmed⟩ := ih hresult
    exact ⟨congrArg _ hactions, List.forall_mem_cons.mpr ⟨hx, hconfirmed⟩⟩

theorem PreSent.exists_last_of_error {index : Nat} {actions : List Action}
    {history : List Submission} {e : Failure} (h : PreSent gas index actions history (.error e)) :
    ∃ before x, history = before ++ [x] ∧ (∀ y ∈ before, y.Confirmed) ∧
      x.preResult (index + before.length) = .error e ∧
      history.map Submission.action <+: actions := by
  generalize hresult : Except.error e = result at h
  induction h with
  | nil => cases hresult
  | stopped _ hx =>
    cases hresult
    exact ⟨[], _, rfl, List.forall_mem_nil _, hx, by simp⟩
  | @confirmed index y _ _ _ _ hy _ ih =>
    obtain ⟨before, x, rfl, hbefore, hx, hfront⟩ := ih hresult
    refine ⟨y :: before, x, rfl, List.forall_mem_cons.mpr ⟨hy, hbefore⟩, ?_, ?_⟩
    · rw [List.length_cons, Nat.add_comm before.length, ← Nat.add_assoc]
      exact hx
    · exact (List.prefix_cons_inj _).mpr hfront

/-- Once the pre-actions are confirmed, the answer to the main action is the result. -/
theorem submit_of_sendPre_ok {plan : Plan} {x : Submission} {s s' s'' : σ} {events : List Event}
    (h : sendPre submitter x.gas 0 plan.pre s = ⟨.ok (), s', events⟩) (hmain : x.action = plan.main)
    (hx : submitter.submit x.action x.gas s' = (x.answer, s'')) :
    plan.submit submitter x.gas s = ⟨x.answer, s'', events ++ x.mainEvents⟩ := by
  obtain ⟨action, gas, answer⟩ := x
  rw [submit, Run.bind_of_ok h, Run.log_bind_apply, ← hmain]
  cases answer with
  | error e =>
    rw [Run.bind_of_error (send_apply hx)]
    rfl
  | ok receipt =>
    rw [Run.bind_of_ok (send_apply hx)]
    rfl

end

/-- How a run of a plan ends: the last submission failed, or was a pre-action that was reverted, or
was the main action, whose receipt is passed on whatever it reports. -/
inductive Ends (plan : Plan) : List Submission → Except Failure Receipt → Prop
  | failed {before : List Submission} {x : Submission} {e : Failure} :
      x.answer = .error e → Ends plan (before ++ [x]) (.error e)
  | reverted {before : List Submission} {x : Submission} {receipt : Receipt} :
      before.length < plan.pre.length → x.answer = .ok receipt → receipt.success = false →
        Ends plan (before ++ [x]) (.error (.submission (.reverted before.length receipt.txHash)))
  | received {before : List Submission} {x : Submission} {receipt : Receipt} :
      before.length = plan.pre.length → x.answer = .ok receipt →
        Ends plan (before ++ [x]) (.ok receipt)

/-- A plan is submitted from the front. All but the last submission are confirmed, and the main
action is submitted just when all pre-actions are. -/
structure Submits (plan : Plan) (gas : Gas) (history : List Submission)
    (result : Except Failure Receipt) : Prop where
  in_order : history.map Submission.action <+: plan.pre ++ [plan.main]
  gas_eq : ∀ x ∈ history, x.gas = gas
  confirmed_of_next : ∀ i, i + 1 < history.length → ∃ x, history[i]? = some x ∧ x.Confirmed
  main_iff : history.map Submission.action = plan.pre ++ [plan.main] ↔
    ∀ i < plan.pre.length, ∃ x, history[i]? = some x ∧ x.Confirmed
  ends : plan.Ends history result

section

variable {plan : Plan} {gas : Gas} {before history : List Submission} {x : Submission}

theorem exists_confirmed_of_lt (h : ∀ y ∈ before, y.Confirmed) {i : Nat} (hi : i < before.length) :
    ∃ y, (before ++ [x])[i]? = some y ∧ y.Confirmed :=
  ⟨before[i], List.getElem?_append_left hi ▸ List.getElem?_eq_getElem hi,
    h _ (List.getElem_mem hi)⟩

theorem submits_of_concat {result : Except Failure Receipt}
    (horder : (before ++ [x]).map Submission.action <+: plan.pre ++ [plan.main])
    (hgas : ∀ y ∈ before ++ [x], y.gas = gas) (hbefore : ∀ y ∈ before, y.Confirmed)
    (hlast : before.length < plan.pre.length → ¬ x.Confirmed)
    (hends : plan.Ends (before ++ [x]) result) : plan.Submits gas (before ++ [x]) result where
  in_order := horder
  gas_eq := hgas
  confirmed_of_next := by
    intro i hi
    rw [List.length_append, List.length_singleton] at hi
    exact exists_confirmed_of_lt hbefore (Nat.lt_of_succ_lt_succ hi)
  main_iff := by
    constructor
    · intro heq i hi
      have hlength : before.length = plan.pre.length := by simpa using congrArg List.length heq
      exact exists_confirmed_of_lt hbefore (hlength ▸ hi)
    · intro hall
      have hle : before.length ≤ plan.pre.length := by simpa using horder.length_le
      obtain hlt | hlength := Nat.lt_or_eq_of_le hle
      · -- The last submission would be a pre-action, and those are all confirmed.
        obtain ⟨y, hy, hconfirmed⟩ := hall before.length hlt
        rw [List.getElem?_concat_length, Option.some.injEq] at hy
        exact absurd (hy ▸ hconfirmed) (hlast hlt)
      · exact horder.eq_of_length (by simp [hlength])
  ends := hends

theorem ends_of_preResult {e : Failure} (hlength : before.length < plan.pre.length)
    (h : x.preResult before.length = .error e) : plan.Ends (before ++ [x]) (.error e) := by
  unfold Submission.preResult at h
  cases hanswer : x.answer with
  | error e' =>
    rw [hanswer] at h
    exact Except.error.inj h ▸ .failed hanswer
  | ok receipt =>
    simp only [hanswer] at h
    split at h
    · cases h
    · rename_i hsuccess
      exact Except.error.inj h ▸ .reverted hlength hanswer (eq_false_of_ne_true hsuccess)

theorem ends_of_answer (x : Submission) (hlength : before.length = plan.pre.length) :
    plan.Ends (before ++ [x]) x.answer := by
  cases hanswer : x.answer with
  | error e => exact .failed hanswer
  | ok receipt => exact .received hlength hanswer

theorem PreSent.submits_of_error {e : Failure} (h : PreSent gas 0 plan.pre history (.error e)) :
    plan.Submits gas history (.error e) := by
  obtain ⟨before, x, rfl, hbefore, hx, hfront⟩ := h.exists_last_of_error
  rw [Nat.zero_add] at hx
  have hlength : before.length < plan.pre.length :=
    Nat.lt_of_succ_le (by simpa using hfront.length_le)
  have hlast : ¬ x.Confirmed := by
    rw [← @Submission.preResult_eq_ok_iff before.length, hx]
    nofun
  have horder := hfront.trans (List.prefix_append plan.pre [plan.main])
  exact submits_of_concat horder h.gas_eq hbefore (fun _ => hlast) (ends_of_preResult hlength hx)

theorem PreSent.submits_of_ok (h : PreSent x.gas 0 plan.pre history (.ok ()))
    (hmain : x.action = plan.main) : plan.Submits x.gas (history ++ [x]) x.answer := by
  obtain ⟨hactions, hconfirmed⟩ := h.map_action_of_ok
  have hlength : history.length = plan.pre.length := by simpa using congrArg List.length hactions
  have horder : (history ++ [x]).map Submission.action = plan.pre ++ [plan.main] := by
    rw [List.map_append, hactions, List.map_singleton, hmain]
  have hgas : ∀ y ∈ history ++ [x], y.gas = x.gas :=
    List.forall_mem_append.mpr ⟨h.gas_eq, List.forall_mem_singleton.mpr rfl⟩
  exact submits_of_concat (horder ▸ List.prefix_rfl) hgas hconfirmed
    (fun hlt => absurd hlength (Nat.ne_of_lt hlt)) (ends_of_answer x hlength)

end

/-- The actions of a plan are submitted in order, each with the gas settings that were given, and
nothing is submitted after one that failed or was reverted. -/
theorem submit_stops_at_first_failure (plan : Plan) (submitter : Submitter σ) (gas : Gas) (s : σ) :
    ∃ history, submitter.Answers s history (plan.submit submitter gas s).state ∧
      submitted (plan.submit submitter gas s).events = history.map (fun x => (x.action, x.gas)) ∧
      plan.Submits gas history (plan.submit submitter gas s).result := by
  obtain ⟨history, result, s', hanswers, hsent, hrun⟩ := exists_preSent submitter gas 0 plan.pre s
  cases result with
  | error e =>
    have hsubmit : plan.submit submitter gas s = _ := Run.bind_of_error hrun
    rw [hsubmit]
    exact ⟨history, hanswers, Submission.submitted_allPreEvents 0 history, hsent.submits_of_error⟩
  | ok =>
    rcases hx : submitter.submit plan.main gas s' with ⟨answer, s''⟩
    let x : Submission := ⟨plan.main, gas, answer⟩
    have hsubmit : plan.submit submitter gas s = _ := submit_of_sendPre_ok (x := x) hrun rfl hx
    rw [hsubmit]
    refine ⟨history ++ [x], hanswers.concat hx, ?_, PreSent.submits_of_ok (x := x) hsent rfl⟩
    rw [submitted_append, Submission.submitted_allPreEvents, List.map_append]
    rfl

end Plan

end CallBundle
