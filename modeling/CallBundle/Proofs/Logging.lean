import CallBundle.Proofs.Submission

/-!
What the log says of a plan that was submitted. Each submission stands between the line that announces
it and the line that tells what came of it, both under the stage of the plan it was made at: `Recorded`
is the grammar of such a log. A warning ends it. Main statement: `Plan.submit_recorded`.
-/

namespace CallBundle

/-- A place in a plan: one of the actions that come first, by its index, or the main action. -/
inductive Stage
  | pre (index : Nat)
  | main

namespace Stage

/-- The line that announces a submission. -/
def announcement : Stage → Action → LogLine
  | pre index, action => .preActionSubmit index action.target
  | main, action => .mainActionSubmit action.target

/-- The line that tells what came of a submission, and its level. The main action is confirmed
whatever its receipt reports. -/
inductive Reports : Stage → Except Failure Receipt → LogLevel → LogLine → Prop
  | preFailed (index : Nat) (e : Failure) :
      Reports (.pre index) (.error e) .warn (.preActionFailed index e)
  | mainFailed (e : Failure) : Reports .main (.error e) .warn (.mainActionFailed e)
  | preReverted (index : Nat) {receipt : Receipt} : receipt.success = false →
      Reports (.pre index) (.ok receipt) .warn (.preActionReverted index receipt.txHash)
  | preConfirmed (index : Nat) {receipt : Receipt} : receipt.success = true →
      Reports (.pre index) (.ok receipt) .info (.preActionConfirmed index receipt.txHash)
  | mainConfirmed (receipt : Receipt) :
      Reports .main (.ok receipt) .info (.mainActionConfirmed receipt.txHash receipt.success)

/-- What is logged of a submission: announced at info level, and its outcome told by the line, at the
level given. -/
structure Logs (stage : Stage) (x : Submission) (level : LogLevel) (line : LogLine) : Prop where
  level_announcement : (stage.announcement x.action).level = .info
  reports : stage.Reports x.answer level line
  level_line : line.level = level

def entry (stage : Stage) (x : Submission) (line : LogLine) : List Event :=
  [.log (stage.announcement x.action), .submit x.action x.gas, .log line]

theorem level_announcement (stage : Stage) (action : Action) :
    (stage.announcement action).level = .info := by
  cases stage <;> rfl

theorem Reports.level_eq {stage : Stage} {answer : Except Failure Receipt} {level : LogLevel}
    {line : LogLine} (h : stage.Reports answer level line) : line.level = level := by
  cases h <;> rfl

theorem Reports.logs {stage : Stage} {x : Submission} {level : LogLevel} {line : LogLine}
    (h : stage.Reports x.answer level line) : stage.Logs x level line :=
  ⟨stage.level_announcement x.action, h, h.level_eq⟩

end Stage

/-- Actions that come before the main one, each with its stage; `index` is that of the first. -/
def preStages (index : Nat) (actions : List Action) : List (Stage × Action) :=
  (actions.zipIdx index).map fun (action, i) => (.pre i, action)

theorem preStages_cons (index : Nat) (action : Action) (actions : List Action) :
    preStages index (action :: actions) = (.pre index, action) :: preStages (index + 1) actions := by
  rw [preStages, List.zipIdx_cons, List.map_cons, preStages]

def Plan.stages (plan : Plan) : List (Stage × Action) :=
  preStages 0 plan.pre ++ [(.main, plan.main)]

/-- The log of stages that are gone through in order, until none is left or one is warned of. The
warning comes last. -/
inductive Recorded : List (Stage × Action) → List Submission → List Event → Option LogLine → Prop
  | finished : Recorded [] [] [] none
  | stopped {stage : Stage} {x : Submission} {line : LogLine} (stages : List (Stage × Action)) :
      stage.Logs x .warn line →
        Recorded ((stage, x.action) :: stages) [x] (stage.entry x line) (some line)
  | next {stage : Stage} {x : Submission} {line : LogLine} {stages : List (Stage × Action)}
      {history : List Submission} {events : List Event} {warning : Option LogLine} :
      stage.Logs x .info line → Recorded stages history events warning →
        Recorded ((stage, x.action) :: stages) (x :: history) (stage.entry x line ++ events) warning

theorem Stage.warnings_entry (stage : Stage) (x : Submission) (line : LogLine) :
    warnings (stage.entry x line) = (Event.warning? (.log line)).toList := by
  have hannounced : Event.warning? (.log (stage.announcement x.action)) = none := by
    rw [Event.warning?, level_announcement, if_neg (by decide)]
  have hsent : Event.warning? (.submit x.action x.gas) = none := rfl
  rw [warnings, entry, List.filterMap_cons_none hannounced, List.filterMap_cons_none hsent]
  cases h : Event.warning? (.log line) with
  | none => rw [List.filterMap_cons_none h, List.filterMap_nil, Option.toList_none]
  | some line' => rw [List.filterMap_cons_some h, List.filterMap_nil, Option.toList_some]

theorem Stage.Logs.warning?_eq {stage : Stage} {x : Submission} {level : LogLevel} {line : LogLine}
    (h : stage.Logs x level line) :
    Event.warning? (.log line) = if level = .warn then some line else none := by
  rw [Event.warning?, h.level_line]

namespace Recorded

variable {stages : List (Stage × Action)} {history : List Submission} {events : List Event}
  {warning : Option LogLine}

theorem warnings_eq (h : Recorded stages history events warning) :
    warnings events = warning.toList := by
  induction h with
  | finished => rfl
  | stopped _ hlogs =>
    rw [Stage.warnings_entry, hlogs.warning?_eq]
    rfl
  | next hlogs _ ih =>
    rw [warnings_append, Stage.warnings_entry, hlogs.warning?_eq, ih]
    rfl

theorem exists_eq_concat {line : LogLine} (h : Recorded stages history events (some line)) :
    ∃ before, events = before ++ [.log line] := by
  generalize hwarning : some line = warning at h
  induction h with
  | finished => cases hwarning
  | @stopped stage x line' _ _ =>
    cases hwarning
    exact ⟨[.log (stage.announcement x.action), .submit x.action x.gas], rfl⟩
  | @next stage x line' _ _ _ _ _ _ ih =>
    obtain ⟨before, rfl⟩ := ih hwarning
    exact ⟨stage.entry x line' ++ before, (List.append_assoc ..).symm⟩

end Recorded

namespace Submission

variable {index : Nat} {x : Submission}

theorem mainEvents_eq (x : Submission) : x.mainEvents = Stage.main.entry x x.mainLine := rfl

theorem logs_of_confirmed (index : Nat) (h : x.Confirmed) :
    (Stage.pre index).Logs x .info (x.preLine index) := by
  obtain ⟨receipt, hanswer, hsuccess⟩ := h
  refine Stage.Reports.logs ?_
  rw [preLine, hanswer]
  simp only [hsuccess, if_true]
  exact .preConfirmed index hsuccess

theorem logs_of_preResult {e : Failure} (h : x.preResult index = .error e) :
    (Stage.pre index).Logs x .warn (x.preLine index) := by
  refine Stage.Reports.logs ?_
  unfold preResult at h
  unfold preLine
  cases hanswer : x.answer with
  | error e' => exact .preFailed index e'
  | ok receipt =>
    simp only [hanswer] at h ⊢
    split at h
    · cases h
    · rename_i hsuccess
      rw [if_neg hsuccess]
      exact .preReverted index (eq_false_of_ne_true hsuccess)

end Submission

section

variable {gas : Gas} {index : Nat} {actions : List Action} {history : List Submission}

theorem Plan.PreSent.recorded_of_error {e : Failure}
    (h : PreSent gas index actions history (.error e)) (stages : List (Stage × Action)) :
    ∃ line, Recorded (preStages index actions ++ stages) history
      (Submission.allPreEvents index history) (some line) := by
  generalize hresult : Except.error e = result at h
  induction h with
  | nil => cases hresult
  | stopped _ hx =>
    rw [preStages_cons]
    exact ⟨_, .stopped _ (Submission.logs_of_preResult hx)⟩
  | confirmed _ hx _ ih =>
    obtain ⟨line, hrecorded⟩ := ih hresult
    rw [preStages_cons]
    exact ⟨line, .next (Submission.logs_of_confirmed _ hx) hrecorded⟩

/-- Once the actions that come first are confirmed, the log goes on as it does after them. -/
theorem Plan.PreSent.recorded_of_ok {stages : List (Stage × Action)} {history' : List Submission}
    {events : List Event} {warning : Option LogLine}
    (h : PreSent gas index actions history (.ok ()))
    (hrest : Recorded stages history' events warning) :
    Recorded (preStages index actions ++ stages) (history ++ history')
      (Submission.allPreEvents index history ++ events) warning := by
  generalize hresult : Except.ok () = result at h
  induction h with
  | nil => exact hrest
  | stopped => cases hresult
  | confirmed _ hx _ ih =>
    rw [preStages_cons, Submission.allPreEvents, List.append_assoc]
    exact .next (Submission.logs_of_confirmed _ hx) (ih hresult)

end

/-- The main action is the last stage, and is warned of just when it failed. -/
theorem Submission.exists_recorded_main (x : Submission) :
    ∃ warning, Recorded [(.main, x.action)] [x] x.mainEvents warning ∧
      ((∃ e, x.answer = .error e) ↔ warning.isSome) := by
  rw [mainEvents_eq, mainLine]
  cases hanswer : x.answer with
  | error e =>
    have hlogs : Stage.main.Logs x .warn (.mainActionFailed e) :=
      Stage.Reports.logs (hanswer ▸ .mainFailed e)
    exact ⟨_, .stopped [] hlogs, by simp⟩
  | ok receipt =>
    have hlogs : Stage.main.Logs x .info (.mainActionConfirmed receipt.txHash receipt.success) :=
      Stage.Reports.logs (hanswer ▸ .mainConfirmed receipt)
    exact ⟨_, .next hlogs .finished, by simp⟩

namespace Plan

variable {σ : Type}

/-- A run fails just when its log has a warning. -/
theorem exists_recorded (plan : Plan) (submitter : Submitter σ) (gas : Gas) (s : σ) :
    ∃ history warning, submitter.Answers s history (plan.submit submitter gas s).state ∧
      (∀ x ∈ history, x.gas = gas) ∧
      Recorded plan.stages history (plan.submit submitter gas s).events warning ∧
      ((∃ e, (plan.submit submitter gas s).result = .error e) ↔ warning.isSome) := by
  obtain ⟨history, result, s', hanswers, hsent, hrun⟩ := exists_preSent submitter gas 0 plan.pre s
  cases result with
  | error e =>
    -- The main action is never announced, its stage is left over.
    have hsubmit : plan.submit submitter gas s = _ := Run.bind_of_error hrun
    rw [hsubmit]
    obtain ⟨line, hrecorded⟩ := hsent.recorded_of_error [(.main, plan.main)]
    exact ⟨history, some line, hanswers, hsent.gas_eq, hrecorded, by simp⟩
  | ok =>
    rcases hx : submitter.submit plan.main gas s' with ⟨answer, s''⟩
    let x : Submission := ⟨plan.main, gas, answer⟩
    have hsubmit : plan.submit submitter gas s = _ := submit_of_sendPre_ok (x := x) hrun rfl hx
    rw [hsubmit]
    obtain ⟨warning, hmain, hfailed⟩ := x.exists_recorded_main
    exact ⟨history ++ [x], warning, hanswers.concat hx,
      List.forall_mem_append.mpr ⟨hsent.gas_eq, List.forall_mem_singleton.mpr rfl⟩,
      hsent.recorded_of_ok hmain, hfailed⟩

/-- The log of a submitted plan: its stages in order, each submission between the line that announces
it and the one that tells what came of it, and nothing else. The run fails just when there is one
warning, which is then the last event, and it gives a receipt just when there is none. -/
theorem submit_recorded (plan : Plan) (submitter : Submitter σ) (gas : Gas) (s : σ) :
    ∃ history warning, submitter.Answers s history (plan.submit submitter gas s).state ∧
      (∀ x ∈ history, x.gas = gas) ∧
      Recorded plan.stages history (plan.submit submitter gas s).events warning ∧
      ((∃ e, (plan.submit submitter gas s).result = .error e) ↔
        (warnings (plan.submit submitter gas s).events).length = 1) ∧
      ((∃ e, (plan.submit submitter gas s).result = .error e) ↔
        ∃ before line, (plan.submit submitter gas s).events = before ++ [.log line] ∧
          warnings (plan.submit submitter gas s).events = [line]) ∧
      ((∃ receipt, (plan.submit submitter gas s).result = .ok receipt) ↔
        warnings (plan.submit submitter gas s).events = []) := by
  obtain ⟨history, warning, hanswers, hgas, hrecorded, hfailed⟩ :=
    exists_recorded plan submitter gas s
  have hwarnings := hrecorded.warnings_eq
  refine ⟨history, warning, hanswers, hgas, hrecorded, ?_, ?_, ?_⟩
  · rw [hfailed, hwarnings]
    cases warning <;> simp
  · rw [hfailed]
    constructor
    · intro hsome
      obtain ⟨line, rfl⟩ := Option.isSome_iff_exists.mp hsome
      obtain ⟨before, hevents⟩ := hrecorded.exists_eq_concat
      exact ⟨before, line, hevents, hwarnings⟩
    · rintro ⟨before, line, -, hline⟩
      rw [Option.toList_eq_singleton_iff.mp (hwarnings.symm.trans hline)]
      rfl
  · rw [exists_ok_iff, hfailed, hwarnings]
    cases warning <;> simp

end Plan

end CallBundle
