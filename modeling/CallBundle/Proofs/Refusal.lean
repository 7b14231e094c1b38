import CallBundle.Proofs.Compilation
import CallBundle.Proofs.Forwarding
import CallBundle.Proofs.Submission

/-!
When there is no plan to forward what sources yield, and what is submitted then. Nothing but a
submitter submits, so that whatever fails before there is a plan fails with nothing submitted. Main
statement: `forward_submits_unless_refused`.
-/

namespace CallBundle

variable {σ α β : Type}

theorem Context.Locates.submitted_eq_nil {ctx : Context σ} {entity : Entity} {s s' : σ}
    {trace : List Event} {answer : Except Failure Address}
    (h : ctx.Locates entity s trace answer s') : submitted trace = [] := by
  cases h <;> rfl

theorem Context.Walk.submitted_eq_nil {ctx : Context σ} {nodes : List (Visit σ)} {s s' : σ}
    {trace : List Event} {e? : Option Failure} (h : ctx.Walk nodes s trace e? s') :
    submitted trace = [] := by
  induction h with
  | nil | refuse => rfl
  | force _ _ ih | descend _ _ ih | settle _ _ ih => exact ih
  | locate _ hlocates _ ih => rw [submitted_append, hlocates.submitted_eq_nil, ih, List.append_nil]
  | lose _ hlocates => exact hlocates.submitted_eq_nil

theorem Call.Compiles.submitted_eq_nil {call : Call σ} {s s' : σ} {trace : List Event}
    {result : Except Failure Action} (h : call.Compiles s trace result s') :
    submitted trace = [] := by
  cases h with
  | badSignature | badCount => rfl
  | badTarget _ htarget => exact htarget.submitted_eq_nil
  | badParam _ htarget hparams | encoded _ htarget hparams =>
    rw [submitted_append, htarget.submitted_eq_nil, hparams.submitted_eq_nil, List.append_nil]

def Run.SubmitsNothing (run : Run σ α) : Prop := ∀ s, submitted (run s).events = []

namespace Run.SubmitsNothing

theorem pure (a : α) : (Pure.pure a : Run σ α).SubmitsNothing := fun _ => rfl

theorem fail (e : Failure) : (Run.fail e : Run σ α).SubmitsNothing := fun _ => rfl

theorem ofExcept (x : Except Failure α) : (Run.ofExcept x : Run σ α).SubmitsNothing := by
  cases x with
  | error e => exact fail e
  | ok a => exact pure a

theorem log (line : LogLine) : (Run.log line : Run σ Unit).SubmitsNothing := fun _ => rfl

theorem bind {run : Run σ α} {next : α → Run σ β} (h : run.SubmitsNothing)
    (hnext : ∀ a, (next a).SubmitsNothing) : (run >>= next).SubmitsNothing := by
  intro s
  have hs := h s
  rcases hrun : run s with ⟨_ | a, s', events⟩
  · rw [hrun] at hs
    rw [Run.bind_of_error hrun]
    exact hs
  · rw [hrun] at hs
    rw [Run.bind_of_ok hrun, Outcome.after, submitted_append, hs, hnext a s', List.append_nil]

theorem step {e : Event} {choose : σ → Run σ α} {move : σ → σ} (he : e.submission? = none)
    (h : ∀ s, (choose s).SubmitsNothing) : (Run.step e choose move).SubmitsNothing := by
  intro s
  rw [Run.step_apply, Outcome.after, submitted_append, h s (move s), List.append_nil, submitted,
    List.filterMap_cons_none he, List.filterMap_nil]

end Run.SubmitsNothing

theorem Call.submitsNothing_action (call : Call σ) : call.action.SubmitsNothing := by
  intro s
  rw [← submitted_requests]
  exact (call.action_compiles s).submitted_eq_nil

namespace Source

mutual

theorem submitsNothing_actionsOf : (source : Source σ) → source.actionsOf.SubmitsNothing
  | .actions as => .pure as
  | .failing e => .fail e
  | .call c => c.submitsNothing_action.bind fun _ => .pure _
  | .sequence sources =>
    (submitsNothing_collectFrom 0 sources).bind fun as =>
      (Run.SubmitsNothing.log _).bind fun _ => .pure as
  | .computed _ choose _ => .step rfl fun s => submitsNothing_actionsOf (choose s)

theorem submitsNothing_collectFrom :
    (index : Nat) → (sources : List (Source σ)) → (collectFrom index sources).SubmitsNothing
  | _, [] => .pure []
  | index, source :: sources =>
    (submitsNothing_actionsOf source).bind fun as => (Run.SubmitsNothing.log _).bind fun _ =>
      (submitsNothing_collectFrom (index + 1) sources).bind fun rest => .pure (as ++ rest)

end

theorem submitsNothing_collect (sources : List (Source σ)) : (collect sources).SubmitsNothing :=
  (submitsNothing_collectFrom 0 sources).bind fun as =>
    (Run.SubmitsNothing.log _).bind fun _ => .pure as

end Source

theorem firstWithValue_eq_some_iff {index i : Nat} {actions : List Action} {action : Action} :
    firstWithValue index actions = some (i, action) ↔
      ∃ before after, actions = before ++ action :: after ∧ i = index + before.length ∧
        (∀ a ∈ before, a.value = 0) ∧ action.value ≠ 0 := by
  induction actions generalizing index with
  | nil => simp [firstWithValue]
  | cons a as ih =>
    rw [firstWithValue]
    split
    · rename_i ha
      rw [ih]
      constructor
      · rintro ⟨before, after, rfl, rfl, hbefore, haction⟩
        refine ⟨a :: before, after, rfl, ?_, List.forall_mem_cons.mpr ⟨ha, hbefore⟩, haction⟩
        rw [List.length_cons, Nat.add_comm before.length, Nat.add_assoc]
      · rintro ⟨before, after, heq, rfl, hbefore, haction⟩
        cases before with
        | nil =>
          cases heq
          exact absurd ha haction
        | cons b before =>
          cases heq
          refine ⟨before, after, rfl, ?_, (List.forall_mem_cons.mp hbefore).2, haction⟩
          rw [List.length_cons, Nat.add_comm before.length, Nat.add_assoc]
    · rename_i ha
      constructor
      · rintro ⟨⟩
        exact ⟨[], as, rfl, rfl, List.forall_mem_nil _, ha⟩
      · rintro ⟨before, after, heq, rfl, hbefore, haction⟩
        cases before with
        | nil =>
          cases heq
          rfl
        | cons b before =>
          cases heq
          exact absurd (hbefore a List.mem_cons_self) ha

namespace Plan

/-- Why there is no plan for what was collected: it was not collected at all, there is nothing in
it, or an action has wei attached. The first such action is named, under its place among all. -/
inductive Refused : Except Failure (List Action) → Failure → Prop
  | uncollected (e : Failure) : Refused (.error e) e
  | empty : Refused (.ok []) .noActions
  | value {before after : List Action} {action : Action} :
      (∀ a ∈ before, a.value = 0) → action.value ≠ 0 →
        Refused (.ok (before ++ action :: after))
          (.unforwardableValue before.length action.target action.value)

theorem submitsNothing_ofActions (settings : Settings) (sources : Nat) (actions : List Action) :
    (ofActions settings sources actions : Run σ Plan).SubmitsNothing := by
  rw [ofActions]
  split
  · exact (Run.SubmitsNothing.log _).bind fun _ => .fail _
  · split
    · exact (Run.SubmitsNothing.log _).bind fun _ => .fail _
    · refine (Run.SubmitsNothing.ofExcept _).bind fun script => ?_
      refine (Run.SubmitsNothing.log _).bind fun _ => ?_
      exact (Run.SubmitsNothing.ofExcept _).bind fun data =>
        (Run.SubmitsNothing.log _).bind fun _ => .pure _

theorem submitsNothing_ofSources (settings : Settings) (sources : List (Source σ)) :
    (ofSources settings sources).SubmitsNothing :=
  (Source.submitsNothing_collect sources).bind fun actions =>
    submitsNothing_ofActions settings sources.length actions

theorem result_ofActions_of_refused {actions : List Action} {e : Failure}
    (h : Refused (.ok actions) e) (settings : Settings) (sources : Nat) (s : σ) :
    (ofActions settings sources actions s).result = .error e := by
  cases h with
  | empty => rfl
  | @value before after action hbefore haction =>
    have hfirst : firstWithValue 0 (before ++ action :: after) = some (before.length, action) :=
      firstWithValue_eq_some_iff.mpr ⟨before, after, rfl, (Nat.zero_add _).symm, hbefore, haction⟩
    rw [ofActions, if_neg (by simp), hfirst]
    rfl

theorem result_ofSources_of_refused {sources : List (Source σ)} {s : σ} {e : Failure}
    (h : Refused (Source.collect sources s).result e) (settings : Settings) :
    (ofSources settings sources s).result = .error e := by
  rw [ofSources]
  rcases hcollect : Source.collect sources s with ⟨e' | actions, s', events⟩
  · rw [hcollect] at h
    cases h
    rw [Run.bind_of_error hcollect]
  · rw [hcollect] at h
    rw [Run.bind_of_ok hcollect]
    exact result_ofActions_of_refused h settings sources.length s'

theorem not_refused_iff {actions : List Action} :
    (∀ e, ¬ Refused (.ok actions) e) ↔ actions ≠ [] ∧ ∀ a ∈ actions, a.value = 0 := by
  constructor
  · intro h
    constructor
    · rintro rfl
      exact h _ .empty
    · rw [← @firstWithValue_eq_none_iff 0, Option.eq_none_iff_forall_ne_some]
      rintro ⟨i, action⟩ hfirst
      obtain ⟨before, after, rfl, -, hbefore, haction⟩ := firstWithValue_eq_some_iff.mp hfirst
      exact h _ (.value hbefore haction)
  · rintro ⟨hempty, hvalue⟩ e h
    generalize hcollected : Except.ok actions = collected at h
    cases h with
    | uncollected => cases hcollected
    | empty => exact hempty (Except.ok.inj hcollected)
    | value _ haction =>
      cases hcollected
      exact haction (hvalue _ (List.mem_append_right _ List.mem_cons_self))

/-- Without pre-actions, the main action is submitted and nothing else. -/
theorem submitted_submit_of_pre_nil {plan : Plan} (hpre : plan.pre = []) (submitter : Submitter σ)
    (gas : Gas) (s : σ) :
    submitted (plan.submit submitter gas s).events = [(plan.main, gas)] := by
  have hsent : sendPre submitter gas 0 plan.pre s = ⟨.ok (), s, []⟩ := by
    rw [hpre]
    rfl
  let x : Submission := ⟨plan.main, gas, (submitter.submit plan.main gas s).1⟩
  have hsubmit : plan.submit submitter gas s = _ := submit_of_sendPre_ok (x := x) hsent rfl rfl
  rw [hsubmit]
  rfl

variable {settings : Settings} {sources : List (Source σ)} {submitter : Submitter σ} {gas : Gas}
  {s : σ}

theorem exists_result_of_not_refused (h : ∀ e, ¬ Refused (Source.collect sources s).result e)
    (hshort : ∀ actions, (Source.collect sources s).result = .ok actions →
      ∀ a ∈ actions, a.data.length < 2 ^ 32) :
    ∃ plan, (ofSources settings sources s).result = .ok plan := by
  cases hcollect : (Source.collect sources s).result with
  | error e => exact absurd (hcollect ▸ .uncollected e) (h e)
  | ok actions =>
    rw [hcollect] at h
    obtain ⟨hempty, hvalue⟩ := not_refused_iff.mp h
    exact exists_result_ofSources hcollect hempty hvalue (hshort actions hcollect)

theorem pre_eq_nil_of_result_ofSources {plan : Plan}
    (h : (ofSources settings sources s).result = .ok plan) : plan.pre = [] := by
  obtain ⟨actions, -, hactions⟩ := Run.result_bind_eq_ok.mp h
  obtain ⟨-, -, script, -, rfl⟩ := result_ofActions_eq_ok_iff.mp hactions
  rfl

theorem forward_of_error {e : Failure} (h : (ofSources settings sources s).result = .error e) :
    (forward settings submitter gas sources s).result = .error e ∧
      submitted (forward settings submitter gas sources s).events = [] := by
  have hnothing := submitsNothing_ofSources settings sources s
  rcases hplan : ofSources settings sources s with ⟨_ | plan, s', events⟩
  · rw [hplan] at h hnothing
    cases h
    rw [forward, Run.bind_of_error hplan]
    exact ⟨rfl, hnothing⟩
  · rw [hplan] at h
    cases h

theorem submitted_forward_of_ok {plan : Plan}
    (h : (ofSources settings sources s).result = .ok plan) :
    submitted (forward settings submitter gas sources s).events = [(plan.main, gas)] := by
  have hpre := pre_eq_nil_of_result_ofSources h
  have hnothing := submitsNothing_ofSources settings sources s
  rcases hplan : ofSources settings sources s with ⟨_ | plan, s', events⟩
  · rw [hplan] at h
    cases h
  · rw [hplan] at h hnothing
    cases h
    rw [forward, Run.bind_of_ok hplan, Outcome.after, submitted_append, hnothing]
    exact submitted_submit_of_pre_nil hpre submitter gas s'

end Plan

/-- There is a plan unless nothing could be collected, nothing was, or an action has wei attached.
Without a plan nothing is submitted, with one its main action and nothing else. -/
theorem forward_submits_unless_refused (settings : Settings) (sources : List (Source σ))
    (submitter : Submitter σ) (gas : Gas) (s : σ) :
    (∀ e, Plan.Refused (Source.collect sources s).result e →
      (Plan.ofSources settings sources s).result = .error e) ∧
    ((∀ e, ¬ Plan.Refused (Source.collect sources s).result e) →
      (∀ actions, (Source.collect sources s).result = .ok actions →
        ∀ a ∈ actions, a.data.length < 2 ^ 32) →
      ∃ plan, (Plan.ofSources settings sources s).result = .ok plan) ∧
    (∀ e, (Plan.ofSources settings sources s).result = .error e →
      (forward settings submitter gas sources s).result = .error e ∧
      submitted (forward settings submitter gas sources s).events = []) ∧
    (∀ plan, (Plan.ofSources settings sources s).result = .ok plan →
      submitted (forward settings submitter gas sources s).events = [(plan.main, gas)]) := by
  refine ⟨fun e hrefused => ?_, fun hnot hshort => ?_, fun e herror => ?_, fun plan hplan => ?_⟩
  · exact Plan.result_ofSources_of_refused hrefused settings
  · exact Plan.exists_result_of_not_refused hnot hshort
  · exact Plan.forward_of_error herror
  · exact Plan.submitted_forward_of_ok hplan

/-- The second action of the second source has wei attached; without it there is a plan. -/
theorem forward_submits_unless_refused_nested :
    let submitter : Submitter Unit := ⟨fun _ _ s => (.ok ⟨"", none, true⟩, s)⟩
    let plain : List (Source Unit) := [.actions [], .actions [⟨.zero, [], 0⟩]]
    let refused : List (Source Unit) := [.sequence plain, .actions [⟨.zero, [], 5⟩]]
    (forward ⟨.zero, 1, 18⟩ submitter {} refused ()).result =
        .error (.unforwardableValue 1 .zero 5) ∧
      submitted (forward ⟨.zero, 1, 18⟩ submitter {} refused ()).events = [] ∧
      ∃ plan, (Plan.ofSources ⟨.zero, 1, 18⟩ plain ()).result = .ok plan ∧
        submitted (forward ⟨.zero, 1, 18⟩ submitter {} plain ()).events = [(plan.main, {})] := by
  intro submitter plain refused
  have hrefused : Plan.Refused (Source.collect refused ()).result (.unforwardableValue 1 .zero 5) :=
    @Plan.Refused.value [⟨.zero, [], 0⟩] [] ⟨.zero, [], 5⟩ (by decide) (by decide)
  have hcollect : (Source.collect plain ()).result = .ok [⟨.zero, [], 0⟩] := rfl
  obtain ⟨hfails, -, hnothing, -⟩ :=
    forward_submits_unless_refused ⟨.zero, 1, 18⟩ refused submitter {} ()
  obtain ⟨-, hsucceeds, -, honce⟩ :=
    forward_submits_unless_refused ⟨.zero, 1, 18⟩ plain submitter {} ()
  obtain ⟨hresult, hsubmitted⟩ := hnothing _ (hfails _ hrefused)
  have hplan : ∃ plan, (Plan.ofSources ⟨.zero, 1, 18⟩ plain ()).result = .ok plan := by
    rw [hcollect] at hsucceeds
    refine hsucceeds (Plan.not_refused_iff.mpr (by decide)) fun actions hactions => ?_
    cases hactions
    decide
  obtain ⟨plan, hplan⟩ := hplan
  exact ⟨hresult, hsubmitted, plan, hplan, honce plan hplan⟩

end CallBundle
