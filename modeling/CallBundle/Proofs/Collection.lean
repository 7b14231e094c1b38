import CallBundle.Proofs.Event
import CallBundle.Proofs.Run
import CallBundle.Source

/-!
Collecting from nested sequences is running their leaves one after another. How the leaves are
grouped shows in the lines logged about collecting and nowhere else. Main statement:
`collect_runs_leaves_in_turn`.
-/

namespace CallBundle

namespace Source

variable {σ : Type}

mutual

/-- The sources at the ends of nested sequences, from left to right. -/
def leaves : Source σ → List (Source σ)
  | .sequence sources => leavesOf sources
  | source => [source]

def leavesOf : List (Source σ) → List (Source σ)
  | [] => []
  | source :: sources => source.leaves ++ leavesOf sources

end

/-- What sources yield together that come after some that have yielded the given actions. -/
def prepend (actions : List Action) (result : Except Failure (List Action)) :
    Except Failure (List Action) :=
  result.map (actions ++ ·)

@[simp] theorem prepend_nil (result : Except Failure (List Action)) :
    prepend [] result = result := by
  cases result <;> rfl

theorem prepend_append (actions more : List Action) (result : Except Failure (List Action)) :
    prepend (actions ++ more) result = prepend actions (prepend more result) := by
  cases result with
  | error e => rfl
  | ok rest => exact congrArg Except.ok (List.append_assoc ..)

@[simp] theorem prepend_ok (actions more : List Action) :
    prepend actions (.ok more) = .ok (actions ++ more) := rfl

/-- Sources run one after another, each from the state that the one before it has left, until one
fails. Between them there are only lines about collecting. -/
inductive InTurn : List (Source σ) → σ → List Event → Except Failure (List Action) → σ → Prop
  | nil {gap : List Event} (s : σ) : Event.AllCollecting gap → InTurn [] s gap (.ok []) s
  | failed {source : Source σ} {sources : List (Source σ)} {gap events : List Event} {s s' : σ}
      {e : Failure} :
      Event.AllCollecting gap → source.actionsOf s = ⟨.error e, s', events⟩ →
        InTurn (source :: sources) s (gap ++ events) (.error e) s'
  | next {source : Source σ} {sources : List (Source σ)} {gap events events' : List Event}
      {s s' s'' : σ} {actions : List Action} {result : Except Failure (List Action)} :
      Event.AllCollecting gap → source.actionsOf s = ⟨.ok actions, s', events⟩ →
      InTurn sources s' events' result s'' →
        InTurn (source :: sources) s (gap ++ events ++ events') (prepend actions result) s''

section

variable {sources rest : List (Source σ)} {s s' s'' : σ} {events events' gap : List Event}
  {result : Except Failure (List Action)} {actions : List Action} {e : Failure}

theorem InTurn.after (h : InTurn sources s events result s') (hgap : Event.AllCollecting gap) :
    InTurn sources s (gap ++ events) result s' := by
  cases h with
  | nil s hgap' => exact .nil s (hgap.append hgap')
  | failed hgap' hrun =>
    rw [← List.append_assoc]
    exact .failed (hgap.append hgap') hrun
  | next hgap' hrun hrest =>
    rw [← List.append_assoc, ← List.append_assoc]
    exact .next (hgap.append hgap') hrun hrest

theorem InTurn.append (h : InTurn sources s events (.ok actions) s')
    (hrest : InTurn rest s' events' result s'') :
    InTurn (sources ++ rest) s (events ++ events') (prepend actions result) s'' := by
  -- The sources that are left over yield fewer actions, so those must vary in the induction.
  generalize hok : Except.ok actions = first at h
  induction h generalizing actions with
  | nil s hgap =>
    cases hok
    rw [prepend_nil]
    exact hrest.after hgap
  | failed => cases hok
  | @next _ _ _ _ _ _ _ _ some result' hgap hrun _ ih =>
    cases result' with
    | error => cases hok
    | ok more =>
      cases hok
      rw [prepend_append, List.append_assoc]
      exact .next hgap hrun (ih hrest rfl)

theorem InTurn.append_of_failure (h : InTurn sources s events (.error e) s')
    (rest : List (Source σ)) : InTurn (sources ++ rest) s events (.error e) s' := by
  generalize herror : Except.error e = first at h
  induction h with
  | nil => cases herror
  | failed hgap hrun =>
    cases herror
    exact .failed hgap hrun
  | @next _ _ _ _ _ _ _ _ _ result' hgap hrun _ ih =>
    cases result' with
    | ok => cases herror
    | error e' =>
      cases herror
      exact .next hgap hrun (ih rfl)

theorem InTurn.concat (h : InTurn sources s events (.ok actions) s')
    (hgap : Event.AllCollecting gap) : InTurn sources s (events ++ gap) (.ok actions) s' := by
  have happend := h.append (.nil s' hgap)
  rwa [List.append_nil, prepend_ok, List.append_nil] at happend

theorem InTurn.unique {s₁ s₂ : σ} {events₁ events₂ : List Event}
    {result₁ result₂ : Except Failure (List Action)} (h₁ : InTurn sources s events₁ result₁ s₁)
    (h₂ : InTurn sources s events₂ result₂ s₂) :
    result₁ = result₂ ∧ s₁ = s₂ ∧ withoutCollecting events₁ = withoutCollecting events₂ := by
  induction h₁ generalizing events₂ result₂ s₂ with
  | nil s hgap₁ =>
    cases h₂ with
    | nil _ hgap₂ =>
      refine ⟨rfl, rfl, ?_⟩
      rw [withoutCollecting_of_allCollecting hgap₁, withoutCollecting_of_allCollecting hgap₂]
  | failed hgap₁ hrun₁ =>
    cases h₂ with
    | failed hgap₂ hrun₂ =>
      cases hrun₁.symm.trans hrun₂
      refine ⟨rfl, rfl, ?_⟩
      rw [withoutCollecting_append, withoutCollecting_append,
        withoutCollecting_of_allCollecting hgap₁, withoutCollecting_of_allCollecting hgap₂]
    | next _ hrun₂ => cases hrun₁.symm.trans hrun₂
  | next hgap₁ hrun₁ _ ih =>
    cases h₂ with
    | failed _ hrun₂ => cases hrun₁.symm.trans hrun₂
    | next hgap₂ hrun₂ hrest₂ =>
      cases hrun₁.symm.trans hrun₂
      obtain ⟨rfl, rfl, hevents⟩ := ih hrest₂
      refine ⟨rfl, rfl, ?_⟩
      simp only [withoutCollecting_append, withoutCollecting_of_allCollecting hgap₁,
        withoutCollecting_of_allCollecting hgap₂, hevents]

end

/-- From any state, the run comes to what running the sources in turn comes to. -/
def TakesTurns (sources : List (Source σ)) (run : Run σ (List Action)) : Prop :=
  ∀ s, InTurn sources s (run s).events (run s).result (run s).state

theorem takesTurns_actionsOf_leaf (source : Source σ) : TakesTurns [source] source.actionsOf := by
  intro s
  have hgap : Event.AllCollecting [] := nofun
  rcases hrun : source.actionsOf s with ⟨_ | actions, s', events⟩
  · exact .failed hgap hrun
  · have h := InTurn.next hgap hrun (.nil s' hgap)
    rwa [prepend_ok, List.append_nil, List.append_nil] at h

section

variable {sources rest : List (Source σ)} {run next : Run σ (List Action)}
  {line : List Action → LogLine}

theorem TakesTurns.log (h : TakesTurns sources run) (hline : ∀ as, (line as).isCollecting = true) :
    TakesTurns sources (do
      let as ← run
      Run.log (line as)
      return as) := by
  intro s
  have hs := h s
  rcases hrun : run s with ⟨_ | actions, s', events⟩
  · rw [hrun] at hs
    rw [Run.bind_of_error hrun]
    exact hs
  · rw [hrun] at hs
    rw [Run.bind_of_ok hrun]
    exact hs.concat (Event.allCollecting_log (hline actions))

theorem TakesTurns.append (h : TakesTurns sources run) (hnext : TakesTurns rest next)
    (hline : ∀ as, (line as).isCollecting = true) :
    TakesTurns (sources ++ rest) (do
      let as ← run
      Run.log (line as)
      return as ++ (← next)) := by
  intro s
  have hs := h s
  rcases hrun : run s with ⟨_ | actions, s', events⟩
  · rw [hrun] at hs
    rw [Run.bind_of_error hrun]
    exact hs.append_of_failure rest
  · rw [hrun] at hs
    rw [Run.bind_of_ok hrun]
    have hall := hs.append ((hnext s').after (Event.allCollecting_log (hline actions)))
    rcases hrest : next s' with ⟨_ | more, s'', events'⟩
    · rw [hrest] at hall
      rw [Run.log_bind_apply, Run.bind_of_error hrest]
      exact hall
    · rw [hrest] at hall
      rw [Run.log_bind_apply, Run.bind_of_ok hrest]
      simpa [Outcome.after, Run.pure_apply] using hall

end

mutual

theorem takesTurns_actionsOf : (source : Source σ) → TakesTurns source.leaves source.actionsOf
  | .actions as => takesTurns_actionsOf_leaf (.actions as)
  | .failing e => takesTurns_actionsOf_leaf (.failing e)
  | .call c => takesTurns_actionsOf_leaf (.call c)
  | .computed label choose next => takesTurns_actionsOf_leaf (.computed label choose next)
  | .sequence sources => by
    rw [actionsOf_sequence]
    exact (takesTurns_collectFrom 0 sources).log fun _ => rfl

theorem takesTurns_collectFrom :
    (index : Nat) → (sources : List (Source σ)) →
      TakesTurns (leavesOf sources) (collectFrom index sources)
  | _, [] => fun s => .nil s nofun
  | index, source :: sources =>
    (takesTurns_actionsOf source).append (takesTurns_collectFrom (index + 1) sources) fun _ => rfl

end

theorem takesTurns_collect (sources : List (Source σ)) :
    TakesTurns (leavesOf sources) (collect sources) :=
  (takesTurns_collectFrom 0 sources).log fun _ => rfl

/-- Collecting runs the leaves of all sequences one after another up to the first that fails, so
another grouping of the same leaves makes no difference to the result, to the state that is left, or
to anything that happens but the lines about collecting. -/
theorem collect_runs_leaves_in_turn :
    (∀ (sources : List (Source σ)) (s : σ),
      InTurn (leavesOf sources) s (collect sources s).events (collect sources s).result
        (collect sources s).state) ∧
    ∀ sources regrouped : List (Source σ), leavesOf regrouped = leavesOf sources → ∀ s : σ,
      (collect regrouped s).result = (collect sources s).result ∧
      (collect regrouped s).state = (collect sources s).state ∧
      withoutCollecting (collect regrouped s).events =
        withoutCollecting (collect sources s).events := by
  constructor
  · exact takesTurns_collect
  · intro sources regrouped hleaves s
    have h := takesTurns_collect regrouped s
    rw [hleaves] at h
    exact h.unique (takesTurns_collect sources s)

/-- The second leaf fails once the first has run. -/
theorem collect_runs_leaves_in_turn_nested :
    let first : Source Nat := .computed "first" (fun _ => .actions []) (· + 1)
    let second : Source Nat :=
      .computed "second" (fun n => if n = 1 then .failing .noActions else .actions []) id
    let third : Source Nat := .actions [⟨.zero, [], 0⟩]
    leavesOf [.sequence [first, .sequence []], second, third] =
      leavesOf [first, .sequence [second, third]] ∧
    (collect [.sequence [first, .sequence []], second, third] 0).result =
      (collect [first, .sequence [second, third]] 0).result ∧
    (collect [first, .sequence [second, third]] 0).result = .error .noActions := by
  intro first second third
  have hleaves : leavesOf [.sequence [first, .sequence []], second, third] =
      leavesOf [first, .sequence [second, third]] := rfl
  exact ⟨hleaves, (collect_runs_leaves_in_turn.2 _ _ hleaves 0).1, rfl⟩

end Source

end CallBundle
