import CallBundle.Run

/-!
What a computation in several steps goes through when it succeeds, and how far it gets when it
fails. Main statements: `bind_eq_ok` and `Run.result_mapM_eq_error_iff`.
-/

namespace CallBundle

theorem bind_eq_ok {ε α β : Type} {x : Except ε α} {next : α → Except ε β} {b : β} :
    x >>= next = .ok b ↔ ∃ a, x = .ok a ∧ next a = .ok b := by
  cases x with
  | error e => simp [bind, Except.bind]
  | ok a => simp [bind, Except.bind]

theorem bind_pure_eq_error_iff {ε α β : Type} {x : Except ε α} {f : α → β} {e : ε} :
    (x >>= fun a => pure (f a)) = .error e ↔ x = .error e := by
  cases x with
  | error e' =>
    constructor
    · rintro ⟨⟩
      rfl
    · rintro ⟨⟩
      rfl
  | ok a => constructor <;> rintro ⟨⟩

theorem ite_error_eq_ok_iff {ε α : Type} {p : Prop} [Decidable p] {e : ε} {x : Except ε α} {a : α} :
    (if p then .error e else x) = .ok a ↔ ¬ p ∧ x = .ok a := by
  split <;> simp [*]

theorem mapError_eq_ok_iff {ε ε' α : Type} {x : Except ε α} {f : ε → ε'} {a : α} :
    x.mapError f = .ok a ↔ x = .ok a := by
  cases x with
  | error e => exact ⟨nofun, nofun⟩
  | ok b =>
    constructor
    · rintro ⟨⟩
      rfl
    · rintro ⟨⟩
      rfl

theorem exists_ok_iff {ε α : Type} {x : Except ε α} :
    (∃ a, x = .ok a) ↔ ¬ ∃ e, x = .error e := by
  cases x <;> simp

def failure? {ε α : Type} : Except ε α → Option ε
  | .ok _ => none
  | .error e => some e

@[simp] theorem failure?_ok {ε α : Type} (a : α) : failure? (.ok a : Except ε α) = none := rfl

@[simp] theorem failure?_error {ε α : Type} (e : ε) :
    failure? (.error e : Except ε α) = some e := rfl

theorem failure?_bind_pure {ε α β : Type} (x : Except ε α) (f : α → β) :
    failure? (x >>= fun a => pure (f a)) = failure? x := by
  cases x <;> rfl

theorem failure?_map {ε α β : Type} (x : Except ε α) (f : α → β) :
    failure? (x.map f) = failure? x := by
  cases x <;> rfl

theorem failure?_mapError {ε ε' α : Type} (x : Except ε α) (f : ε → ε') :
    failure? (x.mapError f) = (failure? x).map f := by
  cases x <;> rfl

theorem failure?_eq_some_iff {ε α : Type} {x : Except ε α} {e : ε} :
    failure? x = some e ↔ x = .error e := by
  cases x <;> simp [failure?]

theorem failure?_eq_none_iff {ε α : Type} {x : Except ε α} :
    failure? x = none ↔ ∃ a, x = .ok a := by
  cases x <;> simp [failure?]

namespace Run

variable {σ α β ι : Type}

theorem result_bind_eq_ok {run : Run σ α} {next : α → Run σ β} {s : σ} {b : β} :
    ((run >>= next) s).result = .ok b ↔
      ∃ a, (run s).result = .ok a ∧ (next a (run s).state).result = .ok b := by
  rw [bind_apply]
  cases run s with
  | mk result state events =>
    cases result with
    | error e => simp
    | ok a => simp [Outcome.after]

theorem result_bind_eq_error {run : Run σ α} {next : α → Run σ β} {s : σ} {e : Failure} :
    ((run >>= next) s).result = .error e ↔
      (run s).result = .error e ∨
        ∃ a, (run s).result = .ok a ∧ (next a (run s).state).result = .error e := by
  rw [bind_apply]
  rcases run s with ⟨_ | a, s', events⟩ <;> simp [Outcome.after]

theorem result_bind_pure_eq_error {run : Run σ α} {f : α → β} {s : σ} {e : Failure} :
    ((run >>= fun a => Pure.pure (f a)) s).result = .error e ↔ (run s).result = .error e := by
  rw [result_bind_eq_error]
  simp [pure_apply]

theorem bind_pure_apply (run : Run σ α) (f : α → β) (s : σ) :
    (run >>= fun a => Pure.pure (f a)) s =
      ⟨(run s).result.map f, (run s).state, (run s).events⟩ := by
  rw [bind_apply]
  rcases run s with ⟨_ | a, s', events⟩ <;> simp [Outcome.after, pure_apply, Except.map]

theorem state_bind_of_ok {run : Run σ α} {next : α → Run σ β} {s : σ} {a : α}
    (h : (run s).result = .ok a) : ((run >>= next) s).state = (next a (run s).state).state := by
  rw [bind_apply]
  rcases hrun : run s with ⟨_ | a', s', events⟩
  · rw [hrun] at h
    cases h
  · rw [hrun] at h
    cases h
    rfl

theorem bind_of_ok {run : Run σ α} {next : α → Run σ β} {s s' : σ} {a : α} {events : List Event}
    (h : run s = ⟨.ok a, s', events⟩) : (run >>= next) s = (next a s').after events := by
  rw [bind_apply, h]

theorem bind_of_error {run : Run σ α} {next : α → Run σ β} {s s' : σ} {e : Failure}
    {events : List Event} (h : run s = ⟨.error e, s', events⟩) :
    (run >>= next) s = ⟨.error e, s', events⟩ := by
  rw [bind_apply, h]

theorem log_bind_apply (line : LogLine) (next : Unit → Run σ α) (s : σ) :
    (log line >>= next) s = (next () s).after [.log line] := rfl

@[simp] theorem ofExcept_ok (a : α) : (ofExcept (.ok a) : Run σ α) = Pure.pure a := rfl

@[simp] theorem result_ofExcept (x : Except Failure α) (s : σ) : (ofExcept x s).result = x := by
  cases x <;> rfl

/-- Where one of several runs in turn fails, those before it have succeeded. -/
theorem result_mapM_eq_error_iff {run : ι → Run σ α} {items : List ι} {s : σ} {e : Failure} :
    (items.mapM run s).result = .error e ↔
      ∃ before item after as, items = before ++ item :: after ∧
        (before.mapM run s).result = .ok as ∧
        (run item (before.mapM run s).state).result = .error e := by
  constructor
  · intro h
    induction items generalizing s with
    | nil => cases h
    | cons item items ih =>
      rw [List.mapM_cons, result_bind_eq_error] at h
      obtain h | ⟨a, ha, h⟩ := h
      · exact ⟨[], item, items, [], rfl, rfl, h⟩
      · obtain ⟨before, item', after, as, rfl, has, he⟩ := ih (result_bind_pure_eq_error.mp h)
        refine ⟨item :: before, item', after, a :: as, rfl, ?_, ?_⟩
        · rw [List.mapM_cons]
          exact result_bind_eq_ok.mpr ⟨a, ha, result_bind_eq_ok.mpr ⟨as, has, rfl⟩⟩
        · rw [List.mapM_cons, state_bind_of_ok ha, state_bind_of_ok has]
          exact he
  · rintro ⟨before, item, after, as, rfl, has, he⟩
    rw [List.mapM_append, result_bind_eq_error]
    refine .inr ⟨as, has, result_bind_pure_eq_error.mpr ?_⟩
    rw [List.mapM_cons, result_bind_eq_error]
    exact .inl he

end Run

end CallBundle
