import CallBundle.Event

/-!
Computations that work with collaborators, such as a directory and a submitter, whose joint state is
of a type `σ` that this library knows nothing about. A run that fails still leaves the state and the
events it got to. Main statement: the instance of `LawfulMonad`.
-/

namespace CallBundle

structure Outcome (σ α : Type) where
  result : Except Failure α
  state : σ
  events : List Event

def Run (σ α : Type) : Type := σ → Outcome σ α

/-- The events of a run that went before. -/
def Outcome.after {σ α : Type} (events : List Event) (o : Outcome σ α) : Outcome σ α :=
  ⟨o.result, o.state, events ++ o.events⟩

namespace Run

variable {σ α β : Type}

def pure (a : α) : Run σ α := fun s => ⟨.ok a, s, []⟩

def bind (run : Run σ α) (next : α → Run σ β) : Run σ β := fun s =>
  match run s with
  | ⟨.ok a, s', events⟩ => (next a s').after events
  | ⟨.error e, s', events⟩ => ⟨.error e, s', events⟩

instance : Monad (Run σ) where
  pure := Run.pure
  bind := Run.bind

def fail (e : Failure) : Run σ α := fun s => ⟨.error e, s, []⟩

def ofExcept : Except Failure α → Run σ α
  | .ok a => Run.pure a
  | .error e => fail e

def emit (e : Event) : Run σ Unit := fun s => ⟨.ok (), s, [e]⟩

def log (line : LogLine) : Run σ Unit := emit (.log line)

/-- Notes the event of asking a collaborator and takes its answer. -/
def ask (e : Event) (answer : σ → Except Failure α × σ) : Run σ α := fun s =>
  ⟨(answer s).1, (answer s).2, [e]⟩

/-- Notes an event, moves the state on, and goes on as the state before says. -/
def step (e : Event) (choose : σ → Run σ α) (move : σ → σ) : Run σ α := fun s =>
  (choose s (move s)).after [e]

/-- The result of a run as a value, with no failure left. -/
def attempt (run : Run σ α) : Run σ (Except Failure α) := fun s =>
  ⟨.ok (run s).result, (run s).state, (run s).events⟩

theorem pure_apply (a : α) (s : σ) : (Pure.pure a : Run σ α) s = ⟨.ok a, s, []⟩ := rfl

theorem bind_apply (run : Run σ α) (next : α → Run σ β) (s : σ) :
    (run >>= next) s = match run s with
      | ⟨.ok a, s', events⟩ => (next a s').after events
      | ⟨.error e, s', events⟩ => ⟨.error e, s', events⟩ := rfl

instance : LawfulMonad (Run σ) :=
  .mk' (Run σ)
    (fun run => by
      funext s
      show (run >>= fun a => Pure.pure a) s = run s
      rw [bind_apply]
      match run s with
      | ⟨.ok a, s', events⟩ => simp [pure_apply, Outcome.after]
      | ⟨.error e, s', events⟩ => rfl)
    (fun a next => by
      funext s
      rw [bind_apply, pure_apply]
      simp [Outcome.after])
    (fun run f g => by
      funext s
      simp only [bind_apply]
      match run s with
      | ⟨.error e, s', events⟩ => rfl
      | ⟨.ok a, s', events⟩ =>
        simp only [Outcome.after]
        match f a s' with
        | ⟨.error e, s'', events'⟩ => rfl
        | ⟨.ok b, s'', events'⟩ => simp [List.append_assoc])

theorem step_apply (e : Event) (choose : σ → Run σ α) (move : σ → σ) (s : σ) :
    step e choose move s = (choose s (move s)).after [e] := rfl

/-- What follows a step may as well be part of what the step chooses. -/
theorem step_bind (e : Event) (choose : σ → Run σ α) (move : σ → σ) (next : α → Run σ β) :
    step e choose move >>= next = step e (fun s => choose s >>= next) move := by
  funext s
  rw [bind_apply, step_apply, step_apply, bind_apply]
  match choose s (move s) with
  | ⟨.ok a, s', events⟩ => simp [Outcome.after]
  | ⟨.error failure, s', events⟩ => rfl

end Run

end CallBundle
