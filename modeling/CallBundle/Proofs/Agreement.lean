import Mathlib
import CallBundle.Proofs.Run

/-!
Computations that agree: they ask the same, leave the same state, and either both succeed with
related results or both fail in the same way. Main statements: `Run.Agree.bind` and `Run.Agree.mapM`,
so runs that are put together in the same way agree if their parts do.
-/

namespace CallBundle

variable {σ α β γ δ ι κ : Type}

/-- Failures of one variant, whatever they carry. -/
def Failure.SameVariant (e e' : Failure) : Prop := e.ctorIdx = e'.ctorIdx

/-- Two results are values in relation, or failures of one variant. -/
inductive Matches (R : α → β → Prop) : Except Failure α → Except Failure β → Prop
  | ok {a : α} {b : β} : R a b → Matches R (.ok a) (.ok b)
  | error {e e' : Failure} : e.SameVariant e' → Matches R (.error e) (.error e')

namespace Matches

theorem refl {R : α → α → Prop} (hR : ∀ a, R a a) (x : Except Failure α) : Matches R x x := by
  cases x with
  | ok a => exact .ok (hR a)
  | error e => exact .error rfl

theorem symm {R : α → β → Prop} {S : β → α → Prop} (hR : ∀ a b, R a b → S b a)
    {x : Except Failure α} {y : Except Failure β} (h : Matches R x y) : Matches S y x := by
  cases h with
  | ok hab => exact .ok (hR _ _ hab)
  | error he => exact .error (Eq.symm he)

theorem trans {R : α → β → Prop} {S : β → γ → Prop} {T : α → γ → Prop}
    (hR : ∀ a b c, R a b → S b c → T a c) {x : Except Failure α} {y : Except Failure β}
    {z : Except Failure γ} (h : Matches R x y) (h' : Matches S y z) : Matches T x z := by
  cases h with
  | ok hab =>
    cases h' with
    | ok hbc => exact .ok (hR _ _ _ hab hbc)
  | error he =>
    cases h' with
    | error he' => exact .error (Eq.trans he he')

theorem bind {R : α → β → Prop} {S : γ → δ → Prop} {x : Except Failure α} {y : Except Failure β}
    {f : α → Except Failure γ} {g : β → Except Failure δ} (h : Matches R x y)
    (hnext : ∀ a b, R a b → Matches S (f a) (g b)) : Matches S (x >>= f) (y >>= g) := by
  cases h with
  | ok hab => exact hnext _ _ hab
  | error he => exact .error he

theorem map {x y : Except Failure α} (h : Matches (· = ·) x y) (f : α → β) :
    Matches (· = ·) (x >>= fun a => pure (f a)) (y >>= fun a => pure (f a)) :=
  h.bind fun _ _ hab => .ok (congrArg f hab)

end Matches

/-- Two runs match in the end, having done the same. -/
structure Outcome.Agree (R : α → β → Prop) (o : Outcome σ α) (o' : Outcome σ β) : Prop where
  result : Matches R o.result o'.result
  state : o.state = o'.state
  events : o.events = o'.events

theorem Outcome.Agree.after {R : α → β → Prop} {o : Outcome σ α} {o' : Outcome σ β}
    (h : o.Agree R o') (events : List Event) : (o.after events).Agree R (o'.after events) :=
  ⟨h.result, h.state, congrArg (events ++ ·) h.events⟩

namespace Run

/-- From every state, two runs do the same and match in the end. -/
def Agree (R : α → β → Prop) (run : Run σ α) (run' : Run σ β) : Prop :=
  ∀ s, (run s).Agree R (run' s)

namespace Agree

theorem refl {R : α → α → Prop} (hR : ∀ a, R a a) (run : Run σ α) : run.Agree R run :=
  fun _ => ⟨.refl hR _, rfl, rfl⟩

theorem symm {R : α → β → Prop} {S : β → α → Prop} (hR : ∀ a b, R a b → S b a) {run : Run σ α}
    {run' : Run σ β} (h : run.Agree R run') : run'.Agree S run :=
  fun s => ⟨(h s).result.symm hR, (h s).state.symm, (h s).events.symm⟩

theorem trans {R : α → β → Prop} {S : β → γ → Prop} {T : α → γ → Prop}
    (hR : ∀ a b c, R a b → S b c → T a c) {run : Run σ α} {run' : Run σ β} {run'' : Run σ γ}
    (h : run.Agree R run') (h' : run'.Agree S run'') : run.Agree T run'' :=
  fun s => ⟨(h s).result.trans hR (h' s).result, (h s).state.trans (h' s).state,
    (h s).events.trans (h' s).events⟩

theorem pure {R : α → β → Prop} {a : α} {b : β} (h : R a b) :
    (Pure.pure a : Run σ α).Agree R (Pure.pure b) :=
  fun _ => ⟨.ok h, rfl, rfl⟩

theorem fail {R : α → β → Prop} {e e' : Failure} (h : e.SameVariant e') :
    (Run.fail e : Run σ α).Agree R (Run.fail e') :=
  fun _ => ⟨.error h, rfl, rfl⟩

theorem ofExcept {R : α → β → Prop} {x : Except Failure α} {y : Except Failure β}
    (h : Matches R x y) : (Run.ofExcept x : Run σ α).Agree R (Run.ofExcept y) := by
  cases h with
  | ok hab => exact .pure hab
  | error he => exact .fail he

theorem step {R : α → β → Prop} {event : Event} {choose : σ → Run σ α} {choose' : σ → Run σ β}
    {move : σ → σ} (h : ∀ s, (choose s).Agree R (choose' s)) :
    (Run.step event choose move).Agree R (Run.step event choose' move) :=
  fun s => (h s (move s)).after [event]

theorem bind {R : α → β → Prop} {S : γ → δ → Prop} {run : Run σ α} {run' : Run σ β}
    {next : α → Run σ γ} {next' : β → Run σ δ} (h : run.Agree R run')
    (hnext : ∀ a b, R a b → (next a).Agree S (next' b)) :
    (run >>= next).Agree S (run' >>= next') := by
  intro s
  have hs := h s
  rw [bind_apply, bind_apply]
  generalize run s = o at hs ⊢
  generalize run' s = o' at hs ⊢
  obtain ⟨result, state, events⟩ := o
  obtain ⟨result', _, _⟩ := o'
  obtain ⟨hresult, rfl, rfl⟩ := hs
  cases hresult with
  | ok hab => exact (hnext _ _ hab state).after events
  | error he => exact ⟨.error he, rfl, rfl⟩

theorem mapM {R : α → β → Prop} {run : ι → Run σ α} {run' : κ → Run σ β} {items : List ι}
    {items' : List κ} (h : List.Forall₂ (fun i j => (run i).Agree R (run' j)) items items') :
    (items.mapM run).Agree (List.Forall₂ R) (items'.mapM run') := by
  induction h with
  | nil => exact .pure .nil
  | cons hitem _ ih =>
    rw [List.mapM_cons, List.mapM_cons]
    exact hitem.bind fun a b hab => ih.bind fun as bs has => .pure (.cons hab has)

end Agree

end Run

end CallBundle
