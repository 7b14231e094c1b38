import CallBundle.Abi.Layout
import CallBundle.Coercion

/-!
Sources of actions, and collecting what several of them yield. Sources run strictly one after another,
since a later one may depend on what an earlier one did to the state.
-/

namespace CallBundle

/-- A call of one function: its signature and parameters as the caller writes them. -/
structure Call (σ : Type) where
  context : Context σ
  target : Entity
  signature : String
  params : List (Param σ)
  value : Uint256 := 0

/-- The one action of a call. The signature and the number of parameters are checked before anything
is looked up. -/
def Call.action {σ : Type} (call : Call σ) : Run σ Action := do
  let signature ← Run.ofExcept (Signature.ofText call.signature)
  if call.params.length = signature.inputs.length then
    let target ← call.context.entity call.target
    let vs ← call.context.coerceAll signature.text signature.inputs call.params
    let data ← Run.ofExcept (Abi.encodeCall signature vs)
    Run.log (.callEncoded signature.text target data.length)
    return ⟨target, data, call.value⟩
  else
    Run.fail (.arityMismatch (.parameters signature.text) signature.inputs.length
      call.params.length)

/-- `computed label choose next` is known by its label: run in a state `s`, it goes on as the source
`choose s` from the state `next s`. -/
inductive Source (σ : Type)
  | actions : List Action → Source σ
  | failing : Failure → Source σ
  | call : Call σ → Source σ
  | sequence : List (Source σ) → Source σ
  | computed (label : String) (choose : σ → Source σ) (next : σ → σ) : Source σ

namespace Source

variable {σ : Type}

mutual

def actionsOf : Source σ → Run σ (List Action)
  | .actions as => pure as
  | .failing e => Run.fail e
  | .call c => do return [← c.action]
  | .sequence sources => do
    let as ← collectFrom 0 sources
    Run.log (.aggregateDone sources.length as.length)
    return as
  | .computed label choose next => Run.step (.compute label) (fun s => actionsOf (choose s)) next

/-- Runs sources one after another; `index` is that of the first. -/
def collectFrom : Nat → List (Source σ) → Run σ (List Action)
  | _, [] => pure []
  | index, source :: sources => do
    let as ← source.actionsOf
    Run.log (.producerDone index as.length)
    return as ++ (← collectFrom (index + 1) sources)

end

def collect (sources : List (Source σ)) : Run σ (List Action) := do
  let as ← collectFrom 0 sources
  Run.log (.aggregateDone sources.length as.length)
  return as

theorem actionsOf_sequence (sources : List (Source σ)) :
    actionsOf (.sequence sources) = collect sources := by
  simp only [actionsOf, collect]

end Source

end CallBundle
