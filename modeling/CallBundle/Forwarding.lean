import CallBundle.Settings
import CallBundle.Source

/-!
Forwarding: the actions of all sources become one call script, and the script the argument of one call
of the forwarding account. The script has no room for wei, so an action that carries some is refused.
Submitting a plan sends one action at a time and stops at the first that fails; what is confirmed
stays confirmed.
-/

namespace CallBundle

def forwardSignature : String := "forward(bytes)"

/-- Sends an action and answers once it has been confirmed or has failed. -/
structure Submitter (σ : Type) where
  submit : Action → Gas → σ → Except Failure Receipt × σ

/-- The first action with wei attached, under its index; `index` is that of the first action. -/
def firstWithValue : Nat → List Action → Option (Nat × Action)
  | _, [] => none
  | index, a :: as => if a.value = 0 then firstWithValue (index + 1) as else some (index, a)

namespace Plan

variable {σ : Type}

/-- The one call that forwards the actions that `sources` sources have yielded. -/
def ofActions (settings : Settings) (sources : Nat) (actions : List Action) : Run σ Plan :=
  if actions = [] then do
    Run.log (.rejectedEmpty sources)
    Run.fail .noActions
  else match firstWithValue 0 actions with
    | some (index, a) => do
      Run.log (.rejectedValue index a.target a.value)
      Run.fail (.unforwardableValue index a.target a.value)
    | none => do
      let script ← Run.ofExcept (Script.ofActions settings.specId actions).toBytes
      Run.log (.scriptEncoded settings.specId actions.length script.length)
      let data ← Run.ofExcept (Abi.encodeCallText forwardSignature [.bytes script])
      Run.log (.planEncoded settings.forwarder actions.length data.length)
      return ⟨⟨settings.forwarder, data, 0⟩, []⟩

def ofSources (settings : Settings) (sources : List (Source σ)) : Run σ Plan := do
  ofActions settings sources.length (← Source.collect sources)

/-- Sends one action. A failure is logged and passed on. -/
def send (submitter : Submitter σ) (gas : Gas) (failed : Failure → LogLine) (action : Action) :
    Run σ Receipt := do
  match ← (Run.ask (.submit action gas) (submitter.submit action gas)).attempt with
  | .ok receipt => return receipt
  | .error e => do
    Run.log (failed e)
    Run.fail e

/-- Sends the actions that come before the main one; `index` is that of the first. An action that was
reverted counts as failed. -/
def sendPre (submitter : Submitter σ) (gas : Gas) : Nat → List Action → Run σ Unit
  | _, [] => pure ()
  | index, action :: actions => do
    Run.log (.preActionSubmit index action.target)
    let receipt ← send submitter gas (.preActionFailed index) action
    if receipt.success then
      Run.log (.preActionConfirmed index receipt.txHash)
      sendPre submitter gas (index + 1) actions
    else
      Run.log (.preActionReverted index receipt.txHash)
      Run.fail (.submission (.reverted index receipt.txHash))

/-- Sends the actions of a plan. The receipt of the main action is passed on whatever it says. -/
def submit (plan : Plan) (submitter : Submitter σ) (gas : Gas) : Run σ Receipt := do
  sendPre submitter gas 0 plan.pre
  Run.log (.mainActionSubmit plan.main.target)
  let receipt ← send submitter gas .mainActionFailed plan.main
  Run.log (.mainActionConfirmed receipt.txHash receipt.success)
  return receipt

end Plan

/-- Plans the call that forwards all actions of the sources, and submits it. -/
def forward {σ : Type} (settings : Settings) (submitter : Submitter σ) (gas : Gas)
    (sources : List (Source σ)) : Run σ Receipt := do
  let plan ← Plan.ofSources settings sources
  plan.submit submitter gas

end CallBundle
