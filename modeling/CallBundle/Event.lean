import CallBundle.Action
import CallBundle.Failure

/-!
What happens in a run, in the order in which it happens: names looked up, deferred parameters forced,
computed producers run, actions submitted, and lines logged.
-/

namespace CallBundle

inductive LogLevel
  | debug
  | info
  | warn
  deriving DecidableEq

inductive LogLine
  | entityUnresolved (name : String)
  | entityResolved (name : String) (address : Address)
  | callEncoded (signature : String) (target : Address) (dataLength : Nat)
  | producerDone (index actions : Nat)
  | aggregateDone (producers actions : Nat)
  | scriptEncoded (specId : UInt32) (actions bytes : Nat)
  | rejectedEmpty (producers : Nat)
  | rejectedValue (index : Nat) (target : Address) (value : Uint256)
  | planEncoded (forwarder : Address) (actions dataLength : Nat)
  | preActionSubmit (index : Nat) (target : Address)
  | preActionFailed (index : Nat) (failure : Failure)
  | preActionReverted (index : Nat) (txHash : String)
  | preActionConfirmed (index : Nat) (txHash : String)
  | mainActionSubmit (target : Address)
  | mainActionFailed (failure : Failure)
  | mainActionConfirmed (txHash : String) (success : Bool)

namespace LogLine

def level : LogLine → LogLevel
  | .entityUnresolved .. => .debug
  | .entityResolved .. => .debug
  | .callEncoded .. => .debug
  | .producerDone .. => .debug
  | .aggregateDone .. => .debug
  | .scriptEncoded .. => .debug
  | .rejectedEmpty .. => .warn
  | .rejectedValue .. => .warn
  | .planEncoded .. => .info
  | .preActionSubmit .. => .info
  | .preActionFailed .. => .warn
  | .preActionReverted .. => .warn
  | .preActionConfirmed .. => .info
  | .mainActionSubmit .. => .info
  | .mainActionFailed .. => .warn
  | .mainActionConfirmed .. => .info

def message : LogLine → String
  | .entityUnresolved name => s!"entity_unresolved name={name} reason=no_directory"
  | .entityResolved name address => s!"entity_resolved name={name} address={address.text}"
  | .callEncoded signature target dataLength =>
    s!"call_encoded signature={signature} to={target.text} data_len={dataLength}"
  | .producerDone index actions => s!"aggregate_producer_done index={index} actions={actions}"
  | .aggregateDone producers actions =>
    s!"aggregate_done producers={producers} actions={actions}"
  | .scriptEncoded specId actions bytes =>
    s!"call_script_encoded spec_id={specId.toNat} actions={actions} bytes={bytes}"
  | .rejectedEmpty producers =>
    s!"forward_encode_rejected reason=no_actions producers={producers}"
  | .rejectedValue index target value =>
    "forward_encode_rejected reason=value_on_inner_action " ++
      s!"index={index} to={target.text} value={value.toNat}"
  | .planEncoded forwarder actions dataLength =>
    s!"forward_encoded forwarder={forwarder.text} actions={actions} data_len={dataLength}"
  | .preActionSubmit index target => s!"forward_pre_action_submit index={index} to={target.text}"
  | .preActionFailed index failure =>
    s!"forward_pre_action_failed index={index} error={failure}"
  | .preActionReverted index txHash =>
    s!"forward_pre_action_reverted index={index} tx_hash={txHash}"
  | .preActionConfirmed index txHash =>
    s!"forward_pre_action_confirmed index={index} tx_hash={txHash}"
  | .mainActionSubmit target => s!"forward_main_action_submit to={target.text}"
  | .mainActionFailed failure => s!"forward_main_action_failed error={failure}"
  | .mainActionConfirmed txHash success =>
    s!"forward_main_action_confirmed tx_hash={txHash} success={success}"

end LogLine

inductive Event
  | lookup (name : String)
  | force (label : String)
  | compute (label : String)
  | submit (action : Action) (gas : Gas)
  | log (line : LogLine)

end CallBundle
