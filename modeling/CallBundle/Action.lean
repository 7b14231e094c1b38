import CallBundle.Abi.Value

/-!
Actions, and what goes with sending one: the gas settings that are passed on and the receipt that
comes back.
-/

namespace CallBundle

/-- Calls `target` with `data`, with `value` wei attached. -/
structure Action where
  target : Address
  data : Bytes
  value : Uint256 := 0
  deriving DecidableEq

structure Gas where
  price : Option Uint256 := none
  limit : Option Uint256 := none
  deriving DecidableEq

structure Receipt where
  txHash : String
  block : Option Nat
  success : Bool
  deriving DecidableEq

/-- A main action and the actions that have to be confirmed before it. -/
structure Plan where
  main : Action
  pre : List Action
  deriving DecidableEq

end CallBundle
