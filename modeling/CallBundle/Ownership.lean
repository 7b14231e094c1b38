import CallBundle.Settings
import CallBundle.Source

/-!
Calls of a forwarding account to itself that change its owners, its threshold and its modules. Owners
and modules form linked lists, so that removing one takes the entry that points at it. A threshold is
a count and is never scaled.
-/

namespace CallBundle.Ownership

variable {σ : Type}

/-- A call of the account to itself. -/
def selfCall (settings : Settings) (signature : String) (params : List (Param σ)) : Call σ where
  context := settings.context
  target := .address settings.forwarder
  signature := signature
  params := params

def threshold (count : UInt64) : Param σ := .uint (BitVec.ofNat 256 count.toNat)

def addOwner (settings : Settings) (owner : Entity) (count : UInt64) : Call σ :=
  selfCall settings "addOwnerWithThreshold(address,uint256)" [.ofEntity owner, threshold count]

def removeOwner (settings : Settings) (previous owner : Entity) (count : UInt64) : Call σ :=
  selfCall settings "removeOwner(address,address,uint256)"
    [.ofEntity previous, .ofEntity owner, threshold count]

def changeThreshold (settings : Settings) (count : UInt64) : Call σ :=
  selfCall settings "changeThreshold(uint256)" [threshold count]

def enableModule (settings : Settings) (enabled : Entity) : Call σ :=
  selfCall settings "enableModule(address)" [.ofEntity enabled]

def disableModule (settings : Settings) (previous disabled : Entity) : Call σ :=
  selfCall settings "disableModule(address,address)" [.ofEntity previous, .ofEntity disabled]

end CallBundle.Ownership
