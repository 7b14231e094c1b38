import CallBundle.Failure

/-!
Entities: the target of a call or an address among its arguments, as an address or as a name that
still has to be looked up.
-/

namespace CallBundle

inductive Entity
  | address : Address → Entity
  | identifier : String → Entity
  deriving DecidableEq

namespace Entity

/-- Names that mean the zero address and are never looked up. -/
def zeroNames : List String := ["ETH", "XDAI", "ZERO_ADDRESS"]

/-- A text that reads as an address is one; any other is a name, without the white space around
it. -/
def ofText (raw : String) : Entity :=
  match Address.ofText? raw with
  | some a => .address a
  | none => .identifier (String.ofList (Text.trim raw.toList))

def isZeroName : Entity → Bool
  | .address _ => false
  | .identifier name => name ∈ zeroNames

def text : Entity → String
  | .address a => a.text
  | .identifier name => name

end Entity

def Address.ofText (raw : String) : Except Failure Address :=
  match Address.ofText? raw with
  | some a => .ok a
  | none => .error (.invalidAddress raw .address)

end CallBundle
