import CallBundle.Coercion
import CallBundle.Frame

/-!
The settings of a forwarding account: its address, the identifier that its call scripts carry, and the
precision at which decimal literals are scaled for it.
-/

namespace CallBundle

structure Settings where
  forwarder : Address
  specId : UInt32 := Script.defaultSpecId
  precision : Nat := defaultPrecision
  deriving DecidableEq

/-- Parameters are read at the precision of the settings, without a directory. -/
def Settings.context {σ : Type} (settings : Settings) : Context σ :=
  ⟨settings.precision, none⟩

end CallBundle
