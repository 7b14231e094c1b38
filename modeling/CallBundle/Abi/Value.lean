import CallBundle.Address
import CallBundle.Text.Quoted

/-!
Values ready to be encoded.
-/

namespace CallBundle

abbrev Uint256 := BitVec 256

/-- Signed integers of 128 bits, in two's complement. -/
abbrev Int128 := BitVec 128

namespace Abi

inductive Value
  | address : Address → Value
  | uint : Uint256 → Value
  | int : Int128 → Value
  | bool : Bool → Value
  | bytes : Bytes → Value
  | string : String → Value
  | array : List Value → Value

namespace Value

mutual

/-- Strings stand between quotes and arrays between brackets, with commas between the elements. -/
def text : Value → String
  | .address a => a.text
  | .uint n => toString n.toNat
  | .int n => toString n.toInt
  | .bool b => toString b
  | .bytes b => Hex.text b
  | .string s => Text.quoted s
  | .array vs => "[" ++ ",".intercalate (texts vs) ++ "]"

def texts : List Value → List String
  | [] => []
  | v :: vs => v.text :: texts vs

end

instance : ToString Value := ⟨text⟩

@[simp] theorem texts_eq_map (vs : List Value) : texts vs = vs.map text := by
  induction vs with
  | nil => rfl
  | cons v vs ih => simp [texts, ih]

end Value

end Abi

end CallBundle
