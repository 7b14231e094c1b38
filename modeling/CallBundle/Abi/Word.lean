import CallBundle.Failure

/-!
Values that fill one word of 32 bytes: addresses, booleans, integers and short byte strings.
-/

namespace CallBundle.Abi

def wordOfNat (n : Nat) : Bytes := Bytes.ofNat 32 n

def bitLength (n : Nat) : Nat := if n = 0 then 0 else n.log2 + 1

/-- The bytes that a value stands for: its own, or those a marked hexadecimal text denotes. -/
def Value.blob? : Value → Option Bytes
  | .bytes b => some b
  | .string s => Bytes.ofHexText? s
  | _ => none

/-- The word of a value of a scalar static type. Integers must fit the width of the type, with the
sign bit of a signed type left to the sign; byte strings are filled up on the right. -/
def encodeWord (ty : Ty) (place : Place) (v : Value) : Except Failure Bytes :=
  if ty.hasEncodableWidth then
    match ty, v with
    | .address, .address a => .ok (Bytes.zeros 12 ++ a.bytes)
    | .bool, .bool b => .ok (wordOfNat b.toNat)
    | .uint bits, .uint n =>
      if bits < bitLength n.toNat then .error (.valueOutOfRange place ty v)
      else .ok (wordOfNat n.toNat)
    | .uint bits, .int n =>
      if n.toInt < 0 ∨ bits < bitLength n.toInt.toNat then .error (.valueOutOfRange place ty v)
      else .ok (wordOfNat n.toInt.toNat)
    | .int bits, .uint n =>
      if bits ≤ bitLength n.toNat then .error (.valueOutOfRange place ty v)
      else .ok (wordOfNat n.toNat)
    | .int bits, .int n =>
      let limit : Int := Nat.pow 2 (bits - 1)
      if bits < 128 ∧ (n.toInt < -limit ∨ limit ≤ n.toInt) then
        .error (.valueOutOfRange place ty v)
      else .ok (wordOfNat (n.signExtend 256).toNat)
    | .fixedBytes width, v =>
      match v.blob? with
      | none => .error (.typeMismatch place ty v)
      | some b =>
        if width < b.length then .error (.valueOutOfRange place ty v)
        else .ok (b ++ Bytes.zeros (32 - b.length))
    | ty, v => .error (.typeMismatch place ty v)
  else .error (.unsupportedType ty.text)

end CallBundle.Abi
