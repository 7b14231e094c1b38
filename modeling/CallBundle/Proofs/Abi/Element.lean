import Mathlib
import CallBundle.Abi.Word
import CallBundle.Proofs.Denotation

/-!
The elements of a type, which are what its values denote however they are given. An element carries
the bounds of its type, so that what has no place in a word is no element: `UintRange.lt`,
`IntRange.lt`. What a byte string denotes is said by `Value.Denotes`, and the encoder reads that:
`blob?_eq_some_iff`.
-/

namespace CallBundle.Abi

/-- Integers take whole bytes, and no more than a word. -/
def IntegerWidth (bits : Nat) : Prop := 8 ∣ bits ∧ 8 ≤ bits ∧ bits ≤ 256

def UintRange (bits : Nat) (z : Int) : Prop := IntegerWidth bits ∧ 0 ≤ z ∧ z < 2 ^ bits

def IntRange (bits : Nat) (z : Int) : Prop :=
  IntegerWidth bits ∧ -2 ^ (bits - 1) ≤ z ∧ z < 2 ^ (bits - 1)

def BytesWidth (width : Nat) : Prop := 1 ≤ width ∧ width ≤ 32

instance (bits : Nat) : Decidable (IntegerWidth bits) :=
  inferInstanceAs (Decidable (_ ∧ _ ∧ _))

instance (bits : Nat) (z : Int) : Decidable (UintRange bits z) :=
  inferInstanceAs (Decidable (_ ∧ _ ∧ _))

instance (bits : Nat) (z : Int) : Decidable (IntRange bits z) :=
  inferInstanceAs (Decidable (_ ∧ _ ∧ _))

instance (width : Nat) : Decidable (BytesWidth width) :=
  inferInstanceAs (Decidable (_ ∧ _))

theorem UintRange.lt {bits : Nat} {z : Int} (h : UintRange bits z) : z < 2 ^ 256 :=
  h.2.2.trans_le (pow_le_pow_right₀ (by decide) h.1.2.2)

theorem IntRange.le {bits : Nat} {z : Int} (h : IntRange bits z) : -2 ^ 255 ≤ z := by
  have hpow : (2 : Int) ^ (bits - 1) ≤ 2 ^ 255 :=
    pow_le_pow_right₀ (by decide) (Nat.sub_le_sub_right h.1.2.2 1)
  exact (neg_le_neg hpow).trans h.2.1

theorem IntRange.lt {bits : Nat} {z : Int} (h : IntRange bits z) : z < 2 ^ 255 :=
  h.2.2.trans_le (pow_le_pow_right₀ (by decide) (Nat.sub_le_sub_right h.1.2.2 1))

namespace Ty

@[reducible] def El : Ty → Type
  | .address => Address
  | .bool => Bool
  | .string => String
  | .bytes => Bytes
  | .fixedBytes width => { bytes : Bytes // BytesWidth width ∧ bytes.length = width }
  | .uint bits => { z : Int // UintRange bits z }
  | .int bits => { z : Int // IntRange bits z }
  | .array element => List element.El
  | .fixedArray element length => { xs : List element.El // xs.length = length }

/-- The elements of several types, one of each. -/
@[reducible] def Els : List Ty → Type
  | [] => Unit
  | ty :: tys => ty.El × Els tys

end Ty

namespace Value

def integer? : Value → Option Int
  | .uint n => some n.toNat
  | .int n => some n.toInt
  | _ => none

def items? : Value → Option (List Value)
  | .array vs => some vs
  | _ => none

/-- A byte string denotes itself, and a text the bytes that its digits are. -/
inductive Denotes : Value → Bytes → Prop
  | bytes (b : Bytes) : Denotes (.bytes b) b
  | string {s : String} {digits : List Char} {b : Bytes} :
      Hex.Marked s digits → Hex.Denotes digits b → Denotes (.string s) b

theorem denotes_string_iff {s : String} {b : Bytes} :
    (string s).Denotes b ↔ Bytes.ofHexText? s = some b := by
  rw [Bytes.ofHexText?_iff_denotes]
  constructor
  · rintro (_ | ⟨hmarked, hdenotes⟩)
    exact ⟨_, hmarked, hdenotes⟩
  · rintro ⟨digits, hmarked, hdenotes⟩
    exact .string hmarked hdenotes

def denoted? : (v : Value) → Option { b : Bytes // v.Denotes b }
  | .bytes b => some ⟨b, .bytes b⟩
  | .string s => (Bytes.ofHexText? s).attach.map fun b => ⟨b.val, denotes_string_iff.mpr b.property⟩
  | _ => none

/-- The encoder takes a value for the byte string that it denotes. -/
theorem blob?_eq_some_iff {v : Value} {b : Bytes} : v.blob? = some b ↔ v.Denotes b := by
  cases v with
  | bytes b' =>
    constructor
    · rintro ⟨⟩
      exact .bytes b
    · rintro ⟨⟩
      rfl
  | string s => exact denotes_string_iff.symm
  | _ => exact iff_of_false nofun nofun

theorem map_denoted? (v : Value) : v.denoted?.map Subtype.val = v.blob? := by
  cases v with
  | string s => simp [denoted?, blob?]
  | _ => rfl

/-- The element of the type that a value denotes, if any. A byte string of a fixed width is filled
up on the right. -/
def as? : (ty : Ty) → Value → Option ty.El
  | .address, v => match v with
    | .address a => some a
    | _ => none
  | .bool, v => match v with
    | .bool b => some b
    | _ => none
  | .string, v => match v with
    | .string s => some s
    | _ => none
  | .bytes, v => v.denoted?.map Subtype.val
  | .fixedBytes width, v => do
    let b ← v.denoted?
    if h : BytesWidth width ∧ b.val.length ≤ width then
      some ⟨b.val ++ Bytes.zeros (width - b.val.length), h.1, by simp; omega⟩
    else none
  | .uint bits, v => do
    let z ← v.integer?
    if h : UintRange bits z then some ⟨z, h⟩ else none
  | .int bits, v => do
    let z ← v.integer?
    if h : IntRange bits z then some ⟨z, h⟩ else none
  | .array element, v => do (← v.items?).mapM (as? element)
  | .fixedArray element length, v => do
    let xs ← (← v.items?).mapM (as? element)
    if h : xs.length = length then some ⟨xs, h⟩ else none

theorem as?_bytes (v : Value) : v.as? .bytes = v.blob? := map_denoted? v

theorem as?_fixedBytes (width : Nat) (v : Value) :
    v.as? (.fixedBytes width) = v.blob?.bind fun b =>
      if h : BytesWidth width ∧ b.length ≤ width then
        some ⟨b ++ Bytes.zeros (width - b.length), h.1, by simp; omega⟩
      else none := by
  rw [← map_denoted?, Option.bind_map]
  rfl

def allAs? : (tys : List Ty) → List Value → Option (Ty.Els tys)
  | [], [] => some ()
  | ty :: tys, v :: vs => do return (← v.as? ty, ← allAs? tys vs)
  | _, _ => none

end Value

end CallBundle.Abi
