/-!
Byte strings, the numbers written in them with the most significant byte first, and the UTF-8 bytes
of a text. Main statements: `length_ofNat` and `ofNat_toNat`, so each byte string of length `width` is
that of a number.
-/

namespace CallBundle

abbrev Bytes := List UInt8

namespace Bytes

/-- The low `width` bytes of `n`, most significant first. -/
def ofNat : Nat → Nat → Bytes
  | 0, _ => []
  | width + 1, n => ofNat width (n / 256) ++ [UInt8.ofNat n]

/-- The number that has `bytes` as its digits to base 256, most significant first. -/
def toNat (bytes : Bytes) : Nat :=
  bytes.foldl (fun n b => 256 * n + b.toNat) 0

def zeros (n : Nat) : Bytes := List.replicate n 0

def ofText (text : String) : Bytes :=
  text.toList.flatMap String.utf8EncodeChar

@[simp] theorem length_ofNat (width n : Nat) : (ofNat width n).length = width := by
  induction width generalizing n with
  | zero => rfl
  | succ width ih => simp [ofNat, ih]

@[simp] theorem length_zeros (n : Nat) : (zeros n).length = n := by
  simp [zeros]

@[simp] theorem toNat_nil : toNat [] = 0 := rfl

@[simp] theorem toNat_concat (bytes : Bytes) (b : UInt8) :
    toNat (bytes ++ [b]) = 256 * toNat bytes + b.toNat := by
  simp [toNat]

theorem ofNat_concat (width : Nat) (n : Nat) (b : UInt8) :
    ofNat (width + 1) (256 * n + b.toNat) = ofNat width n ++ [b] := by
  have hb := b.toNat_lt
  rw [ofNat, show (256 * n + b.toNat) / 256 = n by omega]
  congr 2
  apply UInt8.toNat_inj.mp
  rw [UInt8.toNat_ofNat']
  omega

theorem ofNat_toNat (bytes : Bytes) : ofNat bytes.length (toNat bytes) = bytes := by
  suffices h : ∀ reversed : Bytes,
      ofNat reversed.reverse.length (toNat reversed.reverse) = reversed.reverse by
    simpa using h bytes.reverse
  intro reversed
  induction reversed with
  | nil => rfl
  | cons b reversed ih =>
    rw [List.reverse_cons, List.length_append, toNat_concat]
    exact (ofNat_concat _ _ b).trans (congrArg (· ++ [b]) ih)

end Bytes

end CallBundle
