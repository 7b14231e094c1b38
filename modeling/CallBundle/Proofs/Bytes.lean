import Mathlib
import CallBundle.Bytes

/-!
Numbers and texts in byte strings, read back. Main statements: `toNat_ofNat` and `toNat_lt`, so
numbers below `256 ^ width` and byte strings of length `width` are the same thing.
-/

namespace CallBundle.Bytes

theorem toNat_ofNat (width n : Nat) : toNat (ofNat width n) = n % 256 ^ width := by
  induction width generalizing n with
  | zero => simp [ofNat, Nat.mod_one]
  | succ width ih =>
    have hb : (UInt8.ofNat n).toNat = n % 256 := by simp
    rw [ofNat, toNat_concat, ih, hb, Nat.pow_succ, Nat.mul_comm (256 ^ width), Nat.mod_mul]
    omega

theorem toNat_lt (bytes : Bytes) : toNat bytes < 256 ^ bytes.length := by
  have h := toNat_ofNat bytes.length (toNat bytes)
  rw [ofNat_toNat] at h
  rw [h]
  exact Nat.mod_lt _ (Nat.pow_pos (by decide))

theorem toNat_ofNat_of_lt {width n : Nat} (h : n < 256 ^ width) : toNat (ofNat width n) = n := by
  rw [toNat_ofNat, Nat.mod_eq_of_lt h]

theorem ofNat_toNat_of_length {bytes : Bytes} {width : Nat} (h : bytes.length = width) :
    ofNat width (toNat bytes) = bytes := by
  subst h
  exact ofNat_toNat bytes

theorem ofNat_mod (width n : Nat) : ofNat width (n % 256 ^ width) = ofNat width n := by
  rw [← toNat_ofNat]
  exact ofNat_toNat_of_length (length_ofNat width n)

/-- Reads UTF-8. -/
def toText? (bytes : Bytes) : Option String := String.fromUTF8? bytes.toByteArray

theorem toText?_ofText (text : String) : toText? (ofText text) = some text := by
  have h : (ofText text).toByteArray = text.toByteArray := String.utf8Encode_toList
  rw [toText?, h, String.fromUTF8?, dif_pos text.isValidUTF8]
  rfl

end CallBundle.Bytes
