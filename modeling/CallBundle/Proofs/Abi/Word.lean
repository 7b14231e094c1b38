import Mathlib
import CallBundle.Abi.Layout
import CallBundle.Proofs.Abi.Written
import CallBundle.Proofs.Run

/-!
The words of single values. Main statements: `encodeWord_uint` and `encodeWord_int`, so integers are
encoded within their range, and `toOption_encodeWord_uint` with its companions for the other types of
one word, so a value is encoded as the element that it denotes is written, and no other value is.
-/

namespace CallBundle.Abi

theorem bitLength_le_iff (n bits : Nat) : bitLength n ≤ bits ↔ n < 2 ^ bits := by
  rw [bitLength]
  split
  case isTrue h => simp [h]
  case isFalse h => exact Nat.log2_lt h

theorem word_toInt (n : Int128) : word n.toInt = wordOfNat (n.signExtend 256).toNat := by
  have htoInt : (n.signExtend 256).toInt = n.toInt := BitVec.toInt_signExtend_of_le (by decide)
  have htoNat : (n.signExtend 256).toNat = (n.toInt % (2 ^ 256 : Nat)).toNat := by
    rw [← htoInt, ← BitVec.toNat_ofInt, BitVec.ofInt_toInt]
  rw [htoNat]
  rfl

theorem word_of_nonneg {z : Int} (h : 0 ≤ z) : word z = wordOfNat z.toNat := by
  obtain ⟨n, rfl⟩ := Int.eq_ofNat_of_zero_le h
  exact word_natCast n

namespace Ty

theorem hasEncodableWidth_uint (bits : Nat) :
    (uint bits).hasEncodableWidth ↔ IntegerWidth bits := by
  simp only [hasEncodableWidth, IntegerWidth, Bool.and_eq_true, decide_eq_true_eq, beq_iff_eq]
  omega

theorem hasEncodableWidth_int (bits : Nat) :
    (int bits).hasEncodableWidth ↔ IntegerWidth bits := hasEncodableWidth_uint bits

theorem hasEncodableWidth_fixedBytes (width : Nat) :
    (fixedBytes width).hasEncodableWidth ↔ BytesWidth width := by
  simp only [hasEncodableWidth, BytesWidth, Bool.and_eq_true, decide_eq_true_eq]
  omega

end Ty

theorem encodeWord_of_not_encodable {ty : Ty} (h : ¬ ty.hasEncodableWidth) (place : Place)
    (v : Value) : encodeWord ty place v = .error (.unsupportedType ty.text) := by
  unfold encodeWord
  exact if_neg h

theorem uintRange_iff {bits : Nat} (hwidth : IntegerWidth bits) (z : Int) :
    UintRange bits z ↔ 0 ≤ z ∧ bitLength z.toNat ≤ bits := by
  rw [UintRange, and_iff_right hwidth]
  apply and_congr_right
  intro hz
  rw [bitLength_le_iff, Int.toNat_lt hz, Nat.cast_pow, Nat.cast_ofNat]

theorem encodeWord_uint {bits : Nat} {v : Value} {z : Int} (hwidth : IntegerWidth bits)
    (hz : v.integer? = some z) (place : Place) :
    encodeWord (.uint bits) place v =
      if UintRange bits z then .ok (word z)
      else .error (.valueOutOfRange place (.uint bits) v) := by
  cases v with
  | uint n =>
    cases hz
    have hrange : bits < bitLength n.toNat ↔ ¬ UintRange bits n.toNat := by
      simp [uintRange_iff hwidth]
    rw [encodeWord, if_pos ((Ty.hasEncodableWidth_uint bits).mpr hwidth), word_natCast]
    simp only [hrange, ite_not]
    rfl
  | int n =>
    cases hz
    have hrange : n.toInt < 0 ∨ bits < bitLength n.toInt.toNat ↔ ¬ UintRange bits n.toInt := by
      rw [uintRange_iff hwidth, not_and_or, not_le, not_le]
    rw [encodeWord, if_pos ((Ty.hasEncodableWidth_uint bits).mpr hwidth)]
    simp only [hrange, ite_not]
    split
    case isTrue h => rw [word_of_nonneg h.2.1]
    case isFalse h => rfl
  | _ => cases hz

theorem intRange_natCast_iff {bits : Nat} (hwidth : IntegerWidth bits) (n : Nat) :
    IntRange bits n ↔ bitLength n < bits := by
  have hpos : bitLength n < bits ↔ bitLength n ≤ bits - 1 :=
    (Nat.le_sub_one_iff_lt (Nat.lt_of_lt_of_le (by decide) hwidth.2.1)).symm
  have hle : -2 ^ (bits - 1) ≤ (n : Int) :=
    (neg_nonpos.mpr (pow_nonneg (by decide) _)).trans (Int.natCast_nonneg n)
  rw [IntRange, and_iff_right hwidth, and_iff_right hle, hpos, bitLength_le_iff]
  exact_mod_cast Iff.rfl

/-- Integers of 128 bits fit every width from 128 bits on. -/
theorem intRange_toInt_iff {bits : Nat} (hwidth : IntegerWidth bits) (n : Int128) :
    IntRange bits n.toInt ↔
      128 ≤ bits ∨ (-2 ^ (bits - 1) ≤ n.toInt ∧ n.toInt < 2 ^ (bits - 1)) := by
  rw [IntRange, and_iff_right hwidth]
  apply Iff.intro Or.inr
  intro h
  cases h with
  | inl h =>
    have hpow : (2 : Int) ^ 127 ≤ 2 ^ (bits - 1) :=
      pow_le_pow_right₀ (by decide) (Nat.le_sub_one_of_lt h)
    exact ⟨(neg_le_neg hpow).trans n.le_toInt, n.toInt_lt.trans_le hpow⟩
  | inr h => exact h

theorem encodeWord_int {bits : Nat} {v : Value} {z : Int} (hwidth : IntegerWidth bits)
    (hz : v.integer? = some z) (place : Place) :
    encodeWord (.int bits) place v =
      if IntRange bits z then .ok (word z)
      else .error (.valueOutOfRange place (.int bits) v) := by
  cases v with
  | uint n =>
    cases hz
    have hrange : bits ≤ bitLength n.toNat ↔ ¬ IntRange bits n.toNat := by
      rw [intRange_natCast_iff hwidth, Nat.not_lt]
    rw [encodeWord, if_pos ((Ty.hasEncodableWidth_int bits).mpr hwidth), word_natCast]
    simp only [hrange, ite_not]
    rfl
  | int n =>
    cases hz
    have hrange : bits < 128 ∧ (n.toInt < -(Nat.pow 2 (bits - 1) : Nat) ∨
        (Nat.pow 2 (bits - 1) : Nat) ≤ n.toInt) ↔ ¬ IntRange bits n.toInt := by
      have hpow : ((Nat.pow 2 (bits - 1) : Nat) : Int) = 2 ^ (bits - 1) := Nat.cast_pow 2 (bits - 1)
      rw [intRange_toInt_iff hwidth, not_or, Nat.not_le, not_and_or, not_le, not_lt, hpow]
    rw [encodeWord, if_pos ((Ty.hasEncodableWidth_int bits).mpr hwidth), word_toInt]
    simp only [hrange, ite_not]
  | _ => cases hz

/-- A type with a range of integers encodes the integers in that range. -/
theorem toOption_encodeWord_integer {ty : Ty} {place : Place} {v : Value} (range : Int → Prop)
    [DecidablePred range] (hwidth : ∀ z, range z → ty.hasEncodableWidth)
    (hnone : v.integer? = none → (encodeWord ty place v).toOption = none)
    (hsome : ∀ z, ty.hasEncodableWidth → v.integer? = some z →
      encodeWord ty place v =
        if range z then .ok (word z) else .error (.valueOutOfRange place ty v)) :
    (encodeWord ty place v).toOption =
      (v.integer?.bind fun z => if h : range z then some (Subtype.mk z h) else none).map
        fun x => word x.val := by
  cases hz : v.integer? with
  | none => exact hnone hz
  | some z =>
    rw [Option.bind_some]
    by_cases hencodable : ty.hasEncodableWidth
    case pos =>
      rw [hsome z hencodable hz]
      split <;> rfl
    case neg =>
      rw [encodeWord_of_not_encodable hencodable, dif_neg (mt (hwidth z) hencodable)]
      rfl

theorem toOption_encodeWord_uint (bits : Nat) (place : Place) (v : Value) :
    (encodeWord (.uint bits) place v).toOption =
      (v.as? (.uint bits)).map (Ty.uint bits).write := by
  apply toOption_encodeWord_integer (UintRange bits)
  case hwidth => exact fun z h => (Ty.hasEncodableWidth_uint bits).mpr h.1
  case hsome => exact fun z h hz => encodeWord_uint ((Ty.hasEncodableWidth_uint bits).mp h) hz place
  case hnone =>
    unfold encodeWord
    cases v with
    | uint | int => exact nofun
    | _ =>
      intro _
      split <;> rfl

theorem toOption_encodeWord_int (bits : Nat) (place : Place) (v : Value) :
    (encodeWord (.int bits) place v).toOption = (v.as? (.int bits)).map (Ty.int bits).write := by
  apply toOption_encodeWord_integer (IntRange bits)
  case hwidth => exact fun z h => (Ty.hasEncodableWidth_int bits).mpr h.1
  case hsome => exact fun z h hz => encodeWord_int ((Ty.hasEncodableWidth_int bits).mp h) hz place
  case hnone =>
    unfold encodeWord
    cases v with
    | uint | int => exact nofun
    | _ =>
      intro _
      split <;> rfl

theorem toOption_encodeWord_fixedBytes (width : Nat) (place : Place) (v : Value) :
    (encodeWord (.fixedBytes width) place v).toOption =
      (v.as? (.fixedBytes width)).map (Ty.fixedBytes width).write := by
  by_cases hwidth : BytesWidth width
  case neg =>
    rw [encodeWord_of_not_encodable (mt (Ty.hasEncodableWidth_fixedBytes width).mp hwidth)]
    cases hb : v.blob? with
    | none => simp [Value.as?_fixedBytes, hb, Except.toOption]
    | some b => simp [Value.as?_fixedBytes, hb, hwidth, Except.toOption]
  case pos =>
    rw [encodeWord, if_pos ((Ty.hasEncodableWidth_fixedBytes width).mpr hwidth)]
    cases hb : v.blob? with
    | none => simp [Value.as?_fixedBytes, hb, Except.toOption]
    | some b =>
      by_cases hlen : b.length ≤ width
      case neg => simp [Value.as?_fixedBytes, hb, hlen, Nat.lt_of_not_le hlen, Except.toOption]
      case pos =>
        have hzeros : width - b.length + (32 - width) = 32 - b.length := by
          have h := hwidth.2
          omega
        simp [Value.as?_fixedBytes, hb, hwidth, hlen, Nat.not_lt.mpr hlen, Except.toOption, Ty.write,
          Bytes.zeros, hzeros]

theorem toOption_encodeWord_address (place : Place) (v : Value) :
    (encodeWord .address place v).toOption = (v.as? .address).map Ty.address.write := by
  cases v <;> rfl

theorem toOption_encodeWord_bool (place : Place) (v : Value) :
    (encodeWord .bool place v).toOption = (v.as? .bool).map Ty.bool.write := by
  cases v with
  | bool b => cases b <;> rfl
  | _ => rfl

end CallBundle.Abi
