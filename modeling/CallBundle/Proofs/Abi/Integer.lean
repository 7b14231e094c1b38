import Mathlib
import CallBundle.Proofs.Abi.Word

/-!
Integers in words, of both kinds and at every width. A width is right or wrong by itself, an integer
is in the range of a right width or not, and the word of one that is reads back as it. Main
statements: `signedRefusal?_eq` and `encodeWord_integer_iff_range`, so the ranges are those of the
numbers themselves and no step towards them overflows.
-/

namespace CallBundle.Abi

/-- The kinds of integer types. -/
inductive Signedness
  | unsigned
  | signed

namespace Signedness

def ty : Signedness → Nat → Ty
  | .unsigned => .uint
  | .signed => .int

/-- The integers that a width has room for. -/
def Range : Signedness → Nat → Int → Prop
  | .unsigned, bits, z => 0 ≤ z ∧ z < 2 ^ bits
  | .signed, bits, z => -2 ^ (bits - 1) ≤ z ∧ z < 2 ^ (bits - 1)

instance (sign : Signedness) (bits : Nat) (z : Int) : Decidable (sign.Range bits z) :=
  match sign with
  | .unsigned => inferInstanceAs (Decidable (_ ∧ _))
  | .signed => inferInstanceAs (Decidable (_ ∧ _))

/-- The integer of a word, which is in two's complement if there is a sign. -/
def read : Signedness → Bytes → Int
  | .unsigned, bytes => Bytes.toNat bytes
  | .signed, bytes => (BitVec.ofNat 256 (Bytes.toNat bytes)).toInt

variable {bits wider : Nat} {z : Int}

theorem hasEncodableWidth_ty (sign : Signedness) (bits : Nat) :
    (sign.ty bits).hasEncodableWidth ↔ IntegerWidth bits := by
  cases sign with
  | unsigned => exact Ty.hasEncodableWidth_uint bits
  | signed => exact Ty.hasEncodableWidth_int bits

theorem Range.mono {sign : Signedness} (h : sign.Range bits z) (hle : bits ≤ wider) :
    sign.Range wider z := by
  cases sign with
  | unsigned => exact ⟨h.1, h.2.trans_le (pow_le_pow_right₀ (by decide) hle)⟩
  | signed =>
    have hpow : (2 : Int) ^ (bits - 1) ≤ 2 ^ (wider - 1) :=
      pow_le_pow_right₀ (by decide) (Nat.sub_le_sub_right hle 1)
    exact ⟨(neg_le_neg hpow).trans h.1, h.2.trans_le hpow⟩

end Signedness

theorem toNat_word (z : Int) : Bytes.toNat (word z) = (z % 2 ^ 256).toNat :=
  Bytes.toNat_ofNat_of_lt (by omega)

theorem toInt_ofNat_toNat_word (z : Int) :
    (BitVec.ofNat 256 (Bytes.toNat (word z))).toInt = z.bmod (2 ^ 256) := by
  have hofInt : BitVec.ofNat 256 (Bytes.toNat (word z)) = BitVec.ofInt 256 z := by
    apply BitVec.eq_of_toNat_eq
    rw [toNat_word, BitVec.toNat_ofNat, BitVec.toNat_ofInt]
    omega
  rw [hofInt, BitVec.toInt_ofInt]

/-- An integer of 256 bits or less is read back from its word. -/
theorem Signedness.Range.read_word {sign : Signedness} {z : Int} (h : sign.Range 256 z) :
    sign.read (word z) = z := by
  cases sign with
  | unsigned =>
    rw [read, toNat_word, Int.toNat_of_nonneg (Int.emod_nonneg z (by decide)),
      Int.emod_eq_of_lt h.1 h.2]
  | signed =>
    rw [read, toInt_ofNat_toNat_word]
    exact Int.bmod_eq_of_le h.1 h.2

theorem encodeWord_ty {sign : Signedness} {bits : Nat} {v : Value} {z : Int}
    (hwidth : IntegerWidth bits) (hz : v.integer? = some z) (place : Place) :
    encodeWord (sign.ty bits) place v =
      if sign.Range bits z then .ok (word z)
      else .error (.valueOutOfRange place (sign.ty bits) v) := by
  cases sign with
  | unsigned =>
    have hrange : UintRange bits z ↔ Signedness.unsigned.Range bits z := and_iff_right hwidth
    rw [Signedness.ty, encodeWord_uint hwidth hz]
    simp only [hrange]
  | signed =>
    have hrange : IntRange bits z ↔ Signedness.signed.Range bits z := and_iff_right hwidth
    rw [Signedness.ty, encodeWord_int hwidth hz]
    simp only [hrange]

theorem encodeWord_ty_of_not_width {sign : Signedness} {bits : Nat} (h : ¬ IntegerWidth bits)
    (place : Place) (v : Value) :
    encodeWord (sign.ty bits) place v = .error (.unsupportedType (sign.ty bits).text) :=
  encodeWord_of_not_encodable (mt (sign.hasEncodableWidth_ty bits).mp h) place v

section

variable {sign : Signedness} {bits : Nat} {place : Place} {v : Value} {z : Int}

theorem encodeWord_ty_eq_unsupported_iff (hz : v.integer? = some z) :
    encodeWord (sign.ty bits) place v = .error (.unsupportedType (sign.ty bits).text) ↔
      ¬ IntegerWidth bits := by
  by_cases hwidth : IntegerWidth bits
  case neg => exact iff_of_true (encodeWord_ty_of_not_width hwidth place v) hwidth
  case pos =>
    rw [encodeWord_ty hwidth hz]
    split <;> simp [hwidth]

theorem encodeWord_ty_eq_outOfRange_iff (hz : v.integer? = some z) :
    encodeWord (sign.ty bits) place v = .error (.valueOutOfRange place (sign.ty bits) v) ↔
      IntegerWidth bits ∧ ¬ sign.Range bits z := by
  by_cases hwidth : IntegerWidth bits
  case neg => simp [encodeWord_ty_of_not_width hwidth, hwidth]
  case pos =>
    rw [encodeWord_ty hwidth hz, and_iff_right hwidth]
    split <;> simp [*]

theorem encodeWord_ty_eq_ok_iff (hz : v.integer? = some z) {out : Bytes} :
    encodeWord (sign.ty bits) place v = .ok out ↔
      IntegerWidth bits ∧ sign.Range bits z ∧ out = word z := by
  by_cases hwidth : IntegerWidth bits
  case neg => simp [encodeWord_ty_of_not_width hwidth, hwidth]
  case pos =>
    rw [encodeWord_ty hwidth hz, and_iff_right hwidth]
    split <;> simp [*, eq_comm]

end

/-- Takes a width from a width, unless the result is below zero. -/
def subWidth? (m n : UInt64) : Option UInt64 := if n ≤ m then some (m - n) else none

/-- Shifts by fewer places than there are, unless the result is another number than the shift stands
for. -/
def shiftLeft? (n : Int128) (places : UInt64) : Option Int128 :=
  if places.toNat < 128 ∧ (n <<< places.toNat).toInt = n.toInt * 2 ^ places.toNat then
    some (n <<< places.toNat)
  else none

def neg? (n : Int128) : Option Int128 := if n.negOverflow then none else some (-n)

/-- Whether an integer is out of range at a width, worked out in widths of 64 bits and integers of
128 bits. There is no answer if a step overflows. -/
def signedRefusal? (bits : UInt64) (n : Int128) : Option Bool :=
  if bits < 128 then do
    let places ← subWidth? bits 1
    let limit ← shiftLeft? 1#128 places
    let least ← neg? limit
    return n.slt least || limit.sle n
  else return false

theorem toInt_one_shiftLeft {places : Nat} (h : places < 127) :
    (1#128 <<< places).toInt = 2 ^ places := by
  rw [← BitVec.twoPow_eq, BitVec.toInt_twoPow, if_neg (by omega), if_neg (by omega)]

theorem shiftLeft?_one {places : UInt64} (h : places.toNat < 127) :
    shiftLeft? 1#128 places = some (1#128 <<< places.toNat) := by
  have hone : (1#128).toInt = 1 := by decide
  rw [shiftLeft?, if_pos]
  exact ⟨h.trans (by decide), by rw [toInt_one_shiftLeft h, hone, one_mul]⟩

/-- The limit is above zero, so that its negative has a place as well. -/
theorem neg?_one_shiftLeft {places : Nat} (h : places < 127) :
    ∃ least, neg? (1#128 <<< places) = some least ∧ least.toInt = -2 ^ places := by
  have hno : ¬ (1#128 <<< places).negOverflow := by
    have hpos : (0 : Int) < 2 ^ places := pow_pos (by decide) _
    rw [BitVec.negOverflow, toInt_one_shiftLeft h, beq_iff_eq]
    omega
  refine ⟨-(1#128 <<< places), if_neg hno, ?_⟩
  rw [BitVec.toInt_neg_of_not_negOverflow hno, toInt_one_shiftLeft h]

/-- No step overflows at a width that values can have, and the answer is that of the range. -/
theorem signedRefusal?_eq {bits : UInt64} (hwidth : IntegerWidth bits.toNat) (n : Int128) :
    signedRefusal? bits n = some (decide ¬ IntRange bits.toNat n.toInt) := by
  have hrange := intRange_toInt_iff hwidth n
  rw [signedRefusal?]
  split
  case isTrue hlt =>
    have hlt : bits.toNat < 128 := UInt64.lt_iff_toNat_lt.mp hlt
    have hpos : 1 ≤ bits.toNat := Nat.le_trans (by decide) hwidth.2.1
    have hone : (1 : UInt64) ≤ bits := UInt64.le_iff_toNat_le.mpr hpos
    have hplaces : (bits - 1).toNat = bits.toNat - 1 := UInt64.toNat_sub_of_le bits 1 hone
    have hbound : (bits - 1).toNat < 127 := by omega
    obtain ⟨least, hneg, hleast⟩ := neg?_one_shiftLeft hbound
    have hrefused : (n.slt least || (1#128 <<< (bits - 1).toNat).sle n) =
        decide ¬ IntRange bits.toNat n.toInt := by
      rw [Bool.eq_iff_iff, Bool.or_eq_true, BitVec.slt_iff_toInt_lt, BitVec.sle_iff_toInt_le,
        hleast, toInt_one_shiftLeft hbound, hplaces, decide_eq_true_iff, hrange,
        or_iff_right (Nat.not_le.mpr hlt), not_and_or, not_le, not_lt]
    simp only [subWidth?, if_pos hone, shiftLeft?_one hbound, hneg, Option.bind_eq_bind,
      Option.bind_some, Option.pure_def, hrefused]
  case isFalse hge =>
    have hge : 128 ≤ bits.toNat := UInt64.le_iff_toNat_le.mp (UInt64.not_lt.mp hge)
    rw [decide_eq_false (not_not.mpr (hrange.mpr (.inl hge)))]
    rfl

/-- Whether and how an integer is encoded depends on its value alone, however it is given. A width
that no value can have is refused for itself, and an integer out of range at a right width for that;
any other is read back from its word and has the same word at every wider width. The check of a
signed range comes to its answer without a step that overflows. -/
theorem encodeWord_integer_iff_range {v : Value} {z : Int} (hz : v.integer? = some z)
    (sign : Signedness) (bits : Nat) (place : Place) :
    (encodeWord (sign.ty bits) place v = .error (.unsupportedType (sign.ty bits).text) ↔
      ¬ IntegerWidth bits) ∧
    (encodeWord (sign.ty bits) place v = .error (.valueOutOfRange place (sign.ty bits) v) ↔
      IntegerWidth bits ∧ ¬ sign.Range bits z) ∧
    (∀ out, encodeWord (sign.ty bits) place v = .ok out ↔
      IntegerWidth bits ∧ sign.Range bits z ∧ out = Bytes.ofNat 32 (z % 2 ^ 256).toNat) ∧
    (∀ out, encodeWord (sign.ty bits) place v = .ok out →
      sign.read out = z ∧ ∀ wider, bits ≤ wider → IntegerWidth wider →
        encodeWord (sign.ty wider) place v = .ok out) ∧
    ∀ (width : UInt64) (n : Int128), IntegerWidth width.toNat →
      ∃ refused, signedRefusal? width n = some refused ∧
        (refused ↔ encodeWord (.int width.toNat) place (.int n) =
          .error (.valueOutOfRange place (.int width.toNat) (.int n))) := by
  refine ⟨encodeWord_ty_eq_unsupported_iff hz, encodeWord_ty_eq_outOfRange_iff hz,
    fun out => encodeWord_ty_eq_ok_iff hz, fun out hout => ?_, fun width n hwidth => ?_⟩
  · obtain ⟨hwidth, hrange, hword⟩ := (encodeWord_ty_eq_ok_iff hz).mp hout
    constructor
    · rw [hword]
      exact (hrange.mono hwidth.2.2).read_word
    · intro wider hle hwider
      exact (encodeWord_ty_eq_ok_iff hz).mpr ⟨hwider, hrange.mono hle, hword⟩
  · have hrange : IntRange width.toNat n.toInt ↔ Signedness.signed.Range width.toNat n.toInt :=
      and_iff_right hwidth
    have hrefused := @encodeWord_ty_eq_outOfRange_iff .signed width.toNat place (.int n) _ rfl
    refine ⟨_, signedRefusal?_eq hwidth n, ?_⟩
    rw [decide_eq_true_iff, hrange]
    exact ⟨fun h => hrefused.mpr ⟨hwidth, h⟩, fun h => (hrefused.mp h).2⟩

/-- The least integer of 128 bits, and the first one that is too large for 256 bits and a sign. -/
theorem encodeWord_integer_iff_range_ends :
    let least : Value := .int (BitVec.intMin 128)
    let large : Value := .uint (BitVec.intMin 256)
    let place : Place := .ofRoot "arg"
    (∀ out, encodeWord (.int 128) place least = .ok out →
      Signedness.signed.read out = -2 ^ 127 ∧ encodeWord (.int 256) place least = .ok out) ∧
    encodeWord (.int 128) place least = .ok (List.replicate 16 255 ++ 128 :: Bytes.zeros 15) ∧
    encodeWord (.int 120) place least = .error (.valueOutOfRange place (.int 120) least) ∧
    encodeWord (.int 256) place large = .error (.valueOutOfRange place (.int 256) large) ∧
    encodeWord (.uint 256) place large = .ok (128 :: Bytes.zeros 31) := by
  intro least large place
  have hleast : least.integer? = some (-2 ^ 127) := by decide
  have hlarge : large.integer? = some (2 ^ 255) := by decide
  obtain ⟨-, -, hok, hread, -⟩ := encodeWord_integer_iff_range hleast .signed 128 place
  obtain ⟨-, hrefused, -⟩ := encodeWord_integer_iff_range hleast .signed 120 place
  obtain ⟨-, hrefused', -⟩ := encodeWord_integer_iff_range hlarge .signed 256 place
  obtain ⟨-, -, hok', -⟩ := encodeWord_integer_iff_range hlarge .unsigned 256 place
  refine ⟨fun out hout => ?_, (hok _).mpr ?_, hrefused.mpr ?_, hrefused'.mpr ?_, (hok' _).mpr ?_⟩
  · obtain ⟨hvalue, hwider⟩ := hread out hout
    exact ⟨hvalue, hwider 256 (by decide) (by decide)⟩
  · decide
  · decide
  · decide
  · decide

end CallBundle.Abi
