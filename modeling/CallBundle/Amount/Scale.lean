import CallBundle.Failure

/-!
Decimal amounts such as `1.5`, scaled by a power of ten to integers of 256 bits.
-/

namespace CallBundle.Amount

/-- The highest power of ten that amounts are scaled by, and the highest below `2 ^ 256`. -/
def maxPrecision : Nat := 77

/-- What stands before and after the first point. -/
def splitPoint (cs : List Char) : List Char × List Char :=
  (cs.takeWhile (· ≠ '.'), (cs.dropWhile (· ≠ '.')).drop 1)

/-- The bytes of a text, one for each character of ASCII. -/
def utf8 (cs : List Char) : Bytes := cs.flatMap String.utf8EncodeChar

def isDigitByte (b : UInt8) : Bool := 48 ≤ b.toNat && b.toNat ≤ 57

/-- Underscores may stand between digits and count for nothing. -/
def isSeparatorByte (b : UInt8) : Bool := b.toNat == 95

/-- How many digits are taken before a number is compared with `2 ^ 256`. -/
def blockLength : Nat := 19

/-- Reads digits and underscores behind `count` digits that denote `n`. A number is found to be too
large at the end of a block of digits or of the text, and a byte that is no part of a number where it
stands, whichever comes first. -/
def readBytes (n count : Nat) : Bytes → Except ScaleFault Uint256
  | [] => if n < Nat.pow 2 256 then .ok (BitVec.ofNat 256 n) else .error .tooLarge
  | b :: bytes =>
    if isSeparatorByte b then readBytes n count bytes
    else if !isDigitByte b then .error (.badByte b)
    else
      let n := 10 * n + (b.toNat - 48)
      if (count + 1) % blockLength = 0 ∧ Nat.pow 2 256 ≤ n then .error .tooLarge
      else readBytes n (count + 1) bytes

/-- The number that the digits among the bytes denote, behind digits that denote `n`. -/
def valueOfBytes (n : Nat) (bytes : Bytes) : Nat :=
  bytes.foldl (fun n b => if isDigitByte b then 10 * n + (b.toNat - 48) else n) n

theorem valueOfBytes_cons (n : Nat) {b : UInt8} (bytes : Bytes) (h : isDigitByte b) :
    valueOfBytes n (b :: bytes) = valueOfBytes (10 * n + (b.toNat - 48)) bytes := by
  simp [valueOfBytes, h]

theorem valueOfBytes_cons_separator (n : Nat) {b : UInt8} (bytes : Bytes)
    (h : isSeparatorByte b) : valueOfBytes n (b :: bytes) = valueOfBytes n bytes := by
  simp only [isSeparatorByte, beq_iff_eq] at h
  simp [valueOfBytes, isDigitByte, h]

theorem le_valueOfBytes (n : Nat) (bytes : Bytes) : n ≤ valueOfBytes n bytes := by
  induction bytes generalizing n with
  | nil => exact Nat.le_refl n
  | cons b bytes ih =>
    refine Nat.le_trans ?_ (ih (if isDigitByte b then 10 * n + (b.toNat - 48) else n))
    split <;> omega

/-- What is read does not depend on the blocks. -/
theorem readBytes_eq_ok_iff {n count : Nat} {bytes : Bytes} {v : Uint256} :
    readBytes n count bytes = .ok v ↔
      (∀ b ∈ bytes, isDigitByte b ∨ isSeparatorByte b) ∧
        valueOfBytes n bytes < Nat.pow 2 256 ∧ v = BitVec.ofNat 256 (valueOfBytes n bytes) := by
  fun_induction readBytes n count bytes with
  | case1 n count h =>
    have hn : valueOfBytes n [] = n := rfl
    simp only [hn, h, Except.ok.injEq, List.not_mem_nil, false_implies, implies_true, true_and]
    exact eq_comm
  | case2 n count h =>
    constructor
    · intro hv
      cases hv
    · intro hv
      exact absurd hv.2.1 h
  | case3 n count b bytes h ih => simp [ih, h, valueOfBytes_cons_separator n bytes h]
  | case4 n count b bytes h hb => simp_all
  | case5 n count b bytes h hb n' hn =>
    have hb : isDigitByte b := by simpa using hb
    have hle := le_valueOfBytes n' bytes
    rw [valueOfBytes_cons n bytes hb]
    constructor
    · intro hv
      cases hv
    · intro hv
      exact absurd (Nat.lt_of_le_of_lt hle hv.2.1) (Nat.not_lt.mpr hn.2)
  | case6 n count b bytes h hb n' hn ih =>
    have hb : isDigitByte b := by simpa using hb
    rw [valueOfBytes_cons n bytes hb, ih]
    simp [hb, n']

def readDigits (cs : List Char) : Except ScaleFault Uint256 := readBytes 0 0 (utf8 cs)

/-- Scales an amount by ten to the power `precision`. The fraction may not be longer, in bytes, than
the precision. -/
def scale (cs : List Char) (precision : Nat) : Except ScaleFault Uint256 :=
  let (integer, fraction) := splitPoint cs
  let length := (utf8 fraction).length
  if maxPrecision < precision then .error (.precisionTooHigh precision)
  else if integer = [] ∧ fraction = [] then .error .noDigits
  else if precision < length then .error (.fractionTooLong length precision)
  else
    let digits := integer ++ fraction ++ List.replicate (precision - length) '0'
    match digits.dropWhile (· = '0') with
    | [] => .ok 0
    | significant => readDigits significant

end CallBundle.Amount
