import Mathlib
import CallBundle.Amount.Literal
import CallBundle.Proofs.Numeral
import CallBundle.Proofs.Run

/-!
Amounts and what they come to when they are scaled. Digits of every script may stand in the amount
of a literal, and those of ASCII alone are read as a number. Underscores may stand between them;
they are no part of the number, and yet count for a digit each in the length of a fraction. Main
statements: `scale_eq_ok_iff` and `scale_exact_unless_separated`.
-/

namespace CallBundle.Amount

/-- A character of ASCII is one byte, which counts for as much. -/
theorem utf8EncodeChar_of_lt {c : Char} (h : c.toNat < 128) :
    ∃ b, String.utf8EncodeChar c = [b] ∧ b.toNat = c.toNat := by
  refine ⟨UInt8.ofNat c.toNat, ?_, ?_⟩
  · rw [String.utf8EncodeChar]
    exact if_pos (Nat.le_of_lt_succ h)
  · rw [UInt8.toNat_ofNat']
    omega

theorem isDigit_of_isDecimalDigit {c : Char} (h : Text.isDecimalDigit c) (hc : c.toNat < 128) :
    c.isDigit := by
  have hrest : ∀ first ∈ Text.zeroDigits.tail, 128 ≤ first := by decide
  obtain ⟨first, hfirst, hrange⟩ := List.any_eq_true.mp h
  simp only [Bool.and_eq_true, decide_eq_true_eq] at hrange
  have hmem : first = 48 ∨ first ∈ Text.zeroDigits.tail := List.mem_cons.mp hfirst
  obtain rfl | hmem := hmem
  · exact Char.isDigit_iff_toNat.mpr ⟨hrange.1, Nat.le_of_lt_succ hrange.2⟩
  · exact absurd ((hrest first hmem).trans hrange.1) (Nat.not_le.mpr hc)

/-- Characters beyond ASCII take several bytes, and the first of them is no byte of ASCII. -/
theorem exists_mem_utf8EncodeChar {c : Char} (h : 128 ≤ c.toNat) :
    ∃ b ∈ String.utf8EncodeChar c, 128 ≤ b.toNat := by
  have hfirst : ∀ n, 128 ≤ n → n < 256 → 128 ≤ (UInt8.ofNat n).toNat := by
    intro n hn hlt
    rw [UInt8.toNat_ofNat', Nat.mod_eq_of_lt hlt]
    exact hn
  have h : 128 ≤ c.val.toNat := h
  unfold String.utf8EncodeChar
  simp only
  rw [if_neg (by omega)]
  split
  · exact ⟨_, List.mem_cons_self, hfirst _ (by omega) (by omega)⟩
  split
  · exact ⟨_, List.mem_cons_self, hfirst _ (by omega) (by omega)⟩
  · exact ⟨_, List.mem_cons_self, hfirst _ (by omega) (by omega)⟩

/-- Digits of ASCII, and the underscores that may stand between them. -/
def Separated (cs : List Char) : Prop := ∀ c ∈ cs, c.isDigit ∨ c = '_'

/-- The number that the digits among the characters denote. -/
def digitsValue (cs : List Char) : Nat := Nat.ofDigitChars 10 (cs.filter Char.isDigit) 0

theorem toNat_of_isDigit_or {c : Char} (h : c.isDigit ∨ c = '_') :
    48 ≤ c.toNat ∧ c.toNat ≤ 57 ∨ c.toNat = 95 := by
  obtain h | rfl := h
  · exact .inl (Char.isDigit_iff_toNat.mp h)
  · exact .inr rfl

theorem forall_utf8EncodeChar_iff (c : Char) :
    (∀ b ∈ String.utf8EncodeChar c, isDigitByte b ∨ isSeparatorByte b) ↔ c.isDigit ∨ c = '_' := by
  by_cases hc : c.toNat < 128
  case pos =>
    obtain ⟨b, hbytes, hb⟩ := utf8EncodeChar_of_lt hc
    have hunderscore : c = '_' ↔ c.toNat = 95 := Char.toNat_inj.symm
    rw [hbytes, List.forall_mem_singleton, Char.isDigit_iff_toNat, hunderscore]
    simp [isDigitByte, isSeparatorByte, hb]
  case neg =>
    apply iff_of_false
    · intro hbytes
      obtain ⟨b, hb, hlarge⟩ := exists_mem_utf8EncodeChar (Nat.le_of_not_lt hc)
      have hsmall := hbytes b hb
      simp only [isDigitByte, isSeparatorByte, Bool.and_eq_true, decide_eq_true_eq,
        beq_iff_eq] at hsmall
      omega
    · intro h
      have := toNat_of_isDigit_or h
      omega

theorem forall_utf8_iff (cs : List Char) :
    (∀ b ∈ utf8 cs, isDigitByte b ∨ isSeparatorByte b) ↔ Separated cs := by
  rw [utf8, List.forall_mem_flatMap]
  exact forall₂_congr fun c _ => forall_utf8EncodeChar_iff c

theorem valueOfBytes_utf8 {cs : List Char} (h : Separated cs) (n : Nat) :
    valueOfBytes n (utf8 cs) = Nat.ofDigitChars 10 (cs.filter Char.isDigit) n := by
  induction cs generalizing n with
  | nil => rfl
  | cons c cs ih =>
    rw [Separated, List.forall_mem_cons] at h
    have hrange := toNat_of_isDigit_or h.1
    obtain ⟨b, hbytes, hb⟩ := utf8EncodeChar_of_lt (c := c) (by omega)
    have hcons : utf8 (c :: cs) = b :: utf8 cs := congrArg (· ++ utf8 cs) hbytes
    rw [hcons]
    by_cases hc : c.isDigit
    · have hdigit : 48 ≤ c.toNat ∧ c.toNat ≤ 57 := Char.isDigit_iff_toNat.mp hc
      have hbyte : isDigitByte b := by simp [isDigitByte, hb, hdigit]
      rw [valueOfBytes_cons n _ hbyte, hb, ih h.2, List.filter_cons_of_pos hc,
        Nat.ofDigitChars_cons]
      rfl
    · have hunderscore : c = '_' := h.1.resolve_left hc
      have hbyte : isSeparatorByte b := by simp [isSeparatorByte, hb, hunderscore]
      rw [valueOfBytes_cons_separator n _ hbyte, ih h.2, List.filter_cons_of_neg hc]

theorem length_utf8 {cs : List Char} (h : Separated cs) : (utf8 cs).length = cs.length := by
  induction cs with
  | nil => rfl
  | cons c cs ih =>
    rw [Separated, List.forall_mem_cons] at h
    have hrange := toNat_of_isDigit_or h.1
    obtain ⟨b, hbytes, -⟩ := utf8EncodeChar_of_lt (c := c) (by omega)
    have hcons : utf8 (c :: cs) = b :: utf8 cs := congrArg (· ++ utf8 cs) hbytes
    rw [hcons, List.length_cons, List.length_cons, ih h.2]

theorem readDigits_eq_ok_iff {cs : List Char} {v : Uint256} :
    readDigits cs = .ok v ↔
      Separated cs ∧ digitsValue cs < 2 ^ 256 ∧ v = BitVec.ofNat 256 (digitsValue cs) := by
  rw [readDigits, readBytes_eq_ok_iff, forall_utf8_iff]
  refine and_congr_right fun hcs => ?_
  rw [valueOfBytes_utf8 hcs]
  exact Iff.rfl

/-- Zeros before other digits count for nothing. -/
theorem digitsValue_dropWhile_zero (cs : List Char) :
    digitsValue (cs.dropWhile (· = '0')) = digitsValue cs := by
  induction cs with
  | nil => rfl
  | cons c cs ih =>
    rw [List.dropWhile_cons]
    by_cases hc : c = '0'
    · rw [if_pos (decide_eq_true hc), ih, hc]
      rfl
    · rw [if_neg (by simpa using hc)]

theorem separated_dropWhile_zero (cs : List Char) :
    Separated (cs.dropWhile (· = '0')) ↔ Separated cs := by
  have hzeros : Separated (cs.takeWhile (· = '0')) := by
    intro c hc
    have hzero : c = '0' := by simpa using List.mem_takeWhile_imp hc
    rw [hzero]
    exact .inl rfl
  conv_rhs => rw [← List.takeWhile_append_dropWhile (p := (· = '0')) (l := cs)]
  rw [Separated, Separated, List.forall_mem_append]
  exact (and_iff_right hzeros).symm

/-- An amount, with the digits before and after its point. The point may be missing. -/
inductive AmountText : List Char → List Char → List Char → Prop
  | whole (integer : List Char) : AmountText integer integer []
  | pointed (integer fraction : List Char) :
      AmountText (integer ++ '.' :: fraction) integer fraction

theorem AmountText.eq_or_mem {cs integer fraction : List Char} {c : Char}
    (h : AmountText cs integer fraction) (hc : c ∈ cs) : c = '.' ∨ c ∈ integer ++ fraction := by
  cases h with
  | whole => exact .inr (List.mem_append_left _ hc)
  | pointed =>
    rw [List.mem_append, List.mem_cons] at hc
    rw [List.mem_append]
    tauto

theorem AmountText.mem {cs integer fraction : List Char} {c : Char}
    (h : AmountText cs integer fraction) (hc : c ∈ integer ++ fraction) : c ∈ cs := by
  rw [List.mem_append] at hc
  cases h with
  | whole => simpa using hc
  | pointed =>
    rw [List.mem_append, List.mem_cons]
    tauto

/-- What stands before the first point has none. -/
theorem splitPoint_eq_iff {cs integer fraction : List Char} :
    splitPoint cs = (integer, fraction) ↔ AmountText cs integer fraction ∧ '.' ∉ integer := by
  constructor
  · rintro ⟨⟩
    have hpoint : '.' ∉ cs.takeWhile (· ≠ '.') := fun h => by
      simpa using List.mem_takeWhile_imp h
    refine ⟨?_, hpoint⟩
    cases hrest : cs.dropWhile (· ≠ '.') with
    | nil =>
      have hall := List.takeWhile_append_dropWhile (p := (· ≠ '.')) (l := cs)
      rw [hrest, List.append_nil] at hall
      rw [hall]
      exact .whole cs
    | cons c rest =>
      have hc : c = '.' := head?_dropWhile_ne (by rw [hrest]; rfl)
      have hall := List.takeWhile_append_dropWhile (p := (· ≠ '.')) (l := cs)
      rw [hrest, hc] at hall
      nth_rewrite 1 [← hall]
      exact .pointed _ _
  · rintro ⟨h, hpoint⟩
    have hinteger : ∀ c ∈ integer, decide (c ≠ '.') = true := fun c hc =>
      decide_eq_true (ne_of_mem_of_not_mem hc hpoint)
    cases h with
    | whole =>
      rw [splitPoint, List.takeWhile_eq_self_iff.mpr hinteger,
        List.dropWhile_eq_nil_iff.mpr hinteger]
      rfl
    | pointed =>
      rw [splitPoint, List.takeWhile_append_of_pos hinteger, List.dropWhile_append_of_pos hinteger]
      simp

/-- Where no digit is left once the zeros in front are dropped, zero is read as from any digits. -/
theorem scale_of_splitPoint {cs integer fraction : List Char}
    (h : splitPoint cs = (integer, fraction)) (precision : Nat) :
    scale cs precision =
      if maxPrecision < precision then .error (.precisionTooHigh precision)
      else if integer = [] ∧ fraction = [] then .error .noDigits
      else if precision < (utf8 fraction).length then
        .error (.fractionTooLong (utf8 fraction).length precision)
      else readDigits ((integer ++ fraction ++
        List.replicate (precision - (utf8 fraction).length) '0').dropWhile (· = '0')) := by
  rw [scale, h]
  simp only
  congr 3
  split
  case h_1 hnil =>
    rw [hnil]
    rfl
  case h_2 => rfl

theorem readDigits_significant_eq_ok_iff {cs : List Char} {k : Nat} {v : Uint256} :
    readDigits ((cs ++ List.replicate k '0').dropWhile (· = '0')) = .ok v ↔
      Separated cs ∧ digitsValue cs * 10 ^ k < 2 ^ 256 ∧
        v = BitVec.ofNat 256 (digitsValue cs * 10 ^ k) := by
  have hzeros : ∀ c ∈ List.replicate k '0', c.isDigit := by
    intro c hc
    rw [(List.mem_replicate.mp hc).2]
    rfl
  have hseparated : Separated (cs ++ List.replicate k '0') ↔ Separated cs := by
    rw [Separated, List.forall_mem_append]
    exact and_iff_left fun c hc => .inl (hzeros c hc)
  have hvalue : digitsValue (cs ++ List.replicate k '0') = digitsValue cs * 10 ^ k := by
    rw [digitsValue, List.filter_append, List.filter_eq_self.mpr hzeros, Nat.ofDigitChars_append,
      Nat.ofDigitChars_replicate_zero, Nat.mul_comm]
    rfl
  rw [readDigits_eq_ok_iff, separated_dropWhile_zero, digitsValue_dropWhile_zero, hseparated,
    hvalue]

/-- What an amount is scaled to, wherever there is an underscore in it. -/
theorem scale_eq_ok_iff_separated {cs integer fraction : List Char} {precision : Nat} {v : Uint256}
    (h : splitPoint cs = (integer, fraction)) :
    scale cs precision = .ok v ↔
      precision ≤ 77 ∧ integer ++ fraction ≠ [] ∧ fraction.length ≤ precision ∧
        Separated (integer ++ fraction) ∧
        digitsValue (integer ++ fraction) * 10 ^ (precision - fraction.length) < 2 ^ 256 ∧
        v = BitVec.ofNat 256
          (digitsValue (integer ++ fraction) * 10 ^ (precision - fraction.length)) := by
  rw [scale_of_splitPoint h, ite_error_eq_ok_iff, ite_error_eq_ok_iff, ite_error_eq_ok_iff,
    readDigits_significant_eq_ok_iff, Nat.not_lt, Nat.not_lt, ← List.append_eq_nil_iff]
  -- The length of the fraction is counted in bytes, one for each character that may stand in it.
  have hlength (hseparated : Separated (integer ++ fraction)) :
      (utf8 fraction).length = fraction.length :=
    length_utf8 fun c hc => hseparated c (List.mem_append_right _ hc)
  constructor
  · rintro ⟨hprecision, hne, hfraction, hseparated, hvalue⟩
    rw [hlength hseparated] at hfraction hvalue
    exact ⟨hprecision, hne, hfraction, hseparated, hvalue⟩
  · rintro ⟨hprecision, hne, hfraction, hseparated, hvalue⟩
    rw [hlength hseparated]
    exact ⟨hprecision, hne, hfraction, hseparated, hvalue⟩

/-- Without underscores, there is nothing but digits and the number that they denote. -/
theorem numeral_iff_separated {cs : List Char} {n : Nat} (h : '_' ∉ cs) :
    Numeral cs n ↔ cs ≠ [] ∧ Separated cs ∧ digitsValue cs = n := by
  have hdigits : Separated cs ↔ ∀ c ∈ cs, c.isDigit :=
    forall₂_congr fun c hc => or_iff_left (ne_of_mem_of_not_mem hc h)
  rw [numeral_iff, hdigits]
  refine and_congr_right fun _ => and_congr_right fun hall => ?_
  rw [digitsValue, List.filter_eq_self.mpr hall]

/-- An amount is scaled if it has digits, all of them of ASCII, and none is lost. -/
theorem scale_eq_ok_iff {cs integer fraction : List Char} {precision : Nat} {v : Uint256}
    (h : AmountText cs integer fraction)
    (hdecimal : ∀ c ∈ integer ++ fraction, Text.isDecimalDigit c) :
    scale cs precision = .ok v ↔
      ∃ n, Numeral (integer ++ fraction) n ∧ precision ≤ 77 ∧ fraction.length ≤ precision ∧
        n * 10 ^ (precision - fraction.length) < 2 ^ 256 ∧
        v = BitVec.ofNat 256 (n * 10 ^ (precision - fraction.length)) := by
  have hpoint : '.' ∉ integer := fun hc =>
    absurd (hdecimal _ (List.mem_append_left _ hc)) (by decide)
  have hunderscore : '_' ∉ integer ++ fraction := fun hc => absurd (hdecimal _ hc) (by decide)
  rw [scale_eq_ok_iff_separated (splitPoint_eq_iff.mpr ⟨h, hpoint⟩)]
  simp only [numeral_iff_separated hunderscore]
  constructor
  · rintro ⟨hprecision, hne, hfraction, hseparated, hlt, hv⟩
    exact ⟨_, ⟨hne, hseparated, rfl⟩, hprecision, hfraction, hlt, hv⟩
  · rintro ⟨_, ⟨hne, hseparated, rfl⟩, hprecision, hfraction, hlt, hv⟩
    exact ⟨hprecision, hne, hfraction, hseparated, hlt, hv⟩

theorem eq_ofNat_iff {n : Nat} {v : Uint256} :
    n < 2 ^ 256 ∧ v = BitVec.ofNat 256 n ↔ v.toNat = n := by
  constructor
  · rintro ⟨hlt, rfl⟩
    rw [BitVec.toNat_ofNat, Nat.mod_eq_of_lt hlt]
  · rintro rfl
    exact ⟨v.isLt, by simp⟩

theorem scale_eq_ok_iff_exists {cs : List Char} {precision : Nat} {v : Uint256} :
    scale cs precision = .ok v ↔
      ∃ integer fraction, AmountText cs integer fraction ∧ integer ++ fraction ≠ [] ∧
        Separated (integer ++ fraction) ∧ fraction.length ≤ precision ∧ precision ≤ 77 ∧
        v.toNat = digitsValue (integer ++ fraction) * 10 ^ (precision - fraction.length) := by
  constructor
  · intro hv
    obtain ⟨hprecision, hne, hfraction, hseparated, hvalue⟩ :=
      (scale_eq_ok_iff_separated rfl).mp hv
    exact ⟨_, _, (splitPoint_eq_iff.mp rfl).1, hne, hseparated, hfraction, hprecision,
      eq_ofNat_iff.mp hvalue⟩
  · rintro ⟨integer, fraction, hamount, hne, hseparated, hfraction, hprecision, hv⟩
    have hpoint : '.' ∉ integer := fun hc =>
      absurd (hseparated _ (List.mem_append_left _ hc)) (by decide)
    rw [scale_eq_ok_iff_separated (splitPoint_eq_iff.mpr ⟨hamount, hpoint⟩)]
    exact ⟨hprecision, hne, hfraction, hseparated, eq_ofNat_iff.mpr hv⟩

/-- An underscore is no part of the number, and takes the place of a digit in a fraction. Where none
stands, an amount is scaled to exactly the number that it denotes. -/
theorem scale_exact_unless_separated (amount : String) (precision : Nat) (v : Uint256) :
    (scale amount.toList precision = .ok v ↔
      ∃ integer fraction, AmountText amount.toList integer fraction ∧ integer ++ fraction ≠ [] ∧
        Separated (integer ++ fraction) ∧ fraction.length ≤ precision ∧ precision ≤ 77 ∧
        v.toNat = digitsValue (integer ++ fraction) * 10 ^ (precision - fraction.length)) ∧
    ('_' ∉ amount.toList →
      (scale amount.toList precision = .ok v ↔
        ∃ integer fraction n, AmountText amount.toList integer fraction ∧
          Numeral (integer ++ fraction) n ∧ fraction.length ≤ precision ∧ precision ≤ 77 ∧
          v.toNat = n * 10 ^ (precision - fraction.length))) := by
  refine ⟨scale_eq_ok_iff_exists, fun hunderscore => scale_eq_ok_iff_exists.trans ?_⟩
  constructor
  · rintro ⟨integer, fraction, hamount, hne, hseparated, hrest⟩
    have hnone := mt hamount.mem hunderscore
    exact ⟨integer, fraction, _, hamount, (numeral_iff_separated hnone).mpr ⟨hne, hseparated, rfl⟩,
      hrest⟩
  · rintro ⟨integer, fraction, n, hamount, hn, hrest⟩
    have hnone := mt hamount.mem hunderscore
    obtain ⟨hne, hseparated, rfl⟩ := (numeral_iff_separated hnone).mp hn
    exact ⟨integer, fraction, hamount, hne, hseparated, hrest⟩

theorem scale_exact_unless_separated_pointed :
    '_' ∉ "007.250".toList ∧ scale "007.250".toList 4 = .ok 72500 ∧
      ∃ integer fraction n, AmountText "007.250".toList integer fraction ∧
        Numeral (integer ++ fraction) n ∧ fraction.length ≤ 4 ∧ 4 ≤ 77 ∧
        (72500 : Uint256).toNat = n * 10 ^ (4 - fraction.length) := by
  have hunderscore : '_' ∉ "007.250".toList := by decide
  have hscaled : scale "007.250".toList 4 = .ok 72500 := by decide +kernel
  exact ⟨hunderscore, hscaled,
    ((scale_exact_unless_separated "007.250" 4 72500).2 hunderscore).mp hscaled⟩

/-- The underscore is counted among the digits of the fraction, so that a zero too few is added. -/
theorem scale_separated_fraction :
    scale "1.5_".toList 2 = .ok 15 ∧
      ¬ ∃ integer fraction n, AmountText "1.5_".toList integer fraction ∧
        Numeral (integer ++ fraction) n ∧ fraction.length ≤ 2 ∧ 2 ≤ 77 ∧
        (15 : Uint256).toNat = n * 10 ^ (2 - fraction.length) := by
  refine ⟨by decide +kernel, ?_⟩
  rintro ⟨integer, fraction, n, hamount, hn, -⟩
  have hmem : '_' ∈ "1.5_".toList := by decide
  obtain hpoint | hdigits := hamount.eq_or_mem hmem
  · exact absurd hpoint (by decide)
  · exact absurd (hn.isDigit '_' hdigits) (by decide)

end CallBundle.Amount
