import Mathlib
import CallBundle.Abi.Ty.Reader

/-!
Decimal numerals, digit by digit, and where a run of characters ends. Main statement:
`number?_eq_some_iff`, so exactly they are read as numbers.
-/

namespace CallBundle

/-- Where the next character is of another class, a run of characters ends. -/
theorem span_append {p : Char → Bool} {run rest : List Char} (h : ∀ c ∈ run, p c)
    (hrest : ∀ c, rest.head? = some c → p c = false) :
    (run ++ rest).takeWhile p = run ∧ (run ++ rest).dropWhile p = rest := by
  rw [List.takeWhile_append_of_pos h, List.dropWhile_append_of_pos h]
  cases rest with
  | nil => simp
  | cons c rest => simp [hrest c rfl]

/-- Where characters other than `d` end, there is `d` or nothing. -/
theorem head?_dropWhile_ne {cs : List Char} {c d : Char}
    (h : (cs.dropWhile (· ≠ d)).head? = some c) : c = d := by
  have hnot := List.head?_dropWhile_not (fun c => decide (c ≠ d)) cs
  rw [h] at hnot
  simpa using hnot

/-- A run of decimal digits, and the number that it denotes. A zero may stand before other digits. -/
inductive Numeral : List Char → Nat → Prop
  | digit {d : Nat} : d < 10 → Numeral [Nat.digitChar d] d
  | more {cs : List Char} {n d : Nat} :
      Numeral cs n → d < 10 → Numeral (cs ++ [Nat.digitChar d]) (10 * n + d)

theorem digitChar_of_isDigit {c : Char} (h : c.isDigit) :
    c.toNat - 48 < 10 ∧ Nat.digitChar (c.toNat - 48) = c := by
  have hc : 48 ≤ c.toNat ∧ c.toNat ≤ 57 := Char.isDigit_iff_toNat.mp h
  have hlt : c.toNat - 48 < 10 := by omega
  refine ⟨hlt, Char.toNat_inj.mp ?_⟩
  rw [Nat.toNat_digitChar_of_lt_ten hlt]
  omega

theorem ofDigitChars_concat (cs : List Char) (c : Char) :
    Nat.ofDigitChars 10 (cs ++ [c]) 0 = 10 * Nat.ofDigitChars 10 cs 0 + (c.toNat - 48) :=
  Nat.ofDigitChars_append 0

theorem numeral_iff {cs : List Char} {n : Nat} :
    Numeral cs n ↔ cs ≠ [] ∧ (∀ c ∈ cs, c.isDigit) ∧ Nat.ofDigitChars 10 cs 0 = n := by
  constructor
  · intro h
    induction h with
    | @digit d hd =>
      refine ⟨by simp, ?_, ?_⟩
      · simp [Nat.isDigit_digitChar, hd]
      · rw [← Nat.toDigits_of_lt_base hd, Nat.ofDigitChars_ten_toDigits]
    | @more cs n d _ hd ih =>
      obtain ⟨-, hdigits, rfl⟩ := ih
      refine ⟨by simp, ?_, ?_⟩
      · rw [List.forall_mem_append, List.forall_mem_singleton, Nat.isDigit_digitChar]
        exact ⟨hdigits, decide_eq_true hd⟩
      · rw [ofDigitChars_concat, Nat.toNat_digitChar_of_lt_ten hd, Nat.add_sub_cancel_left]
  · rintro ⟨hne, hdigits, rfl⟩
    -- The last digit counts least, so the run is taken apart from its end.
    induction cs using List.reverseRecOn with
    | nil => exact absurd rfl hne
    | append_singleton cs c ih =>
      rw [List.forall_mem_append, List.forall_mem_singleton] at hdigits
      obtain ⟨hlt, hc⟩ := digitChar_of_isDigit hdigits.2
      rw [ofDigitChars_concat]
      by_cases hcs : cs = []
      · subst hcs
        have h := Numeral.digit hlt
        rw [hc] at h
        simpa using h
      · have h := (ih hcs hdigits.1).more hlt
        rwa [hc] at h

theorem numeral_toDigits (n : Nat) : Numeral (Nat.toDigits 10 n) n :=
  numeral_iff.mpr ⟨Nat.toDigits_ne_nil,
    fun _ hc => Nat.isDigit_of_mem_toDigits (by decide) (by decide) hc,
    Nat.ofDigitChars_ten_toDigits⟩

theorem Numeral.ne_nil {cs : List Char} {n : Nat} (h : Numeral cs n) : cs ≠ [] :=
  (numeral_iff.mp h).1

theorem Numeral.isDigit {cs : List Char} {n : Nat} (h : Numeral cs n) : ∀ c ∈ cs, c.isDigit :=
  (numeral_iff.mp h).2.1

/-- Without a zero before them, the digits are those that the number is written in. -/
theorem Numeral.eq_toDigits {cs : List Char} {n : Nat} (h : Numeral cs n)
    (hhead : cs.head? ≠ some '0') : cs = Nat.toDigits 10 n := by
  induction h with
  | digit hd => rw [Nat.toDigits_of_lt_base hd]
  | @more cs n d hcs hd ih =>
    rw [List.head?_append_of_ne_nil _ hcs.ne_nil] at hhead
    have heq := ih hhead
    have hpos : 0 < n := by
      refine Nat.pos_of_ne_zero fun hzero => hhead ?_
      rw [heq, hzero]
      rfl
    rw [← Nat.toDigits_append_toDigits (by decide) hpos hd, ← heq, Nat.toDigits_of_lt_base hd]

theorem head?_toDigits_ne {n : Nat} (h : 0 < n) : (Nat.toDigits 10 n).head? ≠ some '0' := by
  induction n using Nat.strongRecOn with
  | ind n ih =>
    obtain hlt | hle := Nat.lt_or_ge n 10
    · rw [Nat.toDigits_of_lt_base hlt]
      interval_cases n <;> decide
    · rw [Nat.toDigits_of_base_le (by decide) hle,
        List.head?_append_of_ne_nil _ Nat.toDigits_ne_nil]
      exact ih (n / 10) (by omega) (by omega)

theorem Abi.Ty.number?_eq_some_iff {cs : List Char} {n : Nat} :
    number? cs = some n ↔ Numeral cs n := by
  rw [number?, numeral_iff]
  simp [and_assoc]

end CallBundle
