import Mathlib
import CallBundle.Proofs.Abi.Grammar

/-!
Which texts of a type are its canonical one, bare names apart. The numbers in a text are read for
their value alone, so that zeros before them are lost. Main statement: `unaliased_eq_text_iff`.
-/

namespace CallBundle.Abi.Ty

/-- A bare integer name with the width that it stands for. -/
def withWidth (name : List Char) : List Char :=
  if name = "uint".toList then "uint256".toList
  else if name = "int".toList then "int256".toList
  else name

def unaliasedChars (cs : List Char) : List Char :=
  withWidth (cs.takeWhile (· ≠ '[')) ++ cs.dropWhile (· ≠ '[')

/-- The text of a type with a width in place of a bare integer name, and otherwise as it is. -/
def unaliased (raw : String) : String := String.ofList (unaliasedChars raw.toList)

/-- A zero stands only behind another digit, so that no number starts with one. -/
def NoLeadingZeros (cs : List Char) : Prop := cs.IsChain fun c c' => c' = '0' → c.isDigit

instance (cs : List Char) : Decidable (NoLeadingZeros cs) :=
  inferInstanceAs (Decidable (cs.IsChain _))

section

variable {cs cs' digits : List Char} {c : Char} {ty : Ty} {n : Nat}

theorem noLeadingZeros_append : NoLeadingZeros (cs ++ cs') ↔ NoLeadingZeros cs ∧
    NoLeadingZeros cs' ∧ ∀ c ∈ cs.getLast?, ∀ c' ∈ cs'.head?, c' = '0' → c.isDigit :=
  List.isChain_append

/-- What begins with no zero can be appended to anything. -/
theorem noLeadingZeros_append_of_head? (hhead : cs'.head? ≠ some '0') :
    NoLeadingZeros (cs ++ cs') ↔ NoLeadingZeros cs ∧ NoLeadingZeros cs' := by
  rw [noLeadingZeros_append, and_congr_right_iff, and_iff_left_iff_imp]
  rintro - - c - c' hc' rfl
  exact absurd hc' hhead

theorem noLeadingZeros_of_isDigit (h : ∀ c ∈ digits, c.isDigit) : NoLeadingZeros digits := by
  induction digits with
  | nil => exact .nil
  | cons c cs ih =>
    rw [List.forall_mem_cons] at h
    refine List.IsChain.cons (ih h.2) ?_
    rintro c' - -
    exact h.1

/-- A number behind anything else must not start with a zero, and that is all. -/
theorem noLeadingZeros_append_digits (hlast : c ∈ cs.getLast?) (hc : ¬ c.isDigit)
    (h : ∀ c ∈ digits, c.isDigit) :
    NoLeadingZeros (cs ++ digits) ↔ NoLeadingZeros cs ∧ digits.head? ≠ some '0' := by
  constructor
  · intro hall
    rw [noLeadingZeros_append] at hall
    exact ⟨hall.1, fun hhead => hc (hall.2.2 c hlast '0' hhead rfl)⟩
  · rintro ⟨hcs, hhead⟩
    rw [noLeadingZeros_append_of_head? hhead]
    exact ⟨hcs, noLeadingZeros_of_isDigit h⟩

theorem noLeadingZeros_fixedArray (h : ∀ c ∈ digits, c.isDigit) :
    NoLeadingZeros (cs ++ '[' :: digits ++ [']']) ↔
      NoLeadingZeros cs ∧ digits.head? ≠ some '0' := by
  have hopen : NoLeadingZeros (cs ++ ['[']) ↔ NoLeadingZeros cs := by
    rw [noLeadingZeros_append_of_head? (by decide), and_iff_left (by decide)]
  have hlast : '[' ∈ (cs ++ ['[']).getLast? := by simp
  rw [noLeadingZeros_append_of_head? (by decide), and_iff_left (by decide),
    List.append_cons cs '[' digits, noLeadingZeros_append_digits hlast (by decide) h, hopen]

/-- The numbers of a type are at least one, and are written without zeros before them. -/
theorem Proper.noLeadingZeros (h : ty.Proper) : NoLeadingZeros ty.chars := by
  have hdigits (n : Nat) : ∀ c ∈ Nat.toDigits 10 n, c.isDigit := (numeral_toDigits n).isDigit
  induction ty with
  | address | bool | string | bytes => decide
  | fixedBytes width =>
    exact (noLeadingZeros_append_digits rfl (by decide) (hdigits width)).mpr
      ⟨by decide, head?_toDigits_ne h.1⟩
  | uint bits | int bits =>
    exact (noLeadingZeros_append_digits rfl (by decide) (hdigits bits)).mpr
      ⟨by decide, head?_toDigits_ne (Nat.zero_lt_of_lt h.2.1)⟩
  | array element ih =>
    exact (noLeadingZeros_append_of_head? (by decide)).mpr ⟨ih h, by decide⟩
  | fixedArray element length ih =>
    exact (noLeadingZeros_fixedArray (hdigits length)).mpr ⟨ih h.1, head?_toDigits_ne h.2.1⟩

theorem withWidth_of_ne (huint : cs ≠ "uint".toList) (hint : cs ≠ "int".toList) :
    withWidth cs = cs := by
  rw [withWidth, if_neg huint, if_neg hint]

/-- A width behind a name stays, in canonical digits if no zero starts it. -/
theorem withWidth_append_digits (hdigits : Numeral digits n)
    (hzeros : NoLeadingZeros (cs ++ digits))
    (h : cs = "bytes".toList ∨ cs = "uint".toList ∨ cs = "int".toList) :
    withWidth (cs ++ digits) = cs ++ Nat.toDigits 10 n := by
  have hlast : ∃ c ∈ cs.getLast?, ¬ c.isDigit := by
    obtain rfl | rfl | rfl := h
    · exact ⟨'s', rfl, by decide⟩
    · exact ⟨'t', rfl, by decide⟩
    · exact ⟨'t', rfl, by decide⟩
  obtain ⟨c, hlast, hc⟩ := hlast
  rw [noLeadingZeros_append_digits hlast hc hdigits.isDigit] at hzeros
  rw [← hdigits.eq_toDigits hzeros.2]
  have hne := hdigits.ne_nil
  obtain rfl | rfl | rfl := h
  · exact withWidth_of_ne (by simp) (by simp)
  · exact withWidth_of_ne (by simpa using hne) (by simp)
  · exact withWidth_of_ne (by simp) (by simpa using hne)

theorem ScalarText.withWidth_eq (h : ScalarText cs ty) (hzeros : NoLeadingZeros cs) :
    withWidth cs = ty.chars := by
  cases h with
  | address | bool | string | bytes | bareUint | bareInt => rfl
  | fixedBytes hdigits => exact withWidth_append_digits hdigits hzeros (.inl rfl)
  | uint hdigits => exact withWidth_append_digits hdigits hzeros (.inr (.inl rfl))
  | int hdigits => exact withWidth_append_digits hdigits hzeros (.inr (.inr rfl))

/-- Suffixes are left alone. -/
theorem unaliasedChars_append (cs rest : List Char) :
    unaliasedChars (cs ++ '[' :: rest) = unaliasedChars cs ++ '[' :: rest := by
  have hname : ∀ c ∈ cs.takeWhile (fun c => decide (c ≠ '[')), decide (c ≠ '[') = true :=
    fun _ => List.mem_takeWhile_imp
  have hhead : ∀ c, (cs.dropWhile (fun c => decide (c ≠ '[')) ++ '[' :: rest).head? = some c →
      decide (c ≠ '[') = false := by
    intro c hc
    rw [List.head?_append, Option.or_eq_some_iff] at hc
    obtain hc | ⟨-, hc⟩ := hc
    · rw [head?_dropWhile_ne hc]
      rfl
    · cases hc
      rfl
  have hspan := span_append hname hhead
  rw [← List.append_assoc, List.takeWhile_append_dropWhile] at hspan
  rw [unaliasedChars, hspan.1, hspan.2, ← List.append_assoc]
  rfl

theorem HasText.unaliasedChars_eq (h : HasText cs ty) (hzeros : NoLeadingZeros cs) :
    unaliasedChars cs = ty.chars := by
  induction h with
  | scalar h =>
    obtain ⟨htake, hdrop⟩ := span_scalar h .nil
    rw [List.append_nil] at htake hdrop
    rw [unaliasedChars, htake, hdrop, List.append_nil, h.withWidth_eq hzeros]
  | array _ ih =>
    rw [noLeadingZeros_append_of_head? (by decide)] at hzeros
    rw [unaliasedChars_append, ih hzeros.1]
    rfl
  | @fixedArray cs digits element length _ hdigits _ _ ih =>
    rw [noLeadingZeros_fixedArray hdigits.isDigit] at hzeros
    calc unaliasedChars (cs ++ '[' :: digits ++ [']'])
      _ = unaliasedChars cs ++ '[' :: digits ++ [']'] := by
        rw [List.append_assoc, List.cons_append, unaliasedChars_append, List.append_assoc,
          List.cons_append]
      _ = element.chars ++ '[' :: Nat.toDigits 10 length ++ [']'] := by
        rw [ih hzeros.1, hdigits.eq_toDigits hzeros.2]

theorem noLeadingZeros_withWidth (h : NoLeadingZeros (withWidth cs)) : NoLeadingZeros cs := by
  unfold withWidth at h
  split at h
  case isTrue huint =>
    rw [huint]
    decide
  split at h
  case isTrue hint =>
    rw [hint]
    decide
  case isFalse => exact h

theorem noLeadingZeros_of_unaliasedChars (h : NoLeadingZeros (unaliasedChars cs)) :
    NoLeadingZeros cs := by
  have hhead : (cs.dropWhile (fun c => decide (c ≠ '['))).head? ≠ some '0' := fun hzero =>
    absurd (head?_dropWhile_ne hzero) (by decide)
  rw [unaliasedChars, noLeadingZeros_append_of_head? hhead] at h
  rw [← List.takeWhile_append_dropWhile (p := fun c => decide (c ≠ '[')) (l := cs),
    noLeadingZeros_append_of_head? hhead]
  exact ⟨noLeadingZeros_withWidth h.1, h.2⟩

theorem HasText.unaliasedChars_eq_iff (h : HasText cs ty) :
    unaliasedChars cs = ty.chars ↔ NoLeadingZeros cs := by
  refine ⟨fun heq => noLeadingZeros_of_unaliasedChars ?_, h.unaliasedChars_eq⟩
  rw [heq]
  exact h.proper.noLeadingZeros

end

/-- A text that is read as a type is its canonical one, bare names apart, if and only if no number
in it starts with a zero. -/
theorem unaliased_eq_text_iff (raw : String) (ty : Ty) (h : ofText raw = .ok ty) :
    unaliased raw = ty.text ↔ NoLeadingZeros raw.toList := by
  rw [unaliased, text, String.ofList_inj]
  exact (ofText_eq_ok_iff.mp h).unaliasedChars_eq_iff

theorem unaliased_eq_text_iff_nested :
    ofText "uint[2][][10]" = .ok (.fixedArray (.array (.fixedArray (.uint 256) 2)) 10) ∧
      unaliased "uint[2][][10]" = "uint256[2][][10]" := by
  have h : ofText "uint[2][][10]" = .ok (.fixedArray (.array (.fixedArray (.uint 256) 2)) 10) := by
    rfl
  exact ⟨h, (unaliased_eq_text_iff _ _ h).mpr (by decide)⟩

/-- The zero is forgotten, while a selector is still hashed from the text that has it. -/
theorem ofText_uint08 : ofText "uint08" = .ok (.uint 8) ∧ unaliased "uint08" ≠ (uint 8).text :=
  ⟨rfl, by decide⟩

end CallBundle.Abi.Ty
