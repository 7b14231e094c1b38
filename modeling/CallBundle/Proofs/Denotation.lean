import Mathlib
import CallBundle.Entity
import CallBundle.Proofs.Address

/-!
What hexadecimal texts denote. Each byte is two digits, the high half first, and a digit is looked up
in the row of its letter case. Main statements: `decode?_eq_some_iff` and
`ofText_reads_marked_digits`, so addresses and byte strings are read from the same texts.
-/

namespace CallBundle

namespace Hex

/-- The digits in lower case, each at the place of what it stands for. -/
def lowerRow : List Char :=
  ['0', '1', '2', '3', '4', '5', '6', '7', '8', '9', 'a', 'b', 'c', 'd', 'e', 'f']

def upperRow : List Char :=
  ['0', '1', '2', '3', '4', '5', '6', '7', '8', '9', 'A', 'B', 'C', 'D', 'E', 'F']

/-- A digit and what it stands for, in either letter case. -/
inductive Stands : Char → Nat → Prop
  | lower {c : Char} {n : Nat} : lowerRow[n]? = some c → Stands c n
  | upper {c : Char} {n : Nat} : upperRow[n]? = some c → Stands c n

/-- Digits and the bytes that they are, two digits for each byte. -/
inductive Denotes : List Char → Bytes → Prop
  | nil : Denotes [] []
  | cons {high low : Char} {b : UInt8} {digits : List Char} {bytes : Bytes} :
      Stands high (b.toNat / 16) → Stands low (b.toNat % 16) → Denotes digits bytes →
        Denotes (high :: low :: digits) (b :: bytes)

/-- A text that is digits behind a mark, with white space around it. -/
inductive Marked : String → List Char → Prop
  | intro {raw : String} {before digits after : List Char} {mark : Char} :
      (∀ c ∈ before, Text.isBlank c) → (mark = 'x' ∨ mark = 'X') →
      (∀ c ∈ after, Text.isBlank c) → raw.toList = before ++ '0' :: mark :: digits ++ after →
        Marked raw digits

theorem Denotes.length_eq {digits : List Char} {bytes : Bytes} (h : Denotes digits bytes) :
    digits.length = 2 * bytes.length := by
  induction h with
  | nil => rfl
  | cons _ _ _ ih =>
    simp only [List.length_cons, ih]
    omega

theorem stands_of_digit? {c : Char} {n : Nat} (h : digit? c = some n) : Stands c n ∧ n < 16 := by
  have all : alphabet.all fun c => (digit? c).all fun n =>
      n < 16 ∧ (lowerRow[n]? = some c ∨ upperRow[n]? = some c) := by decide
  have hc := (isDigit_iff_mem_alphabet c).mp (Option.isSome_of_eq_some h)
  have hplace := List.all_eq_true.mp all c hc
  rw [h, Option.all_some, decide_eq_true_iff] at hplace
  exact ⟨hplace.2.elim .lower .upper, hplace.1⟩

theorem digit?_of_row {row : List Char} (hlength : row.length = 16)
    (hrow : ∀ n < 16, row[n]?.bind digit? = some n) {c : Char} {n : Nat} (h : row[n]? = some c) :
    digit? c = some n := by
  have hn : n < 16 := hlength ▸ (List.getElem?_eq_some_iff.mp h).1
  have hread := hrow n hn
  rwa [h, Option.bind_some] at hread

theorem Stands.digit? {c : Char} {n : Nat} (h : Stands c n) : digit? c = some n := by
  cases h with
  | lower h => exact digit?_of_row rfl (by decide) h
  | upper h => exact digit?_of_row rfl (by decide) h

/-- Reading digits gives the bytes that they are, and nothing else is read. -/
theorem decode?_eq_some_iff {digits : List Char} {bytes : Bytes} :
    decode? digits = some bytes ↔ Denotes digits bytes := by
  constructor
  · intro h
    fun_induction decode? digits generalizing bytes with
    | case1 =>
      cases h
      exact .nil
    | case2 => cases h
    | case3 high low rest ih =>
      simp only [Option.bind_eq_bind, Option.bind_eq_some_iff] at h
      obtain ⟨h, hhigh, l, hlow, bytes', hrest, hbytes⟩ := h
      cases hbytes
      obtain ⟨hhigh, hh⟩ := stands_of_digit? hhigh
      obtain ⟨hlow, hl⟩ := stands_of_digit? hlow
      have hb : (UInt8.ofNat (16 * h + l)).toNat = 16 * h + l := by
        rw [UInt8.toNat_ofNat', Nat.mod_eq_of_lt (by omega)]
      refine .cons ?_ ?_ (ih hrest)
      · rwa [hb, show (16 * h + l) / 16 = h by omega]
      · rwa [hb, show (16 * h + l) % 16 = l by omega]
  · intro h
    induction h with
    | nil => rfl
    | cons hhigh hlow _ ih =>
      simp only [decode?, hhigh.digit?, hlow.digit?, ih, Option.bind_eq_bind, Option.bind_some,
        Option.pure_def, Nat.div_add_mod, UInt8.ofNat_toNat]

end Hex

theorem Bytes.ofHexText?_iff_denotes {raw : String} {bytes : Bytes} :
    ofHexText? raw = some bytes ↔ ∃ digits, Hex.Marked raw digits ∧ Hex.Denotes digits bytes := by
  simp only [ofHexText?_eq_some_iff, Hex.decode?_eq_some_iff]
  constructor
  · rintro ⟨before, mark, digits, after, hbefore, hmark, hafter, hraw, hdenotes⟩
    exact ⟨digits, .intro hbefore hmark hafter hraw, hdenotes⟩
  · rintro ⟨digits, ⟨hbefore, hmark, hafter, hraw⟩, hdenotes⟩
    exact ⟨_, _, digits, _, hbefore, hmark, hafter, hraw, hdenotes⟩

/-- The text of bytes is read as those bytes. -/
theorem Bytes.ofHexText?_text (bytes : Bytes) : ofHexText? (Hex.text bytes) = some bytes := by
  have hlower : (Hex.encode bytes).map Char.toLower = Hex.encode bytes :=
    (List.map_congr_left fun _ hc => (Hex.toLower_of_mem_encode hc).1).trans (List.map_id _)
  exact ofHexText?_spelling (.inl rfl) hlower

theorem Bytes.ofHexText?_eq_none_iff (raw : String) :
    ofHexText? raw = none ↔ ∀ n, ¬ HexText raw n := by
  simp only [← exists_ofHexText?_iff, Option.eq_none_iff_forall_ne_some]
  constructor
  · rintro h n ⟨bytes, hbytes, -⟩
    exact h bytes hbytes
  · intro h bytes hbytes
    exact h bytes.length ⟨bytes, hbytes, rfl⟩

namespace Address

theorem ofText_eq_ok_iff {raw : String} {a : Address} :
    ofText raw = .ok a ↔ ofText? raw = some a := by
  rw [ofText]
  cases ofText? raw <;> simp

theorem ofText_eq_error_iff {raw : String} {e : Failure} :
    ofText raw = .error e ↔ ¬ HexText raw 20 ∧ e = .invalidAddress raw .address := by
  rw [← ofText?_eq_none_iff, ofText]
  cases ofText? raw <;> simp [eq_comm]

/-- A text is read as an address exactly when it is forty digits behind a mark, and as bytes exactly
when it is an even number of them. Either is what the digits denote in any letter case, any other
text is refused as it was given, and what is written is read back. -/
theorem ofText_reads_marked_digits (raw : String) :
    ((∃ a, ofText raw = .ok a) ↔ HexText raw 20) ∧
    (∀ a, ofText raw = .ok a ↔ ∃ digits, Hex.Marked raw digits ∧ Hex.Denotes digits a.bytes) ∧
    (∀ e, ofText raw = .error e ↔ ¬ HexText raw 20 ∧ e = .invalidAddress raw .address) ∧
    (∀ bytes, Bytes.ofHexText? raw = some bytes ↔
      ∃ digits, Hex.Marked raw digits ∧ digits.length = 2 * bytes.length ∧
        Hex.Denotes digits bytes) ∧
    (Bytes.ofHexText? raw = none ↔ ∀ n, ¬ HexText raw n) ∧
    (∀ a, ofText raw = .ok a ↔ Bytes.ofHexText? raw = some a.bytes) ∧
    (∀ a : Address, ofText a.text = .ok a) ∧
    ∀ bytes, Bytes.ofHexText? (Hex.text bytes) = some bytes := by
  refine ⟨?_, fun a => ?_, fun e => ofText_eq_error_iff, fun bytes => ?_,
    Bytes.ofHexText?_eq_none_iff raw, fun a => ?_, fun a => ?_, Bytes.ofHexText?_text⟩
  · simp only [ofText_eq_ok_iff]
    exact exists_ofText?_iff raw
  · rw [ofText_eq_ok_iff, ofText?_eq_some_iff, Bytes.ofHexText?_iff_denotes]
  · rw [Bytes.ofHexText?_iff_denotes]
    constructor
    · rintro ⟨digits, hmarked, hdenotes⟩
      exact ⟨digits, hmarked, hdenotes.length_eq, hdenotes⟩
    · rintro ⟨digits, hmarked, -, hdenotes⟩
      exact ⟨digits, hmarked, hdenotes⟩
  · rw [ofText_eq_ok_iff, ofText?_eq_some_iff]
  · exact ofText_eq_ok_iff.mpr a.ofText?_text

end Address

end CallBundle
