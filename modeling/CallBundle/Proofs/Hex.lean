import Mathlib
import CallBundle.Address

/-!
Hexadecimal texts and the bytes they denote. Letter case, the case of the mark and white space
around the text make no difference. Main statements: `ofHexText?_spelling` and
`exists_ofHexText?_iff`, so the texts that denote bytes are those of the form `HexText`.
-/

namespace CallBundle

namespace Hex

theorem digit?_toLower (c : Char) : digit? c.toLower = digit? c := by
  by_cases h : c.isUpper
  case neg => rw [Char.toLower_eq_of_not_isUpper h]
  case pos =>
    have all : ∀ n < 91, 65 ≤ n → digit? (Char.ofNat n).toLower = digit? (Char.ofNat n) := by decide
    have hc : 65 ≤ c.toNat ∧ c.toNat ≤ 90 := by
      simpa [Char.isUpper, UInt32.le_iff_toNat_le] using h
    have hrange := all c.toNat (by omega) hc.1
    rwa [Char.ofNat_toNat] at hrange

theorem decode?_map_toLower (cs : List Char) : decode? (cs.map Char.toLower) = decode? cs := by
  fun_induction decode? cs with
  | case1 | case2 => rfl
  | case3 high low rest ih =>
    simp only [List.map_cons, decode?, digit?_toLower, ih]

theorem toNat_of_isDigit {c : Char} (h : isDigit c) : 48 ≤ c.toNat ∧ c.toNat ≤ 102 := by
  by_contra hout
  have hnone : digit? c = none := by
    simp only [digit?, Char.le_def, UInt32.le_iff_toNat_le, Char.toNat_val, Char.reduceToNat]
    rw [if_neg (by omega), if_neg (by omega), if_neg (by omega)]
  simp [isDigit, hnone] at h

theorem not_isBlank_of_isDigit {c : Char} (h : isDigit c) : Text.isBlank c = false := by
  have hc := toNat_of_isDigit h
  simp [Text.isBlank]
  omega

theorem isDigit_of_decode? {cs : List Char} {bytes : Bytes} (h : decode? cs = some bytes) :
    ∀ c ∈ cs, isDigit c := by
  fun_induction decode? cs generalizing bytes with
  | case1 => simp
  | case2 => cases h
  | case3 high low rest ih =>
    simp only [Option.bind_eq_bind, Option.bind_eq_some_iff] at h
    obtain ⟨_, hhigh, _, hlow, bytes', hrest, -⟩ := h
    rw [List.forall_mem_cons, List.forall_mem_cons]
    exact ⟨Option.isSome_of_eq_some hhigh, Option.isSome_of_eq_some hlow, ih hrest⟩

theorem exists_decode?_iff (cs : List Char) (n : Nat) :
    (∃ bytes, decode? cs = some bytes ∧ bytes.length = n) ↔
      (∀ c ∈ cs, isDigit c) ∧ cs.length = 2 * n := by
  constructor
  · rintro ⟨bytes, h, rfl⟩
    exact ⟨isDigit_of_decode? h, length_of_decode? h⟩
  · rintro ⟨hdigits, hlength⟩
    induction n generalizing cs with
    | zero =>
      rw [List.eq_nil_of_length_eq_zero hlength]
      exact ⟨[], rfl, rfl⟩
    | succ n ih =>
      obtain ⟨high, low, rest, rfl⟩ : ∃ high low rest, cs = high :: low :: rest :=
        match cs, hlength with
        | high :: low :: rest, _ => ⟨high, low, rest, rfl⟩
      simp only [List.forall_mem_cons, isDigit, Option.isSome_iff_exists] at hdigits
      obtain ⟨⟨h, hhigh⟩, ⟨l, hlow⟩, hrest⟩ := hdigits
      simp only [List.length_cons] at hlength
      obtain ⟨bytes, hbytes, rfl⟩ := ih rest
        (fun c hc => Option.isSome_iff_exists.mpr (hrest c hc)) (by omega)
      refine ⟨UInt8.ofNat (16 * h + l) :: bytes, ?_, rfl⟩
      simp [decode?, hhigh, hlow, hbytes]

/-- The digits of either case. -/
def alphabet : List Char :=
  [ '0', '1', '2', '3', '4', '5', '6', '7', '8', '9',
    'a', 'b', 'c', 'd', 'e', 'f', 'A', 'B', 'C', 'D', 'E', 'F']

theorem isDigit_iff_mem_alphabet (c : Char) : isDigit c ↔ c ∈ alphabet := by
  constructor
  · intro h
    have all : ∀ n < 103, isDigit (Char.ofNat n) → Char.ofNat n ∈ alphabet := by decide
    have hc := all c.toNat (by have := toNat_of_isDigit h; omega)
    rw [Char.ofNat_toNat] at hc
    exact hc h
  · have all : alphabet.all isDigit := by decide
    exact List.all_eq_true.mp all c

end Hex

namespace Text

theorem dropWhile_isBlank_eq_self {cs : List Char} (h : ∀ c ∈ cs, isBlank c = false) :
    cs.dropWhile isBlank = cs := by
  cases cs with
  | nil => rfl
  | cons c cs => exact List.dropWhile_cons_of_neg (by simp [h c List.mem_cons_self])

theorem trim_append {before core after : List Char} (hbefore : ∀ c ∈ before, isBlank c)
    (hcore : ∀ c ∈ core, isBlank c = false) (hafter : ∀ c ∈ after, isBlank c) :
    trim (before ++ core ++ after) = core := by
  have hreverse : (core ++ after).reverse.dropWhile isBlank = core.reverse := by
    rw [List.reverse_append,
      List.dropWhile_append_of_pos fun c hc => hafter c (List.mem_reverse.mp hc)]
    exact dropWhile_isBlank_eq_self fun c hc => hcore c (List.mem_reverse.mp hc)
  rw [trim, List.append_assoc, List.dropWhile_append_of_pos hbefore]
  cases core with
  | nil =>
    rw [List.nil_append, List.dropWhile_eq_nil_iff.mpr hafter]
    rfl
  | cons c core =>
    have hc : (c :: (core ++ after)).dropWhile isBlank = c :: (core ++ after) :=
      List.dropWhile_cons_of_neg (by simp [hcore c List.mem_cons_self])
    rw [List.cons_append, hc, ← List.cons_append, hreverse, List.reverse_reverse]

/-- What is trimmed has no white space left at its ends. -/
theorem trim_trim (cs : List Char) : trim (trim cs) = trim cs := by
  have htrim : trim cs = (cs.dropWhile isBlank).rdropWhile isBlank := rfl
  have hfront : (trim cs).dropWhile isBlank = trim cs := by
    cases hcs : trim cs with
    | nil => rfl
    | cons c core =>
      have hprefix : c :: core <+: cs.dropWhile isBlank := by
        rw [← hcs, htrim]
        exact List.rdropWhile_prefix isBlank _
      obtain ⟨rest, hrest⟩ := hprefix
      have hhead := List.head?_dropWhile_not isBlank cs
      rw [← hrest] at hhead
      exact List.dropWhile_cons_of_neg (by simpa using hhead)
  rw [trim, hfront]
  exact List.rdropWhile_idempotent isBlank (cs.dropWhile isBlank)

/-- What trimming takes away is white space. -/
theorem exists_append_trim (cs : List Char) :
    ∃ before after, (∀ c ∈ before, isBlank c) ∧ (∀ c ∈ after, isBlank c) ∧
      cs = before ++ trim cs ++ after := by
  refine ⟨cs.takeWhile isBlank, ((cs.dropWhile isBlank).reverse.takeWhile isBlank).reverse,
    fun _ => List.mem_takeWhile_imp,
    fun c hc => List.mem_takeWhile_imp (List.mem_reverse.mp hc), ?_⟩
  rw [trim, List.append_assoc, ← List.reverse_append, List.takeWhile_append_dropWhile,
    List.reverse_reverse, List.takeWhile_append_dropWhile]

end Text

theorem Hex.unmarked?_eq_some_iff {cs digits : List Char} :
    unmarked? cs = some digits ↔
      ∃ mark, (mark = 'x' ∨ mark = 'X') ∧ cs = '0' :: mark :: digits := by
  constructor
  · intro h
    unfold unmarked? at h
    split at h
    · cases h
      exact ⟨'x', .inl rfl, rfl⟩
    · cases h
      exact ⟨'X', .inr rfl, rfl⟩
    · cases h
  · rintro ⟨mark, rfl | rfl, rfl⟩ <;> rfl

namespace Bytes

theorem ofHexText?_eq_some_iff {raw : String} {bytes : Bytes} :
    ofHexText? raw = some bytes ↔
      ∃ before mark digits after, (∀ c ∈ before, Text.isBlank c) ∧ (mark = 'x' ∨ mark = 'X') ∧
        (∀ c ∈ after, Text.isBlank c) ∧ raw.toList = before ++ '0' :: mark :: digits ++ after ∧
        Hex.decode? digits = some bytes := by
  simp only [ofHexText?, Option.bind_eq_bind, Option.bind_eq_some_iff, Hex.unmarked?_eq_some_iff]
  constructor
  · rintro ⟨digits, ⟨mark, hmark, htrim⟩, hdecode⟩
    obtain ⟨before, after, hbefore, hafter, hraw⟩ := Text.exists_append_trim raw.toList
    rw [htrim] at hraw
    exact ⟨before, mark, digits, after, hbefore, hmark, hafter, hraw, hdecode⟩
  · rintro ⟨before, mark, digits, after, hbefore, hmark, hafter, hraw, hdecode⟩
    refine ⟨digits, ⟨mark, hmark, ?_⟩, hdecode⟩
    rw [hraw]
    apply Text.trim_append hbefore _ hafter
    rw [List.forall_mem_cons, List.forall_mem_cons]
    refine ⟨rfl, ?_, fun c hc =>
      Hex.not_isBlank_of_isDigit (Hex.isDigit_of_decode? hdecode c hc)⟩
    rcases hmark with rfl | rfl <;> rfl

/-- Bytes may be written in any letter case, behind either mark. -/
theorem ofHexText?_spelling {bytes : Bytes} {mark : Char} {digits : List Char}
    (hmark : mark = 'x' ∨ mark = 'X') (hdigits : digits.map Char.toLower = Hex.encode bytes) :
    ofHexText? (String.ofList ('0' :: mark :: digits)) = some bytes := by
  have hdecode : Hex.decode? digits = some bytes := by
    rw [← Hex.decode?_map_toLower, hdigits, Hex.decode?_encode]
  exact ofHexText?_eq_some_iff.mpr ⟨[], mark, digits, [], nofun, hmark, nofun, by simp, hdecode⟩

end Bytes

/-- The texts of `n` bytes: two digits for each byte behind a mark, with white space around them. -/
inductive HexText : String → Nat → Prop
  | marked {raw : String} {before digits after : List Char} {mark : Char} {n : Nat} :
      (∀ c ∈ before, Text.isBlank c) → (mark = 'x' ∨ mark = 'X') →
      (∀ c ∈ digits, c ∈ Hex.alphabet) → digits.length = 2 * n → (∀ c ∈ after, Text.isBlank c) →
      raw.toList = before ++ '0' :: mark :: digits ++ after → HexText raw n

/-- A text denotes bytes exactly when it is of their form. -/
theorem Bytes.exists_ofHexText?_iff (raw : String) (n : Nat) :
    (∃ bytes, ofHexText? raw = some bytes ∧ bytes.length = n) ↔ HexText raw n := by
  simp only [ofHexText?_eq_some_iff]
  constructor
  · rintro ⟨bytes, ⟨before, mark, digits, after, hbefore, hmark, hafter, hraw, hdecode⟩, hlength⟩
    obtain ⟨hdigits, hcount⟩ := (Hex.exists_decode?_iff digits n).mp ⟨bytes, hdecode, hlength⟩
    exact .marked hbefore hmark (fun c hc => (Hex.isDigit_iff_mem_alphabet c).mp (hdigits c hc))
      hcount hafter hraw
  · rintro ⟨hbefore, hmark, hdigits, hcount, hafter, hraw⟩
    obtain ⟨bytes, hdecode, hlength⟩ := (Hex.exists_decode?_iff _ n).mpr
      ⟨fun c hc => (Hex.isDigit_iff_mem_alphabet c).mpr (hdigits c hc), hcount⟩
    exact ⟨bytes, ⟨_, _, _, _, hbefore, hmark, hafter, hraw, hdecode⟩, hlength⟩

end CallBundle
