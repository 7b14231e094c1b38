import Mathlib
import CallBundle.Proofs.Hex

/-!
Addresses and their texts. The checksum is in the letter case alone, and letter case makes no
difference when an address is read. Main statements: `exists_ofText?_iff` and `ofText?_text`.
-/

namespace CallBundle

namespace Hex

/-- The digits that are written are in lower case. -/
theorem toLower_of_mem_encode {bytes : Bytes} {c : Char} (h : c ∈ encode bytes) :
    c.toLower = c ∧ c.toUpper.toLower = c := by
  have hdigit : ∀ n < 16, (Nat.digitChar n).toLower = Nat.digitChar n ∧
      (Nat.digitChar n).toUpper.toLower = Nat.digitChar n := by decide
  induction bytes with
  | nil => cases h
  | cons b bytes ih =>
    have hb := b.toNat_lt
    rw [encode, List.mem_cons, List.mem_cons] at h
    obtain rfl | rfl | h := h
    · exact hdigit _ (by omega)
    · exact hdigit _ (by omega)
    · exact ih h

end Hex

namespace Address

theorem map_toLower_checksummed (a : Address) : a.checksummed.map Char.toLower = a.digits := by
  refine List.ext_getElem (by simp [checksummed]) fun i _ hi => ?_
  obtain ⟨hlower, hupper⟩ := Hex.toLower_of_mem_encode (List.getElem_mem hi)
  simp only [checksummed, List.getElem_map, List.getElem_mapIdx]
  split
  · exact hupper
  · exact hlower

theorem ofBytes?_eq_some_iff {bytes : Bytes} {a : Address} :
    ofBytes? bytes = some a ↔ bytes = a.bytes := by
  rw [ofBytes?]
  constructor
  · intro h
    split at h
    · cases h
      rfl
    · cases h
  · rintro rfl
    exact dif_pos a.length_bytes

theorem ofText?_eq_some_iff {raw : String} {a : Address} :
    ofText? raw = some a ↔ Bytes.ofHexText? raw = some a.bytes := by
  have hbind : ofText? raw = (Bytes.ofHexText? raw).bind ofBytes? := by
    simp only [ofText?, Bytes.ofHexText?, Option.bind_eq_bind, Option.bind_assoc]
  rw [hbind, Option.bind_eq_some_iff]
  simp only [ofBytes?_eq_some_iff, exists_eq_right]

/-- A text is read as an address exactly when it is that of twenty bytes. -/
theorem exists_ofText?_iff (raw : String) : (∃ a, ofText? raw = some a) ↔ HexText raw 20 := by
  rw [← Bytes.exists_ofHexText?_iff]
  constructor
  · rintro ⟨a, ha⟩
    exact ⟨a.bytes, ofText?_eq_some_iff.mp ha, a.length_bytes⟩
  · rintro ⟨bytes, hbytes, hlength⟩
    exact ⟨⟨bytes, hlength⟩, ofText?_eq_some_iff.mpr hbytes⟩

theorem ofText?_eq_none_iff (raw : String) : ofText? raw = none ↔ ¬ HexText raw 20 := by
  rw [← exists_ofText?_iff, Option.eq_none_iff_forall_ne_some, not_exists]

/-- The text of an address is read as that address. -/
theorem ofText?_text (a : Address) : ofText? a.text = some a :=
  ofText?_eq_some_iff.mpr (Bytes.ofHexText?_spelling (.inl rfl) a.map_toLower_checksummed)

end Address

end CallBundle
