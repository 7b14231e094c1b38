import Mathlib
import CallBundle.Proofs.Abi.Encoding
import CallBundle.Proofs.Hex

/-!
Which values fit a type. Main statement: `encodeTuple_succeeds_iff_fits`, so values are encoded
exactly when there is one for each type and each fits its own.
-/

namespace CallBundle.Abi

/-- A byte string has its bytes, and a text those that it denotes. -/
inductive Value.HasBytes : Value → Nat → Prop
  | bytes (b : Bytes) : HasBytes (.bytes b) b.length
  | string {s : String} {n : Nat} : HexText s n → HasBytes (.string s) n

/-- The values that a type takes, one rule for each type. -/
inductive Fits : Ty → Value → Prop
  | address (a : Address) : Fits .address (.address a)
  | bool (b : Bool) : Fits .bool (.bool b)
  | string (s : String) : Fits .string (.string s)
  | bytes {v : Value} {n : Nat} : v.HasBytes n → Fits .bytes v
  | fixedBytes {width n : Nat} {v : Value} :
      BytesWidth width → v.HasBytes n → n ≤ width → Fits (.fixedBytes width) v
  | uint {bits : Nat} {v : Value} {z : Int} :
      IntegerWidth bits → v.integer? = some z → 0 ≤ z → z < 2 ^ bits → Fits (.uint bits) v
  | int {bits : Nat} {v : Value} {z : Int} :
      IntegerWidth bits → v.integer? = some z → -2 ^ (bits - 1) ≤ z → z < 2 ^ (bits - 1) →
        Fits (.int bits) v
  | array {element : Ty} {vs : List Value} :
      (∀ v ∈ vs, Fits element v) → Fits (.array element) (.array vs)
  | fixedArray {element : Ty} {length : Nat} {vs : List Value} :
      vs.length = length → (∀ v ∈ vs, Fits element v) →
        Fits (.fixedArray element length) (.array vs)

theorem Value.hasBytes_iff (v : Value) (n : Nat) :
    v.HasBytes n ↔ ∃ b, v.blob? = some b ∧ b.length = n := by
  constructor
  · rintro (b | hs)
    case bytes => exact ⟨b, rfl, rfl⟩
    case string => exact (Bytes.exists_ofHexText?_iff _ n).mpr hs
  · rintro ⟨b, hb, rfl⟩
    cases v with
    | bytes =>
      cases hb
      exact .bytes b
    | string s => exact .string ((Bytes.exists_ofHexText?_iff s _).mp ⟨b, hb, rfl⟩)
    | _ => cases hb

theorem isSome_toOption_iff {ε α : Type} {x : Except ε α} :
    x.toOption.isSome ↔ ∃ a, x = .ok a := by
  cases x <;> simp [Except.toOption]

theorem isSome_mapM_iff {α β : Type} (f : α → Option β) (as : List α) :
    (as.mapM f).isSome ↔ ∀ a ∈ as, (f a).isSome := by
  induction as with
  | nil => simp
  | cons a as ih =>
    rw [List.mapM_cons, List.forall_mem_cons, ← ih]
    cases f a with
    | none => simp
    | some b => cases as.mapM f <;> simp

theorem isSome_bind_dite_iff {α β : Type} {x : Option α} {p : α → Prop} [DecidablePred p]
    {f : (a : α) → p a → β} :
    (x.bind fun a => if h : p a then some (f a h) else none).isSome ↔ ∃ a, x = some a ∧ p a := by
  cases x with
  | none => simp
  | some a =>
    by_cases h : p a
    · simp [h]
    · simp [h]

namespace Value

/-- A value denotes an element of a type exactly when it fits it. -/
theorem isSome_as?_iff (ty : Ty) (v : Value) : (v.as? ty).isSome ↔ Fits ty v := by
  induction ty generalizing v with
  | address =>
    cases v with
    | address a => exact iff_of_true rfl (.address a)
    | _ => exact iff_of_false Bool.false_ne_true (by rintro ⟨⟩)
  | bool =>
    cases v with
    | bool b => exact iff_of_true rfl (.bool b)
    | _ => exact iff_of_false Bool.false_ne_true (by rintro ⟨⟩)
  | string =>
    cases v with
    | string s => exact iff_of_true rfl (.string s)
    | _ => exact iff_of_false Bool.false_ne_true (by rintro ⟨⟩)
  | bytes =>
    rw [as?_bytes, Option.isSome_iff_exists]
    constructor
    · rintro ⟨b, hb⟩
      exact .bytes ((v.hasBytes_iff b.length).mpr ⟨b, hb, rfl⟩)
    · intro h
      cases h with | bytes hn =>
        obtain ⟨b, hb, -⟩ := (v.hasBytes_iff _).mp hn
        exact ⟨b, hb⟩
  | fixedBytes width =>
    rw [as?_fixedBytes, isSome_bind_dite_iff]
    constructor
    · rintro ⟨b, hb, hwidth, hle⟩
      exact .fixedBytes hwidth ((v.hasBytes_iff b.length).mpr ⟨b, hb, rfl⟩) hle
    · intro h
      cases h with | fixedBytes hwidth hn hle =>
        obtain ⟨b, hb, rfl⟩ := (v.hasBytes_iff _).mp hn
        exact ⟨b, hb, hwidth, hle⟩
  | uint bits =>
    rw [as?, Option.bind_eq_bind, isSome_bind_dite_iff]
    constructor
    · rintro ⟨z, hz, hwidth, hle, hlt⟩
      exact .uint hwidth hz hle hlt
    · intro h
      cases h with | uint hwidth hz hle hlt => exact ⟨_, hz, hwidth, hle, hlt⟩
  | int bits =>
    rw [as?, Option.bind_eq_bind, isSome_bind_dite_iff]
    constructor
    · rintro ⟨z, hz, hwidth, hle, hlt⟩
      exact .int hwidth hz hle hlt
    · intro h
      cases h with | int hwidth hz hle hlt => exact ⟨_, hz, hwidth, hle, hlt⟩
  | array element ih =>
    cases v with
    | array vs =>
      rw [as?, items?, Option.bind_eq_bind, Option.bind_some, isSome_mapM_iff]
      constructor
      · exact fun h => .array fun w hw => (ih w).mp (h w hw)
      · intro h
        cases h with | array h => exact fun w hw => (ih w).mpr (h w hw)
    | _ => exact iff_of_false Bool.false_ne_true (by rintro ⟨⟩)
  | fixedArray element length ih =>
    cases v with
    | array vs =>
      have hmem : (vs.mapM (as? element)).isSome ↔ ∀ w ∈ vs, Fits element w := by
        simp only [isSome_mapM_iff, ih]
      rw [as?, items?, Option.bind_eq_bind, Option.bind_eq_bind, Option.bind_some,
        isSome_bind_dite_iff]
      constructor
      · rintro ⟨xs, hxs, rfl⟩
        exact .fixedArray (length_of_mapM hxs).symm (hmem.mp (Option.isSome_of_eq_some hxs))
      · intro h
        cases h with | fixedArray hlength hvs =>
          obtain ⟨xs, hxs⟩ := Option.isSome_iff_exists.mp (hmem.mpr hvs)
          exact ⟨xs, hxs, (length_of_mapM hxs).trans hlength⟩
    | _ => exact iff_of_false Bool.false_ne_true (by rintro ⟨⟩)

instance (ty : Ty) (v : Value) : Decidable (Fits ty v) :=
  decidable_of_iff _ (isSome_as?_iff ty v)

theorem isSome_allAs?_iff {tys : List Ty} {vs : List Value} :
    (allAs? tys vs).isSome ↔ List.Forall₂ Fits tys vs := by
  fun_induction allAs? tys vs with
  | case1 => exact iff_of_true rfl .nil
  | case2 ty tys v vs ih =>
    rw [List.forall₂_cons, ← isSome_as?_iff, ← ih]
    cases v.as? ty with
    | none => simp
    | some x => cases allAs? tys vs <;> simp
  | case3 tys vs hnil hcons =>
    apply iff_of_false Bool.false_ne_true
    rintro ⟨⟩
    case nil => exact hnil rfl rfl
    case cons => exact hcons _ _ _ _ rfl rfl

end Value

theorem exists_encode_iff_fits (ty : Ty) (place : Place) (v : Value) :
    (∃ out, encode ty place v = .ok out) ↔ Fits ty v := by
  rw [← Value.isSome_as?_iff, ← isSome_toOption_iff, toOption_encode, Option.isSome_map]

/-- Values are encoded exactly when there is one for each type and each fits its own. -/
theorem encodeTuple_succeeds_iff_fits (tys : List Ty) (vs : List Value) (place : Place) :
    (∃ out, encodeTuple tys vs place = .ok out) ↔
      tys.length = vs.length ∧ ∀ ty v, (ty, v) ∈ tys.zip vs → Fits ty v := by
  rw [← isSome_toOption_iff, toOption_encodeTuple, Option.isSome_map, Value.isSome_allAs?_iff,
    List.forall₂_iff_zip]

example : Fits (.array (.int 8)) (.array [.int (-128), .uint 127]) := by decide

example : ¬ Fits (.int 8) (.uint 128) := by decide

example : Fits (.fixedBytes 2) (.string " 0Xfe ") := by decide

end CallBundle.Abi
