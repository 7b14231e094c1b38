import Mathlib
import CallBundle.Proofs.Abi.Grammar
import CallBundle.Proofs.Abi.Word

/-!
What keeps values from being encoded. Everything found in the values is looked at in turn, each value
before its own elements, and the first fault decides. Main statements: `failure?_encode` and
`failure?_encodeTuple`.
-/

namespace CallBundle.Abi

/-- A value in the arguments, its place there, and the type that is expected of it. -/
structure Site where
  ty : Ty
  place : Place
  value : Value

/-- A value and all that is in it, each before its own elements, from left to right. -/
def sites : Ty → Place → Value → List Site
  | .array element, place, v =>
    ⟨.array element, place, v⟩ ::
      ((v.items?.getD []).zipIdx.flatMap fun (w, i) => sites element (place.item i) w)
  | .fixedArray element length, place, v =>
    ⟨.fixedArray element length, place, v⟩ ::
      ((v.items?.getD []).zipIdx.flatMap fun (w, i) => sites element (place.item i) w)
  | ty, place, v => [⟨ty, place, v⟩]

def tupleSites (tys : List Ty) (vs : List Value) (place : Place) : List Site :=
  (tys.zip vs).zipIdx.flatMap fun ((ty, v), i) => sites ty (place.item i) v

/-- Whether a value is of the kind that a type takes, its size and its elements apart. -/
def Ty.takes : Ty → Value → Bool
  | .address, .address _ => true
  | .bool, .bool _ => true
  | .string, .string _ => true
  | .bytes, v => v.blob?.isSome
  | .fixedBytes _, v => v.blob?.isSome
  | .uint _, v => v.integer?.isSome
  | .int _, v => v.integer?.isSome
  | .array _, v => v.items?.isSome
  | .fixedArray _ _, v => v.items?.isSome
  | _, _ => false

/-- Whether a value that a scalar type takes has room in it. -/
def Ty.hasRoom : Ty → Value → Bool
  | .fixedBytes width, v => v.blob?.all (·.length ≤ width)
  | .uint bits, v => v.integer?.all fun z => 0 ≤ z ∧ z < 2 ^ bits
  | .int bits, v => v.integer?.all fun z => -2 ^ (bits - 1) ≤ z ∧ z < 2 ^ (bits - 1)
  | _, _ => true

namespace Site

/-- Whether a list is as long as its type says. -/
def lengthFault? : Site → Option Failure
  | ⟨.fixedArray element length, place, .array vs⟩ =>
    if vs.length = length then none
    else some (.arityMismatch (.fixedArray place (.fixedArray element length)) length vs.length)
  | _ => none

/-- What is wrong with a value, its elements apart. -/
def fault? (site : Site) : Option Failure :=
  if !site.ty.hasEncodableWidth then some (.unsupportedType site.ty.text)
  else if !site.ty.takes site.value then some (.typeMismatch site.place site.ty site.value)
  else if !site.ty.hasRoom site.value then some (.valueOutOfRange site.place site.ty site.value)
  else site.lengthFault?

end Site

theorem failure?_eachFrom {ε α β : Type} {f : Nat → α → Except ε β} {inner : Nat → α → List Site}
    {stop? : Site → Option ε} (h : ∀ i a, failure? (f i a) = (inner i a).findSome? stop?) (i : Nat)
    (as : List α) :
    failure? (eachFrom f i as) =
      ((as.zipIdx i).flatMap fun (a, j) => inner j a).findSome? stop? := by
  induction as generalizing i with
  | nil => rfl
  | cons a as ih =>
    rw [eachFrom, List.zipIdx_cons, List.flatMap_cons, List.findSome?_append, ← h, ← ih]
    cases f i a with
    | error e => rfl
    | ok b => cases eachFrom f (i + 1) as <;> rfl

theorem failure?_encodeWord_of_not_encodable {ty : Ty} (h : ¬ ty.hasEncodableWidth) (place : Place)
    (v : Value) : failure? (encodeWord ty place v) = (Site.mk ty place v).fault? := by
  rw [encodeWord_of_not_encodable h]
  simp [Site.fault?, h]

/-- A type with a range of integers refuses the integers out of that range. -/
theorem failure?_encodeWord_integer {ty : Ty} {place : Place} {v : Value} (range : Int → Prop)
    [DecidablePred range] (htakes : ty.takes v = v.integer?.isSome)
    (hlength : (Site.mk ty place v).lengthFault? = none)
    (hroom : ∀ z, ty.hasEncodableWidth → v.integer? = some z → (ty.hasRoom v ↔ range z))
    (hnone : ty.hasEncodableWidth → v.integer? = none →
      encodeWord ty place v = .error (.typeMismatch place ty v))
    (hsome : ∀ z, ty.hasEncodableWidth → v.integer? = some z →
      encodeWord ty place v =
        if range z then .ok (word z) else .error (.valueOutOfRange place ty v)) :
    failure? (encodeWord ty place v) = (Site.mk ty place v).fault? := by
  by_cases hencodable : ty.hasEncodableWidth
  case neg => exact failure?_encodeWord_of_not_encodable hencodable place v
  case pos =>
    simp only [Site.fault?, hencodable, htakes, hlength]
    cases hz : v.integer? with
    | none => simp [hnone hencodable hz]
    | some z =>
      by_cases hrange : range z
      · simp [hsome z hencodable hz, hrange, (hroom z hencodable hz).mpr hrange]
      · have hfalse : ty.hasRoom v = false := by simpa using mt (hroom z hencodable hz).mp hrange
        simp [hsome z hencodable hz, hrange, hfalse]

theorem failure?_encodeWord_uint (bits : Nat) (place : Place) (v : Value) :
    failure? (encodeWord (.uint bits) place v) = (Site.mk (.uint bits) place v).fault? := by
  apply failure?_encodeWord_integer (UintRange bits) rfl rfl
  case hroom =>
    intro z hencodable hz
    simp [Ty.hasRoom, hz, UintRange, (Ty.hasEncodableWidth_uint bits).mp hencodable]
  case hsome => exact fun z h hz => encodeWord_uint ((Ty.hasEncodableWidth_uint bits).mp h) hz place
  case hnone =>
    intro hencodable
    unfold encodeWord
    rw [if_pos hencodable]
    intro hz
    cases v with
    | uint | int => cases hz
    | _ => rfl

theorem failure?_encodeWord_int (bits : Nat) (place : Place) (v : Value) :
    failure? (encodeWord (.int bits) place v) = (Site.mk (.int bits) place v).fault? := by
  apply failure?_encodeWord_integer (IntRange bits) rfl rfl
  case hroom =>
    intro z hencodable hz
    simp [Ty.hasRoom, hz, IntRange, (Ty.hasEncodableWidth_int bits).mp hencodable]
  case hsome => exact fun z h hz => encodeWord_int ((Ty.hasEncodableWidth_int bits).mp h) hz place
  case hnone =>
    intro hencodable
    unfold encodeWord
    rw [if_pos hencodable]
    intro hz
    cases v with
    | uint | int => cases hz
    | _ => rfl

theorem failure?_encodeWord_fixedBytes (width : Nat) (place : Place) (v : Value) :
    failure? (encodeWord (.fixedBytes width) place v) =
      (Site.mk (.fixedBytes width) place v).fault? := by
  by_cases hencodable : (Ty.fixedBytes width).hasEncodableWidth
  case neg => exact failure?_encodeWord_of_not_encodable hencodable place v
  case pos =>
    rw [encodeWord, if_pos hencodable]
    cases hb : v.blob? with
    | none => simp [Site.fault?, hencodable, Ty.takes, hb]
    | some b =>
      by_cases hroom : b.length ≤ width
      · simp [Site.fault?, Site.lengthFault?, hencodable, Ty.takes, Ty.hasRoom, hb, hroom,
          Nat.not_lt.mpr hroom]
      · simp [Site.fault?, hencodable, Ty.takes, Ty.hasRoom, hb, hroom, Nat.lt_of_not_le hroom]

theorem failure?_elements (ty : Ty) (hencodable : ty.hasEncodableWidth)
    (htakes : ∀ v, ty.takes v = v.items?.isSome) (place : Place) (v : Value) :
    (∃ vs, v = .array vs) ∨
      elements ty place v = .error (.typeMismatch place ty v) ∧ v.items? = none ∧
        (Site.mk ty place v).fault? = some (.typeMismatch place ty v) := by
  cases v with
  | array vs => exact .inl ⟨vs, rfl⟩
  | _ => exact .inr ⟨rfl, rfl, by simp [Site.fault?, hencodable, htakes, Value.items?]⟩

theorem elementsOfLength_array (ty : Ty) (length : Nat) (place : Place) (vs : List Value) :
    elementsOfLength ty length place (.array vs) =
      if vs.length = length then .ok vs
      else .error (.arityMismatch (.fixedArray place ty) length vs.length) := rfl

/-- Encoding fails with the first fault that is found in a value, and not otherwise. -/
theorem failure?_encode (ty : Ty) (place : Place) (v : Value) :
    failure? (encode ty place v) = (sites ty place v).findSome? Site.fault? := by
  induction ty generalizing place v with
  | address | bool | string => cases v <;> rfl
  | bytes =>
    rw [encode]
    cases hb : v.blob? with
    | none => simp [sites, Site.fault?, Ty.takes, Ty.hasEncodableWidth, hb]
    | some b =>
      simp [sites, Site.fault?, Ty.takes, Ty.hasEncodableWidth, Ty.hasRoom, Site.lengthFault?, hb]
  | fixedBytes width => simp [encode, failure?_encodeWord_fixedBytes, sites]
  | uint bits => simp [encode, failure?_encodeWord_uint, sites]
  | int bits => simp [encode, failure?_encodeWord_int, sites]
  | array element ih =>
    obtain ⟨vs, rfl⟩ | ⟨herror, hitems, hfault⟩ :=
      failure?_elements (.array element) rfl (fun _ => rfl) place v
    · have hsite : (Site.mk (.array element) place (.array vs)).fault? = none := rfl
      rw [sites, List.findSome?_cons, hsite]
      simp only [Value.items?, Option.getD_some]
      rw [← failure?_eachFrom fun i => ih (place.item i)]
      exact failure?_bind_pure ..
    · rw [encode, herror, sites, List.findSome?_cons, hfault]
      rfl
  | fixedArray element length ih =>
    obtain ⟨vs, rfl⟩ | ⟨herror, hitems, hfault⟩ :=
      failure?_elements (.fixedArray element length) rfl (fun _ => rfl) place v
    · rw [encode, elementsOfLength_array, sites, List.findSome?_cons]
      by_cases hlength : vs.length = length
      · have hsite : (Site.mk (.fixedArray element length) place (.array vs)).fault? = none :=
          if_pos hlength
        rw [hsite, if_pos hlength]
        simp only [Value.items?, Option.getD_some]
        rw [← failure?_eachFrom fun i => ih (place.item i)]
        exact failure?_bind_pure ..
      · have hsite : (Site.mk (.fixedArray element length) place (.array vs)).fault? =
            some (.arityMismatch (.fixedArray place (.fixedArray element length)) length
              vs.length) := if_neg hlength
        rw [hsite, if_neg hlength]
        rfl
    · rw [encode, elementsOfLength, herror, sites, List.findSome?_cons, hfault]
      rfl

theorem failure?_encodeTuple {tys : List Ty} {vs : List Value} (h : tys.length = vs.length)
    (place : Place) :
    failure? (encodeTuple tys vs place) = (tupleSites tys vs place).findSome? Site.fault? := by
  rw [encodeTuple, if_pos h, failure?_bind_pure, tupleSites]
  exact failure?_eachFrom (fun i (x : Ty × Value) => failure?_encode x.1 (place.item i) x.2) 0 _

theorem forall_mem_itemSites {P : Site → Prop} {v : Value} (inner : Nat → Value → List Site)
    (h : ∀ vs, v = .array vs → ∀ w ∈ vs, ∀ i, ∀ site ∈ inner i w, P site) :
    ∀ site ∈ (v.items?.getD []).zipIdx.flatMap fun (w, i) => inner i w, P site := by
  cases v with
  | array vs =>
    intro site hsite
    obtain ⟨⟨w, i⟩, hw, hsite⟩ := List.mem_flatMap.mp hsite
    exact h vs rfl w (List.fst_mem_of_mem_zipIdx hw) i site hsite
  | _ => nofun

/-- What passes from lists to their elements holds of all that is in a value. -/
theorem forall_mem_sites {P : Ty → Value → Prop}
    (harray : ∀ element vs, P (.array element) (.array vs) → ∀ w ∈ vs, P element w)
    (hfixed : ∀ element length vs, P (.fixedArray element length) (.array vs) →
      ∀ w ∈ vs, P element w)
    {ty : Ty} {v : Value} (h : P ty v) (place : Place) :
    ∀ site ∈ sites ty place v, P site.ty site.value := by
  induction ty generalizing place v with
  | array element ih =>
    refine List.forall_mem_cons.mpr
      ⟨h, forall_mem_itemSites (fun i => sites element (place.item i)) ?_⟩
    rintro vs rfl w hw i
    exact ih (harray element vs h w hw) (place.item i)
  | fixedArray element length ih =>
    refine List.forall_mem_cons.mpr
      ⟨h, forall_mem_itemSites (fun i => sites element (place.item i)) ?_⟩
    rintro vs rfl w hw i
    exact ih (hfixed element length vs h w hw) (place.item i)
  | _ => exact List.forall_mem_singleton.mpr h

theorem forall_mem_tupleSites {P : Site → Prop} {tys : List Ty} {vs : List Value}
    (h : ∀ ty v, (ty, v) ∈ tys.zip vs → ∀ place, ∀ site ∈ sites ty place v, P site)
    (place : Place) : ∀ site ∈ tupleSites tys vs place, P site := by
  intro site hsite
  obtain ⟨⟨⟨ty, v⟩, i⟩, hmem, hsite⟩ := List.mem_flatMap.mp hsite
  exact h ty v (List.fst_mem_of_mem_zipIdx hmem) (place.item i) site hsite

theorem Ty.Proper.hasEncodableWidth {ty : Ty} (h : ty.Proper) : ty.hasEncodableWidth := by
  cases ty with
  | uint bits => exact (hasEncodableWidth_uint bits).mpr h
  | int bits => exact (hasEncodableWidth_int bits).mpr h
  | fixedBytes width => exact (hasEncodableWidth_fixedBytes width).mpr h
  | _ => rfl

theorem proper_of_mem_tupleSites {tys : List Ty} (h : ∀ ty ∈ tys, ty.Proper) (vs : List Value)
    (place : Place) : ∀ site ∈ tupleSites tys vs place, site.ty.Proper := by
  apply forall_mem_tupleSites
  intro ty v hmem place
  have hproper := h ty (List.of_mem_zip hmem).1
  exact forall_mem_sites (P := fun ty _ => ty.Proper) (fun _ _ h _ _ => h) (fun _ _ _ h _ _ => h.1)
    hproper place

namespace Site

/-- An integer that is out of the range of its type. -/
inductive OutOfRange : Site → Failure → Prop
  | uint {bits : Nat} {place : Place} {v : Value} {z : Int} :
      v.integer? = some z → ¬ (0 ≤ z ∧ z < 2 ^ bits) →
        OutOfRange ⟨.uint bits, place, v⟩ (.valueOutOfRange place (.uint bits) v)
  | int {bits : Nat} {place : Place} {v : Value} {z : Int} :
      v.integer? = some z → ¬ (-2 ^ (bits - 1) ≤ z ∧ z < 2 ^ (bits - 1)) →
        OutOfRange ⟨.int bits, place, v⟩ (.valueOutOfRange place (.int bits) v)

/-- A list that is not as long as its type says. -/
inductive WrongLength : Site → Failure → Prop
  | fixedArray {element : Ty} {length : Nat} {place : Place} {vs : List Value} :
      vs.length ≠ length →
        WrongLength ⟨.fixedArray element length, place, .array vs⟩
          (.arityMismatch (.fixedArray place (.fixedArray element length)) length vs.length)

theorem lengthFault?_eq_some_iff {site : Site} {e : Failure} :
    site.lengthFault? = some e ↔ site.WrongLength e := by
  constructor
  · intro h
    unfold lengthFault? at h
    split at h
    · split at h
      · cases h
      · cases h
        exact .fixedArray ‹_›
    · cases h
  · rintro ⟨hlength⟩
    exact if_neg hlength

/-- The one fault of format in a type that is within its bounds. -/
theorem wrongLength_of_isFormat {site : Site} {e : Failure} (hproper : site.ty.Proper)
    (h : site.fault? = some e) (hformat : e.isFormat) : site.WrongLength e := by
  simp only [fault?, hproper.hasEncodableWidth, Bool.not_true] at h
  split at h
  · contradiction
  split at h
  · cases h
    cases hformat
  split at h
  · cases h
    cases hformat
  · exact lengthFault?_eq_some_iff.mp h

end Site

end CallBundle.Abi
