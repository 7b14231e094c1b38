import Mathlib
import CallBundle.Proofs.Abi.Fault
import CallBundle.Proofs.Abi.Fit

/-!
Where encoding fails. Values are encoded from left to right, so that a failure blames the first
value that cannot be encoded, found by going down from list to list past what can. Main statements:
`encodeTuple_eq_error_iff` and `encodeTuple_blames_first_misfit`.
-/

namespace CallBundle

namespace Place

/-- The place that an index for each level leads to. -/
def under (place : Place) (path : List Nat) : Place := ⟨place.root, place.path ++ path⟩

@[simp] theorem under_nil (place : Place) : place.under [] = place := by
  simp [under]

@[simp] theorem under_item (place : Place) (index : Nat) (path : List Nat) :
    (place.item index).under path = place.under (index :: path) := by
  simp [under, item]

theorem text_under (place : Place) (path : List Nat) :
    (place.under path).text = place.text ++ String.join (path.map fun index => s!"[{index}]") := by
  simp [text, under, String.append_assoc]

end Place

theorem text_fixedArray (place : Place) (ty : Abi.Ty) :
    (Counted.fixedArray place ty).text = place.text ++ " (" ++ ty.text ++ ")" := by
  simp [Counted.text, toString]

namespace Abi

section

variable {ε α β : Type} {f : Nat → α → Except ε β} {i : Nat} {a : α} {as : List α} {e : ε}

theorem eachFrom_cons_of_error (h : f i a = .error e) : eachFrom f i (a :: as) = .error e := by
  rw [eachFrom, h]
  rfl

theorem eachFrom_cons_eq_error_iff {b : β} (h : f i a = .ok b) :
    eachFrom f i (a :: as) = .error e ↔ eachFrom f (i + 1) as = .error e := by
  rw [eachFrom, h]
  exact bind_pure_eq_error_iff

theorem eachFrom_append_of_error {before after : List α}
    (hbefore : ∀ x ∈ before, ∀ i, ∃ b, f i x = .ok b) (h : f (i + before.length) a = .error e) :
    eachFrom f i (before ++ a :: after) = .error e := by
  induction before generalizing i with
  | nil => exact eachFrom_cons_of_error h
  | cons x before ih =>
    rw [List.forall_mem_cons] at hbefore
    obtain ⟨b, hb⟩ := hbefore.1 i
    rw [List.length_cons, Nat.add_comm before.length, ← Nat.add_assoc] at h
    exact (eachFrom_cons_eq_error_iff hb).mpr (ih hbefore.2 h)

/-- Where applying `f` fails, it fails at an element after ones at which it does not. -/
theorem exists_of_eachFrom_eq_error (h : eachFrom f i as = .error e) :
    ∃ before a after, as = before ++ a :: after ∧ (∀ x ∈ before, ∃ j b, f j x = .ok b) ∧
      f (i + before.length) a = .error e := by
  induction as generalizing i with
  | nil => cases h
  | cons a as ih =>
    cases ha : f i a with
    | error e' =>
      cases (eachFrom_cons_of_error ha).symm.trans h
      exact ⟨[], a, as, rfl, nofun, ha⟩
    | ok b =>
      obtain ⟨before, a', after, rfl, hbefore, he⟩ := ih ((eachFrom_cons_eq_error_iff ha).mp h)
      refine ⟨a :: before, a', after, rfl, List.forall_mem_cons.mpr ⟨⟨i, b, ha⟩, hbefore⟩, ?_⟩
      rwa [List.length_cons, Nat.add_comm before.length, ← Nat.add_assoc]

end

/-- Whether a value is encoded, in whatever place. -/
def Encodes (ty : Ty) (v : Value) : Prop := ∀ place, ∃ out, encode ty place v = .ok out

theorem exists_encode_iff_encodes (ty : Ty) (place : Place) (v : Value) :
    (∃ out, encode ty place v = .ok out) ↔ Encodes ty v := by
  simp only [Encodes, exists_encode_iff_fits]
  exact ⟨fun h _ => h, fun h => h place⟩

/-- The way down from a value to one inside it, by its index in each list, where everything to the
left of the way is encoded. -/
inductive Reaches : Ty → Value → List Nat → Ty → Value → Prop
  | here {ty : Ty} {v : Value} : Reaches ty v [] ty v
  | array {element inner : Ty} {before after : List Value} {v w : Value} {path : List Nat} :
      (∀ x ∈ before, Encodes element x) → Reaches element v path inner w →
        Reaches (.array element) (.array (before ++ v :: after)) (before.length :: path) inner w
  | fixedArray {element inner : Ty} {length : Nat} {before after : List Value} {v w : Value}
      {path : List Nat} :
      (before ++ v :: after).length = length → (∀ x ∈ before, Encodes element x) →
      Reaches element v path inner w →
        Reaches (.fixedArray element length) (.array (before ++ v :: after))
          (before.length :: path) inner w

/-- The scalar types whose values have no place in a word. -/
inductive Ty.Unencodable : Ty → Prop
  | uint {bits : Nat} : ¬ IntegerWidth bits → Unencodable (.uint bits)
  | int {bits : Nat} : ¬ IntegerWidth bits → Unencodable (.int bits)
  | fixedBytes {width : Nat} : ¬ BytesWidth width → Unencodable (.fixedBytes width)

theorem Ty.not_hasEncodableWidth_iff (ty : Ty) : ¬ ty.hasEncodableWidth ↔ ty.Unencodable := by
  cases ty with
  | uint bits =>
    rw [hasEncodableWidth_uint]
    refine ⟨.uint, fun h => ?_⟩
    cases h with | uint h => exact h
  | int bits =>
    rw [hasEncodableWidth_int]
    refine ⟨.int, fun h => ?_⟩
    cases h with | int h => exact h
  | fixedBytes width =>
    rw [hasEncodableWidth_fixedBytes]
    refine ⟨.fixedBytes, fun h => ?_⟩
    cases h with | fixedBytes h => exact h
  | _ => exact iff_of_false (fun h => h rfl) (by rintro ⟨⟩)

/-- What a value at some place is blamed for, its elements apart. -/
inductive Blames (place : Place) : Ty → Value → Failure → Prop
  | width {ty : Ty} {v : Value} : ty.Unencodable → Blames place ty v (.unsupportedType ty.text)
  | kind {ty : Ty} {v : Value} :
      ¬ ty.Unencodable → ¬ ty.takes v → Blames place ty v (.typeMismatch place ty v)
  | room {ty : Ty} {v : Value} :
      ¬ ty.Unencodable → ty.takes v → ¬ ty.hasRoom v →
        Blames place ty v (.valueOutOfRange place ty v)
  | count {element : Ty} {length : Nat} {vs : List Value} :
      vs.length ≠ length →
        Blames place (.fixedArray element length) (.array vs)
          (.arityMismatch (.fixedArray place (.fixedArray element length)) length vs.length)

theorem Site.fault?_of_blames {ty : Ty} {place : Place} {v : Value} {e : Failure}
    (h : Blames place ty v e) : (Site.mk ty place v).fault? = some e := by
  cases h with
  | width hwidth => simp [fault?, ty.not_hasEncodableWidth_iff.mpr hwidth]
  | kind hwidth htakes =>
    simp [fault?, not_imp_comm.mp ty.not_hasEncodableWidth_iff.mp hwidth, htakes]
  | room hwidth htakes hroom =>
    simp [fault?, not_imp_comm.mp ty.not_hasEncodableWidth_iff.mp hwidth, htakes, hroom]
  | count hlength => exact lengthFault?_eq_some_iff.mpr (.fixedArray hlength)

theorem Site.fault?_eq_some_iff {ty : Ty} {place : Place} {v : Value} {e : Failure} :
    (Site.mk ty place v).fault? = some e ↔ Blames place ty v e := by
  refine ⟨fun h => ?_, fault?_of_blames⟩
  by_cases hwidth : ty.Unencodable
  case pos =>
    cases (fault?_of_blames (.width hwidth)).symm.trans h
    exact .width hwidth
  case neg =>
    by_cases htakes : ty.takes v
    case neg =>
      cases (fault?_of_blames (.kind hwidth htakes)).symm.trans h
      exact .kind hwidth htakes
    case pos =>
      by_cases hroom : ty.hasRoom v
      case neg =>
        cases (fault?_of_blames (.room hwidth htakes hroom)).symm.trans h
        exact .room hwidth htakes hroom
      case pos =>
        have hencodable := not_imp_comm.mp ty.not_hasEncodableWidth_iff.mp hwidth
        obtain ⟨hlength⟩ := lengthFault?_eq_some_iff.mp
          (by simpa [fault?, hencodable, htakes, hroom] using h)
        exact .count hlength

theorem exists_sites_eq_cons (ty : Ty) (place : Place) (v : Value) :
    ∃ inner, sites ty place v = ⟨ty, place, v⟩ :: inner := by
  cases ty with
  | array element => exact ⟨_, rfl⟩
  | fixedArray element length => exact ⟨_, rfl⟩
  | _ => exact ⟨[], rfl⟩

theorem encode_of_blames {ty : Ty} {place : Place} {v : Value} {e : Failure}
    (h : Blames place ty v e) : encode ty place v = .error e := by
  obtain ⟨inner, hsites⟩ := exists_sites_eq_cons ty place v
  rw [← failure?_eq_some_iff, failure?_encode, hsites, List.findSome?_cons,
    Site.fault?_eq_some_iff.mpr h]

theorem blames_of_sites_eq_singleton {ty : Ty} {place : Place} {v : Value} {e : Failure}
    (hsites : sites ty place v = [⟨ty, place, v⟩]) (h : encode ty place v = .error e) :
    Blames place ty v e := by
  rw [← failure?_eq_some_iff, failure?_encode, hsites, List.findSome?_singleton] at h
  exact Site.fault?_eq_some_iff.mp h

/-- A value, or one inside it with all to the left encoded, is blamed for the failure. -/
def FailsBelow (ty : Ty) (place : Place) (v : Value) (e : Failure) : Prop :=
  ∃ path inner w, Reaches ty v path inner w ∧ Blames (place.under path) inner w e

theorem FailsBelow.of_blames {ty : Ty} {place : Place} {v : Value} {e e' : Failure}
    (hblames : Blames place ty v e') (h : encode ty place v = .error e) :
    FailsBelow ty place v e := by
  cases (encode_of_blames hblames).symm.trans h
  exact ⟨[], ty, v, .here, by simpa using hblames⟩

/-- A failure to encode several values blames something in the first that is not encoded. -/
theorem exists_failsBelow_of_eachFrom_eq_error {α : Type} {ty : α → Ty} {value : α → Value}
    {place : Place} {as : List α} {e : Failure}
    (ih : ∀ a place, encode (ty a) place (value a) = .error e →
      FailsBelow (ty a) place (value a) e)
    (h : eachFrom (fun i a => encode (ty a) (place.item i) (value a)) 0 as = .error e) :
    ∃ before a after, as = before ++ a :: after ∧ (∀ x ∈ before, Encodes (ty x) (value x)) ∧
      FailsBelow (ty a) (place.item before.length) (value a) e := by
  obtain ⟨before, a, after, rfl, hbefore, he⟩ := exists_of_eachFrom_eq_error h
  rw [Nat.zero_add] at he
  refine ⟨before, a, after, rfl, ?_, ih a _ he⟩
  intro x hx
  obtain ⟨j, hj⟩ := hbefore x hx
  exact (exists_encode_iff_encodes _ _ _).mp hj

/-- Lists whose length their type allows fail only for their elements. -/
theorem encode_array_eq_error_iff {element : Ty} {place : Place} {vs : List Value} {e : Failure} :
    encode (.array element) place (.array vs) = .error e ↔
      eachFrom (fun i => encode element (place.item i)) 0 vs = .error e := by
  rw [encode]
  exact bind_pure_eq_error_iff

theorem encode_fixedArray_eq_error_iff {element : Ty} {length : Nat} {place : Place}
    {vs : List Value} {e : Failure} (h : vs.length = length) :
    encode (.fixedArray element length) place (.array vs) = .error e ↔
      eachFrom (fun i => encode element (place.item i)) 0 vs = .error e := by
  rw [encode, elementsOfLength_array, if_pos h]
  exact bind_pure_eq_error_iff

/-- Encoding fails exactly with what the first value that is not encoded is blamed for. -/
theorem encode_eq_error_iff {ty : Ty} {place : Place} {v : Value} {e : Failure} :
    encode ty place v = .error e ↔ FailsBelow ty place v e := by
  constructor
  · intro h
    induction ty generalizing place v with
    | array element ih =>
      obtain ⟨vs, rfl⟩ | ⟨-, -, hfault⟩ :=
        failure?_elements (.array element) rfl (fun _ => rfl) place v
      · obtain ⟨before, w, after, rfl, hbefore, path, inner, x, hreaches, hblames⟩ :=
          exists_failsBelow_of_eachFrom_eq_error (fun _ _ => ih) (encode_array_eq_error_iff.mp h)
        exact ⟨before.length :: path, inner, x, .array hbefore hreaches, by simpa using hblames⟩
      · exact .of_blames (Site.fault?_eq_some_iff.mp hfault) h
    | fixedArray element length ih =>
      obtain ⟨vs, rfl⟩ | ⟨-, -, hfault⟩ :=
        failure?_elements (.fixedArray element length) rfl (fun _ => rfl) place v
      · by_cases hlength : vs.length = length
        · obtain ⟨before, w, after, rfl, hbefore, path, inner, x, hreaches, hblames⟩ :=
            exists_failsBelow_of_eachFrom_eq_error (fun _ _ => ih)
              ((encode_fixedArray_eq_error_iff hlength).mp h)
          exact ⟨before.length :: path, inner, x, .fixedArray hlength hbefore hreaches,
            by simpa using hblames⟩
        · exact .of_blames (.count hlength) h
      · exact .of_blames (Site.fault?_eq_some_iff.mp hfault) h
    | _ => exact .of_blames (blames_of_sites_eq_singleton rfl h) h
  · rintro ⟨path, inner, w, hreaches, hblames⟩
    induction hreaches generalizing place with
    | here => exact encode_of_blames (by simpa using hblames)
    | array hbefore _ ih =>
      rw [encode_array_eq_error_iff]
      apply eachFrom_append_of_error fun x hx i => hbefore x hx (place.item i)
      exact ih (by simpa using hblames)
    | fixedArray hlength hbefore _ ih =>
      rw [encode_fixedArray_eq_error_iff hlength]
      apply eachFrom_append_of_error fun x hx i => hbefore x hx (place.item i)
      exact ih (by simpa using hblames)

theorem encodeTuple_eq_error_iff {tys : List Ty} {vs : List Value} (h : tys.length = vs.length)
    {place : Place} {e : Failure} :
    encodeTuple tys vs place = .error e ↔
      ∃ before ty v after, tys.zip vs = before ++ (ty, v) :: after ∧
        (∀ x ∈ before, Encodes x.1 x.2) ∧ FailsBelow ty (place.item before.length) v e := by
  rw [encodeTuple, if_pos h, bind_pure_eq_error_iff]
  constructor
  · intro h
    obtain ⟨before, ⟨ty, v⟩, after, hzip, hbefore, hfails⟩ :=
      exists_failsBelow_of_eachFrom_eq_error (fun _ _ => encode_eq_error_iff.mp) h
    exact ⟨before, ty, v, after, hzip, hbefore, hfails⟩
  · rintro ⟨before, ty, v, after, hzip, hbefore, hfails⟩
    rw [hzip]
    apply eachFrom_append_of_error fun x hx i => hbefore x hx (place.item i)
    rw [Nat.zero_add]
    exact encode_eq_error_iff.mpr hfails

/-- Where each value has a type and yet they are not encoded, the failure is what the first value
that is not encoded is blamed for, and its place is shown by the indices that lead there. -/
theorem encodeTuple_blames_first_misfit {tys : List Ty} {vs : List Value} {place : Place}
    {e : Failure} (hlength : tys.length = vs.length) (h : encodeTuple tys vs place = .error e) :
    ∃ before ty v after path inner w, tys.zip vs = before ++ (ty, v) :: after ∧
      (∀ x ∈ before, Encodes x.1 x.2) ∧ Reaches ty v path inner w ∧
      Blames (place.under (before.length :: path)) inner w e ∧
      let shown :=
        place.text ++ String.join ((before.length :: path).map fun index => s!"[{index}]")
      (place.under (before.length :: path)).text = shown ∧
        (Counted.fixedArray (place.under (before.length :: path)) inner).text =
          shown ++ " (" ++ inner.text ++ ")" := by
  obtain ⟨before, ty, v, after, hzip, hbefore, path, inner, w, hreaches, hblames⟩ :=
    (encodeTuple_eq_error_iff hlength).mp h
  rw [Place.under_item] at hblames
  have htext := place.text_under (before.length :: path)
  exact ⟨before, ty, v, after, path, inner, w, hzip, hbefore, hreaches, hblames, htext,
    (text_fixedArray _ inner).trans (by rw [htext])⟩

theorem encodeTuple_blames_first_misfit_nested :
    let tys : List Ty := [.fixedArray (.uint 8) 2, .array (.fixedArray (.array .bool) 2)]
    let vs : List Value :=
      [ .array [.uint 255, .int 0],
        .array
          [ .array [.array [], .array [.bool true]],
            .array [.array [.bool false], .array [.bool true, .string "on"]] ] ]
    let e : Failure := .typeMismatch ⟨"arg", [1, 1, 1, 1]⟩ .bool (.string "on")
    tys.length = vs.length ∧ encodeTuple tys vs (.ofRoot "arg") = .error e ∧
      ∃ before ty v after path inner w, tys.zip vs = before ++ (ty, v) :: after ∧
        (∀ x ∈ before, Encodes x.1 x.2) ∧ Reaches ty v path inner w ∧
        Blames ((Place.ofRoot "arg").under (before.length :: path)) inner w e ∧
        let shown := (Place.ofRoot "arg").text ++
          String.join ((before.length :: path).map fun index => s!"[{index}]")
        ((Place.ofRoot "arg").under (before.length :: path)).text = shown ∧
          (Counted.fixedArray ((Place.ofRoot "arg").under (before.length :: path)) inner).text =
            shown ++ " (" ++ inner.text ++ ")" :=
  ⟨rfl, rfl, encodeTuple_blames_first_misfit rfl rfl⟩

end Abi

end CallBundle
