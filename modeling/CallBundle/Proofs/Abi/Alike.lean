import Mathlib
import CallBundle.Proofs.Abi.Fault
import CallBundle.Proofs.Agreement

/-!
Values that are encoded alike, such as one number with a sign bit and without. Main statement:
`AllAlike.encodeCall`, so calls of one function whose arguments are alike are encoded to the same data.
-/

namespace CallBundle.Abi

namespace Ty

/-- The type that what is in a list is read as, which is the same type where no list is expected. -/
def itemTy : Ty → Ty
  | .array element => element
  | .fixedArray element _ => element
  | ty => ty

def isInteger : Ty → Bool
  | .uint _ => true
  | .int _ => true
  | _ => false

def isByteString : Ty → Bool
  | .bytes => true
  | .fixedBytes _ => true
  | _ => false

/-- Two values are encoded to the same bytes, or refused in the same way. -/
def Alike (ty : Ty) (v v' : Value) : Prop :=
  ∀ place, Matches (· = ·) (encode ty place v) (encode ty place v')

namespace Alike

variable {ty : Ty} {v v' v'' : Value}

theorem refl (ty : Ty) (v : Value) : ty.Alike v v :=
  fun _ => .refl (fun _ => rfl) _

theorem symm (h : ty.Alike v v') : ty.Alike v' v :=
  fun place => (h place).symm fun _ _ => Eq.symm

theorem trans (h : ty.Alike v v') (h' : ty.Alike v' v'') : ty.Alike v v'' :=
  fun place => (h place).trans (fun _ _ _ hab hbc => hab.trans hbc) (h' place)

theorem of_integer? (hty : ty.isInteger) {z : Int} (h : v.integer? = some z)
    (h' : v'.integer? = some z) : ty.Alike v v' := by
  intro place
  have hword : ∀ w, encode ty place w = encodeWord ty place w := by
    intro w
    cases ty with
    | uint | int => rfl
    | _ => cases hty
  rw [hword, hword]
  by_cases hencodable : ty.hasEncodableWidth
  case neg =>
    rw [encodeWord_of_not_encodable hencodable, encodeWord_of_not_encodable hencodable]
    exact .error rfl
  case pos =>
    cases ty with
    | uint bits =>
      have hwidth := (hasEncodableWidth_uint bits).mp hencodable
      rw [encodeWord_uint hwidth h, encodeWord_uint hwidth h']
      split
      · exact .ok rfl
      · exact .error rfl
    | int bits =>
      have hwidth := (hasEncodableWidth_int bits).mp hencodable
      rw [encodeWord_int hwidth h, encodeWord_int hwidth h']
      split
      · exact .ok rfl
      · exact .error rfl
    | _ => cases hty

theorem of_blob? (hty : ty.isByteString) {b : Bytes} (h : v.blob? = some b)
    (h' : v'.blob? = some b) : ty.Alike v v' := by
  intro place
  cases ty with
  | bytes =>
    rw [encode, encode, h, h']
    exact .ok rfl
  | fixedBytes width =>
    have hword : ∀ w, encode (.fixedBytes width) place w = encodeWord (.fixedBytes width) place w :=
      fun _ => rfl
    rw [hword, hword, encodeWord, encodeWord]
    simp only [h, h']
    split
    case isFalse => exact .error rfl
    case isTrue =>
      split
      · exact .error rfl
      · exact .ok rfl
  | _ => cases hty

end Alike

end Ty

theorem matches_eachFrom {α β : Type} {f : Nat → α → Except Failure β} {as as' : List α}
    (h : List.Forall₂ (fun a a' => ∀ i, Matches (· = ·) (f i a) (f i a')) as as') (i : Nat) :
    Matches (· = ·) (eachFrom f i as) (eachFrom f i as') := by
  induction h generalizing i with
  | nil => exact .ok rfl
  | cons hitem _ ih =>
    refine (hitem i).bind fun b _ hb => ?_
    rw [hb]
    exact (ih (i + 1)).map _

/-- Lists are alike if their items are, one by one. Where no list is expected, all are refused in the
same way. -/
theorem Ty.Alike.list {ty : Ty} {vs vs' : List Value} (h : List.Forall₂ ty.itemTy.Alike vs vs') :
    ty.Alike (.array vs) (.array vs') := by
  intro place
  have hbodies : ∀ element, List.Forall₂ (Ty.Alike element) vs vs' →
      Matches (· = ·) (eachFrom (fun i => encode element (place.item i)) 0 vs)
        (eachFrom (fun i => encode element (place.item i)) 0 vs') := fun element h =>
    matches_eachFrom (h.imp fun _ _ halike i => halike (place.item i)) 0
  cases ty with
  | array element =>
    rw [encode, encode]
    refine (hbodies element h).bind fun bodies _ hbodies => ?_
    rw [hbodies, h.length_eq]
    exact .ok rfl
  | fixedArray element length =>
    rw [encode, encode, elementsOfLength_array, elementsOfLength_array, h.length_eq]
    split
    case isFalse => exact .error rfl
    case isTrue => exact (hbodies element h).map _
  | uint | int | fixedBytes =>
    change Matches _ (encodeWord _ place (.array vs)) (encodeWord _ place (.array vs'))
    unfold encodeWord
    split <;> exact .error rfl
  | address | bool | string | bytes => exact .error rfl

/-- For each type, two values that are alike. -/
inductive AllAlike : List Ty → List Value → List Value → Prop
  | nil : AllAlike [] [] []
  | cons {ty : Ty} {v v' : Value} {tys : List Ty} {vs vs' : List Value} :
      ty.Alike v v' → AllAlike tys vs vs' → AllAlike (ty :: tys) (v :: vs) (v' :: vs')

namespace AllAlike

variable {tys : List Ty} {vs vs' : List Value}

theorem length_eq (h : AllAlike tys vs vs') : vs.length = vs'.length := by
  induction h with
  | nil => rfl
  | cons _ _ ih => exact congrArg Nat.succ ih

theorem encodeTuple (h : AllAlike tys vs vs') (place : Place) :
    Matches (· = ·) (encodeTuple tys vs place) (encodeTuple tys vs' place) := by
  have hbodies : List.Forall₂ (fun x x' => ∀ i, Matches (· = ·)
      (encode x.1 (place.item i) x.2) (encode x'.1 (place.item i) x'.2))
      (tys.zip vs) (tys.zip vs') := by
    induction h with
    | nil => exact .nil
    | cons halike _ ih => exact .cons (fun i => halike (place.item i)) ih
  rw [Abi.encodeTuple, Abi.encodeTuple, h.length_eq]
  split
  case isFalse => exact .error rfl
  case isTrue => exact (matches_eachFrom hbodies 0).map _

theorem encodeCall {signature : Signature} (h : AllAlike signature.inputs vs vs') :
    Matches (· = ·) (encodeCall signature vs) (encodeCall signature vs') := by
  rw [Abi.encodeCall, Abi.encodeCall, h.length_eq]
  split
  case isFalse => exact .error rfl
  case isTrue => exact (h.encodeTuple (.ofRoot "arg")).map _

end AllAlike

end CallBundle.Abi
