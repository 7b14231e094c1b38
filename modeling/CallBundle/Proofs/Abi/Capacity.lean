import Mathlib
import CallBundle.Abi.Capacity
import CallBundle.Proofs.Abi.Fault
import CallBundle.Proofs.Abi.Layout

/-!
What a bound on reservations changes. Encoding comes to what it comes to without the bound, or it
stops at the first reservation over it. Main statements: `encodeCallTextWithin_upToCapacity`, with
`encodeTupleWithin_eq_ok_iff` and `encodeTupleWithin_eq_overCapacity_iff` for when each happens.
-/

namespace CallBundle.Abi

variable {α β : Type}

/-- The outcome without the bound, unless a reservation is over it. -/
def UpToCapacity (x : Except Stop α) (y : Except Failure α) : Prop :=
  x = .error .overCapacity ∨ x = y.mapError .failed

theorem UpToCapacity.mapError (y : Except Failure α) : UpToCapacity (y.mapError .failed) y := .inr rfl

theorem UpToCapacity.pure (a : α) : UpToCapacity (Pure.pure a) (Pure.pure a) := .inr rfl

theorem UpToCapacity.bind {x : Except Stop α} {y : Except Failure α} {f : α → Except Stop β}
    {g : α → Except Failure β} (h : UpToCapacity x y) (hnext : ∀ a, UpToCapacity (f a) (g a)) :
    UpToCapacity (x >>= f) (y >>= g) := by
  obtain rfl | rfl := h
  · exact .inl rfl
  · cases y with
    | error e => exact .inr rfl
    | ok a => exact hnext a

theorem UpToCapacity.reserve {capacity bytes : Nat} {x : Except Stop α} {y : Except Failure α}
    (h : UpToCapacity x y) : UpToCapacity (reserve capacity bytes >>= fun _ => x) y := by
  rw [Abi.reserve]
  split
  · exact h
  · exact .inl rfl

theorem UpToCapacity.eachFrom {f : Nat → α → Except Stop β} {g : Nat → α → Except Failure β}
    (h : ∀ i a, UpToCapacity (f i a) (g i a)) (i : Nat) (as : List α) :
    UpToCapacity (eachFrom f i as) (eachFrom g i as) := by
  induction as generalizing i with
  | nil => exact .pure []
  | cons a as ih => exact (h i a).bind fun b => (ih (i + 1)).bind fun bs => .pure (b :: bs)

theorem UpToCapacity.eq_ok {x : Except Stop α} {y : Except Failure α} {a : α} (h : UpToCapacity x y)
    (hx : x = .ok a) : y = .ok a := by
  obtain rfl | rfl := h
  · cases hx
  · exact mapError_eq_ok_iff.mp hx

theorem UpToCapacity.eq_error {x : Except Stop α} {y : Except Failure α} {e : Failure}
    (h : UpToCapacity x y) (hx : x = .error (.failed e)) : y = .error e := by
  obtain rfl | rfl := h
  · cases hx
  · cases y with
    | error e' =>
      cases hx
      rfl
    | ok a => cases hx

theorem encodeWithin_upToCapacity (capacity : Nat) (ty : Ty) (place : Place) (v : Value) :
    UpToCapacity (encodeWithin capacity ty place v) (encode ty place v) := by
  induction ty generalizing place v with
  | array element ih =>
    exact (UpToCapacity.mapError _).bind fun vs => .reserve <|
      (UpToCapacity.eachFrom (fun i => ih (place.item i)) 0 vs).bind fun bodies => .pure _
  | fixedArray element length ih =>
    exact (UpToCapacity.mapError _).bind fun vs => .reserve <|
      (UpToCapacity.eachFrom (fun i => ih (place.item i)) 0 vs).bind fun bodies => .pure _
  | _ => exact .mapError _

theorem encodeTupleWithin_upToCapacity (capacity : Nat) (tys : List Ty) (vs : List Value)
    (place : Place) :
    UpToCapacity (encodeTupleWithin capacity tys vs place) (encodeTuple tys vs place) := by
  rw [encodeTupleWithin, encodeTuple]
  split
  · exact .reserve <| (UpToCapacity.eachFrom
      (fun i (x : Ty × Value) => encodeWithin_upToCapacity capacity x.1 (place.item i) x.2) 0 _).bind
        fun bodies => .pure _
  · exact .inr rfl

theorem encodeCallTextWithin_upToCapacity (capacity : Nat) (signature : String) (vs : List Value) :
    UpToCapacity (encodeCallTextWithin capacity signature vs) (encodeCallText signature vs) := by
  refine (UpToCapacity.mapError _).bind fun signature => ?_
  rw [encodeCallWithin, encodeCall]
  split
  · exact (encodeTupleWithin_upToCapacity capacity _ vs _).bind fun args => .pure _
  · exact .inr rfl

theorem headBytes_eq (tys : List Ty) :
    headBytes tys = min (tys.map Ty.headSize).sum sizeLimit := mulSize_headWords tys

/-- Sizes at the bound of the count are over every capacity. -/
theorem reserve_min {capacity : Nat} (h : capacity ≤ capacityLimit) (n : Nat) :
    reserve capacity (min n sizeLimit) = reserve capacity n := by
  have hlimit : capacityLimit < sizeLimit := by decide
  have hiff : min n sizeLimit ≤ capacity ↔ n ≤ capacity := by omega
  simp only [reserve, hiff]

namespace Site

/-- What is reserved for a value before its elements are looked at. -/
def reserved : Site → Nat
  | ⟨.array element, _, .array vs⟩ => vs.length * element.headSize
  | ⟨.fixedArray _ _, _, .array vs⟩ => vs.length * 32
  | _ => 0

/-- Why encoding stops at a value, its elements apart. -/
def stop? (capacity : Nat) (site : Site) : Option Stop :=
  match site.fault? with
  | some e => some (.failed e)
  | none => if site.reserved ≤ capacity then none else some .overCapacity

theorem stop?_eq_none_iff {capacity : Nat} {site : Site} :
    site.stop? capacity = none ↔ site.fault? = none ∧ site.reserved ≤ capacity := by
  rw [stop?]
  cases site.fault? with
  | some e => simp
  | none => simp

theorem stop?_eq_overCapacity_iff {capacity : Nat} {site : Site} :
    site.stop? capacity = some .overCapacity ↔
      site.fault? = none ∧ capacity < site.reserved := by
  rw [stop?]
  cases site.fault? with
  | some e => simp
  | none => simp

theorem findSome?_stop?_of_fault? {capacity : Nat} {site : Site} {e : Failure}
    (h : site.fault? = some e) (rest : List Site) :
    (site :: rest).findSome? (stop? capacity) = some (.failed e) := by
  rw [List.findSome?_cons, stop?, h]

theorem stop?_of_reserved_eq_zero {capacity : Nat} {site : Site} (h : site.reserved = 0) :
    site.stop? capacity = site.fault?.map .failed := by
  rw [stop?, h]
  cases site.fault? <;> simp

end Site

theorem Ty.itemBytes_array (element : Ty) (count : Nat) :
    (Ty.array element).itemBytes count = min (count * element.headSize) sizeLimit := by
  rw [itemBytes, headBytes_eq, List.map_replicate, List.sum_replicate, smul_eq_mul]

theorem Ty.itemBytes_fixedArray (element : Ty) (length count : Nat) :
    (Ty.fixedArray element length).itemBytes count = min (count * 32) sizeLimit := by
  rw [itemBytes]
  split
  case isTrue h =>
    rw [headBytes_eq, List.map_replicate, List.sum_replicate, smul_eq_mul, headSize,
      (size?_eq_none_iff element).mpr h, Option.getD_none]
  case isFalse => rfl

/-- A list stops the encoding by itself, or what stops its elements does. -/
theorem failure?_reserve_bind {capacity : Nat} (hcapacity : capacity ≤ capacityLimit) {site : Site}
    (hfault : site.fault? = none) {bytes : Nat} (hbytes : bytes = min site.reserved sizeLimit)
    {x : Except Stop α} {rest : List Site}
    (hx : failure? x = rest.findSome? (Site.stop? capacity)) :
    failure? (reserve capacity bytes >>= fun _ => x) =
      (site :: rest).findSome? (Site.stop? capacity) := by
  rw [List.findSome?_cons, Site.stop?, hfault, hbytes, reserve_min hcapacity, reserve]
  split
  · exact hx
  · rfl

theorem failure?_mapError_encode {ty : Ty} {place : Place} {v : Value} (capacity : Nat)
    (hsites : sites ty place v = [⟨ty, place, v⟩])
    (hreserved : (Site.mk ty place v).reserved = 0) :
    failure? ((encode ty place v).mapError .failed) =
      (sites ty place v).findSome? (Site.stop? capacity) := by
  rw [failure?_mapError, failure?_encode, hsites, List.findSome?_singleton,
    List.findSome?_singleton, Site.stop?_of_reserved_eq_zero hreserved]

theorem failure?_encodeWithin {capacity : Nat} (hcapacity : capacity ≤ capacityLimit) (ty : Ty)
    (place : Place) (v : Value) :
    failure? (encodeWithin capacity ty place v) =
      (sites ty place v).findSome? (Site.stop? capacity) := by
  induction ty generalizing place v with
  | array element ih =>
    obtain ⟨vs, rfl⟩ | ⟨herror, hitems, hfault⟩ :=
      failure?_elements (.array element) rfl (fun _ => rfl) place v
    · refine failure?_reserve_bind hcapacity rfl (Ty.itemBytes_array ..) ?_
      rw [failure?_bind_pure]
      exact failure?_eachFrom (fun i => ih (place.item i)) 0 vs
    · rw [encodeWithin, herror]
      exact (Site.findSome?_stop?_of_fault? hfault _).symm
  | fixedArray element length ih =>
    obtain ⟨vs, rfl⟩ | ⟨herror, hitems, hfault⟩ :=
      failure?_elements (.fixedArray element length) rfl (fun _ => rfl) place v
    · rw [encodeWithin, elementsOfLength_array]
      by_cases hlength : vs.length = length
      · have hsite : (Site.mk (.fixedArray element length) place (.array vs)).fault? = none :=
          if_pos hlength
        rw [if_pos hlength]
        refine failure?_reserve_bind hcapacity hsite (Ty.itemBytes_fixedArray ..) ?_
        rw [failure?_bind_pure]
        exact failure?_eachFrom (fun i => ih (place.item i)) 0 vs
      · have hsite : (Site.mk (.fixedArray element length) place (.array vs)).fault? =
            some (.arityMismatch (.fixedArray place (.fixedArray element length)) length
              vs.length) := if_neg hlength
        rw [if_neg hlength]
        exact (Site.findSome?_stop?_of_fault? hsite _).symm
    · rw [encodeWithin, elementsOfLength, herror]
      exact (Site.findSome?_stop?_of_fault? hfault _).symm
  | _ => exact failure?_mapError_encode capacity rfl rfl

/-- The head of the tuple is reserved first, then what is in it is looked at in turn. -/
theorem failure?_encodeTupleWithin {capacity : Nat} (hcapacity : capacity ≤ capacityLimit)
    {tys : List Ty} {vs : List Value} (h : tys.length = vs.length) (place : Place) :
    failure? (encodeTupleWithin capacity tys vs place) =
      if (tys.map Ty.headSize).sum ≤ capacity then
        (tupleSites tys vs place).findSome? (Site.stop? capacity)
      else some .overCapacity := by
  rw [encodeTupleWithin, if_pos h, headBytes_eq, reserve_min hcapacity, reserve]
  split
  · rw [pure_bind, failure?_bind_pure, tupleSites]
    exact failure?_eachFrom
      (fun i (x : Ty × Value) => failure?_encodeWithin hcapacity x.1 (place.item i) x.2) 0 _
  · rfl

/-- All that is reserved for a tuple is within the bound: its head, and the room for each list that
stands in its values. -/
structure Reservable (capacity : Nat) (tys : List Ty) (vs : List Value) (place : Place) : Prop where
  head : (tys.map Ty.headSize).sum ≤ capacity
  lists : ∀ site ∈ tupleSites tys vs place, site.reserved ≤ capacity

theorem encodeTuple_length_eq {tys : List Ty} {vs : List Value} {place : Place} {out : Bytes}
    (h : encodeTuple tys vs place = .ok out) : tys.length = vs.length := by
  by_contra hlength
  rw [encodeTuple, if_neg hlength] at h
  cases h

/-- With a bound, the same is encoded as without it, as long as all of it can be reserved. -/
theorem encodeTupleWithin_eq_ok_iff {capacity : Nat} (hcapacity : capacity ≤ capacityLimit)
    {tys : List Ty} {vs : List Value} {place : Place} {out : Bytes} :
    encodeTupleWithin capacity tys vs place = .ok out ↔
      Reservable capacity tys vs place ∧ encodeTuple tys vs place = .ok out := by
  have hbound := encodeTupleWithin_upToCapacity capacity tys vs place
  constructor
  · intro hout
    have hfree := hbound.eq_ok hout
    refine ⟨?_, hfree⟩
    have hstop := failure?_encodeTupleWithin hcapacity (encodeTuple_length_eq hfree) place
    rw [hout, failure?_ok] at hstop
    split at hstop
    case isTrue hhead =>
      have hsites := List.findSome?_eq_none_iff.mp hstop.symm
      exact ⟨hhead, fun site hsite => (Site.stop?_eq_none_iff.mp (hsites site hsite)).2⟩
    case isFalse => cases hstop
  · rintro ⟨⟨hhead, hlists⟩, hfree⟩
    have hlength := encodeTuple_length_eq hfree
    have hfault := failure?_encodeTuple hlength place
    rw [hfree, failure?_ok] at hfault
    have hstop : failure? (encodeTupleWithin capacity tys vs place) = none := by
      rw [failure?_encodeTupleWithin hcapacity hlength, if_pos hhead, List.findSome?_eq_none_iff]
      intro site hsite
      have hnone := List.findSome?_eq_none_iff.mp hfault.symm site hsite
      exact Site.stop?_eq_none_iff.mpr ⟨hnone, hlists site hsite⟩
    obtain hover | hsame := hbound
    · rw [hover] at hstop
      cases hstop
    · rw [hsame, hfree]
      rfl

/-- The bound is met at the head of the tuple, or at the first list that asks for too much, with no
fault in it or before it. -/
theorem encodeTupleWithin_eq_overCapacity_iff {capacity : Nat} (hcapacity : capacity ≤ capacityLimit)
    {tys : List Ty} {vs : List Value} (h : tys.length = vs.length) (place : Place) :
    encodeTupleWithin capacity tys vs place = .error .overCapacity ↔
      capacity < (tys.map Ty.headSize).sum ∨
        ∃ before site after, tupleSites tys vs place = before ++ site :: after ∧
          site.fault? = none ∧ capacity < site.reserved ∧
          ∀ earlier ∈ before, earlier.fault? = none ∧ earlier.reserved ≤ capacity := by
  rw [← failure?_eq_some_iff, failure?_encodeTupleWithin hcapacity h]
  by_cases hhead : (tys.map Ty.headSize).sum ≤ capacity
  case neg => simp [hhead, Nat.lt_of_not_le hhead]
  case pos =>
    rw [if_pos hhead, or_iff_right (Nat.not_lt.mpr hhead), List.findSome?_eq_some_iff]
    simp only [Site.stop?_eq_overCapacity_iff, Site.stop?_eq_none_iff, and_assoc]

example : encodeTupleWithin capacityLimit [.array (.fixedArray (.uint 256) (2 ^ 58))]
    [.array [.array []]] (.ofRoot "arg") = .error .overCapacity := rfl

end CallBundle.Abi
