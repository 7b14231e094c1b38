import Mathlib
import CallBundle.Proofs.Abi.Layout
import CallBundle.Proofs.Abi.Word

/-!
Encoding is writing the elements that the values denote. Main statements: `toOption_encode`, with
what one pass lays out, and `lay_eq_write`, so what one pass lays out is what is written unless a
size reaches the bound.
-/

namespace CallBundle

theorem toOption_bind {ε α β : Type} (x : Except ε α) (next : α → Except ε β) :
    (x >>= next).toOption = x.toOption.bind fun a => (next a).toOption := by
  cases x <;> rfl

theorem toOption_eq_some_iff {ε α : Type} {x : Except ε α} {a : α} :
    x.toOption = some a ↔ x = .ok a := by
  cases x <;> simp [Except.toOption]

namespace Abi

theorem toOption_eachFrom {ε α β : Type} {f : Nat → α → Except ε β} {g : α → Option β}
    (h : ∀ i a, (f i a).toOption = g a) (i : Nat) (as : List α) :
    (eachFrom f i as).toOption = as.mapM g := by
  induction as generalizing i with
  | nil => rfl
  | cons a as ih =>
    rw [eachFrom, List.mapM_cons, toOption_bind, h]
    congr
    funext b
    rw [toOption_bind, ih]
    rfl

theorem mapM_map_some {α β γ : Type} (f : α → Option β) (g : β → γ) (as : List α) :
    as.mapM (fun a => (f a).map g) = (as.mapM f).map (List.map g) := by
  induction as with
  | nil => rfl
  | cons a as ih =>
    rw [List.mapM_cons, List.mapM_cons, ih]
    cases f a with
    | none => rfl
    | some b =>
      cases as.mapM f with
      | none => rfl
      | some bs => rfl

theorem map_of_mapM {α β : Type} {f : α → Option β} {as : List α} {bs : List β}
    (h : as.mapM f = some bs) : as.map f = bs.map some := by
  induction as generalizing bs with
  | nil =>
    cases h
    rfl
  | cons a as ih =>
    simp only [List.mapM_cons, Option.bind_eq_bind, Option.bind_eq_some_iff] at h
    obtain ⟨b, hb, bs, hbs, h⟩ := h
    cases h
    rw [List.map_cons, List.map_cons, hb, ih hbs]

theorem length_of_mapM {α β : Type} {f : α → Option β} {as : List α} {bs : List β}
    (h : as.mapM f = some bs) : bs.length = as.length := by
  have hlength := congrArg List.length (map_of_mapM h)
  rw [List.length_map, List.length_map] at hlength
  exact hlength.symm

theorem exists_of_mem_mapM {α β : Type} {f : α → Option β} {as : List α} {bs : List β}
    (h : as.mapM f = some bs) {b : β} (hb : b ∈ bs) : ∃ a ∈ as, f a = some b := by
  have hmem : some b ∈ bs.map some := List.mem_map_of_mem hb
  rw [← map_of_mapM h, List.mem_map] at hmem
  exact hmem

theorem encodeBlob_eq (bytes : Bytes) : encodeBlob bytes = word bytes.length ++ padded bytes := by
  have hlen : (32 - bytes.length % 32) % 32 = 32 * ((bytes.length + 31) / 32) - bytes.length := by
    omega
  rw [encodeBlob, padded, word_natCast, wordOfNat, hlen, List.append_assoc]

namespace Ty

/-- An element as one pass lays it out. -/
def lay : (ty : Ty) → ty.El → Bytes
  | .array element, xs => word xs.length ++ Component.onePass (element.items element.lay xs)
  | .fixedArray element _, xs => Component.onePass (element.items element.lay xs.val)
  | ty, x => ty.write x

theorem lay_sound (ty : Ty) (x : ty.El) : (Component.mk ty (ty.lay x)).Sound := by
  induction ty with
  | array element ih =>
    have hitems := sound_of_mem_items ih x
    apply (Component.sound_array hitems (List.length x)).of_length_eq
    rw [lay, List.length_append, List.length_append, Component.length_onePass hitems]
  | fixedArray element length ih =>
    have hitems := sound_of_mem_items ih x.val
    exact (sound_fixedArray_items ih x).of_length_eq (Component.length_onePass hitems)
  | _ => exact write_sound _ x

theorem onePass_items_eq {element : Ty} {xs : List element.El}
    (ih : ∀ x, (element.lay x).length ≤ sizeLimit → element.lay x = element.write x)
    (h : (Component.onePass (element.items element.lay xs)).length ≤ sizeLimit) :
    Component.onePass (element.items element.lay xs) =
      Component.tuple (element.items element.write xs) := by
  -- One pass is as long as the tuple, so that each element in it is under the bound as well.
  have htuple := Component.onePass_eq_tuple (sound_of_mem_items element.lay_sound xs) h
  rw [htuple] at h
  have hitems : element.items element.lay xs = element.items element.write xs := by
    apply List.map_congr_left
    intro x hx
    rw [ih x ((infix_tuple_items hx).length_le.trans h)]
  rw [htuple, hitems]

/-- Under the bound, one pass gives what is written. -/
theorem lay_eq_write {ty : Ty} {x : ty.El} (h : (ty.lay x).length ≤ sizeLimit) :
    ty.lay x = ty.write x := by
  induction ty with
  | array element ih =>
    rw [lay, List.length_append] at h
    have hitems := onePass_items_eq (fun _ => ih) ((Nat.le_add_left ..).trans h)
    rw [lay, hitems, write]
  | fixedArray element length ih => exact onePass_items_eq (fun _ => ih) h
  | _ => rfl

theorem components_lay_eq {tys : List Ty} {xs : Els tys}
    (h : ∀ c ∈ components lay tys xs, c.body.length ≤ sizeLimit) :
    components lay tys xs = components write tys xs := by
  induction tys with
  | nil => rfl
  | cons ty tys ih =>
    cases xs with
    | mk x xs =>
      rw [components, List.forall_mem_cons] at h
      rw [components, components, ih h.2, lay_eq_write h.1]

theorem onePass_components_eq {tys : List Ty} {xs : Els tys}
    (h : (Component.onePass (components lay tys xs)).length ≤ sizeLimit) :
    Component.onePass (components lay tys xs) = Component.tuple (components write tys xs) := by
  have htuple := Component.onePass_eq_tuple (sound_of_mem_components lay_sound xs) h
  rw [htuple] at h
  have hbody : ∀ c ∈ components lay tys xs, c.body.length ≤ sizeLimit := fun c hc =>
    (Component.body_infix_tuple hc).length_le.trans h
  rw [htuple, components_lay_eq hbody]

end Ty

theorem toOption_elements (ty : Ty) (place : Place) (v : Value) :
    (elements ty place v).toOption = v.items? := by
  cases v <;> rfl

theorem toOption_elementsOfLength (ty : Ty) (length : Nat) (place : Place) (v : Value) :
    (elementsOfLength ty length place v).toOption =
      v.items?.bind fun vs => if vs.length = length then some vs else none := by
  rw [elementsOfLength, toOption_bind, toOption_elements]
  congr
  funext vs
  split <;> rfl

theorem layout_map (element : Ty) (write : element.El → Bytes) (xs : List element.El) :
    layout ((xs.map write).map fun _ => element) (xs.map write) =
      Component.onePass (element.items write xs) := by
  rw [Component.onePass, Ty.items, List.map_map, List.map_map, List.map_map]
  rfl

/-- What is encoded is what one pass lays out for the element that the value denotes. -/
theorem toOption_encode (ty : Ty) (place : Place) (v : Value) :
    (encode ty place v).toOption = (v.as? ty).map ty.lay := by
  induction ty generalizing place v with
  | address => exact toOption_encodeWord_address place v
  | bool => exact toOption_encodeWord_bool place v
  | string =>
    cases v with
    | string s => exact congrArg some (encodeBlob_eq (Bytes.ofText s))
    | _ => rfl
  | bytes =>
    rw [encode, Value.as?_bytes]
    cases v.blob? with
    | none => rfl
    | some b => exact congrArg some (encodeBlob_eq b)
  | fixedBytes width => exact toOption_encodeWord_fixedBytes width place v
  | uint bits => exact toOption_encodeWord_uint bits place v
  | int bits => exact toOption_encodeWord_int bits place v
  | array element ih =>
    rw [encode, toOption_bind, toOption_elements, Value.as?]
    cases v.items? with
    | none => rfl
    | some vs =>
      rw [Option.bind_some, toOption_bind, toOption_eachFrom fun i => ih (place.item i),
        mapM_map_some]
      cases hxs : vs.mapM (Value.as? element) with
      | none => simp [hxs]
      | some xs =>
        simp only [Option.map_some, Option.bind_some, Option.bind_eq_bind, hxs, layout_map,
          ← length_of_mapM hxs]
        rw [Ty.lay, word_natCast]
        rfl
  | fixedArray element length ih =>
    rw [encode, toOption_bind, toOption_elementsOfLength, Value.as?]
    cases v.items? with
    | none => rfl
    | some vs =>
      rw [Option.bind_some]
      by_cases hlen : vs.length = length
      case pos =>
        rw [if_pos hlen, Option.bind_some, toOption_bind,
          toOption_eachFrom fun i => ih (place.item i), mapM_map_some]
        cases hxs : vs.mapM (Value.as? element) with
        | none => simp [hxs]
        | some xs =>
          have hxslen : xs.length = length := (length_of_mapM hxs).trans hlen
          simp only [Option.map_some, Option.bind_some, Option.bind_eq_bind, hxs, layout_map,
            dif_pos hxslen]
          rfl
      case neg =>
        rw [if_neg hlen]
        cases hxs : vs.mapM (Value.as? element) with
        | none => simp [hxs]
        | some xs => simp [hxs, length_of_mapM hxs, hlen]

theorem Ty.map_ty_components (write : (ty : Ty) → ty.El → Bytes) (tys : List Ty) (xs : Els tys) :
    (components write tys xs).map (·.ty) = tys := by
  induction tys with
  | nil => rfl
  | cons ty tys ih =>
    cases xs with
    | mk x xs => rw [components, List.map_cons, ih]

theorem Value.allAs?_of_length_ne {tys : List Ty} {vs : List Value} (h : tys.length ≠ vs.length) :
    allAs? tys vs = none := by
  fun_induction allAs? tys vs with
  | case1 => exact absurd rfl h
  | case2 ty tys v vs ih =>
    rw [ih fun heq => h (congrArg Nat.succ heq)]
    cases v.as? ty <;> rfl
  | case3 => rfl

theorem mapM_as? {tys : List Ty} {vs : List Value} (h : tys.length = vs.length) :
    (tys.zip vs).mapM (fun p => (p.2.as? p.1).map p.1.lay) =
      (Value.allAs? tys vs).map fun xs => (Ty.components Ty.lay tys xs).map (·.body) := by
  fun_induction Value.allAs? tys vs with
  | case1 => rfl
  | case2 ty tys v vs ih =>
    rw [List.zip_cons_cons, List.mapM_cons, ih (Nat.succ.inj h)]
    cases v.as? ty with
    | none => rfl
    | some x =>
      cases Value.allAs? tys vs with
      | none => rfl
      | some xs => rfl
  | case3 tys vs hnil hcons =>
    cases tys with
    | nil =>
      cases vs with
      | nil => exact absurd rfl (hnil rfl)
      | cons v vs => cases h
    | cons ty tys =>
      cases vs with
      | nil => cases h
      | cons v vs => exact absurd rfl (hcons ty tys v vs rfl)

theorem toOption_encodeTuple (tys : List Ty) (vs : List Value) (place : Place) :
    (encodeTuple tys vs place).toOption =
      (Value.allAs? tys vs).map fun xs => Component.onePass (Ty.components Ty.lay tys xs) := by
  rw [encodeTuple]
  split
  case isFalse h =>
    rw [Value.allAs?_of_length_ne h]
    rfl
  case isTrue h =>
    rw [toOption_bind, toOption_eachFrom fun i p => toOption_encode p.1 (place.item i) p.2,
      mapM_as? h]
    cases Value.allAs? tys vs with
    | none => rfl
    | some xs =>
      rw [Option.map_some, Option.map_some, Option.bind_some, Component.onePass,
        Ty.map_ty_components]
      rfl

theorem exists_eq_tuple {tys : List Ty} {vs : List Value} {place : Place} {out : Bytes}
    (h : encodeTuple tys vs place = .ok out) (hsize : out.length < 2 ^ 64) :
    ∃ xs, Value.allAs? tys vs = some xs ∧
      out = Component.tuple (Ty.components Ty.write tys xs) := by
  rw [← toOption_eq_some_iff, toOption_encodeTuple, Option.map_eq_some_iff] at h
  obtain ⟨xs, hxs, rfl⟩ := h
  exact ⟨xs, hxs, Ty.onePass_components_eq (Nat.le_of_lt_succ hsize)⟩

/-- What is encoded is the tuple of the elements that the values denote, and each tuple in it, at
every depth, is laid out well. -/
theorem encodeTuple_writes_wellLaid {tys : List Ty} {vs : List Value} {place : Place} {out : Bytes}
    (h : encodeTuple tys vs place = .ok out) (hsize : out.length < 2 ^ 64) :
    ∃ xs, Value.allAs? tys vs = some xs ∧ out = Component.tuple (Ty.components Ty.write tys xs) ∧
      ∀ cs ∈ Ty.allTuples tys xs, Component.tuple cs <:+: out ∧ Component.WellLaid cs := by
  obtain ⟨xs, hxs, rfl⟩ := exists_eq_tuple h hsize
  refine ⟨xs, hxs, rfl, ?_⟩
  intro cs hcs
  have hwithin := Ty.within_tuple_components hcs
  have hle := hwithin.isInfix.length_le.trans (Nat.le_of_lt_succ hsize)
  exact ⟨hwithin.isInfix, Component.wellLaid_of_sound hwithin.sound hle⟩

theorem encodeTuple_writes_wellLaid_nested :
    let tys : List Ty := [.array (.array .string), .fixedArray (.int 16) 2, .fixedArray .bytes 0]
    let vs : List Value :=
      [.array [.array [.string "a", .string ""], .array []], .array [.int (-2), .uint 3], .array []]
    ∃ out, encodeTuple tys vs (.ofRoot "arg") = .ok out ∧ out.length = 448 ∧
      ∃ xs, Value.allAs? tys vs = some xs ∧
        out = Component.tuple (Ty.components Ty.write tys xs) ∧
        ∀ cs ∈ Ty.allTuples tys xs, Component.tuple cs <:+: out ∧ Component.WellLaid cs := by
  intro tys vs
  have hlength : (encodeTuple tys vs (.ofRoot "arg")).toOption.map List.length = some 448 := by
    decide +kernel
  rw [Option.map_eq_some_iff] at hlength
  obtain ⟨out, hout, hlength⟩ := hlength
  have h := toOption_eq_some_iff.mp hout
  exact ⟨out, h, hlength, encodeTuple_writes_wellLaid h (by rw [hlength]; decide)⟩

end Abi

end CallBundle
