import Mathlib
import CallBundle.Proofs.Abi.Element
import CallBundle.Proofs.Abi.Tuple

/-!
How elements are written. Nothing here is about how an encoder goes about it. Main statements:
`write_sound` and `within_tuple_components`, so the tuples at every depth have components of the
sizes that their types say and lie within the whole.
-/

namespace CallBundle.Abi

/-- An integer in two's complement. -/
def word (z : Int) : Bytes := Bytes.ofNat 32 (z % 2 ^ 256).toNat

/-- Bytes filled up with zeros to whole words. -/
def padded (bytes : Bytes) : Bytes :=
  bytes ++ Bytes.zeros (32 * ((bytes.length + 31) / 32) - bytes.length)

namespace Ty

/-- The components of a tuple whose elements all have the same type. -/
def items (element : Ty) (write : element.El → Bytes) (xs : List element.El) : List Component :=
  xs.map fun x => ⟨element, write x⟩

/-- The components of a tuple with one element of each type. -/
def components (write : (ty : Ty) → ty.El → Bytes) : (tys : List Ty) → Els tys → List Component
  | [], _ => []
  | ty :: tys, (x, xs) => ⟨ty, write ty x⟩ :: components write tys xs

def write : (ty : Ty) → ty.El → Bytes
  | .address, a => Bytes.zeros 12 ++ a.bytes
  | .bool, b => word (Bool.toNat b)
  | .string, s => word (Bytes.ofText s).length ++ padded (Bytes.ofText s)
  | .bytes, data => word data.length ++ padded data
  | .fixedBytes width, data => data.val ++ Bytes.zeros (32 - width)
  | .uint _, z => word z.val
  | .int _, z => word z.val
  | .array element, xs => word xs.length ++ Component.tuple (element.items element.write xs)
  | .fixedArray element _, xs => Component.tuple (element.items element.write xs.val)

/-- The tuples within an element, at every depth. -/
def tuples : (ty : Ty) → ty.El → List (List Component)
  | .array element, xs => element.items element.write xs :: xs.flatMap element.tuples
  | .fixedArray element _, xs => element.items element.write xs.val :: xs.val.flatMap element.tuples
  | _, _ => []

/-- The tuple of elements of the given types and all the tuples within it. -/
def allTuples (tys : List Ty) (xs : Els tys) : List (List Component) :=
  components write tys xs :: inner tys xs
where
  inner : (tys : List Ty) → Els tys → List (List Component)
    | [], _ => []
    | ty :: tys, (x, xs) => ty.tuples x ++ inner tys xs

end Ty

@[simp] theorem length_word (z : Int) : (word z).length = 32 := Bytes.length_ofNat ..

theorem dvd_length_padded (bytes : Bytes) : 32 ∣ (padded bytes).length := by
  simp only [padded, List.length_append, Bytes.length_zeros]
  omega

theorem word_natCast (n : Nat) : word n = Bytes.ofNat 32 n := by
  have hmod : ((n : Int) % 2 ^ 256).toNat = n % 256 ^ 32 := by omega
  rw [word, hmod, Bytes.ofNat_mod]

namespace Component

theorem sound_of_word {ty : Ty} {body : Bytes} (hsize : ty.size? = some 32)
    (hlen : body.length = 32) : Sound ⟨ty, body⟩ where
  length_body n hn := by
    rw [hsize] at hn
    cases hn
    exact hlen
  aligned := by simp [hlen]

theorem sound_of_unsized {ty : Ty} {body : Bytes} (hsize : ty.size? = none)
    (hdvd : 32 ∣ body.length) : Sound ⟨ty, body⟩ where
  length_body n hn := by simp [hsize] at hn
  aligned := hdvd

theorem sound_array {element : Ty} {cs : List Component} (h : ∀ c ∈ cs, c.Sound) (z : Int) :
    Sound ⟨.array element, word z ++ tuple cs⟩ := by
  apply sound_of_unsized rfl
  rw [List.length_append, length_word]
  exact dvd_add dvd_rfl (dvd_length_tuple h)

theorem sound_fixedArray {element : Ty} {cs : List Component}
    (h : ∀ c ∈ cs, c.Sound) (hty : ∀ c ∈ cs, c.ty = element) :
    Sound ⟨.fixedArray element cs.length, tuple cs⟩ where
  length_body n hn := by
    simp only [Ty.size?, Option.map_eq_some_iff] at hn
    obtain ⟨m, hm, rfl⟩ := hn
    exact length_tuple_of_size? fun c hc => ⟨h c hc, hty c hc ▸ hm⟩
  aligned := dvd_length_tuple h

end Component

namespace Ty

@[simp] theorem length_items (element : Ty) (write : element.El → Bytes) (xs : List element.El) :
    (element.items write xs).length = xs.length := List.length_map ..

theorem ty_of_mem_items {element : Ty} {write : element.El → Bytes} {xs : List element.El}
    {c : Component} (h : c ∈ element.items write xs) : c.ty = element := by
  rw [items, List.mem_map] at h
  obtain ⟨x, _, rfl⟩ := h
  rfl

theorem sound_of_mem_items {element : Ty} {write : element.El → Bytes}
    (hwrite : ∀ x, (Component.mk element (write x)).Sound) (xs : List element.El) :
    ∀ c ∈ element.items write xs, c.Sound := by
  rw [items, List.forall_mem_map]
  exact fun x _ => hwrite x

theorem sound_of_mem_components {write : (ty : Ty) → ty.El → Bytes} {tys : List Ty}
    (hwrite : ∀ ty x, (Component.mk ty (write ty x)).Sound) (xs : Els tys) :
    ∀ c ∈ components write tys xs, c.Sound := by
  induction tys with
  | nil => exact List.forall_mem_nil _
  | cons ty tys ih =>
    cases xs with
    | mk x xs => exact List.forall_mem_cons.mpr ⟨hwrite ty x, ih xs⟩

theorem sound_fixedArray_items {element : Ty} {write : element.El → Bytes} {length : Nat}
    (hwrite : ∀ x, (Component.mk element (write x)).Sound)
    (xs : (fixedArray element length).El) :
    Component.Sound ⟨.fixedArray element length, Component.tuple (element.items write xs.val)⟩ := by
  cases xs with
  | mk xs hxs =>
    have hty : ∀ c ∈ element.items write xs, c.ty = element := fun _ => ty_of_mem_items
    have h := Component.sound_fixedArray (sound_of_mem_items hwrite xs) hty
    rw [length_items, hxs] at h
    exact h

theorem write_sound (ty : Ty) (x : ty.El) : (Component.mk ty (ty.write x)).Sound := by
  induction ty with
  | address =>
    apply Component.sound_of_word rfl
    simp [write, Address.length_bytes]
  | bool => exact Component.sound_of_word rfl (length_word _)
  | string =>
    apply Component.sound_of_unsized rfl
    simp [write, dvd_length_padded]
  | bytes =>
    apply Component.sound_of_unsized rfl
    simp [write, dvd_length_padded]
  | fixedBytes width =>
    apply Component.sound_of_word rfl
    cases x with
    | mk data h => simp [write, h.2, Nat.add_sub_of_le h.1.2]
  | uint bits => exact Component.sound_of_word rfl (length_word _)
  | int bits => exact Component.sound_of_word rfl (length_word _)
  | array element ih => exact Component.sound_array (sound_of_mem_items ih _) _
  | fixedArray element length ih => exact sound_fixedArray_items ih x

theorem infix_tuple_items {element : Ty} {write : element.El → Bytes} {xs : List element.El}
    {x : element.El} (h : x ∈ xs) : write x <:+: Component.tuple (element.items write xs) :=
  Component.body_infix_tuple (List.mem_map_of_mem (f := fun x => ⟨element, write x⟩) h)

/-- A tuple that lies within some bytes, with components of the sizes that their types say. -/
structure Within (cs : List Component) (whole : Bytes) : Prop where
  sound : ∀ c ∈ cs, c.Sound
  isInfix : Component.tuple cs <:+: whole

theorem Within.trans {cs : List Component} {part whole : Bytes} (h : Within cs part)
    (hpart : part <:+: whole) : Within cs whole :=
  ⟨h.sound, h.isInfix.trans hpart⟩

theorem within_tuple_items {element : Ty} {xs : List element.El} {cs : List Component}
    (ih : ∀ x, cs ∈ element.tuples x → Within cs (element.write x))
    (h : cs ∈ element.items element.write xs :: xs.flatMap element.tuples) :
    Within cs (Component.tuple (element.items element.write xs)) := by
  rw [List.mem_cons, List.mem_flatMap] at h
  cases h with
  | inl h =>
    subst h
    exact ⟨sound_of_mem_items element.write_sound xs, List.infix_rfl⟩
  | inr h =>
    obtain ⟨x, hx, h⟩ := h
    exact (ih x h).trans (infix_tuple_items hx)

theorem within_write {ty : Ty} {x : ty.El} {cs : List Component} (h : cs ∈ ty.tuples x) :
    Within cs (ty.write x) := by
  induction ty with
  | array element ih =>
    exact (within_tuple_items (fun _ => ih) h).trans (List.suffix_append ..).isInfix
  | fixedArray element length ih => exact within_tuple_items (fun _ => ih) h
  | _ => cases h

theorem mem_inner {tys : List Ty} {xs : Els tys} {cs : List Component}
    (h : cs ∈ allTuples.inner tys xs) :
    ∃ ty x, Component.mk ty (ty.write x) ∈ components write tys xs ∧ cs ∈ ty.tuples x := by
  induction tys with
  | nil => cases h
  | cons ty tys ih =>
    cases xs with
    | mk x xs =>
      rw [allTuples.inner, List.mem_append] at h
      cases h with
      | inl h => exact ⟨ty, x, List.mem_cons_self, h⟩
      | inr h =>
        obtain ⟨ty', x', hmem, h⟩ := ih h
        exact ⟨ty', x', List.mem_cons_of_mem _ hmem, h⟩

theorem within_tuple_components {tys : List Ty} {xs : Els tys} {cs : List Component}
    (h : cs ∈ allTuples tys xs) : Within cs (Component.tuple (components write tys xs)) := by
  rw [allTuples, List.mem_cons] at h
  cases h with
  | inl h =>
    subst h
    exact ⟨sound_of_mem_components write_sound xs, List.infix_rfl⟩
  | inr h =>
    obtain ⟨ty, x, hmem, h⟩ := mem_inner h
    exact (within_write h).trans (Component.body_infix_tuple hmem)

end Ty

end CallBundle.Abi
