import Mathlib
import CallBundle.Abi.Layout
import CallBundle.Proofs.Abi.Tuple

/-!
Laying out in one pass, with the size of the head announced and sizes counted up to a bound. Main
statement: `onePass_eq_tuple`, so it gives the tuple as long as no size reaches the bound.
-/

namespace CallBundle.Abi

/-- Counting up to the bound early does not change the count. -/
theorem mulSize_min (m n : Nat) : mulSize (min m sizeLimit) n = min (m * n) sizeLimit := by
  rw [mulSize]
  cases Nat.le_total m sizeLimit with
  | inl hle => rw [Nat.min_eq_left hle]
  | inr hge =>
    rw [Nat.min_eq_right hge]
    cases n with
    | zero => rfl
    | succ n =>
      have hlimit : sizeLimit ≤ sizeLimit * (n + 1) := Nat.le_mul_of_pos_right _ n.succ_pos
      rw [Nat.min_eq_right hlimit, Nat.min_eq_right]
      exact hlimit.trans (Nat.mul_le_mul_right _ hge)

namespace Ty

theorem staticWords_eq_some {ty : Ty} {n : Nat} (h : ty.size? = some n) :
    ty.staticWords = some (min (n / 32) sizeLimit) := by
  induction ty generalizing n with
  | fixedArray element length ih =>
    simp only [size?, Option.map_eq_some_iff] at h
    obtain ⟨m, hm, rfl⟩ := h
    have hdiv : length * m / 32 = m / 32 * length := by
      rw [Nat.mul_div_assoc length (dvd_of_size? hm), Nat.mul_comm]
    rw [staticWords, ih hm, Option.map_some, mulSize_min, hdiv]
  | string | bytes | array => cases h
  | _ =>
    cases h
    rfl

/-- The words that a type takes in a head, counted up to the bound. -/
theorem staticWords_getD (ty : Ty) :
    ty.staticWords.getD 1 = min (ty.headSize / 32) sizeLimit := by
  rw [headSize]
  cases hsize : ty.size? with
  | none =>
    rw [(staticWords_eq_none_iff ty).mpr ((size?_eq_none_iff ty).mp hsize)]
    rfl
  | some n => rw [staticWords_eq_some hsize, Option.getD_some, Option.getD_some]

theorem dvd_headSize (ty : Ty) : 32 ∣ ty.headSize := by
  rw [headSize]
  cases hsize : ty.size? with
  | none => exact dvd_rfl
  | some n => exact dvd_of_size? hsize

end Ty

theorem foldl_addSize (tys : List Ty) (words : Nat) :
    tys.foldl (fun words ty => addSize words (ty.staticWords.getD 1)) (min words sizeLimit) =
      min (words + (tys.map fun ty => ty.headSize / 32).sum) sizeLimit := by
  induction tys generalizing words with
  | nil => rfl
  | cons ty tys ih =>
    have hadd : addSize (min words sizeLimit) (ty.staticWords.getD 1) =
        min (words + ty.headSize / 32) sizeLimit := by
      rw [addSize, Ty.staticWords_getD]
      omega
    rw [List.foldl_cons, hadd, ih, List.map_cons, List.sum_cons, Nat.add_assoc]

theorem headWords_eq (tys : List Ty) :
    headWords tys = min (tys.map fun ty => ty.headSize / 32).sum sizeLimit := by
  have h := foldl_addSize tys 0
  rw [Nat.zero_min, Nat.zero_add] at h
  exact h

theorem mulSize_headWords (tys : List Ty) :
    mulSize (headWords tys) 32 = min (tys.map Ty.headSize).sum sizeLimit := by
  have hsum : (tys.map fun ty => ty.headSize / 32).sum * 32 = (tys.map Ty.headSize).sum := by
    rw [← List.sum_map_mul_right]
    congr 1
    apply List.map_congr_left
    intro ty _
    exact Nat.div_mul_cancel ty.dvd_headSize
  rw [headWords_eq, mulSize_min, hsum]

namespace Component

def pair (c : Component) : Ty × Bytes := (c.ty, c.body)

theorem headAndTail_cons (offset : Nat) (c : Component) (rest : List (Ty × Bytes)) :
    headAndTail (min offset sizeLimit) (c.pair :: rest) =
      (c.head (min offset sizeLimit) ++
          (headAndTail (min (offset + c.tail.length) sizeLimit) rest).1,
        c.tail ++ (headAndTail (min (offset + c.tail.length) sizeLimit) rest).2) := by
  rw [pair, headAndTail, head, tail]
  cases hsize : c.ty.size? with
  | none =>
    have hadd : addSize (min offset sizeLimit) c.body.length =
        min (offset + c.body.length) sizeLimit := by
      rw [addSize]
      omega
    rw [if_pos ((Ty.size?_eq_none_iff c.ty).mp hsize), hadd]
    rfl
  | some n =>
    rw [if_neg (mt (Ty.size?_eq_none_iff c.ty).mpr (by simp [hsize]))]
    rfl

theorem headAndTail_snd (offset : Nat) (cs : List Component) :
    (headAndTail (min offset sizeLimit) (cs.map pair)).2 = tails cs := by
  induction cs generalizing offset with
  | nil => rfl
  | cons c cs ih => rw [List.map_cons, headAndTail_cons, tails_cons, ih]

theorem length_headAndTail_fst (offset : Nat) (cs : List Component) :
    (headAndTail (min offset sizeLimit) (cs.map pair)).1.length = headSizes cs := by
  induction cs generalizing offset with
  | nil => rfl
  | cons c cs ih =>
    rw [List.map_cons, headAndTail_cons, List.length_append, ih, length_head, headSizes_cons]

/-- Distances under the bound are what the heads say. -/
theorem headAndTail_fst {offset : Nat} {cs : List Component}
    (h : offset + (tails cs).length ≤ sizeLimit) :
    (headAndTail (min offset sizeLimit) (cs.map pair)).1 = headsFrom offset cs := by
  induction cs generalizing offset with
  | nil => rfl
  | cons c cs ih =>
    rw [tails_cons, List.length_append, ← Nat.add_assoc] at h
    -- No distance up to here is cut off at the bound, and `h` says the same of those behind.
    have hoffset : min offset sizeLimit = offset := by omega
    rw [List.map_cons, headAndTail_cons, ih h, hoffset, headsFrom]

/-- The components laid out in one pass. -/
def onePass (cs : List Component) : Bytes := layout (cs.map (·.ty)) (cs.map (·.body))

theorem onePass_eq {cs : List Component} (hsound : ∀ c ∈ cs, c.Sound) :
    onePass cs = (headAndTail (min (headSizes cs) sizeLimit) (cs.map pair)).1 ++ tails cs := by
  have hzip : (cs.map (·.ty)).zip (cs.map (·.body)) = cs.map pair := List.zip_map'
  have hsizes : ((cs.map (·.ty)).map Ty.headSize).sum = headSizes cs := by
    rw [headSizes_eq_sum hsound, List.map_map]
    rfl
  rw [onePass, layout, hzip, mulSize_headWords, hsizes, ← headAndTail_snd (headSizes cs) cs]

theorem length_onePass {cs : List Component} (hsound : ∀ c ∈ cs, c.Sound) :
    (onePass cs).length = (tuple cs).length := by
  rw [onePass_eq hsound, List.length_append, length_headAndTail_fst, length_tuple]

theorem onePass_eq_tuple {cs : List Component} (hsound : ∀ c ∈ cs, c.Sound)
    (h : (onePass cs).length ≤ sizeLimit) : onePass cs = tuple cs := by
  rw [length_onePass hsound, length_tuple] at h
  rw [onePass_eq hsound, headAndTail_fst h, tuple, heads_eq_headsFrom]

/-- A tuple in which a reader finds each component: the head has the announced size, a static
component stands in the head itself, and the head of a dynamic one is the distance to its body. -/
structure WellLaid (cs : List Component) : Prop where
  announced : mulSize (headWords (cs.map (·.ty))) 32 = (heads cs).length
  inPlace : ∀ before c after, cs = before ++ c :: after → ¬ c.ty.isDynamic →
    c.body <+: (tuple cs).drop (headSizes before)
  offset : ∀ before c after, cs = before ++ c :: after → c.ty.isDynamic →
    (tuple cs).drop (Bytes.toNat (((tuple cs).drop (headSizes before)).take 32)) =
      c.body ++ tails after
  aligned : 32 ∣ (tuple cs).length

theorem head_of_not_isDynamic {c : Component} (h : ¬ c.ty.isDynamic) (distance : Nat) :
    c.head distance = c.body := by
  rw [head]
  cases hsize : c.ty.size? with
  | none => exact absurd ((Ty.size?_eq_none_iff c.ty).mp hsize) h
  | some n => rfl

theorem head_of_isDynamic {c : Component} (h : c.ty.isDynamic) (distance : Nat) :
    c.head distance = Bytes.ofNat 32 distance := by
  rw [head, (Ty.size?_eq_none_iff c.ty).mpr h]

theorem tail_of_isDynamic {c : Component} (h : c.ty.isDynamic) : c.tail = c.body := by
  rw [tail, (Ty.size?_eq_none_iff c.ty).mpr h]

theorem wellLaid_of_sound {cs : List Component} (hsound : ∀ c ∈ cs, c.Sound)
    (hsize : (tuple cs).length ≤ sizeLimit) : WellLaid cs where
  announced := by
    have hle : headSizes cs ≤ sizeLimit := (Nat.le_add_right ..).trans (length_tuple cs ▸ hsize)
    rw [mulSize_headWords, List.map_map, length_heads, headSizes_eq_sum hsound] at *
    exact Nat.min_eq_left hle
  inPlace before c after hcs hstatic := by
    obtain ⟨rest, hdrop⟩ := drop_headSizes before c after
    rw [hcs, hdrop, head_of_not_isDynamic hstatic]
    exact List.prefix_append ..
  offset before c after hcs hdynamic := by
    obtain ⟨rest, hdrop⟩ := drop_headSizes before c after
    have hlt : distance (before ++ c :: after) before.length < 256 ^ 32 :=
      ((distance_le before c after).trans (hcs ▸ hsize)).trans_lt (by decide)
    rw [hcs, hdrop, head_of_isDynamic hdynamic, List.take_left' (Bytes.length_ofNat ..),
      Bytes.toNat_ofNat_of_lt hlt, drop_distance, tail_of_isDynamic hdynamic]
  aligned := dvd_length_tuple hsound

end Component

end CallBundle.Abi
