import Mathlib
import CallBundle.Abi.Ty
import CallBundle.Proofs.Bytes

/-!
The layout of a tuple, said by distances: all heads stand before all tails, and the head of a
dynamic component is the distance from the start of the tuple to its tail. Main statements: `drop_headSizes`
and `drop_distance`, where a reader finds each component.
-/

namespace CallBundle.Abi

namespace Ty

/-- How many bytes every element of a type takes. A dynamic type has no such number. -/
def size? : Ty → Option Nat
  | .string => none
  | .bytes => none
  | .array _ => none
  | .fixedArray element length => element.size?.map (length * ·)
  | _ => some 32

/-- How many bytes an element takes in the head of a tuple. -/
def headSize (ty : Ty) : Nat := ty.size?.getD 32

theorem size?_eq_none_iff (ty : Ty) : ty.size? = none ↔ ty.isDynamic := by
  induction ty with
  | fixedArray element length ih => simp [size?, isDynamic, ih]
  | _ => simp [size?, isDynamic]

theorem dvd_of_size? {ty : Ty} {n : Nat} (h : ty.size? = some n) : 32 ∣ n := by
  induction ty generalizing n with
  | fixedArray element length ih =>
    cases hsize : element.size? with
    | none => simp [size?, hsize] at h
    | some m =>
      simp only [size?, hsize, Option.map_some, Option.some.injEq] at h
      subst h
      exact (ih hsize).mul_left length
  | string | bytes | array => cases h
  | _ =>
    cases h
    exact dvd_rfl

end Ty

/-- A component of a tuple: its type, and its encoding on its own. -/
structure Component where
  ty : Ty
  body : Bytes

namespace Component

def head (distance : Nat) (c : Component) : Bytes :=
  match c.ty.size? with
  | some _ => c.body
  | none => Bytes.ofNat 32 distance

def tail (c : Component) : Bytes :=
  match c.ty.size? with
  | some _ => []
  | none => c.body

def tails (cs : List Component) : Bytes := cs.flatMap tail

def headSizes (cs : List Component) : Nat := (cs.map fun c => (c.head 0).length).sum

/-- How far the tail of the component with the given index is from the start of the tuple. -/
def distance (cs : List Component) (i : Nat) : Nat := headSizes cs + (tails (cs.take i)).length

def heads (cs : List Component) : Bytes :=
  (cs.mapIdx fun i c => c.head (distance cs i)).flatten

/-- The tuple of the given components. -/
def tuple (cs : List Component) : Bytes := heads cs ++ tails cs

/-- The heads of components whose tails begin at the given distance. -/
def headsFrom : Nat → List Component → Bytes
  | _, [] => []
  | start, c :: cs => c.head start ++ headsFrom (start + c.tail.length) cs

theorem length_head (distance : Nat) (c : Component) :
    (c.head distance).length = (c.head 0).length := by
  rw [head, head]
  cases c.ty.size? with
  | none => simp
  | some n => rfl

@[simp] theorem tails_cons (c : Component) (cs : List Component) :
    tails (c :: cs) = c.tail ++ tails cs := rfl

@[simp] theorem tails_append (before after : List Component) :
    tails (before ++ after) = tails before ++ tails after := List.flatMap_append

@[simp] theorem headSizes_cons (c : Component) (cs : List Component) :
    headSizes (c :: cs) = (c.head 0).length + headSizes cs := rfl

@[simp] theorem headSizes_append (before after : List Component) :
    headSizes (before ++ after) = headSizes before + headSizes after := by
  simp [headSizes]

@[simp] theorem length_headsFrom (start : Nat) (cs : List Component) :
    (headsFrom start cs).length = headSizes cs := by
  induction cs generalizing start with
  | nil => rfl
  | cons c cs ih => simp [headsFrom, ih, length_head start c]

theorem headsFrom_append (start : Nat) (before after : List Component) :
    headsFrom start (before ++ after) =
      headsFrom start before ++ headsFrom (start + (tails before).length) after := by
  induction before generalizing start with
  | nil => rfl
  | cons c before ih => simp [headsFrom, ih, Nat.add_assoc]

theorem flatten_mapIdx_head (start : Nat) (cs : List Component) :
    (cs.mapIdx fun i c => c.head (start + (tails (cs.take i)).length)).flatten =
      headsFrom start cs := by
  induction cs generalizing start with
  | nil => rfl
  | cons c cs ih =>
    simp only [List.mapIdx_cons, List.take_zero, List.take_succ_cons, List.flatten_cons, headsFrom,
      tails_cons, List.length_append, ← Nat.add_assoc, ih]
    rfl

theorem heads_eq_headsFrom (cs : List Component) : heads cs = headsFrom (headSizes cs) cs :=
  flatten_mapIdx_head (headSizes cs) cs

@[simp] theorem length_heads (cs : List Component) : (heads cs).length = headSizes cs := by
  rw [heads_eq_headsFrom, length_headsFrom]

theorem length_tuple (cs : List Component) :
    (tuple cs).length = headSizes cs + (tails cs).length := by
  rw [tuple, List.length_append, length_heads]

theorem distance_append_cons (before : List Component) (c : Component) (after : List Component) :
    distance (before ++ c :: after) before.length =
      headSizes (before ++ c :: after) + (tails before).length := by
  rw [distance, List.take_left]

theorem distance_le (before : List Component) (c : Component) (after : List Component) :
    distance (before ++ c :: after) before.length ≤ (tuple (before ++ c :: after)).length := by
  rw [distance_append_cons, length_tuple, tails_append, List.length_append]
  exact Nat.add_le_add_left (Nat.le_add_right ..) _

/-- Behind the heads of what stands before it, a tuple goes on with the head of a component. -/
theorem drop_headSizes (before : List Component) (c : Component) (after : List Component) :
    ∃ rest, (tuple (before ++ c :: after)).drop (headSizes before) =
      c.head (distance (before ++ c :: after) before.length) ++ rest := by
  rw [tuple, heads_eq_headsFrom, headsFrom_append, headsFrom, distance_append_cons,
    List.append_assoc, List.append_assoc, List.drop_left' (length_headsFrom ..)]
  exact ⟨_, rfl⟩

theorem drop_distance (before : List Component) (c : Component) (after : List Component) :
    (tuple (before ++ c :: after)).drop (distance (before ++ c :: after) before.length) =
      c.tail ++ tails after := by
  rw [tuple, tails_append, ← List.append_assoc, List.drop_left', tails_cons]
  rw [List.length_append, length_heads, distance_append_cons]

/-- The body is as long as its type says, in whole words. -/
structure Sound (c : Component) : Prop where
  length_body : ∀ n, c.ty.size? = some n → c.body.length = n
  aligned : 32 ∣ c.body.length

theorem Sound.of_length_eq {ty : Ty} {body body' : Bytes} (h : Sound ⟨ty, body⟩)
    (hlen : body'.length = body.length) : Sound ⟨ty, body'⟩ where
  length_body n hn := hlen.trans (h.length_body n hn)
  aligned := hlen ▸ h.aligned

theorem Sound.length_head {c : Component} (h : c.Sound) (distance : Nat) :
    (c.head distance).length = c.ty.headSize := by
  rw [head, Ty.headSize]
  cases hsize : c.ty.size? with
  | none => simp
  | some n => exact h.length_body n hsize

theorem Sound.headSizes_concat {c : Component} (h : c.Sound) (before : List Component) :
    headSizes (before ++ [c]) = headSizes before + c.ty.headSize := by
  rw [headSizes_append, headSizes_cons, h.length_head]
  rfl

theorem headSizes_eq_sum {cs : List Component} (h : ∀ c ∈ cs, c.Sound) :
    headSizes cs = (cs.map (·.ty.headSize)).sum := by
  apply congrArg List.sum
  apply List.map_congr_left
  intro c hc
  exact (h c hc).length_head 0

theorem Sound.dvd_head_add_tail {c : Component} (h : c.Sound) :
    32 ∣ (c.head 0).length + c.tail.length := by
  rw [head, tail]
  cases c.ty.size? with
  | none => exact dvd_add (by simp) h.aligned
  | some n => exact h.aligned

theorem dvd_length_tuple {cs : List Component} (h : ∀ c ∈ cs, c.Sound) :
    32 ∣ (tuple cs).length := by
  rw [length_tuple]
  induction cs with
  | nil => exact dvd_zero 32
  | cons c cs ih =>
    rw [List.forall_mem_cons] at h
    rw [headSizes_cons, tails_cons, List.length_append, Nat.add_add_add_comm]
    exact dvd_add h.1.dvd_head_add_tail (ih h.2)

theorem length_tuple_of_size? {cs : List Component} {n : Nat}
    (h : ∀ c ∈ cs, c.Sound ∧ c.ty.size? = some n) : (tuple cs).length = cs.length * n := by
  rw [length_tuple]
  induction cs with
  | nil => simp [headSizes, tails]
  | cons c cs ih =>
    rw [List.forall_mem_cons] at h
    have hhead : (c.head 0).length = n := by simp [h.1.1.length_head, Ty.headSize, h.1.2]
    have htail : c.tail = [] := by simp [tail, h.1.2]
    rw [headSizes_cons, tails_cons, htail, List.nil_append, hhead, Nat.add_assoc, ih h.2,
      List.length_cons, Nat.add_mul, Nat.one_mul, Nat.add_comm]

theorem body_infix_tuple {cs : List Component} {c : Component} (h : c ∈ cs) :
    c.body <:+: tuple cs := by
  obtain ⟨before, after, rfl⟩ := List.append_of_mem h
  cases hsize : c.ty.size? with
  | none =>
    have hdrop := drop_distance before c after
    rw [tail, hsize] at hdrop
    exact (List.prefix_append ..).isInfix.trans (hdrop ▸ (List.drop_suffix ..).isInfix)
  | some n =>
    obtain ⟨rest, hdrop⟩ := drop_headSizes before c after
    rw [head, hsize] at hdrop
    exact (List.prefix_append ..).isInfix.trans (hdrop ▸ (List.drop_suffix ..).isInfix)

end Component

end CallBundle.Abi
