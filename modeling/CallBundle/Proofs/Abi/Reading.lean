import Mathlib
import CallBundle.Proofs.Abi.Encoding

/-!
A reader that knows the types and has the bytes. Main statement: `read?_write`, so it reads elements
back from where they are written, whatever follows them.
-/

namespace CallBundle.Abi

/-- The number in the first word. -/
def word? (bytes : Bytes) : Option Nat :=
  if 32 ≤ bytes.length then some (Bytes.toNat (bytes.take 32)) else none

/-- The bytes behind a length word. -/
def blob? (bytes : Bytes) : Option Bytes := do
  let length ← word? bytes
  let data := (bytes.drop 32).take length
  if data.length = length then some data else none

/-- Reads a component of a tuple, whose head is at the given distance from the start of it. -/
def component? {α : Type} (ty : Ty) (read : Bytes → Option α) (tuple : Bytes) (position : Nat) :
    Option α :=
  match ty.size? with
  | some _ => read (tuple.drop position)
  | none => do read (tuple.drop (← word? (tuple.drop position)))

/-- Reads components of one type, as many as the count says. -/
def items? {α : Type} (ty : Ty) (read : Bytes → Option α) (tuple : Bytes) :
    (position count : Nat) → Option (List α)
  | _, 0 => some []
  | position, count + 1 => do
    let x ← component? ty read tuple position
    return x :: (← items? ty read tuple (position + ty.headSize) count)

namespace Ty

def read? : (ty : Ty) → Bytes → Option ty.El
  | .address, data => Address.ofBytes? ((data.take 32).drop 12)
  | .bool, data => do
    match ← word? data with
    | 0 => some false
    | 1 => some true
    | _ => none
  | .string, data => do Bytes.toText? (← blob? data)
  | .bytes, data => blob? data
  | .fixedBytes width, data =>
    if h : BytesWidth width ∧ (data.take width).length = width then some ⟨data.take width, h⟩
    else none
  | .uint bits, data => do
    let n ← word? data
    if h : UintRange bits n then some ⟨n, h⟩ else none
  | .int bits, data => do
    let n ← word? data
    if h : IntRange bits ((n : Int).bmod (2 ^ 256)) then some ⟨_, h⟩ else none
  | .array element, data => do
    items? element element.read? (data.drop 32) 0 (← word? data)
  | .fixedArray element length, data => do
    let xs ← items? element element.read? data 0 length
    if h : xs.length = length then some ⟨xs, h⟩ else none

/-- Reads a tuple, with the heads of the components from the given distance on. -/
def readFrom? : (tys : List Ty) → (tuple : Bytes) → (position : Nat) → Option (Els tys)
  | [], _, _ => some ()
  | ty :: tys, tuple, position => do
    let x ← component? ty ty.read? tuple position
    return (x, ← readFrom? tys tuple (position + ty.headSize))

def readTuple? (tys : List Ty) (tuple : Bytes) : Option (Els tys) := readFrom? tys tuple 0

/-- No array has more elements than a length word counts. -/
def Bounded : (ty : Ty) → ty.El → Prop
  | .array element, xs => xs.length < 2 ^ 256 ∧ ∀ x ∈ xs, element.Bounded x
  | .fixedArray element _, xs => ∀ x ∈ xs.val, element.Bounded x
  | _, _ => True

def AllBounded : (tys : List Ty) → Els tys → Prop
  | [], _ => True
  | ty :: tys, (x, xs) => ty.Bounded x ∧ AllBounded tys xs

end Ty

/-- No array in the value has more elements than a length word counts, as holds of all arrays in
memory. -/
inductive Value.Bounded : Value → Prop
  | array {vs : List Value} : vs.length < 2 ^ 256 → (∀ v ∈ vs, v.Bounded) → Bounded (.array vs)
  | scalar {v : Value} : v.items? = none → Bounded v

theorem word?_word (z : Int) (rest : Bytes) :
    word? (word z ++ rest) = some (z % 2 ^ 256).toNat := by
  have hlt : (z % 2 ^ 256).toNat < 256 ^ 32 := by omega
  have hlen : 32 ≤ (word z ++ rest).length := by simp
  rw [word?, if_pos hlen, List.take_left' (length_word z), word, Bytes.toNat_ofNat_of_lt hlt]

theorem word?_natCast {n : Nat} (h : n < 2 ^ 256) (rest : Bytes) :
    word? (word n ++ rest) = some n := by
  rw [word?_word]
  congr
  omega

theorem blob?_padded {bytes : Bytes} (h : bytes.length < 2 ^ 256) (rest : Bytes) :
    blob? (word bytes.length ++ padded bytes ++ rest) = some bytes := by
  rw [List.append_assoc, blob?, word?_natCast h, Option.bind_eq_bind, Option.bind_some,
    List.drop_left' (length_word _), padded, List.append_assoc, List.take_left' rfl, if_pos rfl]

theorem length_le_length_padded (bytes : Bytes) :
    bytes.length ≤ (word bytes.length ++ padded bytes).length := by
  rw [padded, ← List.append_assoc, List.length_append, List.length_append, Nat.add_right_comm]
  exact Nat.le_add_left ..

namespace Component

theorem length_body_lt {before after : List Component} {c : Component}
    (h : (tuple (before ++ c :: after)).length < 2 ^ 256) : c.body.length < 2 ^ 256 :=
  (body_infix_tuple List.mem_append_cons_self).length_le.trans_lt h

/-- A reader that goes by the head finds the component, whatever follows the tuple. -/
theorem component?_tuple {α : Type} {read : Bytes → Option α} {c : Component} {x : α}
    (hread : ∀ rest, read (c.body ++ rest) = some x) (before after : List Component)
    (hsize : (tuple (before ++ c :: after)).length < 2 ^ 256) (rest : Bytes) :
    component? c.ty read (tuple (before ++ c :: after) ++ rest) (headSizes before) = some x := by
  have hdistance := distance_le before c after
  have hposition : headSizes before ≤ (tuple (before ++ c :: after)).length := by
    rw [length_tuple, headSizes_append, Nat.add_assoc]
    exact Nat.le_add_right ..
  obtain ⟨behind, hdrop⟩ := drop_headSizes before c after
  rw [component?, List.drop_append_of_le_length hposition, hdrop, head]
  cases hty : c.ty.size? with
  | some n => rw [List.append_assoc, hread]
  | none =>
    have htail : c.tail = c.body := by rw [tail, hty]
    rw [List.append_assoc, ← word_natCast, word?_natCast (hdistance.trans_lt hsize),
      Option.bind_eq_bind, Option.bind_some, List.drop_append_of_le_length hdistance,
      drop_distance, htail, List.append_assoc, hread]

end Component

namespace Ty

theorem items?_tuple {element : Ty} (xs : List element.El)
    (hread : ∀ x ∈ xs, (element.write x).length < 2 ^ 256 →
      ∀ rest, element.read? (element.write x ++ rest) = some x)
    (before : List Component)
    (hsize : (Component.tuple (before ++ element.items element.write xs)).length < 2 ^ 256)
    (rest : Bytes) :
    items? element element.read?
      (Component.tuple (before ++ element.items element.write xs) ++ rest)
      (Component.headSizes before) xs.length = some xs := by
  -- What has been read moves over to `before`, so that the position stays behind its heads.
  induction xs generalizing before with
  | nil => rfl
  | cons x xs ih =>
    rw [List.forall_mem_cons] at hread
    have hfirst := Component.component?_tuple (hread.1 (Component.length_body_lt hsize)) before
      (element.items element.write xs) hsize rest
    rw [items, List.map_cons, ← items, List.append_cons] at hsize ⊢
    rw [List.append_cons] at hfirst
    rw [List.length_cons, items?, hfirst, ← (write_sound element x).headSizes_concat,
      ih hread.2 _ hsize]
    rfl

theorem read?_write {ty : Ty} {x : ty.El} (hx : ty.Bounded x)
    (hsize : (ty.write x).length < 2 ^ 256) (rest : Bytes) : ty.read? (ty.write x ++ rest) = some x := by
  induction ty generalizing rest with
  | address =>
    have htake : (Ty.address.write x ++ rest).take 32 = Bytes.zeros 12 ++ Address.bytes x :=
      List.take_left' (by simp [write, Address.length_bytes])
    have hdrop : (Bytes.zeros 12 ++ Address.bytes x).drop 12 = Address.bytes x :=
      List.drop_left' (Bytes.length_zeros 12)
    rw [read?, htake, hdrop, Address.ofBytes?, dif_pos (Address.length_bytes x)]
  | bool =>
    rw [read?, write, word?_word]
    cases x <;> rfl
  | string =>
    rw [read?, write, blob?_padded ((length_le_length_padded _).trans_lt hsize)]
    exact Bytes.toText?_ofText x
  | bytes => rw [read?, write, blob?_padded ((length_le_length_padded _).trans_lt hsize)]
  | fixedBytes width =>
    cases x with
    | mk data h =>
      have htake : (data ++ Bytes.zeros (32 - width) ++ rest).take width = data := by
        rw [List.append_assoc, List.take_left' h.2]
      simp only [read?, write, htake, dif_pos h]
  | uint bits =>
    cases x with
    | mk z h =>
      have hz : ((z % 2 ^ 256).toNat : Int) = z := by
        rw [Int.toNat_of_nonneg (Int.emod_nonneg z (by decide)), Int.emod_eq_of_lt h.2.1 h.lt]
      rw [read?, write, word?_word, Option.bind_eq_bind, Option.bind_some]
      simp only [hz, dif_pos h]
  | int bits =>
    cases x with
    | mk z h =>
      have hz : ((z % 2 ^ 256).toNat : Int).bmod (2 ^ 256) = z := by
        rw [Int.toNat_of_nonneg (Int.emod_nonneg z (by decide))]
        exact (Int.emod_bmod z (2 ^ 256)).trans (Int.bmod_eq_of_le h.le h.lt)
      rw [read?, write, word?_word, Option.bind_eq_bind, Option.bind_some]
      simp only [hz, dif_pos h]
  | array element ih =>
    have htuple : (Component.tuple (element.items element.write x)).length < 2 ^ 256 := by
      rw [write, List.length_append] at hsize
      exact (Nat.le_add_left ..).trans_lt hsize
    rw [read?, write, List.append_assoc, word?_natCast hx.1, List.drop_left' (length_word _)]
    exact items?_tuple x (fun y hy => ih (hx.2 y hy)) [] htuple rest
  | fixedArray element length ih =>
    cases x with
    | mk xs hxs =>
      subst hxs
      have hitems : items? element element.read?
          ((fixedArray element xs.length).write ⟨xs, rfl⟩ ++ rest) 0 xs.length = some xs :=
        items?_tuple xs (fun y hy => ih (hx y hy)) [] hsize rest
      rw [read?, hitems, Option.bind_eq_bind, Option.bind_some, dif_pos rfl]

theorem readFrom?_tuple {tys : List Ty} {xs : Els tys} (hxs : AllBounded tys xs)
    (before : List Component)
    (hsize : (Component.tuple (before ++ components write tys xs)).length < 2 ^ 256)
    (rest : Bytes) :
    readFrom? tys (Component.tuple (before ++ components write tys xs) ++ rest)
      (Component.headSizes before) = some xs := by
  induction tys generalizing before with
  | nil => rfl
  | cons ty tys ih =>
    cases xs with
    | mk x xs =>
      have hfirst := Component.component?_tuple
        (read?_write hxs.1 (Component.length_body_lt hsize)) before (components write tys xs) hsize
        rest
      rw [components, List.append_cons] at hsize ⊢
      rw [List.append_cons] at hfirst
      rw [readFrom?, hfirst, ← (write_sound ty x).headSizes_concat, ih hxs.2 _ hsize]
      rfl

end Ty

namespace Value

theorem Bounded.of_items? {v : Value} (h : v.Bounded) {vs : List Value} (hvs : v.items? = some vs) :
    vs.length < 2 ^ 256 ∧ ∀ v ∈ vs, v.Bounded := by
  cases h with
  | array hlen hall =>
    cases hvs
    exact ⟨hlen, hall⟩
  | scalar hnone =>
    rw [hvs] at hnone
    cases hnone

theorem Bounded.mapM {element : Ty} {v : Value} (hv : v.Bounded) {vs : List Value}
    (hvs : v.items? = some vs) {xs : List element.El} (h : vs.mapM (as? element) = some xs)
    (hitem : ∀ w : Value, ∀ x, w.Bounded → w.as? element = some x → element.Bounded x) :
    xs.length < 2 ^ 256 ∧ ∀ x ∈ xs, element.Bounded x := by
  obtain ⟨hlen, hall⟩ := hv.of_items? hvs
  refine ⟨(length_of_mapM h).trans_lt hlen, ?_⟩
  intro x hx
  obtain ⟨w, hw, hwx⟩ := exists_of_mem_mapM h hx
  exact hitem w x (hall w hw) hwx

theorem Bounded.as? {ty : Ty} {v : Value} {x : ty.El} (hv : v.Bounded) (h : v.as? ty = some x) :
    ty.Bounded x := by
  induction ty generalizing v with
  | array element ih =>
    rw [Value.as?, Option.bind_eq_bind, Option.bind_eq_some_iff] at h
    obtain ⟨vs, hvs, h⟩ := h
    exact hv.mapM hvs h fun _ _ => ih
  | fixedArray element length ih =>
    simp only [Value.as?, Option.bind_eq_bind, Option.bind_eq_some_iff] at h
    obtain ⟨vs, hvs, xs, hxs, h⟩ := h
    split at h
    case isTrue =>
      cases h
      exact (hv.mapM hvs hxs fun _ _ => ih).2
    case isFalse => cases h
  | _ => trivial

theorem allBounded_of_allAs? {tys : List Ty} {vs : List Value} {xs : Ty.Els tys}
    (hvs : ∀ v ∈ vs, v.Bounded) (h : allAs? tys vs = some xs) : Ty.AllBounded tys xs := by
  fun_induction allAs? tys vs with
  | case1 => trivial
  | case2 ty tys v vs ih =>
    rw [List.forall_mem_cons] at hvs
    simp only [Option.bind_eq_bind, Option.bind_eq_some_iff, Option.pure_def] at h
    obtain ⟨x, hx, xs, hxs, h⟩ := h
    cases h
    exact ⟨hvs.1.as? hx, ih hvs.2 hxs⟩
  | case3 => cases h

end Value

theorem exists_readTuple?_eq {tys : List Ty} {vs : List Value} {place : Place} {out : Bytes}
    (h : encodeTuple tys vs place = .ok out) (hsize : out.length < 2 ^ 64)
    (hvs : ∀ v ∈ vs, v.Bounded) :
    ∃ xs, Value.allAs? tys vs = some xs ∧ ∀ rest, Ty.readTuple? tys (out ++ rest) = some xs := by
  obtain ⟨xs, hxs, rfl⟩ := exists_eq_tuple h hsize
  refine ⟨xs, hxs, ?_⟩
  exact Ty.readFrom?_tuple (Value.allBounded_of_allAs? hvs hxs) [] (hsize.trans (by decide))

/-- A reader that knows only the types gets back what the values denote, so values that are encoded
alike denote the same. -/
theorem encodeTuple_reads_back {tys : List Ty} {vs : List Value} {place : Place} {out : Bytes}
    (h : encodeTuple tys vs place = .ok out) (hsize : out.length < 2 ^ 64)
    (hvs : ∀ v ∈ vs, v.Bounded) :
    (∃ xs, Value.allAs? tys vs = some xs ∧ ∀ rest, Ty.readTuple? tys (out ++ rest) = some xs) ∧
      ∀ ws place', encodeTuple tys ws place' = .ok out → (∀ w ∈ ws, w.Bounded) →
        Value.allAs? tys ws = Value.allAs? tys vs := by
  obtain ⟨xs, hxs, hread⟩ := exists_readTuple?_eq h hsize hvs
  refine ⟨⟨xs, hxs, hread⟩, ?_⟩
  intro ws place' hws hbounded
  obtain ⟨ys, hys, hread'⟩ := exists_readTuple?_eq hws hsize hbounded
  rw [hxs, hys, ← hread [], ← hread' []]

theorem encodeTuple_reads_back_mixed :
    let tys : List Ty := [.uint 16, .bytes, .array (.fixedBytes 2), .string]
    let vs : List Value :=
      [.int 5, .string " 0X0aff", .array [.bytes [1], .string "0x"], .string "è"]
    ∃ out, encodeTuple tys vs (.ofRoot "arg") = .ok out ∧ out.length = 352 ∧
      (∃ xs, Value.allAs? tys vs = some xs ∧ ∀ rest, Ty.readTuple? tys (out ++ rest) = some xs) ∧
      ∀ ws place, encodeTuple tys ws place = .ok out → (∀ w ∈ ws, w.Bounded) →
        Value.allAs? tys ws = Value.allAs? tys vs := by
  intro tys vs
  have hlength : (encodeTuple tys vs (.ofRoot "arg")).toOption.map List.length = some 352 := by
    decide +kernel
  have hvs : ∀ v ∈ vs, v.Bounded := by
    have hitems : ∀ v ∈ [Value.bytes [1], .string "0x"], v.Bounded := by
      simp only [List.forall_mem_cons]
      exact ⟨.scalar rfl, .scalar rfl, List.forall_mem_nil _⟩
    simp only [vs, List.forall_mem_cons]
    exact ⟨.scalar rfl, .scalar rfl, .array (by decide) hitems, .scalar rfl, List.forall_mem_nil _⟩
  rw [Option.map_eq_some_iff] at hlength
  obtain ⟨out, hout, hlength⟩ := hlength
  have h := toOption_eq_some_iff.mp hout
  exact ⟨out, h, hlength, encodeTuple_reads_back h (by rw [hlength]; decide) hvs⟩

end CallBundle.Abi
