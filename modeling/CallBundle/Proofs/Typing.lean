import Mathlib
import CallBundle.Proofs.Abi.Capacity
import CallBundle.Proofs.Coercion

/-!
Reading parameters yields values of the kinds that their types take. What remains for the encoder to
find is then an integer out of range and a list of another length than its type says, and it may run
out of what can be reserved. Main statement: `coerceAll_encodes_within_unless_misfit`.
-/

namespace CallBundle

variable {σ α β ι : Type}

namespace Param

/-- A parameter is what it comes to once it has been forced often enough. -/
theorem deferredInduction {motive : Param σ → Prop}
    (hconcrete : ∀ p, p.isDeferred = false → motive p)
    (hdeferred : ∀ label value next, (∀ s, motive (value s)) →
      motive (.deferred label value next)) : (p : Param σ) → motive p
  | .deferred label value next =>
    hdeferred label value next fun s => deferredInduction hconcrete hdeferred (value s)
  | .string _ | .uint _ | .int _ | .bool _ | .address _ | .bytes _ | .list _ => hconcrete _ rfl

end Param

theorem forall_mem_of_forall₂ {P : β → Prop} {as : List α} {bs : List β}
    (h : List.Forall₂ (fun _ b => P b) as bs) : ∀ b ∈ bs, P b := by
  induction h with
  | nil => nofun
  | cons hb _ ih => exact List.forall_mem_cons.mpr ⟨hb, ih⟩

namespace Run

/-- Whatever a run results in, if it succeeds, has the property. -/
def Yields (run : Run σ α) (P : α → Prop) : Prop :=
  ∀ s a, (run s).result = .ok a → P a

theorem Yields.pure {P : α → Prop} {a : α} (h : P a) : Yields (Pure.pure a : Run σ α) P := by
  intro s b hb
  cases hb
  exact h

theorem Yields.fail {P : α → Prop} (e : Failure) : Yields (Run.fail e : Run σ α) P := nofun

theorem Yields.bind {P : α → Prop} {Q : β → Prop} {run : Run σ α} {next : α → Run σ β}
    (h : run.Yields P) (hnext : ∀ a, P a → (next a).Yields Q) : (run >>= next).Yields Q := by
  intro s b hb
  obtain ⟨a, ha, hb⟩ := result_bind_eq_ok.mp hb
  exact hnext a (h s a ha) _ b hb

/-- A run of which nothing is known may come before. -/
theorem Yields.after {Q : β → Prop} {run : Run σ α} {next : α → Run σ β}
    (hnext : ∀ a, (next a).Yields Q) : (run >>= next).Yields Q :=
  Yields.bind (P := fun _ => True) (fun _ _ _ => trivial) fun a _ => hnext a

theorem Yields.step {P : α → Prop} {event : Event} {choose : σ → Run σ α} {move : σ → σ}
    (h : ∀ s, (choose s).Yields P) : (Run.step event choose move).Yields P :=
  fun s => h s (move s)

theorem Yields.mono {P Q : α → Prop} {run : Run σ α} (h : run.Yields P) (hPQ : ∀ a, P a → Q a) :
    run.Yields Q :=
  fun s a ha => hPQ a (h s a ha)

theorem Yields.mapM {P : ι → α → Prop} {run : ι → Run σ α} {items : List ι}
    (h : ∀ item ∈ items, (run item).Yields (P item)) :
    (items.mapM run).Yields (List.Forall₂ P items) := by
  induction items with
  | nil => exact .pure .nil
  | cons item items ih =>
    rw [List.forall_mem_cons] at h
    rw [List.mapM_cons]
    exact h.1.bind fun a ha => (ih h.2).bind fun as has => .pure (.cons ha has)

end Run

namespace Abi

/-- Reading checks the values of these types. Byte strings and texts it takes as they are. -/
def Ty.Checked : Ty → Prop
  | .address => True
  | .bool => True
  | .uint _ => True
  | .int _ => True
  | .array element => element.Checked
  | .fixedArray element _ => element.Checked
  | _ => False

/-- A value of the kind that a type takes, at every depth. Only its size may be wrong. -/
def Ty.Shaped : Ty → Value → Prop
  | .array element, .array vs => ∀ w ∈ vs, element.Shaped w
  | .fixedArray element _, .array vs => ∀ w ∈ vs, element.Shaped w
  | ty, v => ty.takes v

theorem Ty.Shaped.takes {ty : Ty} {v : Value} (h : ty.Shaped v) : ty.takes v := by
  cases ty with
  | array element | fixedArray element length =>
    cases v with
    | array vs => rfl
    | _ => exact h
  | _ => exact h

/-- The values that reading makes of parameters. A byte string or a text may be any value. -/
inductive Ty.Keeps : Ty → Value → Prop
  | address (a : Address) : Keeps .address (.address a)
  | uint {ty : Ty} (n : Uint256) : ty.isInteger → Keeps ty (.uint n)
  | int {ty : Ty} (z : Int128) : ty.isInteger → Keeps ty (.int z)
  | bool (b : Bool) : Keeps .bool (.bool b)
  | byteString {ty : Ty} (v : Value) : ty.isByteString → Keeps ty v
  | string (v : Value) : Keeps .string v
  | array {ty element : Ty} {vs : List Value} :
      ty.Layer element → (∀ w ∈ vs, Keeps element w) → Keeps ty (.array vs)

theorem Ty.Keeps.shaped {ty : Ty} {v : Value} (h : ty.Keeps v) (hchecked : ty.Checked) :
    ty.Shaped v := by
  induction h with
  | address | bool => rfl
  | @uint ty _ hty | @int ty _ hty =>
    cases ty with
    | uint | int => rfl
    | _ => cases hty
  | @byteString ty _ hty =>
    cases ty with
    | bytes | fixedBytes => cases hchecked
    | _ => cases hty
  | string => cases hchecked
  | array hlayer _ ih =>
    cases hlayer with
    | array | fixedArray => exact fun w hw => ih w hw hchecked

namespace Site

/-- What the kind of a value leaves open: an integer out of range, a list of a wrong length. -/
def Misfit (site : Site) (e : Failure) : Prop := site.OutOfRange e ∨ site.WrongLength e

theorem outOfRange_iff {site : Site} {e : Failure} (hchecked : site.ty.Checked)
    (htakes : site.ty.takes site.value) :
    site.OutOfRange e ↔ site.ty.hasRoom site.value = false ∧
      e = .valueOutOfRange site.place site.ty site.value := by
  constructor
  · intro h
    cases h with
    | uint hz hrange => exact ⟨by simpa [Ty.hasRoom, hz] using hrange, rfl⟩
    | int hz hrange => exact ⟨by simpa [Ty.hasRoom, hz] using hrange, rfl⟩
  · obtain ⟨ty, place, v⟩ := site
    rintro ⟨hroom, rfl⟩
    cases ty with
    | uint bits =>
      obtain ⟨z, hz⟩ := Option.isSome_iff_exists.mp htakes
      exact .uint hz (by simpa [Ty.hasRoom, hz] using hroom)
    | int bits =>
      obtain ⟨z, hz⟩ := Option.isSome_iff_exists.mp htakes
      exact .int hz (by simpa [Ty.hasRoom, hz] using hroom)
    | fixedBytes => cases hchecked
    | _ => cases hroom

/-- The faults of a value of the right kind. -/
theorem fault?_of_takes {site : Site} {e : Failure} (hproper : site.ty.Proper)
    (hchecked : site.ty.Checked) (htakes : site.ty.takes site.value) :
    site.fault? = some e ↔ site.Misfit e := by
  simp only [Misfit, fault?, hproper.hasEncodableWidth, htakes, outOfRange_iff hchecked htakes]
  cases hroom : site.ty.hasRoom site.value with
  | true => simp [lengthFault?_eq_some_iff]
  | false =>
    have hlength : ¬ site.WrongLength e := by
      rintro ⟨-⟩
      cases hroom
    simp [hlength, eq_comm]

end Site

/-- The faults that are left in values of the right kinds. -/
theorem fault?_eq_some_iff_misfit {tys : List Ty} {vs : List Value}
    (hproper : ∀ ty ∈ tys, ty.Proper) (hchecked : ∀ ty ∈ tys, ty.Checked)
    (hshaped : ∀ ty v, (ty, v) ∈ tys.zip vs → ty.Shaped v) (place : Place) :
    ∀ site ∈ tupleSites tys vs place, ∀ e, site.fault? = some e ↔ site.Misfit e := by
  intro site hsite e
  have hkind : site.ty.Checked ∧ site.ty.Shaped site.value := by
    revert site
    apply forall_mem_tupleSites
    intro ty v hmem place
    exact forall_mem_sites (P := fun ty v => ty.Checked ∧ ty.Shaped v)
      (fun _ _ h w hw => ⟨h.1, h.2 w hw⟩) (fun _ _ _ h w hw => ⟨h.1, h.2 w hw⟩)
      ⟨hchecked ty (List.of_mem_zip hmem).1, hshaped ty v hmem⟩ place
  exact Site.fault?_of_takes (proper_of_mem_tupleSites hproper vs place site hsite) hkind.1
    hkind.2.takes

end Abi

namespace Context

variable {ctx : Context σ}

theorem Decided.yields {ty : Abi.Ty} {p : Param σ} {P : α → Prop} {run : Run σ α}
    (h : ctx.Decided ty p P run) : run.Yields P := by
  cases h with
  | settled a _ ha hrun =>
    rw [hrun]
    exact .pure ha
  | refused e _ _ hrun =>
    rw [hrun]
    exact .fail e

/-- A parameter is forced before it is looked at. -/
theorem yields_of_concrete {ty : Abi.Ty} {P : Abi.Value → Prop}
    (h : ∀ p : Param σ, p.isDeferred = false → (ctx.coerce ty p).Yields P) (p : Param σ) :
    (ctx.coerce ty p).Yields P := by
  induction p using Param.deferredInduction with
  | hconcrete p hp => exact h p hp
  | hdeferred label value next ih =>
    rw [coerce_deferred]
    exact .step ih

theorem yields_layer {ty element : Abi.Ty} {p : Param σ} (hlayer : ty.Layer element)
    (hp : p.isDeferred = false) (h : ∀ p, (ctx.coerce element p).Yields element.Keeps) :
    (ctx.coerce ty p).Yields ty.Keeps := by
  obtain ⟨items, rfl⟩ | hdecided := ctx.layer_cases hlayer hp ty.Keeps
  · rw [coerce_list hlayer]
    exact (Run.Yields.mapM fun item _ => h item).bind fun vs hvs =>
      .pure (.array hlayer (forall_mem_of_forall₂ hvs))
  · exact hdecided.yields

theorem yields_address {p : Param σ} (hp : p.isDeferred = false) :
    (ctx.coerce .address p).Yields Abi.Ty.address.Keeps := by
  obtain ⟨raw, rfl⟩ | hdecided := ctx.address_cases hp
  · rw [coerce_address_string]
    exact .after fun a => .pure (.address a)
  · refine hdecided.yields.mono ?_
    rintro v ⟨a, rfl⟩
    exact .address a

theorem yields_number {ty : Abi.Ty} {p : Param σ} (hty : ty.isInteger) (hp : p.isDeferred = false)
    (hnode : ctx.node ty p = ctx.numberNode ty p) : (ctx.number ty p).Yields ty.Keeps := by
  refine (decided_number hp hnode).yields.mono ?_
  rintro v (⟨n, rfl⟩ | ⟨z, rfl⟩)
  · exact .uint n hty
  · exact .int z hty

theorem yields_keeps (ctx : Context σ) (ty : Abi.Ty) (p : Param σ) :
    (ctx.coerce ty p).Yields ty.Keeps := by
  induction ty generalizing p with
  | array element ih => exact yields_of_concrete (fun p hp => yields_layer .array hp ih) p
  | fixedArray element length ih =>
    exact yields_of_concrete (fun p hp => yields_layer .fixedArray hp ih) p
  | address => exact yields_of_concrete (fun p hp => yields_address hp) p
  | uint bits | int bits =>
    refine yields_of_concrete (fun p hp => ?_) p
    exact yields_number rfl hp (node_of_not_isDeferred hp)
  | bool => exact .after fun b => .pure (.bool b)
  | bytes | fixedBytes => exact fun _ v _ => .byteString v rfl
  | string => exact fun _ v _ => .string v

theorem yields_coerceAll (ctx : Context σ) (signature : String) {tys : List Abi.Ty}
    (h : ∀ ty ∈ tys, ty.Checked) (ps : List (Param σ)) :
    (ctx.coerceAll signature tys ps).Yields (List.Forall₂ Abi.Ty.Shaped tys) := by
  rw [coerceAll]
  split
  case isFalse => exact .fail _
  case isTrue hlength =>
    have hvalues : ((tys.zip ps).mapM fun x => ctx.coerce x.1 x.2).Yields
        (List.Forall₂ (fun (x : Visit σ) => x.1.Shaped) (tys.zip ps)) :=
      .mapM fun x hx => (ctx.yields_keeps x.1 x.2).mono fun _ hv =>
        hv.shaped (h x.1 (List.of_mem_zip hx).1)
    intro s vs hvs
    have hall := List.forall₂_map_left_iff.mpr (hvalues s vs hvs)
    rwa [List.map_fst_zip (Nat.le_of_eq hlength.symm)] at hall

/-- Parameters that have been read as values of types that reading checks are encoded, as far as
there is room to reserve for them, unless an integer among them is out of the range of its type or a
list is not as long as its type says. A reservation over the bound ends the encoding where none of
these has come before. -/
theorem coerceAll_encodes_within_unless_misfit {ctx : Context σ} {signature : String}
    {tys : List Abi.Ty} {ps : List (Param σ)} {s : σ} {vs : List Abi.Value} {capacity : Nat}
    (hread : ∀ ty ∈ tys, ∃ raw, Abi.Ty.ofText raw = .ok ty) (hchecked : ∀ ty ∈ tys, ty.Checked)
    (hvs : (ctx.coerceAll signature tys ps s).result = .ok vs)
    (hcapacity : capacity ≤ Abi.capacityLimit) (place : Place) :
    (∀ e, Abi.encodeTupleWithin capacity tys vs place = .error (.failed e) →
      ∃ site ∈ Abi.tupleSites tys vs place, site.Misfit e) ∧
    ((∃ out, Abi.encodeTupleWithin capacity tys vs place = .ok out) ↔
      Abi.Reservable capacity tys vs place ∧
        ∀ site ∈ Abi.tupleSites tys vs place, ∀ e, ¬ site.Misfit e) ∧
    (Abi.encodeTupleWithin capacity tys vs place = .error .overCapacity ↔
      capacity < (tys.map Abi.Ty.headSize).sum ∨
        ∃ before site after, Abi.tupleSites tys vs place = before ++ site :: after ∧
          (∀ e, ¬ site.Misfit e) ∧ capacity < site.reserved ∧
          ∀ earlier ∈ before, (∀ e, ¬ earlier.Misfit e) ∧ earlier.reserved ≤ capacity) := by
  have hproper : ∀ ty ∈ tys, ty.Proper := by
    intro ty hty
    obtain ⟨raw, hraw⟩ := hread ty hty
    exact (Abi.Ty.ofText_eq_ok_iff.mp hraw).proper
  have hshaped := List.forall₂_iff_zip.mp (ctx.yields_coerceAll signature hchecked ps s vs hvs)
  have hfault := Abi.fault?_eq_some_iff_misfit hproper hchecked (fun _ _ => hshaped.2) place
  have hnone : ∀ site ∈ Abi.tupleSites tys vs place,
      site.fault? = none ↔ ∀ e, ¬ site.Misfit e := by
    intro site hsite
    rw [Option.eq_none_iff_forall_ne_some]
    exact forall_congr' fun e => not_congr (hfault site hsite e)
  refine ⟨fun e he => ?_, ?_, ?_⟩
  · have hfree := (Abi.encodeTupleWithin_upToCapacity capacity tys vs place).eq_error he
    have hfirst := Abi.failure?_encodeTuple hshaped.1 place
    rw [hfree, failure?_error] at hfirst
    obtain ⟨site, hsite, he⟩ := List.exists_of_findSome?_eq_some hfirst.symm
    exact ⟨site, hsite, (hfault site hsite e).mp he⟩
  · simp only [Abi.encodeTupleWithin_eq_ok_iff hcapacity, exists_and_left]
    apply and_congr_right
    intro _
    rw [← failure?_eq_none_iff, Abi.failure?_encodeTuple hshaped.1, List.findSome?_eq_none_iff]
    exact forall₂_congr hnone
  · rw [Abi.encodeTupleWithin_eq_overCapacity_iff hcapacity hshaped.1]
    refine or_congr_right (exists_congr fun before => exists_congr fun site =>
      exists_congr fun after => and_congr_right fun hsites => ?_)
    have hpart : ∀ site' ∈ before ++ site :: after,
        site'.fault? = none ↔ ∀ e, ¬ site'.Misfit e := fun site' h => hnone site' (hsites ▸ h)
    rw [hpart site (by simp)]
    refine and_congr_right fun _ => and_congr_right fun _ => forall₂_congr fun earlier h => ?_
    rw [hpart earlier (by simp [h])]

theorem coerceAll_encodes_within_unless_misfit_ranged :
    let ctx : Context Nat := ⟨18, some ⟨fun _ n => (.ok .zero, n + 1)⟩⟩
    let tys : List Abi.Ty := [.address, .fixedArray (.int 8) 2]
    let ps := [.string "alice", .deferred "items" (fun _ => .list [.string "128e0", .int 7]) id]
    let vs : List Abi.Value := [.address .zero, .array [.uint 128, .int 7]]
    let e : Failure := .valueOutOfRange ⟨"arg", [1, 0]⟩ (.int 8) (.uint 128)
    (∀ ty ∈ tys, ∃ raw, Abi.Ty.ofText raw = .ok ty) ∧ (∀ ty ∈ tys, ty.Checked) ∧
      (ctx.coerceAll "f(address,int8[2])" tys ps 0).result = .ok vs ∧ 96 ≤ Abi.capacityLimit ∧
      Abi.encodeTupleWithin 96 tys vs (.ofRoot "arg") = .error (.failed e) ∧
      ∃ site ∈ Abi.tupleSites tys vs (.ofRoot "arg"), site.Misfit e := by
  intro ctx tys ps vs e
  have hproper : ∀ ty ∈ tys, ty.Proper := by decide
  have hread : ∀ ty ∈ tys, ∃ raw, Abi.Ty.ofText raw = .ok ty := fun ty hty =>
    ⟨ty.text, (hproper ty hty).ofText_text⟩
  have hchecked : ∀ ty ∈ tys, ty.Checked := by simp [tys, Abi.Ty.Checked]
  have hvs : (ctx.coerceAll "f(address,int8[2])" tys ps 0).result = .ok vs := rfl
  have hcapacity : 96 ≤ Abi.capacityLimit := by decide
  have he : Abi.encodeTupleWithin 96 tys vs (.ofRoot "arg") = .error (.failed e) := rfl
  exact ⟨hread, hchecked, hvs, hcapacity, he,
    (coerceAll_encodes_within_unless_misfit hread hchecked hvs hcapacity (.ofRoot "arg")).1 e he⟩

/-- An empty list where the type says one of a length whose head no memory has room for. It is of the
wrong length, and the encoder does not come to see that. -/
theorem coerceAll_overCapacity_before_wrongLength :
    let ctx : Context Nat := ⟨18, none⟩
    let ty : Abi.Ty := .fixedArray (.uint 256) 18446744073709551615
    let site : Abi.Site := ⟨ty, ⟨"arg", [0]⟩, .array []⟩
    Abi.Ty.ofText "uint256[18446744073709551615]" = .ok ty ∧ ty.Checked ∧
      (ctx.coerceAll "f(uint256[18446744073709551615])" [ty] [.list []] 0).result =
        .ok [.array []] ∧
      Abi.tupleSites [ty] [.array []] (.ofRoot "arg") = [site] ∧ (∃ e, site.WrongLength e) ∧
      Abi.encodeTupleWithin Abi.capacityLimit [ty] [.array []] (.ofRoot "arg") =
        .error .overCapacity :=
  ⟨rfl, trivial, rfl, rfl, ⟨_, .fixedArray (by decide)⟩, rfl⟩

end Context

end CallBundle
