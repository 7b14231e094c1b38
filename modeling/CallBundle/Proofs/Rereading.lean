import Mathlib
import CallBundle.Proofs.Typing

/-!
Reading a value again. What has been read as a value of a type is, taken as a parameter, read as the
same value, against any directory and at any precision. Main statement: `coerce_idempotent`, so
names are looked up and literals scaled once only.
-/

namespace CallBundle

variable {σ τ : Type}

namespace Param

mutual

/-- A value as the parameter that it is. -/
def ofValue : Abi.Value → Param σ
  | .address a => .address a
  | .uint n => .uint n
  | .int n => .int n
  | .bool b => .bool b
  | .bytes b => .bytes b
  | .string s => .string s
  | .array vs => .list (ofValues vs)

def ofValues : List Abi.Value → List (Param σ)
  | [] => []
  | v :: vs => ofValue v :: ofValues vs

end

theorem ofValues_eq_map (vs : List Abi.Value) :
    (ofValues vs : List (Param σ)) = vs.map ofValue := by
  induction vs with
  | nil => rfl
  | cons v vs ih => rw [ofValues, ih, List.map_cons]

mutual

theorem toValue_ofValue : (v : Abi.Value) → (ofValue v : Param σ).toValue = pure v
  | .array vs => by
    rw [ofValue, toValue, toValues_ofValues, pure_bind]
  | .address _ | .uint _ | .int _ | .bool _ | .bytes _ | .string _ => rfl

theorem toValues_ofValues :
    (vs : List Abi.Value) → toValues (ofValues vs : List (Param σ)) = pure vs
  | [] => rfl
  | v :: vs => by
    rw [ofValues, toValues, toValue_ofValue, pure_bind, toValues_ofValues, pure_bind]

end

end Param

/-- Where every item is read as itself, so is the list of them. -/
theorem mapM_eq_pure {run : Param σ → Run σ Abi.Value} {vs : List Abi.Value}
    (h : ∀ v ∈ vs, run (.ofValue v) = pure v) : (vs.map Param.ofValue).mapM run = pure vs := by
  induction vs with
  | nil => rfl
  | cons v vs ih =>
    rw [List.forall_mem_cons] at h
    rw [List.map_cons, List.mapM_cons, h.1, pure_bind, ih h.2, pure_bind]

namespace Context

theorem coerce_ofValue_of_keeps {ty : Abi.Ty} {v : Abi.Value} (h : ty.Keeps v) (ctx : Context σ) :
    ctx.coerce ty (.ofValue v) = pure v := by
  induction h with
  | address | bool => rfl
  | @uint ty n hty | @int ty n hty =>
    cases ty with
    | uint | int => rfl
    | _ => cases hty
  | @byteString ty v hty =>
    cases ty with
    | bytes | fixedBytes => exact Param.toValue_ofValue v
    | _ => cases hty
  | string v => exact Param.toValue_ofValue v
  | array hlayer _ ih =>
    rw [Param.ofValue, Param.ofValues_eq_map, coerce_list hlayer, mapM_eq_pure ih, pure_bind]

/-- What a parameter has been read as is read as itself in every context, and nothing is asked. -/
theorem coerce_idempotent {ctx : Context σ} {ty : Abi.Ty} {p : Param σ} {s : σ} {v : Abi.Value}
    (h : (ctx.coerce ty p s).result = .ok v) (ctx' : Context τ) :
    ctx'.coerce ty (.ofValue v) = pure v :=
  coerce_ofValue_of_keeps (ctx.yields_keeps ty p s v h) ctx'

theorem coerce_idempotent_nested :
    let ctx : Context Nat := ⟨6, some ⟨fun _ n => (.ok .zero, n + 1)⟩⟩
    let ctx' : Context Unit := ⟨0, none⟩
    let ty : Abi.Ty := .array (.fixedArray (.uint 64) 2)
    let p : Param Nat :=
      .list [.list [.string "1.5", .deferred "days" (fun _ => .string "2e0d") id], .list [.int 7]]
    let v : Abi.Value := .array [.array [.uint 1500000, .uint 172800], .array [.int 7]]
    (ctx.coerce ty p 0).result = .ok v ∧ ctx'.coerce ty (.ofValue v) = pure v := by
  intro ctx ctx' ty p v
  have h : (ctx.coerce ty p 0).result = .ok v := rfl
  exact ⟨h, coerce_idempotent h ctx'⟩

end Context

end CallBundle
