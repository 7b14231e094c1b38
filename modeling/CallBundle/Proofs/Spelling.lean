import Mathlib
import CallBundle.Proofs.Abi.Alike
import CallBundle.Proofs.Compilation
import CallBundle.Proofs.Entity
import CallBundle.Proofs.Hex
import CallBundle.Proofs.Literal

/-!
Parameters that are spelled in different ways. A literal and a text that denotes it are read as values
that their type encodes alike, at every depth. Main statement: `action_agrees_of_respells`, so a call
compiles to the same action, however its parameters are spelled.
-/

namespace CallBundle

variable {σ : Type}

namespace Param

/-- A literal parameter, and another spelling of it where a value of a type is expected. -/
inductive Spells : Abi.Ty → Param σ → Param σ → Prop
  | address {a : Address} {raw : String} :
      Address.ofText? raw = some a → Spells .address (.address a) (.string raw)
  | int {ty : Abi.Ty} {n : Uint256} {z : Int128} :
      ty.isInteger → z.toInt = n.toNat → Spells ty (.uint n) (.int z)
  | decimal {ty : Abi.Ty} (n : Uint256) :
      ty.isInteger → Spells ty (.uint n) (.string (toString n.toNat ++ "e0"))
  | bool (b : Bool) : Spells .bool (.bool b) (.string (toString b))
  | hex {ty : Abi.Ty} {b : Bytes} {mark : Char} {digits : List Char} :
      ty.isByteString → mark = 'x' ∨ mark = 'X' → digits.map Char.toLower = Hex.encode b →
        Spells ty (.bytes b) (.string (String.ofList ('0' :: mark :: digits)))

/-- Parameters that differ in spelling alone, in any number of places at any depth. -/
inductive Respelled : Abi.Ty → Param σ → Param σ → Prop
  | spells {ty : Abi.Ty} {p p' : Param σ} : Spells ty p p' → Respelled ty p p'
  | refl (ty : Abi.Ty) (p : Param σ) : Respelled ty p p
  | symm {ty : Abi.Ty} {p p' : Param σ} : Respelled ty p p' → Respelled ty p' p
  | trans {ty : Abi.Ty} {p p' p'' : Param σ} :
      Respelled ty p p' → Respelled ty p' p'' → Respelled ty p p''
  | item {ty : Abi.Ty} {p p' : Param σ} (before after : List (Param σ)) :
      Respelled ty.itemTy p p' →
        Respelled ty (.list (before ++ p :: after)) (.list (before ++ p' :: after))
  | deferred {ty : Abi.Ty} {value value' : σ → Param σ} (label : String) (next : σ → σ) :
      (∀ s, Respelled ty (value s) (value' s)) →
        Respelled ty (.deferred label value next) (.deferred label value' next)

end Param

namespace Context

/-- Two parameters are read as values that are encoded alike, or refused in the same way, and the
same is asked for them. -/
def ReadsAlike (ctx : Context σ) (ty : Abi.Ty) (p p' : Param σ) : Prop :=
  (ctx.coerce ty p).Agree ty.Alike (ctx.coerce ty p')

variable {ctx : Context σ} {ty : Abi.Ty} {p p' : Param σ}

theorem number_string_decimal (ctx : Context σ) (ty : Abi.Ty) (n : Uint256) :
    ctx.number ty (.string (toString n.toNat ++ "e0")) = pure (.uint n) := by
  rw [number, Param.force_of_not_isDeferred rfl, pure_bind]
  simp only [literal, Amount.readNumber_exponent_zero]
  rfl

theorem coerce_integer (ctx : Context σ) (hty : ty.isInteger) (p : Param σ) :
    ctx.coerce ty p = ctx.number ty p := by
  cases ty with
  | uint | int => rfl
  | _ => cases hty

theorem coerce_byteString (ctx : Context σ) (hty : ty.isByteString) (p : Param σ) :
    ctx.coerce ty p = p.toValue := by
  cases ty with
  | bytes | fixedBytes => rfl
  | _ => cases hty

namespace ReadsAlike

theorem refl (ctx : Context σ) (ty : Abi.Ty) (p : Param σ) : ctx.ReadsAlike ty p p :=
  Run.Agree.refl (.refl ty) _

theorem of_spells (h : Param.Spells ty p p') : ctx.ReadsAlike ty p p' := by
  rw [ReadsAlike]
  cases h with
  | @address a raw haddress =>
    have htext : ctx.coerce .address (.string raw) = pure (.address a) := by
      rw [coerce_address_string, entity_of_ofText? haddress, pure_bind]
    rw [htext]
    exact .pure (.refl _ _)
  | int hty hz =>
    rw [coerce_integer ctx hty, coerce_integer ctx hty]
    exact .pure (.of_integer? hty rfl (congrArg some hz))
  | decimal n hty =>
    rw [coerce_integer ctx hty, coerce_integer ctx hty, number_string_decimal]
    exact .pure (.refl _ _)
  | bool b =>
    cases b with
    | _ => exact .pure (.refl _ _)
  | hex hty hmark hdigits =>
    rw [coerce_byteString ctx hty, coerce_byteString ctx hty]
    exact .pure (.of_blob? hty rfl (Bytes.ofHexText?_spelling hmark hdigits))

theorem list {items items' : List (Param σ)}
    (h : List.Forall₂ (ctx.ReadsAlike ty.itemTy) items items') :
    ctx.ReadsAlike ty (.list items) (.list items') := by
  rw [ReadsAlike]
  obtain hread | ⟨e, hfail, hvariant⟩ := ctx.coerce_list_cases ty
  · rw [hread, hread]
    exact (Run.Agree.mapM h).bind fun vs vs' hvs => .pure (.list hvs)
  · rw [hfail, hfail]
    exact .fail (hvariant items items')

theorem of_respelled (ctx : Context σ) (h : Param.Respelled ty p p') : ctx.ReadsAlike ty p p' := by
  induction h with
  | spells h => exact .of_spells h
  | refl ty p => exact .refl ctx ty p
  | symm _ ih => exact Run.Agree.symm (fun _ _ => .symm) ih
  | trans _ _ ih ih' => exact Run.Agree.trans (fun _ _ _ => .trans) ih ih'
  | @item ty _ _ before after _ ih =>
    have hsame : ∀ items, List.Forall₂ (ctx.ReadsAlike ty.itemTy) items items := fun items =>
      List.forall₂_same.mpr fun p _ => .refl ctx ty.itemTy p
    exact .list (List.rel_append (hsame before) (.cons ih (hsame after)))
  | deferred label next _ ih =>
    rw [ReadsAlike, coerce_deferred, coerce_deferred]
    exact .step ih

end ReadsAlike

theorem coerceAll_agrees (ctx : Context σ) (signature : String) {tys : List Abi.Ty}
    {ps ps' : List (Param σ)} (hlength : ps.length = ps'.length)
    (h : ∀ x ∈ tys.zip (ps.zip ps'), ctx.ReadsAlike x.1 x.2.1 x.2.2) :
    (ctx.coerceAll signature tys ps).Agree (Abi.AllAlike tys) (ctx.coerceAll signature tys ps') := by
  rw [coerceAll, coerceAll, hlength]
  split
  case isFalse => exact .fail rfl
  case isTrue hcount =>
    induction tys generalizing ps ps' with
    | nil => exact .pure .nil
    | cons ty tys ih =>
      obtain ⟨p', ps', rfl⟩ := List.exists_cons_of_length_eq_add_one hcount
      obtain ⟨p, ps, rfl⟩ := List.exists_cons_of_length_eq_add_one hlength
      rw [List.zip_cons_cons, List.zip_cons_cons, List.forall_mem_cons] at h
      rw [List.zip_cons_cons, List.zip_cons_cons, List.mapM_cons, List.mapM_cons]
      exact Run.Agree.bind h.1 fun v v' hv =>
        (ih (Nat.succ.inj hlength) h.2 (Nat.succ.inj hcount)).bind fun vs vs' hvs =>
          .pure (.cons hv hvs)

end Context

namespace Call

/-- The parameters of a call, in another spelling. -/
def Respells (call : Call σ) (ps : List (Param σ)) : Prop :=
  call.params.length = ps.length ∧
    ∀ signature, Signature.ofText call.signature = .ok signature →
      ∀ x ∈ signature.inputs.zip (call.params.zip ps), Param.Respelled x.1 x.2.1 x.2.2

/-- However the parameters of a call are spelled, it asks the same and compiles to the same action, or
fails in the same way. -/
theorem action_agrees_of_respells {call : Call σ} {ps : List (Param σ)} (h : call.Respells ps) :
    call.action.Agree (· = ·) { call with params := ps }.action := by
  obtain ⟨hlength, hparams⟩ := h
  rw [action, action]
  cases hsignature : Signature.ofText call.signature with
  | error e => exact .fail rfl
  | ok signature =>
    have hread := fun x hx =>
      Context.ReadsAlike.of_respelled call.context (hparams signature hsignature x hx)
    simp only [Run.ofExcept_ok, pure_bind, hlength]
    split
    case isFalse => exact .fail rfl
    case isTrue =>
      refine (Run.Agree.refl (fun _ => rfl) _).bind fun target _ htarget => ?_
      refine (call.context.coerceAll_agrees _ hlength hread).bind fun vs vs' hvs => ?_
      refine (Run.Agree.ofExcept hvs.encodeCall).bind fun data _ hdata => ?_
      rw [htarget, hdata]
      exact .refl (fun _ => rfl) _

theorem action_agrees_of_respells_nested :
    let call : Call Nat :=
      { context := ⟨18, some ⟨fun _ n => (.ok .zero, n + 1)⟩⟩
        target := .identifier "alice"
        signature := "f(int16[][],bytes)"
        params := [.list [.list [.uint 7, .int 500]], .bytes [171, 1]] }
    let ps := [.list [.list [.uint 7, .string "500e0"]], .string "0XaB01"]
    call.Respells ps ∧ call.action.Agree (· = ·) { call with params := ps }.action := by
  intro call ps
  have hsignature : (Signature.ofText call.signature).toOption =
      some ⟨"f", [.array (.array (.int 16)), .bytes], call.signature⟩ := by decide +kernel
  have hint : Param.Spells (.int 16) (.uint 500 : Param Nat) (.int 500) := .int rfl rfl
  have hdecimal : Param.Spells (.int 16) (.uint 500 : Param Nat) (.string "500e0") := by
    have htext : toString (500 : Uint256).toNat ++ "e0" = "500e0" := by decide +kernel
    rw [← htext]
    exact .decimal 500 rfl
  have hhex : Param.Spells .bytes (.bytes [171, 1] : Param Nat) (.string "0XaB01") := by
    have htext : String.ofList ['0', 'X', 'a', 'B', '0', '1'] = "0XaB01" := by decide +kernel
    rw [← htext]
    exact .hex rfl (.inr rfl) rfl
  have hrespells : call.Respells ps := by
    refine ⟨rfl, fun signature h => ?_⟩
    rw [h] at hsignature
    cases hsignature
    have hitem : Param.Respelled (.int 16) (.int 500 : Param Nat) (.string "500e0") :=
      (Param.Respelled.spells hint).symm.trans (.spells hdecimal)
    exact List.forall_mem_cons.mpr ⟨.item [] [] (.item [.uint 7] [] hitem),
      List.forall_mem_singleton.mpr (.spells hhex)⟩
  exact ⟨hrespells, action_agrees_of_respells hrespells⟩

end Call

end CallBundle
