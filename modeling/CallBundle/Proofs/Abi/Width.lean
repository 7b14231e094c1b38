import Mathlib
import CallBundle.Proofs.Abi.Position

/-!
Types whose values have no place in a word, in types built by hand. The width of a scalar type is
looked at where a value of it is encoded, so that it goes unseen where the lists hold none. Main
statement: `encodeTuple_unencodable_iff_hollow`.
-/

namespace CallBundle.Abi

/-- What a type is made of: itself and, for arrays, what the type of their elements is made of. -/
inductive Ty.Contains : Ty → Ty → Prop
  | self (ty : Ty) : Contains ty ty
  | array {element inner : Ty} : Contains element inner → Contains (.array element) inner
  | fixedArray {element inner : Ty} {length : Nat} :
      Contains element inner → Contains (.fixedArray element length) inner

/-- Lists as deep and as long as a type says, with nothing at the bottom: all that stands in them
is lists, and the innermost are empty. -/
inductive Hollow : Ty → Value → Prop
  | array {element : Ty} {vs : List Value} :
      (∀ v ∈ vs, Hollow element v) → Hollow (.array element) (.array vs)
  | fixedArray {element : Ty} {length : Nat} {vs : List Value} :
      vs.length = length → (∀ v ∈ vs, Hollow element v) →
        Hollow (.fixedArray element length) (.array vs)

theorem Ty.Unencodable.not_fits {ty : Ty} (h : ty.Unencodable) (v : Value) : ¬ Fits ty v := by
  intro hfits
  cases h with
  | uint hwidth => cases hfits with | uint h => exact hwidth h
  | int hwidth => cases hfits with | int h => exact hwidth h
  | fixedBytes hwidth => cases hfits with | fixedBytes h => exact hwidth h

theorem Ty.Unencodable.not_hollow {ty : Ty} (h : ty.Unencodable) (v : Value) : ¬ Hollow ty v := by
  intro hhollow
  cases h with
  | uint | int | fixedBytes => cases hhollow

/-- Of a type that contains one of a bad width, the values that fit are the hollow ones. -/
theorem Ty.Contains.fits_iff_hollow {ty inner : Ty} (h : ty.Contains inner)
    (hinner : inner.Unencodable) (v : Value) : Fits ty v ↔ Hollow ty v := by
  induction h generalizing v with
  | self ty => exact iff_of_false (hinner.not_fits v) (hinner.not_hollow v)
  | array _ ih =>
    constructor
    · intro hfits
      cases hfits with | array hvs => exact .array fun w hw => (ih hinner w).mp (hvs w hw)
    · intro hhollow
      cases hhollow with | array hvs => exact .array fun w hw => (ih hinner w).mpr (hvs w hw)
  | fixedArray _ ih =>
    constructor
    · intro hfits
      cases hfits with | fixedArray hlength hvs =>
        exact .fixedArray hlength fun w hw => (ih hinner w).mp (hvs w hw)
    · intro hhollow
      cases hhollow with | fixedArray hlength hvs =>
        exact .fixedArray hlength fun w hw => (ih hinner w).mpr (hvs w hw)

/-- Where a type contains one of a bad width, nothing but hollow values is encoded, by itself or
among others. -/
theorem encodeTuple_unencodable_iff_hollow {ty inner : Ty} (h : ty.Contains inner)
    (hinner : inner.Unencodable) (v : Value) (place : Place) :
    ((∃ out, encodeTuple [ty] [v] place = .ok out) ↔ Hollow ty v) ∧
      ∀ tys vs, (ty, v) ∈ tys.zip vs → (∃ out, encodeTuple tys vs place = .ok out) →
        Hollow ty v := by
  have hfits := h.fits_iff_hollow hinner v
  constructor
  · rw [encodeTuple_succeeds_iff_fits, ← hfits]
    simp
  · intro tys vs hmem hout
    obtain ⟨-, hall⟩ := (encodeTuple_succeeds_iff_fits tys vs place).mp hout
    exact hfits.mp (hall ty v hmem)

theorem encodeTuple_unencodable_iff_hollow_nested :
    (Ty.fixedArray (.array (.uint 7)) 2).Contains (.uint 7) ∧ (Ty.uint 7).Unencodable ∧
      (∃ out, encodeTuple [.fixedArray (.array (.uint 7)) 2] [.array [.array [], .array []]]
        (.ofRoot "arg") = .ok out) ∧
      ¬ ∃ out, encodeTuple [.fixedArray (.array (.uint 7)) 2] [.array [.array [], .array [.uint 1]]]
        (.ofRoot "arg") = .ok out := by
  have hty : (Ty.fixedArray (.array (.uint 7)) 2).Contains (.uint 7) :=
    .fixedArray (.array (.self _))
  have hwidth : (Ty.uint 7).Unencodable := .uint (by decide)
  refine ⟨hty, hwidth, ?_, ?_⟩
  · have hempty : Hollow (.array (.uint 7)) (.array []) := .array nofun
    apply (encodeTuple_unencodable_iff_hollow hty hwidth _ _).1.mpr
    exact .fixedArray rfl (by simpa using hempty)
  · rw [(encodeTuple_unencodable_iff_hollow hty hwidth _ _).1]
    intro hhollow
    cases hhollow with | fixedArray _ hvs =>
      cases hvs (.array [.uint 1]) (by simp) with | array hitems =>
        exact hwidth.not_hollow (.uint 1) (hitems _ List.mem_cons_self)

/-- A list with nothing in it is encoded, though its elements could not be. -/
theorem encodeTuple_empty_uint7 :
    (Ty.array (.uint 7)).Contains (.uint 7) ∧ (Ty.uint 7).Unencodable ∧
      encodeTuple [.array (.uint 7)] [.array []] (.ofRoot "arg") =
        .ok (wordOfNat 32 ++ wordOfNat 0) :=
  ⟨.array (.self _), .uint (by decide), rfl⟩

end CallBundle.Abi
