import Mathlib
import CallBundle.Proofs.Typing

/-!
Where failures to read a parameter come from. Lists are read from left to right, so that a failure
comes from the first position, down through the lists, that cannot be read by itself; it names the
type there, or is what the directory answered there. Main statements: `coerce_eq_error_iff` and
`coerce_fails_at_first_refusal`.
-/

namespace CallBundle

variable {σ α : Type}

namespace Param

mutual

/-- A parameter always is some value. -/
theorem exists_result_toValue : (p : Param σ) → (s : σ) → ∃ v, (p.toValue s).result = .ok v
  | .deferred _ value next, s => exists_result_toValue (value s) (next s)
  | .list items, s => by
    obtain ⟨vs, hvs⟩ := exists_result_toValues items s
    rw [toValue]
    exact ⟨.array vs, Run.result_bind_eq_ok.mpr ⟨vs, hvs, rfl⟩⟩
  | .string _, _ | .uint _, _ | .int _, _ | .bool _, _ | .address _, _ | .bytes _, _ => ⟨_, rfl⟩

theorem exists_result_toValues :
    (ps : List (Param σ)) → (s : σ) → ∃ vs, (toValues ps s).result = .ok vs
  | [], _ => ⟨[], rfl⟩
  | p :: ps, s => by
    obtain ⟨v, hv⟩ := exists_result_toValue p s
    obtain ⟨vs, hvs⟩ := exists_result_toValues ps (p.toValue s).state
    rw [toValues]
    exact ⟨v :: vs, Run.result_bind_eq_ok.mpr
      ⟨v, hv, Run.result_bind_eq_ok.mpr ⟨vs, hvs, rfl⟩⟩⟩

end

end Param

namespace Context

variable {ctx : Context σ}

/-- The way down from a parameter to one inside it, forced as it is reached, by its index in each
list. All to the left of the way is read, and the state is the one that this leaves. -/
inductive Reaches (ctx : Context σ) :
    Abi.Ty → Param σ → σ → List Nat → Abi.Ty → Param σ → σ → Prop
  | here {ty : Abi.Ty} {p : Param σ} {s : σ} : Reaches ctx ty p s [] ty p s
  | force {ty inner : Abi.Ty} {label : String} {value : σ → Param σ} {next : σ → σ} {s s' : σ}
      {path : List Nat} {q : Param σ} :
      Reaches ctx ty (value s) (next s) path inner q s' →
        Reaches ctx ty (.deferred label value next) s path inner q s'
  | item {ty element inner : Abi.Ty} {before after : List (Param σ)} {p q : Param σ} {s s' : σ}
      {vs : List Abi.Value} {path : List Nat} :
      ty.Layer element → (before.mapM (ctx.coerce element) s).result = .ok vs →
      Reaches ctx element p (before.mapM (ctx.coerce element) s).state path inner q s' →
        Reaches ctx ty (.list (before ++ p :: after)) s (before.length :: path) inner q s'

/-- A parameter with nothing further down: it is forced, and no list where one is expected. -/
def Bottom (ty : Abi.Ty) (p : Param σ) : Prop :=
  p.isDeferred = false ∧ ∀ element items, ty.Layer element → p ≠ .list items

/-- Why a parameter by itself is not read: it does not read as its type, which the failure names, or
it is a name for which the directory failed. -/
inductive Refuses (ctx : Context σ) : Abi.Ty → Param σ → σ → Failure → Prop
  | misread {ty : Abi.Ty} {p : Param σ} {s : σ} {e : Failure} :
      e.Misreads ty → Refuses ctx ty p s e
  | lookup {raw name : String} {directory : Directory σ} {s s' : σ} {e : Failure} :
      Entity.ofText raw = .identifier name → name ∉ Entity.zeroNames →
      ctx.directory = some directory → directory.lookup name s = (.error e, s') →
        Refuses ctx .address (.string raw) s e

/-- A look-up of some name in some state fails with `e`. -/
def Answers (ctx : Context σ) (e : Failure) : Prop :=
  ∃ directory name s s', ctx.directory = some directory ∧ directory.lookup name s = (.error e, s')

theorem result_coerce_list_eq_error_iff {ty element : Abi.Ty} (h : ty.Layer element)
    {items : List (Param σ)} {s : σ} {e : Failure} :
    (ctx.coerce ty (.list items) s).result = .error e ↔
      (items.mapM (ctx.coerce element) s).result = .error e := by
  rw [coerce_list h, Run.result_bind_pure_eq_error]

theorem Reaches.result_eq_error {ty inner : Abi.Ty} {p q : Param σ} {s s' : σ} {path : List Nat}
    {e : Failure} (h : ctx.Reaches ty p s path inner q s')
    (he : (ctx.coerce inner q s').result = .error e) : (ctx.coerce ty p s).result = .error e := by
  induction h with
  | here => exact he
  | force _ ih =>
    rw [coerce_deferred]
    exact ih he
  | item hlayer hbefore _ ih =>
    rw [result_coerce_list_eq_error_iff hlayer, Run.result_mapM_eq_error_iff]
    exact ⟨_, _, _, _, rfl, hbefore, ih he⟩

section

variable {ty element : Abi.Ty} {p : Param σ} {s : σ} {e : Failure}

theorem Decided.refuses {P : α → Prop} {run : Run σ α} (hdecided : ctx.Decided ty p P run)
    (h : (run s).result = .error e) : ctx.Refuses ty p s e := by
  cases hdecided with
  | settled a _ _ hrun =>
    rw [hrun] at h
    cases h
  | refused e' _ hmisreads hrun =>
    rw [hrun] at h
    cases h
    exact .misread hmisreads

theorem refuses_of_layer (hlayer : ty.Layer element) (hp : Bottom ty p)
    (h : (ctx.coerce ty p s).result = .error e) : ctx.Refuses ty p s e := by
  obtain ⟨items, rfl⟩ | hdecided := ctx.layer_cases hlayer hp.1 fun _ => True
  · exact absurd rfl (hp.2 element items hlayer)
  · exact hdecided.refuses h

theorem refuses_of_address (hp : p.isDeferred = false)
    (h : (ctx.coerce .address p s).result = .error e) : ctx.Refuses .address p s e := by
  obtain ⟨raw, rfl⟩ | hdecided := ctx.address_cases hp
  · rw [coerce_address_string, Run.result_bind_pure_eq_error] at h
    obtain ⟨trace, s', hlocates⟩ : ∃ trace s', ctx.Locates (.ofText raw) s trace (.error e) s' :=
      ⟨_, _, h ▸ ctx.locates_entity (.ofText raw) s⟩
    generalize hname : Entity.ofText raw = entity at hlocates
    cases hlocates with
    | missing => exact .misread ⟨rfl, rfl⟩
    | lookup hzero hdirectory hlookup => exact .lookup hname hzero hdirectory hlookup
  · exact hdecided.refuses h

end

/-- A parameter with nothing further down is not read for a reason of its own. -/
theorem refuses_of_bottom {ty : Abi.Ty} {p : Param σ} {s : σ} {e : Failure} (hp : Bottom ty p)
    (h : (ctx.coerce ty p s).result = .error e) : ctx.Refuses ty p s e := by
  cases ty with
  | array element => exact refuses_of_layer .array hp h
  | fixedArray element length => exact refuses_of_layer .fixedArray hp h
  | address => exact refuses_of_address hp.1 h
  | uint | int => exact (decided_number hp.1 (node_of_not_isDeferred hp.1)).refuses h
  | bool => exact (decided_boolean hp.1).refuses (Run.result_bind_pure_eq_error.mp h)
  | bytes | fixedBytes | string =>
    obtain ⟨v, hv⟩ := p.exists_result_toValue s
    exact nomatch hv.symm.trans h

/-- Some way down leads to a parameter with nothing further down that fails with `e`. -/
def FailsBelow (ctx : Context σ) (ty : Abi.Ty) (p : Param σ) (s : σ) (e : Failure) : Prop :=
  ∃ path inner q s', ctx.Reaches ty p s path inner q s' ∧ Bottom inner q ∧
    (ctx.coerce inner q s').result = .error e

section

variable {ty element : Abi.Ty} {p : Param σ} {s : σ} {e : Failure}

theorem FailsBelow.of_bottom (hp : Bottom ty p) (h : (ctx.coerce ty p s).result = .error e) :
    ctx.FailsBelow ty p s e :=
  ⟨[], ty, p, s, .here, hp, h⟩

theorem FailsBelow.of_concrete
    (hconcrete : ∀ p, p.isDeferred = false → ∀ s, (ctx.coerce ty p s).result = .error e →
      ctx.FailsBelow ty p s e)
    (h : (ctx.coerce ty p s).result = .error e) : ctx.FailsBelow ty p s e := by
  induction p using Param.deferredInduction generalizing s with
  | hconcrete p hp => exact hconcrete p hp s h
  | hdeferred label value next ih =>
    rw [coerce_deferred] at h
    obtain ⟨path, inner, q, s', hreaches, hq⟩ := ih s h
    exact ⟨path, inner, q, s', .force hreaches, hq⟩

theorem FailsBelow.of_layer (hlayer : ty.Layer element)
    (ih : ∀ {p s}, (ctx.coerce element p s).result = .error e → ctx.FailsBelow element p s e)
    (h : (ctx.coerce ty p s).result = .error e) : ctx.FailsBelow ty p s e := by
  refine .of_concrete (fun p hp s h => ?_) h
  by_cases hlist : ∃ items, p = .list items
  case pos =>
    obtain ⟨items, rfl⟩ := hlist
    rw [result_coerce_list_eq_error_iff hlayer, Run.result_mapM_eq_error_iff] at h
    obtain ⟨before, p, after, vs, rfl, hbefore, he⟩ := h
    obtain ⟨path, inner, q, s', hreaches, hq⟩ := ih he
    exact ⟨before.length :: path, inner, q, s', .item hlayer hbefore hreaches, hq⟩
  case neg => exact .of_bottom ⟨hp, fun _ items _ heq => hlist ⟨items, heq⟩⟩ h

theorem Refuses.origin (h : ctx.Refuses ty p s e) : e.isCoercion ∨ ctx.Answers e := by
  cases h with
  | misread hmisreads => exact .inl hmisreads.1
  | lookup _ _ hdirectory hlookup => exact .inr ⟨_, _, _, _, hdirectory, hlookup⟩

/-- Reading fails exactly where something further down, or the parameter itself, is not read. -/
theorem coerce_eq_error_iff :
    (ctx.coerce ty p s).result = .error e ↔ ctx.FailsBelow ty p s e := by
  constructor
  · intro h
    induction ty generalizing p s with
    | array element ih => exact .of_layer .array ih h
    | fixedArray element length ih => exact .of_layer .fixedArray ih h
    | _ => exact .of_concrete (fun p hp s => .of_bottom ⟨hp, by rintro _ _ ⟨⟩⟩) h
  · rintro ⟨path, inner, q, s', hreaches, -, he⟩
    exact hreaches.result_eq_error he

end

theorem failure_origin {ty : Abi.Ty} {p : Param σ} {s : σ} {e : Failure}
    (h : (ctx.coerce ty p s).result = .error e) : e.isCoercion ∨ ctx.Answers e := by
  obtain ⟨_, _, _, _, -, hbottom, he⟩ := coerce_eq_error_iff.mp h
  exact (refuses_of_bottom hbottom he).origin

theorem Locates.failure_origin {entity : Entity} {s s' : σ} {trace : List Event} {e : Failure}
    (h : ctx.Locates entity s trace (.error e) s') : e.isCoercion ∨ ctx.Answers e := by
  cases h with
  | missing => exact .inl rfl
  | lookup _ hdirectory hlookup => exact .inr ⟨_, _, _, _, hdirectory, hlookup⟩

/-- What a walk fails with comes from a parameter that does not read as its type, or from the
directory. -/
theorem Walk.failure_origin {nodes : List (Visit σ)} {s s' : σ} {trace : List Event} {e : Failure}
    (h : ctx.Walk nodes s trace (some e) s') : e.isCoercion ∨ ctx.Answers e := by
  obtain ⟨-, hresult, -⟩ := (ctx.walks_mapM_coerce nodes s).unique h
  obtain ⟨_, _, _, _, -, -, he⟩ :=
    Run.result_mapM_eq_error_iff.mp (failure?_eq_some_iff.mp hresult)
  exact Context.failure_origin he

/-- A parameter that is not read fails as the first position does that is not read by itself. -/
theorem coerce_fails_at_first_refusal {ty : Abi.Ty} {p : Param σ} {s : σ} {e : Failure}
    (h : (ctx.coerce ty p s).result = .error e) :
    ∃ path inner q s', ctx.Reaches ty p s path inner q s' ∧ Bottom inner q ∧
      (ctx.coerce inner q s').result = .error e ∧ ctx.Refuses inner q s' e := by
  obtain ⟨path, inner, q, s', hreaches, hbottom, he⟩ := coerce_eq_error_iff.mp h
  exact ⟨path, inner, q, s', hreaches, hbottom, he, refuses_of_bottom hbottom he⟩

theorem coerce_fails_at_first_refusal_deferred :
    let ctx : Context Nat :=
      ⟨18, some ⟨fun _ n =>
        (if n < 2 then .ok .zero else .error (.submission (.refused "offline")), n + 1)⟩⟩
    let ty : Abi.Ty := .array (.fixedArray .address 2)
    let p : Param Nat :=
      .list
        [ .list [.string "alice", .address .zero],
          .deferred "pair"
            (fun _ => .list [.string "bob", .deferred "name" (fun _ => .string "carol") id]) id ]
    let e : Failure := .submission (.refused "offline")
    (ctx.coerce ty p 0).result = .error e ∧
      ∃ path inner q s', ctx.Reaches ty p 0 path inner q s' ∧ Bottom inner q ∧
        (ctx.coerce inner q s').result = .error e ∧ ctx.Refuses inner q s' e := by
  intro ctx ty p e
  have h : (ctx.coerce ty p 0).result = .error e := rfl
  exact ⟨h, coerce_fails_at_first_refusal h⟩

end Context

end CallBundle
