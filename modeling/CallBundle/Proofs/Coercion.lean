import CallBundle.Proofs.Abi.Alike
import CallBundle.Proofs.Event
import CallBundle.Proofs.Traversal

/-!
Reading a parameter is walking it: `walks_coerce`. A run walks nodes if it asks what walking them
asks and fails where that fails; such runs are put together as the readers are. What a reader makes
of a parameter by itself is said once, by `Decided`.
-/

namespace CallBundle

variable {σ α β : Type}

namespace Failure

/-- The type that a failure of coercion names. -/
def coercionKind? : Failure → Option String
  | .expectedArray ty _ => some ty.text
  | .invalidNumber _ ty _ => some ty.text
  | .invalidBoolean _ ty => some ty.text
  | .invalidAddress _ ty => some ty.text
  | .unresolvedEntity _ => some "address"
  | _ => none

/-- A failure of coercion that names the type. -/
def Misreads (e : Failure) (ty : Abi.Ty) : Prop := e.isCoercion ∧ e.coercionKind? = some ty.text

end Failure

/-- The types of lists, with the type of what is in them. -/
inductive Abi.Ty.Layer : Abi.Ty → Abi.Ty → Prop
  | array {element : Abi.Ty} : Layer (.array element) element
  | fixedArray {element : Abi.Ty} {length : Nat} : Layer (.fixedArray element length) element

namespace Context

variable {ctx : Context σ}

theorem locates_entity (entity : Entity) (s : σ) :
    ctx.Locates entity s (requests (ctx.entity entity s).events) (ctx.entity entity s).result
      (ctx.entity entity s).state := by
  cases entity with
  | address a => exact .address a s
  | identifier name =>
    rw [Context.entity]
    split
    · rename_i hzero
      exact .zero s hzero
    · rename_i hzero
      cases hdirectory : ctx.directory with
      | none => exact .missing s hzero hdirectory
      | some directory =>
        cases hlookup : directory.lookup name s with
        | mk answer s' =>
          have hask : Run.ask (.lookup name) (directory.lookup name) s =
              ⟨answer, s', [.lookup name]⟩ := by rw [Run.ask, hlookup]
          cases answer with
          | error e =>
            simp only [Run.bind_of_error hask]
            exact .lookup hzero hdirectory hlookup
          | ok a =>
            simp only [Run.bind_of_ok hask]
            exact .lookup hzero hdirectory hlookup

theorem Locates.exists_entity {entity : Entity} {s s' : σ} {trace : List Event}
    {answer : Except Failure Address} (h : ctx.Locates entity s trace answer s') :
    ∃ events, ctx.entity entity s = ⟨answer, s', events⟩ ∧ requests events = trace := by
  obtain ⟨rfl, rfl, rfl⟩ := (ctx.locates_entity entity s).unique h
  exact ⟨_, rfl, rfl⟩

/-- The run asks collaborators just what walking the nodes asks them, and fails where that fails. -/
def Walks (ctx : Context σ) (nodes : List (Visit σ)) (run : Run σ α) : Prop :=
  ∀ s, ctx.Walk nodes s (requests (run s).events) (failure? (run s).result) (run s).state

theorem Walks.pure (a : α) : ctx.Walks [] (Pure.pure a) := .nil

theorem Walks.bind {nodes rest : List (Visit σ)} {run : Run σ α} {next : α → Run σ β}
    (h : ctx.Walks nodes run) (hrest : ∀ a, ctx.Walks rest (next a)) :
    ctx.Walks (nodes ++ rest) (run >>= next) := by
  intro s
  have hs := h s
  rcases hrun : run s with ⟨_ | a, s', events⟩
  · rw [hrun] at hs
    rw [Run.bind_of_error hrun]
    exact hs.append_of_failure rest
  · rw [hrun] at hs
    rw [Run.bind_of_ok hrun, Outcome.after, requests_append]
    exact hs.append (hrest a s')

theorem Walks.map {nodes : List (Visit σ)} {run : Run σ α} (h : ctx.Walks nodes run)
    (f : α → β) : ctx.Walks nodes (run >>= fun a => Pure.pure (f a)) := by
  rw [← List.append_nil nodes]
  exact h.bind fun a => .pure (f a)

theorem Walks.mapM {ι : Type} {node : ι → Visit σ} {run : ι → Run σ α} {items : List ι}
    (h : ∀ item ∈ items, ctx.Walks [node item] (run item)) :
    ctx.Walks (items.map node) (items.mapM run) := by
  induction items with
  | nil => exact .pure []
  | cons item items ih =>
    rw [List.forall_mem_cons] at h
    rw [List.mapM_cons]
    exact h.1.bind fun a => (ih h.2).map (a :: ·)

section

variable {ty : Abi.Ty} {p : Param σ}

theorem Walks.deferred {label : String} {value : σ → Param σ} {next : σ → σ} {run : σ → Run σ α}
    (h : ∀ s, ctx.Walks [(ty, value s)] (run s)) :
    ctx.Walks [(ty, .deferred label value next)] (Run.step (.force label) run next) :=
  fun s => .force rfl (h s (next s))

theorem Walks.list {children : List (Visit σ)} {run : Run σ α}
    (hnode : ctx.node ty p = .list children) (h : ctx.Walks children run) :
    ctx.Walks [(ty, p)] run := by
  intro s
  refine .descend hnode ?_
  rw [List.append_nil]
  exact h s

theorem Walks.entity {entity : Entity} (hnode : ctx.node ty p = .entity entity) :
    ctx.Walks [(ty, p)] (ctx.entity entity) := by
  intro s
  have hlocates := ctx.locates_entity entity s
  cases hresult : (ctx.entity entity s).result with
  | error e => exact .lose hnode (hresult ▸ hlocates)
  | ok a =>
    rw [← List.append_nil (requests _)]
    exact .locate hnode (hresult ▸ hlocates) (.nil _)

theorem Walks.settled (hnode : ctx.node ty p = .settled) (a : α) :
    ctx.Walks [(ty, p)] (Pure.pure a) :=
  fun s => .settle hnode (.nil s)

theorem Walks.refused {e : Failure} (hnode : ctx.node ty p = .refused e) :
    ctx.Walks [(ty, p)] (Run.fail e : Run σ α) :=
  fun _ => .refuse hnode

end

/-- A parameter is forced before it is looked at. -/
theorem Walks.of_concrete {ty : Abi.Ty} {run : Param σ → Run σ α}
    (hdeferred : ∀ label value next,
      run (.deferred label value next) = Run.step (.force label) (fun s => run (value s)) next)
    (h : ∀ p : Param σ, p.isDeferred = false → ctx.Walks [(ty, p)] (run p)) (p : Param σ) :
    ctx.Walks [(ty, p)] (run p) := by
  match p with
  | .deferred label value next =>
    rw [hdeferred]
    exact .deferred fun s => of_concrete hdeferred h (value s)
  | .string _ | .uint _ | .int _ | .bool _ | .address _ | .bytes _ | .list _ => exact h _ rfl

theorem coerce_deferred (ctx : Context σ) (ty : Abi.Ty) (label : String) (value : σ → Param σ)
    (next : σ → σ) :
    ctx.coerce ty (.deferred label value next) =
      Run.step (.force label) (fun s => ctx.coerce ty (value s)) next := by
  cases ty <;> simp only [coerce, number, boolean, Param.force, Param.toValue, Run.step_bind]

theorem node_of_not_isDeferred {ty : Abi.Ty} {p : Param σ} (hp : p.isDeferred = false) :
    ctx.node ty p = ctx.concreteNode ty p := by
  cases p with
  | deferred => cases hp
  | _ => rfl

/-- What reading by itself makes of a parameter that is not deferred: a value with the property, or a
failure that names the type. -/
inductive Decided (ctx : Context σ) (ty : Abi.Ty) (p : Param σ) (P : α → Prop) (run : Run σ α) : Prop
  | settled (a : α) : ctx.node ty p = .settled → P a → run = Pure.pure a → Decided ctx ty p P run
  | refused (e : Failure) :
      ctx.node ty p = .refused e → e.Misreads ty → run = Run.fail e → Decided ctx ty p P run

theorem Decided.walks {ty : Abi.Ty} {p : Param σ} {P : α → Prop} {run : Run σ α}
    (h : ctx.Decided ty p P run) : ctx.Walks [(ty, p)] run := by
  cases h with
  | settled a hnode _ hrun =>
    rw [hrun]
    exact .settled hnode a
  | refused e hnode _ hrun =>
    rw [hrun]
    exact .refused hnode

section

variable {ty element : Abi.Ty} {p : Param σ}

theorem literal_eq_error {raw : String} {e : Failure} (h : ctx.literal ty raw = .error e) :
    e.Misreads ty := by
  rw [literal] at h
  cases hread : Amount.readNumber raw ctx.precision with
  | ok n =>
    rw [hread] at h
    cases h
  | error fault =>
    rw [hread] at h
    cases h
    exact ⟨rfl, rfl⟩

/-- Reading a number yields an integer. -/
theorem decided_number (hp : p.isDeferred = false) (hnode : ctx.node ty p = ctx.numberNode ty p) :
    ctx.Decided ty p (fun v => (∃ n, v = .uint n) ∨ ∃ n, v = .int n) (ctx.number ty p) := by
  rw [number, Param.force_of_not_isDeferred hp, pure_bind]
  cases p with
  | deferred => cases hp
  | uint n => exact .settled _ hnode (.inl ⟨n, rfl⟩) rfl
  | int n => exact .settled _ hnode (.inr ⟨n, rfl⟩) rfl
  | string raw =>
    rw [numberNode] at hnode
    simp only
    cases hliteral : ctx.literal ty raw with
    | error e =>
      rw [hliteral] at hnode
      exact .refused e hnode (literal_eq_error hliteral) rfl
    | ok n =>
      rw [hliteral] at hnode
      exact .settled _ hnode (.inl ⟨n, rfl⟩) rfl
  | bool | address | bytes | list => exact .refused _ hnode ⟨rfl, rfl⟩ rfl

theorem boolean_string (ty : Abi.Ty) (raw : String) :
    (boolean ty (.string raw) : Run σ Bool) =
      if raw = "true" then Pure.pure true
      else if raw = "false" then Pure.pure false
      else Run.fail (.invalidBoolean (Text.quoted raw) ty) := by
  rw [boolean, Param.force_of_not_isDeferred rfl, pure_bind]
  split
  · contradiction
  · rename_i heq
    cases heq
    rfl
  · rename_i heq
    cases heq
    rfl
  · rename_i htrue hfalse
    rw [if_neg fun h => htrue (congrArg _ h), if_neg fun h => hfalse (congrArg _ h)]
    rfl

theorem decided_boolean (hp : p.isDeferred = false) :
    ctx.Decided .bool p (fun _ => True) (boolean .bool p) := by
  have hnode : ctx.node .bool p = booleanNode p := node_of_not_isDeferred hp
  cases p with
  | deferred => cases hp
  | bool b => exact .settled b hnode trivial rfl
  | string raw =>
    rw [boolean_string]
    by_cases htrue : raw = "true"
    · rw [if_pos htrue]
      exact .settled true (hnode.trans (if_pos (.inl htrue))) trivial rfl
    · rw [if_neg htrue]
      by_cases hfalse : raw = "false"
      · rw [if_pos hfalse]
        exact .settled false (hnode.trans (if_pos (.inr hfalse))) trivial rfl
      · rw [if_neg hfalse]
        exact .refused _ (hnode.trans (if_neg (not_or.mpr ⟨htrue, hfalse⟩))) ⟨rfl, rfl⟩ rfl
  | uint | int | address | bytes | list => exact .refused _ hnode ⟨rfl, rfl⟩ rfl

theorem coerce_address_string (ctx : Context σ) (raw : String) :
    ctx.coerce .address (.string raw) =
      ctx.entity (.ofText raw) >>= fun a => Pure.pure (Abi.Value.address a) := by
  rw [coerce, Param.force_of_not_isDeferred rfl, pure_bind]

/-- Where an address is expected, all but texts is read without a look-up. -/
theorem address_cases (ctx : Context σ) (hp : p.isDeferred = false) :
    (∃ raw, p = .string raw) ∨
      ctx.Decided .address p (fun v => ∃ a, v = .address a) (ctx.coerce .address p) := by
  rw [coerce, Param.force_of_not_isDeferred hp, pure_bind]
  cases p with
  | deferred => cases hp
  | address a => exact .inr (.settled _ rfl ⟨a, rfl⟩ rfl)
  | string raw => exact .inl ⟨raw, rfl⟩
  | uint | int | bool | bytes | list => exact .inr (.refused _ rfl ⟨rfl, rfl⟩ rfl)

theorem walks_address (hp : p.isDeferred = false) :
    ctx.Walks [(.address, p)] (ctx.coerce .address p) := by
  obtain ⟨raw, rfl⟩ | hdecided := ctx.address_cases hp
  · rw [coerce_address_string]
    exact (Walks.entity rfl).map _
  · exact hdecided.walks

theorem coerce_list (hlayer : ty.Layer element) (items : List (Param σ)) :
    ctx.coerce ty (.list items) =
      items.mapM (ctx.coerce element) >>= fun vs => Pure.pure (Abi.Value.array vs) := by
  cases hlayer with
  | array | fixedArray => rw [coerce, Param.force_of_not_isDeferred rfl, pure_bind]

/-- A list is read item by item, or not at all. -/
theorem coerce_list_cases (ctx : Context σ) (ty : Abi.Ty) :
    (∀ items, ctx.coerce ty (.list items) =
      items.mapM (ctx.coerce ty.itemTy) >>= fun vs => Pure.pure (Abi.Value.array vs)) ∨
    ∃ e : List (Param σ) → Failure, (∀ items, ctx.coerce ty (.list items) = Run.fail (e items)) ∧
      ∀ items items', (e items).SameVariant (e items') := by
  cases ty with
  | array element => exact .inl (coerce_list .array)
  | fixedArray element length => exact .inl (coerce_list .fixedArray)
  | bytes | fixedBytes | string =>
    refine .inl fun items => ?_
    rw [coerce, Param.toValue, Param.toValues_eq_mapM]
    rfl
  | address | bool | uint | int => exact .inr ⟨_, fun _ => rfl, fun _ _ => rfl⟩

/-- Where a list is expected, nothing but a list is read. -/
theorem layer_cases (ctx : Context σ) (hlayer : ty.Layer element) (hp : p.isDeferred = false)
    (P : Abi.Value → Prop) :
    (∃ items, p = .list items) ∨ ctx.Decided ty p P (ctx.coerce ty p) := by
  cases hlayer with
  | array | fixedArray =>
    rw [coerce, Param.force_of_not_isDeferred hp, pure_bind]
    cases p with
    | deferred => cases hp
    | list items => exact .inl ⟨items, rfl⟩
    | _ => exact .inr (.refused _ rfl ⟨rfl, rfl⟩ rfl)

/-- What arrays of both kinds do to a parameter. -/
theorem walks_layer (hlayer : ty.Layer element) (hp : p.isDeferred = false)
    (h : ∀ p, ctx.Walks [(element, p)] (ctx.coerce element p)) :
    ctx.Walks [(ty, p)] (ctx.coerce ty p) := by
  obtain ⟨items, rfl⟩ | hdecided := ctx.layer_cases hlayer hp fun _ => True
  · have hnode : ctx.node ty (.list items) = .list (items.map (element, ·)) := by
      cases hlayer with
      | array | fixedArray => rfl
    rw [coerce_list hlayer]
    exact .list hnode ((Walks.mapM fun item _ => h item).map _)
  · exact hdecided.walks

end

mutual

theorem walks_toValue {ty : Abi.Ty} (hty : ∀ p : Param σ, ctx.concreteNode ty p = plainNode ty p) :
    (p : Param σ) → ctx.Walks [(ty, p)] p.toValue
  | .deferred _ value _ => .deferred fun s => walks_toValue hty (value s)
  | .list items => by
    rw [Param.toValue]
    exact .list (hty (.list items)) ((walks_toValues hty items).map _)
  | .string _ | .uint _ | .int _ | .bool _ | .address _ | .bytes _ => by
    rw [Param.toValue]
    refine .settled ?_ _
    exact hty _

theorem walks_toValues {ty : Abi.Ty} (hty : ∀ p : Param σ, ctx.concreteNode ty p = plainNode ty p) :
    (ps : List (Param σ)) → ctx.Walks (ps.map (ty, ·)) (Param.toValues ps)
  | [] => .pure []
  | p :: ps => (walks_toValue hty p).bind fun v => (walks_toValues hty ps).map (v :: ·)

end

/-- Reading a parameter visits it, and what it holds before what comes after it. -/
theorem walks_coerce (ctx : Context σ) (ty : Abi.Ty) (p : Param σ) :
    ctx.Walks [(ty, p)] (ctx.coerce ty p) := by
  induction ty generalizing p with
  | array element ih =>
    exact .of_concrete (ctx.coerce_deferred _) (fun p hp => walks_layer .array hp ih) p
  | fixedArray element length ih =>
    exact .of_concrete (ctx.coerce_deferred _) (fun p hp => walks_layer .fixedArray hp ih) p
  | address => exact .of_concrete (ctx.coerce_deferred _) (fun p hp => walks_address hp) p
  | uint bits | int bits =>
    refine .of_concrete (ctx.coerce_deferred _) (fun p hp => ?_) p
    exact (decided_number hp (node_of_not_isDeferred hp)).walks
  | bool =>
    refine .of_concrete (ctx.coerce_deferred _) (fun p hp => ?_) p
    exact (decided_boolean hp).walks.map _
  | bytes | fixedBytes | string => exact walks_toValue (fun _ => rfl) p

theorem walks_mapM_coerce (ctx : Context σ) (nodes : List (Visit σ)) :
    ctx.Walks nodes (nodes.mapM fun x => ctx.coerce x.1 x.2) := by
  -- `Walks.mapM` reads off a list of items, and here the items are the visits themselves.
  conv => arg 2; rw [← List.map_id nodes]
  exact .mapM fun x _ => ctx.walks_coerce x.1 x.2

theorem walks_coerceAll (ctx : Context σ) (signature : String) {tys : List Abi.Ty}
    {ps : List (Param σ)} (h : ps.length = tys.length) :
    ctx.Walks (tys.zip ps) (ctx.coerceAll signature tys ps) := by
  rw [coerceAll, if_pos h]
  exact ctx.walks_mapM_coerce _

theorem Walk.exists_coerceAll {tys : List Abi.Ty} {ps : List (Param σ)} {s s' : σ}
    {trace : List Event} {e? : Option Failure} (h : ctx.Walk (tys.zip ps) s trace e? s')
    (hlength : ps.length = tys.length) (signature : String) :
    ∃ result events, ctx.coerceAll signature tys ps s = ⟨result, s', events⟩ ∧
      failure? result = e? ∧ requests events = trace := by
  obtain ⟨rfl, rfl, rfl⟩ := (ctx.walks_coerceAll signature hlength s).unique h
  exact ⟨_, _, rfl, rfl, rfl⟩

end Context

end CallBundle
