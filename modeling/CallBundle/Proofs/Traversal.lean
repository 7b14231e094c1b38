import CallBundle.Coercion

/-!
The order in which collaborators are asked while parameters are read. What a parameter comes to at a
type is said in one table, `node`, and the traversal is a relation on the stack of what is still to
be visited, `Walk`. Main statements: `Walk.append` and `Walk.unique`.
-/

namespace CallBundle

variable {σ : Type}

/-- A parameter, and the type that is expected of it. -/
abbrev Visit (σ : Type) : Type := Abi.Ty × Param σ

/-- What is found when a parameter is visited. -/
inductive Node (σ : Type)
  | deferred (label : String) (value : σ → Param σ) (next : σ → σ)
  | list (children : List (Visit σ))
  | entity (entity : Entity)
  | settled
  | refused (e : Failure)

namespace Context

def listNode (ty element : Abi.Ty) : Param σ → Node σ
  | .list items => .list (items.map (element, ·))
  | p => .refused (.expectedArray ty p.shown)

def addressNode : Param σ → Node σ
  | .address _ => .settled
  | .string raw => .entity (.ofText raw)
  | p => .refused (.invalidAddress p.shown .address)

def numberNode (ctx : Context σ) (ty : Abi.Ty) : Param σ → Node σ
  | .uint _ | .int _ => .settled
  | .string raw => match ctx.literal ty raw with
    | .ok _ => .settled
    | .error e => .refused e
  | p => .refused (.invalidNumber p.shown ty .notNumeric)

def booleanNode : Param σ → Node σ
  | .bool _ => .settled
  | .string raw =>
    if raw = "true" ∨ raw = "false" then .settled
    else .refused (.invalidBoolean (Text.quoted raw) .bool)
  | p => .refused (.invalidBoolean p.shown .bool)

def plainNode (ty : Abi.Ty) : Param σ → Node σ
  | .list items => .list (items.map (ty, ·))
  | _ => .settled

/-- What a parameter that is not deferred comes to. -/
def concreteNode (ctx : Context σ) (ty : Abi.Ty) (p : Param σ) : Node σ :=
  match ty with
  | .array element => listNode ty element p
  | .fixedArray element _ => listNode ty element p
  | .address => addressNode p
  | .uint _ | .int _ => ctx.numberNode ty p
  | .bool => booleanNode p
  | .bytes | .fixedBytes _ | .string => plainNode ty p

def node (ctx : Context σ) (ty : Abi.Ty) : Param σ → Node σ
  | .deferred label value next => .deferred label value next
  | p => ctx.concreteNode ty p

/-- Finding the address of an entity: what is looked up, the answer, and the state that is left. A
name is looked up unless it means the zero address, and only in a directory. -/
inductive Locates (ctx : Context σ) :
    Entity → σ → List Event → Except Failure Address → σ → Prop
  | address (a : Address) (s : σ) : Locates ctx (.address a) s [] (.ok a) s
  | zero {name : String} (s : σ) : name ∈ Entity.zeroNames →
      Locates ctx (.identifier name) s [] (.ok .zero) s
  | missing {name : String} (s : σ) : name ∉ Entity.zeroNames → ctx.directory = none →
      Locates ctx (.identifier name) s [] (.error (.unresolvedEntity name)) s
  | lookup {name : String} {directory : Directory σ} {s s' : σ} {answer : Except Failure Address} :
      name ∉ Entity.zeroNames → ctx.directory = some directory →
      directory.lookup name s = (answer, s') →
        Locates ctx (.identifier name) s [.lookup name] answer s'

/-- Visiting all that is on a stack, first to last, each with what it holds before the next. It ends
at the first failure. -/
inductive Walk (ctx : Context σ) :
    List (Visit σ) → σ → List Event → Option Failure → σ → Prop
  | nil (s : σ) : Walk ctx [] s [] none s
  | force {ty : Abi.Ty} {p : Param σ} {label : String} {value : σ → Param σ} {next : σ → σ}
      {rest : List (Visit σ)} {s s' : σ} {trace : List Event} {e? : Option Failure} :
      ctx.node ty p = .deferred label value next →
      Walk ctx ((ty, value s) :: rest) (next s) trace e? s' →
        Walk ctx ((ty, p) :: rest) s (.force label :: trace) e? s'
  | descend {ty : Abi.Ty} {p : Param σ} {children rest : List (Visit σ)} {s s' : σ}
      {trace : List Event} {e? : Option Failure} :
      ctx.node ty p = .list children → Walk ctx (children ++ rest) s trace e? s' →
        Walk ctx ((ty, p) :: rest) s trace e? s'
  | locate {ty : Abi.Ty} {p : Param σ} {entity : Entity} {a : Address}
      {rest : List (Visit σ)} {s s' s'' : σ} {trace trace' : List Event}
      {e? : Option Failure} :
      ctx.node ty p = .entity entity → ctx.Locates entity s trace (.ok a) s' →
      Walk ctx rest s' trace' e? s'' → Walk ctx ((ty, p) :: rest) s (trace ++ trace') e? s''
  | lose {ty : Abi.Ty} {p : Param σ} {entity : Entity} {rest : List (Visit σ)} {s s' : σ}
      {trace : List Event} {e : Failure} :
      ctx.node ty p = .entity entity → ctx.Locates entity s trace (.error e) s' →
        Walk ctx ((ty, p) :: rest) s trace (some e) s'
  | settle {ty : Abi.Ty} {p : Param σ} {rest : List (Visit σ)} {s s' : σ}
      {trace : List Event} {e? : Option Failure} :
      ctx.node ty p = .settled → Walk ctx rest s trace e? s' →
        Walk ctx ((ty, p) :: rest) s trace e? s'
  | refuse {ty : Abi.Ty} {p : Param σ} {rest : List (Visit σ)} {s : σ} {e : Failure} :
      ctx.node ty p = .refused e → Walk ctx ((ty, p) :: rest) s [] (some e) s

variable {ctx : Context σ}

theorem Locates.unique {entity : Entity} {s s₁ s₂ : σ} {trace₁ trace₂ : List Event}
    {answer₁ answer₂ : Except Failure Address} (h₁ : ctx.Locates entity s trace₁ answer₁ s₁)
    (h₂ : ctx.Locates entity s trace₂ answer₂ s₂) :
    trace₁ = trace₂ ∧ answer₁ = answer₂ ∧ s₁ = s₂ := by
  cases h₁ with
  | address => cases h₂; exact ⟨rfl, rfl, rfl⟩
  | zero _ hzero => cases h₂ <;> first | exact ⟨rfl, rfl, rfl⟩ | contradiction
  | missing _ hzero hdirectory => cases h₂ <;> simp_all
  | lookup hzero hdirectory hlookup => cases h₂ <;> simp_all

theorem Walk.append {nodes rest : List (Visit σ)} {s s' s'' : σ}
    {trace trace' : List Event} {e? : Option Failure} (h : ctx.Walk nodes s trace none s')
    (hrest : ctx.Walk rest s' trace' e? s'') :
    ctx.Walk (nodes ++ rest) s (trace ++ trace') e? s'' := by
  generalize hnone : none = fault at h
  induction h with
  | nil s => exact hrest
  | force hnode _ ih => exact .force hnode (ih hrest hnone)
  | descend hnode _ ih =>
    -- What the list holds is on the stack before `rest` is, so `++` has to be regrouped.
    have hnext := ih hrest hnone
    rw [List.append_assoc] at hnext
    exact .descend hnode hnext
  | locate hnode hlocates _ ih =>
    rw [List.append_assoc]
    exact .locate hnode hlocates (ih hrest hnone)
  | settle hnode _ ih => exact .settle hnode (ih hrest hnone)
  | lose | refuse => cases hnone

theorem Walk.append_of_failure {nodes : List (Visit σ)} {s s' : σ} {trace : List Event}
    {e : Failure} (h : ctx.Walk nodes s trace (some e) s') (rest : List (Visit σ)) :
    ctx.Walk (nodes ++ rest) s trace (some e) s' := by
  generalize hsome : some e = fault at h
  induction h with
  | nil => cases hsome
  | force hnode _ ih => exact .force hnode (ih hsome)
  | descend hnode _ ih =>
    have hnext := ih hsome
    rw [List.append_assoc] at hnext
    exact .descend hnode hnext
  | locate hnode hlocates _ ih => exact .locate hnode hlocates (ih hsome)
  | lose hnode hlocates => exact .lose hnode hlocates
  | settle hnode _ ih => exact .settle hnode (ih hsome)
  | refuse hnode => exact .refuse hnode

/-- What a walk does from a visit on, by the node that is found there. -/
def Proceeds (ctx : Context σ) (ty : Abi.Ty) (rest : List (Visit σ)) (s : σ) (trace : List Event)
    (e? : Option Failure) (s' : σ) : Node σ → Prop
  | .deferred label value next =>
    ∃ trace', trace = .force label :: trace' ∧
      ctx.Walk ((ty, value s) :: rest) (next s) trace' e? s'
  | .list children => ctx.Walk (children ++ rest) s trace e? s'
  | .entity entity => ∃ asked answer s₁, ctx.Locates entity s asked answer s₁ ∧ match answer with
    | .ok _ => ∃ trace', trace = asked ++ trace' ∧ ctx.Walk rest s₁ trace' e? s'
    | .error e => trace = asked ∧ e? = some e ∧ s' = s₁
  | .settled => ctx.Walk rest s trace e? s'
  | .refused e => trace = [] ∧ e? = some e ∧ s' = s

theorem Walk.proceeds {ty : Abi.Ty} {p : Param σ} {rest : List (Visit σ)} {s s' : σ}
    {trace : List Event} {e? : Option Failure} (h : ctx.Walk ((ty, p) :: rest) s trace e? s') :
    ctx.Proceeds ty rest s trace e? s' (ctx.node ty p) := by
  cases h with
  | force hnode hrest =>
    rw [hnode]
    exact ⟨_, rfl, hrest⟩
  | descend hnode hrest | settle hnode hrest =>
    rw [hnode]
    exact hrest
  | locate hnode hlocates hrest =>
    rw [hnode]
    exact ⟨_, _, _, hlocates, _, rfl, hrest⟩
  | lose hnode hlocates =>
    rw [hnode]
    exact ⟨_, _, _, hlocates, rfl, rfl, rfl⟩
  | refuse hnode =>
    rw [hnode]
    exact ⟨rfl, rfl, rfl⟩

theorem Walk.unique {nodes : List (Visit σ)} {s s₁ s₂ : σ} {trace₁ trace₂ : List Event}
    {e₁ e₂ : Option Failure} (h₁ : ctx.Walk nodes s trace₁ e₁ s₁)
    (h₂ : ctx.Walk nodes s trace₂ e₂ s₂) : trace₁ = trace₂ ∧ e₁ = e₂ ∧ s₁ = s₂ := by
  -- Each visit has one node in the table, so the second walk proceeds from it as the first does.
  induction h₁ generalizing trace₂ e₂ s₂ with
  | nil =>
    cases h₂
    exact ⟨rfl, rfl, rfl⟩
  | force hnode _ ih =>
    have hnext := h₂.proceeds
    rw [hnode] at hnext
    obtain ⟨_, rfl, hrest⟩ := hnext
    obtain ⟨rfl, rfl, rfl⟩ := ih hrest
    exact ⟨rfl, rfl, rfl⟩
  | descend hnode _ ih | settle hnode _ ih =>
    have hnext := h₂.proceeds
    rw [hnode] at hnext
    exact ih hnext
  | locate hnode hlocates _ ih =>
    have hnext := h₂.proceeds
    rw [hnode] at hnext
    obtain ⟨_, _, _, hlocates₂, hrest⟩ := hnext
    obtain ⟨rfl, rfl, rfl⟩ := hlocates.unique hlocates₂
    obtain ⟨_, rfl, hrest⟩ := hrest
    obtain ⟨rfl, rfl, rfl⟩ := ih hrest
    exact ⟨rfl, rfl, rfl⟩
  | lose hnode hlocates =>
    have hnext := h₂.proceeds
    rw [hnode] at hnext
    obtain ⟨_, _, _, hlocates₂, hend⟩ := hnext
    obtain ⟨rfl, rfl, rfl⟩ := hlocates.unique hlocates₂
    obtain ⟨rfl, rfl, rfl⟩ := hend
    exact ⟨rfl, rfl, rfl⟩
  | refuse hnode =>
    have hnext := h₂.proceeds
    rw [hnode] at hnext
    obtain ⟨rfl, rfl, rfl⟩ := hnext
    exact ⟨rfl, rfl, rfl⟩

end Context

end CallBundle
