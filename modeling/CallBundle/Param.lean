import CallBundle.Abi.Value
import CallBundle.Entity
import CallBundle.Run

/-!
Parameters as callers give them, before they are read as values of a type. A deferred parameter is
computed on demand from the collaborators' state. Main statement: `force_bind_toValue`, so that forcing
a parameter first changes nothing about the value that it is.
-/

namespace CallBundle

/-- `deferred label value next` is known by its label: forced in a state `s`, it yields `value s` and
leaves the state `next s`. -/
inductive Param (σ : Type)
  | string : String → Param σ
  | uint : Uint256 → Param σ
  | int : Int128 → Param σ
  | bool : Bool → Param σ
  | address : Address → Param σ
  | bytes : Bytes → Param σ
  | list : List (Param σ) → Param σ
  | deferred (label : String) (value : σ → Param σ) (next : σ → σ) : Param σ

namespace Param

variable {σ : Type}

/-- An address stays an address and a name becomes a text. -/
def ofEntity : Entity → Param σ
  | .address a => .address a
  | .identifier name => .string name

def isDeferred : Param σ → Bool
  | .deferred .. => true
  | _ => false

/-- Forces a parameter until it is no longer deferred. -/
def force : Param σ → Run σ (Param σ)
  | .deferred label value next => Run.step (.force label) (fun s => force (value s)) next
  | p => pure p

mutual

/-- Forces a parameter at every depth and takes it as the value that it is. -/
def toValue : Param σ → Run σ Abi.Value
  | .string s => pure (.string s)
  | .uint n => pure (.uint n)
  | .int n => pure (.int n)
  | .bool b => pure (.bool b)
  | .address a => pure (.address a)
  | .bytes b => pure (.bytes b)
  | .list items => do return .array (← toValues items)
  | .deferred label value next => Run.step (.force label) (fun s => toValue (value s)) next

def toValues : List (Param σ) → Run σ (List Abi.Value)
  | [] => pure []
  | p :: ps => do
    let v ← p.toValue
    return v :: (← toValues ps)

end

mutual

/-- How a parameter is shown in messages, where it is not forced. -/
def shown : Param σ → String
  | .string s => Text.quoted s
  | .uint n => toString n.toNat
  | .int n => toString n.toInt
  | .bool b => toString b
  | .address a => a.text
  | .bytes b => Hex.text b
  | .list items => "[" ++ ", ".intercalate (showns items) ++ "]"
  | .deferred .. => "<deferred>"

def showns : List (Param σ) → List String
  | [] => []
  | p :: ps => p.shown :: showns ps

end

theorem force_of_not_isDeferred {p : Param σ} (h : p.isDeferred = false) : p.force = pure p := by
  cases p <;> first | rfl | simp [isDeferred] at h

theorem force_bind_toValue (p : Param σ) : p.force >>= toValue = p.toValue := by
  match p with
  | .deferred label value next =>
    rw [force, Run.step_bind, toValue]
    exact congrArg (Run.step (.force label) · next) (funext fun s => force_bind_toValue (value s))
  | .string _ | .uint _ | .int _ | .bool _ | .address _ | .bytes _ | .list _ =>
    exact pure_bind _ _

theorem toValues_eq_mapM (ps : List (Param σ)) : toValues ps = ps.mapM toValue := by
  induction ps with
  | nil => simp [toValues]
  | cons p ps ih => simp [toValues, ih]

end Param

end CallBundle
