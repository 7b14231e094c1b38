import CallBundle.Amount.Literal
import CallBundle.Param

/-!
Reading parameters as values of given types. Names are looked up in a directory, decimal literals are
scaled at a given precision, and everything is forced before it is looked at.
-/

namespace CallBundle

/-- Knows addresses by name. It may fail in any way, and a look-up may change the state. -/
structure Directory (σ : Type) where
  lookup : String → σ → Except Failure Address × σ

def defaultPrecision : Nat := 18

/-- What parameters are read against. -/
structure Context (σ : Type) where
  precision : Nat := defaultPrecision
  directory : Option (Directory σ) := none

namespace Context

variable {σ : Type}

/-- The address of an entity. Addresses and the names of the zero address need no directory. -/
def entity (ctx : Context σ) : Entity → Run σ Address
  | .address a => pure a
  | .identifier name =>
    if name ∈ Entity.zeroNames then pure .zero
    else match ctx.directory with
      | none => do
        Run.log (.entityUnresolved name)
        Run.fail (.unresolvedEntity name)
      | some directory => do
        let a ← Run.ask (.lookup name) (directory.lookup name)
        Run.log (.entityResolved name a)
        return a

/-- The number that a literal denotes where one of the given type is expected. -/
def literal (ctx : Context σ) (ty : Abi.Ty) (raw : String) : Except Failure Uint256 :=
  (Amount.readNumber raw ctx.precision).mapError (.invalidNumber raw ty)

/-- Numbers stand for themselves; a text is read as a literal and scaled. -/
def number (ctx : Context σ) (ty : Abi.Ty) (p : Param σ) : Run σ Abi.Value := do
  match ← p.force with
  | .uint n => return .uint n
  | .int n => return .int n
  | .string raw => return .uint (← Run.ofExcept (ctx.literal ty raw))
  | p => Run.fail (.invalidNumber p.shown ty .notNumeric)

/-- Truth values stand for themselves; of texts, `true` and `false` alone are read. -/
def boolean (ty : Abi.Ty) (p : Param σ) : Run σ Bool := do
  match ← p.force with
  | .bool b => return b
  | .string "true" => return true
  | .string "false" => return false
  | p => Run.fail (.invalidBoolean p.shown ty)

/-- Reads a parameter as a value of the given type. Lists are read element by element from left to
right; byte strings and texts are taken as they are. -/
def coerce (ctx : Context σ) : Abi.Ty → Param σ → Run σ Abi.Value
  | .array element, p => do
    match ← p.force with
    | .list items => return .array (← items.mapM (ctx.coerce element))
    | p => Run.fail (.expectedArray (.array element) p.shown)
  | .fixedArray element length, p => do
    match ← p.force with
    | .list items => return .array (← items.mapM (ctx.coerce element))
    | p => Run.fail (.expectedArray (.fixedArray element length) p.shown)
  | .address, p => do
    match ← p.force with
    | .address a => return .address a
    | .string raw => return .address (← ctx.entity (.ofText raw))
    | p => Run.fail (.invalidAddress p.shown .address)
  | .uint bits, p => ctx.number (.uint bits) p
  | .int bits, p => ctx.number (.int bits) p
  | .bool, p => do return .bool (← boolean .bool p)
  | .bytes, p => p.toValue
  | .fixedBytes _, p => p.toValue
  | .string, p => p.toValue

def coerceAll (ctx : Context σ) (signature : String) (tys : List Abi.Ty) (ps : List (Param σ)) :
    Run σ (List Abi.Value) :=
  if ps.length = tys.length then (tys.zip ps).mapM fun (ty, p) => ctx.coerce ty p
  else Run.fail (.arityMismatch (.parameters signature) tys.length ps.length)

end Context

end CallBundle
