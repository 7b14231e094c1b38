import CallBundle.Action
import CallBundle.Json.Field
import CallBundle.Json.Skip
import CallBundle.Settings

/-!
Records as JSON: settings, actions, gas settings and receipts. A record is an object, where each known
field stands once at most and others are passed over, or an array of its fields in order, where the
last ones may be left out.
-/

namespace CallBundle

namespace Json

/-- A field of a record that is being read, `ρ` being what is known of the record so far. -/
structure Field (ρ : Type) where
  name : String
  isKnown : ρ → Bool
  read : ρ → Reader ρ

/-- A field that is read by `reader` and kept where `get` finds and `put` leaves it. -/
def Field.of {ρ α : Type} (name : String) (get : ρ → Option α) (put : ρ → α → ρ)
    (reader : Reader α) : Field ρ :=
  ⟨name, fun draft => (get draft).isSome, fun draft => do return put draft (← reader)⟩

namespace Reader

/-- The fields of a record that is an array, behind its opening bracket or behind another field. -/
def arrayFields {ρ : Type} : List (Field ρ) → Bool → ρ → Reader ρ
  | [], _, draft => do
    expect ']'
    return draft
  | field :: fields, first, draft => do
    if ← hasItem first then arrayFields fields false (← field.read draft)
    else
      expect ']'
      return draft

/-- The value of the member with the given key. A known field may not come again. -/
def member {ρ : Type} (fields : List (Field ρ)) (draft : ρ) (key : String) : Reader ρ := do
  match fields.find? (·.name = key) with
  | some field => if field.isKnown draft then failure else field.read draft
  | none =>
    skipValue
    return draft

def objectFields {ρ : Type} (fields : List (Field ρ)) (draft : ρ) : Reader ρ :=
  loop (fun (first, draft) => do
    skipSpaces
    if (← peek) = some '}' then
      drop
      return .inr draft
    else
      if !first then expect ','
      expect '"'
      let key ← quoted
      expect ':'
      return .inl (false, ← member fields draft key)) (true, draft)

def record {ρ : Type} (fields : List (Field ρ)) (draft : ρ) : Reader ρ := do
  skipSpaces
  match ← peek with
  | some '[' => drop; arrayFields fields true draft
  | some '{' => drop; objectFields fields draft
  | _ => failure

end Reader

/-- A character inside the quotes of a JSON text. -/
def escape (c : Char) : List Char :=
  if c = '"' then ['\\', '"']
  else if c = '\\' then ['\\', '\\']
  else if c = '\x08' then ['\\', 'b']
  else if c = '\x0c' then ['\\', 'f']
  else if c = '\n' then ['\\', 'n']
  else if c = '\r' then ['\\', 'r']
  else if c = '\t' then ['\\', 't']
  else if c.toNat < 0x20 then '\\' :: 'u' :: '0' :: '0' :: Hex.encode [UInt8.ofNat c.toNat]
  else [c]

def renderText (text : String) : String :=
  String.ofList ('"' :: text.toList.flatMap escape ++ ['"'])

def renderOptional {α : Type} (render : α → String) : Option α → String
  | none => "null"
  | some a => render a

def renderRecord (fields : List (String × String)) : String :=
  String.singleton '{' ++ ",".intercalate (fields.map fun (name, value) =>
    renderText name ++ ":" ++ value) ++ String.singleton '}'

def renderUint256 (n : Uint256) : String := renderText (Hex.quantity n.toNat)

end Json

namespace Action

/-- What is known of an action that is being read. -/
structure Draft where
  target : Option Address := none
  data : Option Bytes := none
  value : Option Uint256 := none

def fields : List (Json.Field Draft) :=
  [ .of "to" (·.target) (fun draft target => { draft with target := some target })
      Json.Reader.address,
    .of "data" (·.data) (fun draft data => { draft with data := some data }) Json.Reader.bytes,
    .of "value" (·.value) (fun draft value => { draft with value := some value })
      Json.Reader.uint256]

/-- An action without a value has none attached. -/
def ofJson? (text : String) : Option Action := do
  let draft ← (Json.Reader.record fields {}).ofText? text
  return ⟨← draft.target, ← draft.data, draft.value.getD 0⟩

def toJson (action : Action) : String :=
  Json.renderRecord
    [ ("to", Json.renderText action.target.plainText),
      ("data", Json.renderText (Hex.text action.data)),
      ("value", Json.renderUint256 action.value)]

end Action

namespace Gas

structure Draft where
  price : Option (Option Uint256) := none
  limit : Option (Option Uint256) := none

def fields : List (Json.Field Draft) :=
  [ .of "gas_price" (·.price) (fun draft price => { draft with price := some price })
      (Json.Reader.optional Json.Reader.uint256),
    .of "gas_limit" (·.limit) (fun draft limit => { draft with limit := some limit })
      (Json.Reader.optional Json.Reader.uint256)]

def ofJson? (text : String) : Option Gas := do
  let draft ← (Json.Reader.record fields {}).ofText? text
  return ⟨draft.price.join, draft.limit.join⟩

def toJson (gas : Gas) : String :=
  Json.renderRecord
    [ ("gas_price", Json.renderOptional Json.renderUint256 gas.price),
      ("gas_limit", Json.renderOptional Json.renderUint256 gas.limit)]

end Gas

namespace Receipt

structure Draft where
  txHash : Option String := none
  block : Option (Option Nat) := none
  success : Option Bool := none

def fields : List (Json.Field Draft) :=
  [ .of "tx_hash" (·.txHash) (fun draft txHash => { draft with txHash := some txHash })
      Json.Reader.text,
    .of "block_number" (·.block) (fun draft block => { draft with block := some block })
      (Json.Reader.optional (Json.Reader.nat (Nat.pow 2 64))),
    .of "success" (·.success) (fun draft success => { draft with success := some success })
      Json.Reader.bool]

def ofJson? (text : String) : Option Receipt := do
  let draft ← (Json.Reader.record fields {}).ofText? text
  return ⟨← draft.txHash, draft.block.join, ← draft.success⟩

def toJson (receipt : Receipt) : String :=
  Json.renderRecord
    [ ("tx_hash", Json.renderText receipt.txHash),
      ("block_number", Json.renderOptional toString receipt.block),
      ("success", toString receipt.success)]

end Receipt

namespace Settings

/-- What is known of settings that are being read. The account is kept as it is written. -/
structure Draft where
  forwarder : Option String := none
  specId : Option (Option Nat) := none
  precision : Option (Option Nat) := none

def fields : List (Json.Field Draft) :=
  [ .of "forwarder" (·.forwarder) (fun draft forwarder => { draft with forwarder := some forwarder })
      Json.Reader.text,
    .of "spec_id" (·.specId) (fun draft specId => { draft with specId := some specId })
      (Json.Reader.optional (Json.Reader.nat (Nat.pow 2 32))),
    .of "decimals" (·.precision) (fun draft precision => { draft with precision := some precision })
      (Json.Reader.optional (Json.Reader.nat (Nat.pow 2 32)))]

/-- The account, the identifier and the precision, as they are written. -/
def written? (text : String) : Option (String × Option Nat × Option Nat) := do
  let draft ← (Json.Reader.record fields {}).ofText? text
  return (← draft.forwarder, draft.specId.join, draft.precision.join)

/-- Reads settings. The identifier zero is refused; what is left out has its usual value. -/
def ofText (text : String) : Except Failure Settings :=
  match written? text with
  | none => .error (.settings .malformedJson)
  | some (raw, specId, precision) =>
    match Address.ofText? raw with
    | none => .error (.settings (.badForwarder raw))
    | some forwarder =>
      if specId = some 0 then .error (.settings .zeroSpecId)
      else .ok
        ⟨forwarder, (specId.map UInt32.ofNat).getD Script.defaultSpecId,
          precision.getD defaultPrecision⟩

end Settings

end CallBundle
