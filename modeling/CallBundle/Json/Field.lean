import CallBundle.Abi.Value
import CallBundle.Json.Reader

/-!
The values that fields of records hold: texts, flags, numbers, bytes and addresses.
-/

namespace CallBundle.Json.Reader

def text : Reader String := do
  match ← scalar with
  | .text text => return text
  | _ => failure

def bool : Reader Bool := do
  match ← scalar with
  | .bool b => return b
  | _ => failure

/-- A number that is written in digits alone and lies below a bound. -/
def nat (bound : Nat) : Reader Nat := do
  match ← scalar with
  | .number (some n) => if n < bound then return n else failure
  | _ => failure

def byte : Reader UInt8 := do return UInt8.ofNat (← nat 256)

def optional {α : Type} (reader : Reader α) : Reader (Option α) := do
  skipSpaces
  if (← peek) = some 'n' then
    word "null".toList
    return none
  else return some (← reader)

/-- Tells whether an array has one more item, and takes the comma before it. -/
def hasItem (first : Bool) : Reader Bool := do
  skipSpaces
  match ← peek with
  | some ']' => return false
  | some c =>
    if first then return true
    else if c = ',' then
      drop
      skipSpaces
      if (← peek) = some ']' then failure else return true
    else failure
  | none => failure

def bytesItems : Reader Bytes :=
  loop (fun taken => do
    if ← hasItem taken.isEmpty then return .inl ((← byte) :: taken)
    else
      expect ']'
      return .inr taken.reverse) []

/-- Bytes from pairs of hexadecimal digits, with or without a mark. -/
def hexBytes : Reader Bytes := do
  let cs := (← text).toList
  match Hex.decode? ((Hex.unmarked? cs).getD cs) with
  | some bytes => return bytes
  | none => failure

/-- Bytes in hexadecimal, or from an array of numbers. -/
def bytes : Reader Bytes := do
  skipSpaces
  if (← peek) = some '[' then
    drop
    bytesItems
  else hexBytes

/-- As many bytes as given from an array, behind its opening bracket or behind another item. -/
def byteItems : Nat → Bool → Reader Bytes
  | 0, _ => return []
  | n + 1, first => do
    if ← hasItem first then
      let b ← byte
      return b :: (← byteItems n false)
    else failure

/-- The end of an array of bytes that is complete. One more item is tried: it may not be a byte, and
what of it cannot be read as one is passed over. -/
def endOfItems : Reader Unit := do
  let further ← attempt do
    if ← hasItem false then
      discard byte
      return true
    else return false
  if further = some true then failure else expect ']'

/-- An address in hexadecimal, or from an array of twenty numbers. -/
def address : Reader Address := do
  skipSpaces
  let bytes ←
    if (← peek) = some '[' then
      drop
      let bytes ← byteItems 20 true
      endOfItems
      pure bytes
    else hexBytes
  match Address.ofBytes? bytes with
  | some a => return a
  | none => failure

/-- The digits behind a mark of the base, and the base, which is ten without a mark. -/
def splitBase : List Char → Nat × List Char
  | '0' :: 'x' :: digits => (16, digits)
  | '0' :: 'X' :: digits => (16, digits)
  | '0' :: 'o' :: digits => (8, digits)
  | '0' :: 'O' :: digits => (8, digits)
  | '0' :: 'b' :: digits => (2, digits)
  | '0' :: 'B' :: digits => (2, digits)
  | digits => (10, digits)

/-- Reads digits to the given base, between which underscores may stand. -/
def baseDigits? (base : Nat) : Nat → List Char → Option Nat
  | n, [] => some n
  | n, '_' :: cs => baseDigits? base n cs
  | n, c :: cs => do
    let d ← Hex.digit? c
    if d < base then baseDigits? base (base * n + d) cs else none

/-- An integer of 256 bits from a text, with or without a mark of its base. -/
def uint256OfText? (text : String) : Option Uint256 := do
  let (base, digits) := splitBase text.toList
  let n ← baseDigits? base 0 digits
  if n < Nat.pow 2 256 then some (BitVec.ofNat 256 n) else none

/-- An integer of 256 bits from a number below `2 ^ 64` or from a text. -/
def uint256 : Reader Uint256 := do
  match ← scalar with
  | .number (some n) => if n < Nat.pow 2 64 then return BitVec.ofNat 256 n else failure
  | .text text =>
    match uint256OfText? text with
    | some n => return n
    | none => failure
  | _ => failure

end CallBundle.Json.Reader
