import CallBundle.Abi.Ty
import CallBundle.Abi.Value

/-!
Every way in which compiling or forwarding a call can fail, with the message of each.
-/

namespace CallBundle

inductive SignatureFault
  | noOpenParen
  | emptyName
  | badName
  | noCloseParen
  | nestedParens
  | emptyType
  | badTypeCharacter
  deriving DecidableEq

inductive ScaleFault
  | precisionTooHigh (precision : Nat)
  | noDigits
  | fractionTooLong (length precision : Nat)
  | badByte (byte : UInt8)
  | tooLarge
  deriving DecidableEq

inductive NumberFault
  | notNumeric
  | notLiteral
  | badExponentDigit
  | exponentTooLarge
  | scale (fault : ScaleFault)
  | overflow
  deriving DecidableEq

/-- What keeps calls from being written as a call script, and where the bytes of one stop making
sense. -/
inductive ScriptFault
  | payloadTooLong (index length : Nat)
  | noHeader (length : Nat)
  | truncatedAddress (offset : Nat)
  | truncatedLength (offset : Nat)
  | truncatedPayload (length offset : Nat)
  deriving DecidableEq

inductive SubmissionFault
  | refused (reason : String)
  | reverted (index : Nat) (txHash : String)
  deriving DecidableEq

inductive SettingsFault
  | malformedJson
  | badForwarder (raw : String)
  | zeroSpecId
  | stated (reason : String)
  deriving DecidableEq

/-- A place in the arguments: the name of the argument list, and an index for each level down. -/
structure Place where
  root : String
  path : List Nat
  deriving DecidableEq

namespace Place

def ofRoot (root : String) : Place := ⟨root, []⟩

def item (place : Place) (index : Nat) : Place := ⟨place.root, place.path ++ [index]⟩

def text (place : Place) : String :=
  place.root ++ String.join (place.path.map fun index => s!"[{index}]")

instance : ToString Place := ⟨text⟩

end Place

inductive Counted
  | parameters (signature : String)
  | tuple (place : Place)
  | fixedArray (place : Place) (ty : Abi.Ty)
  deriving DecidableEq

inductive Failure
  | invalidSignature (signature : String) (fault : SignatureFault)
  | unsupportedType (text : String)
  | arityMismatch (counted : Counted) (expected actual : Nat)
  | expectedArray (ty : Abi.Ty) (shown : String)
  | invalidNumber (shown : String) (ty : Abi.Ty) (fault : NumberFault)
  | invalidBoolean (shown : String) (ty : Abi.Ty)
  | invalidAddress (shown : String) (ty : Abi.Ty)
  | unresolvedEntity (name : String)
  | valueOutOfRange (place : Place) (ty : Abi.Ty) (value : Abi.Value)
  | typeMismatch (place : Place) (ty : Abi.Ty) (value : Abi.Value)
  | noActions
  | unforwardableValue (index : Nat) (target : Address) (value : Uint256)
  | malformedScript (fault : ScriptFault)
  | submission (fault : SubmissionFault)
  | settings (fault : SettingsFault)

def SignatureFault.message : SignatureFault → String
  | .noOpenParen => "missing `(`"
  | .emptyName => "function name must be non-empty"
  | .badName => "function name must only contain word characters"
  | .noCloseParen => "missing closing `)`"
  | .nestedParens => "nested parentheses are not supported"
  | .emptyType => "empty parameter type"
  | .badTypeCharacter => "parameter types must not contain whitespace"

def ScaleFault.message : ScaleFault → String
  | .precisionTooHigh precision => s!"precision {precision} exceeds 77"
  | .noDigits => "no digits"
  | .fractionTooLong length precision =>
    s!"fraction has {length} digits but precision is {precision}"
  | .badByte byte => s!"value out of range: invalid digit: {Char.ofUInt8 byte}"
  | .tooLarge => "value out of range: the value is too large to fit the target type"

def NumberFault.message : NumberFault → String
  | .notNumeric => "expected a number or numeric string"
  | .notLiteral => "expected <integer>[.<fraction>][e<exponent>][<unit>]"
  | .badExponentDigit => "invalid exponent: invalid digit found in string"
  | .exponentTooLarge => "invalid exponent: number too large to fit in target type"
  | .scale fault => fault.message
  | .overflow => "value overflows 256 bits"

def ScriptFault.message : ScriptFault → String
  | .payloadTooLong index length =>
    s!"action {index} payload of {length} bytes exceeds the 4-byte length field"
  | .noHeader length => s!"script of {length} bytes is shorter than the spec id header"
  | .truncatedAddress offset => s!"truncated address at offset {offset}"
  | .truncatedLength offset => s!"truncated length at offset {offset}"
  | .truncatedPayload length offset =>
    s!"payload of {length} bytes at offset {offset} runs past end of script"

def SubmissionFault.message : SubmissionFault → String
  | .refused reason => reason
  | .reverted index txHash => s!"pre-action {index} reverted in {txHash}"

def SettingsFault.message : SettingsFault → String
  | .malformedJson => "invalid config json:"
  | .badForwarder raw => s!"forwarder must be a 0x-prefixed 20-byte hex string, got {raw}"
  | .zeroSpecId => "spec_id must be greater than zero"
  | .stated reason => reason

def Counted.text : Counted → String
  | .parameters signature => signature
  | .tuple place => place.text
  | .fixedArray place ty => s!"{place} ({ty})"

namespace Failure

def message : Failure → String
  | .invalidSignature signature fault => s!"wrong signature format: {signature} ({fault.message})"
  | .unsupportedType text => s!"unsupported abi type: {text}"
  | .arityMismatch counted expected actual =>
    s!"argument count mismatch for {counted.text}: expected {expected} got {actual}"
  | .expectedArray ty shown => s!"expected array for type {ty}, got {shown}"
  | .invalidNumber shown ty fault => s!"invalid number {shown} for type {ty}: {fault.message}"
  | .invalidBoolean shown ty => s!"expected boolean true/false for type {ty}, got {shown}"
  | .invalidAddress shown ty =>
    s!"invalid address {shown} for type {ty}: address must be a 0x-prefixed 20-byte hex string"
  | .unresolvedEntity name => s!"unresolved entity {name} for type address"
  | .valueOutOfRange place ty value => s!"{place} value {value} does not fit {ty}"
  | .typeMismatch place ty value => s!"{place} cannot encode {value} as {ty}"
  | .noActions => "no actions provided"
  | .unforwardableValue index target value =>
    s!"action {index} to {target.text} carries value {value.toNat} that a call script cannot forward"
  | .malformedScript fault => s!"malformed call script: {fault.message}"
  | .submission fault => s!"submission failed: {fault.message}"
  | .settings fault => s!"invalid configuration: {fault.message}"

instance : ToString Failure := ⟨message⟩

/-- Format failures concern the shape of a call: its signature, its types, its counts. -/
def isFormat : Failure → Bool
  | .invalidSignature .. => true
  | .unsupportedType .. => true
  | .arityMismatch .. => true
  | _ => false

/-- Coercion failures concern a parameter that does not read as its type. -/
def isCoercion : Failure → Bool
  | .expectedArray .. => true
  | .invalidNumber .. => true
  | .invalidBoolean .. => true
  | .invalidAddress .. => true
  | .unresolvedEntity .. => true
  | _ => false

end Failure

end CallBundle
