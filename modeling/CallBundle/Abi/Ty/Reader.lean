import CallBundle.Failure

/-!
Reading a type from its text: a scalar name, then any number of array suffixes, the innermost first.
The bare names `uint` and `int` stand for the widths of 256 bits.
-/

namespace CallBundle.Abi.Ty

/-- Reads a number that is written in ASCII digits alone. -/
def number? (digits : List Char) : Option Nat :=
  if digits ≠ [] ∧ digits.all Char.isDigit then some (Nat.ofDigitChars 10 digits 0) else none

def integerBits? : List Char → Option Nat
  | [] => some 256
  | digits => (number? digits).filter fun bits => 0 < bits && bits ≤ 256 && bits % 8 == 0

def byteWidth? (digits : List Char) : Option Nat :=
  (number? digits).filter fun width => 0 < width && width ≤ 32

def scalar? (name : List Char) : Option Ty :=
  if name = "address".toList then some .address
  else if name = "bool".toList then some .bool
  else if name = "string".toList then some .string
  else if name = "bytes".toList then some .bytes
  else if let some digits := "bytes".toList.isPrefixOf? name then
    (byteWidth? digits).map .fixedBytes
  else if let some digits := "uint".toList.isPrefixOf? name then
    (integerBits? digits).map .uint
  else if let some digits := "int".toList.isPrefixOf? name then
    (integerBits? digits).map .int
  else none

/-- An array suffix: `none` for `[]`, and the length for `[n]`. -/
abbrev Dim := Option Nat

/-- Lengths are at least one and below `2 ^ 64`. -/
def length? (digits : List Char) : Option Nat :=
  (number? digits).filter fun length => 0 < length && length ≤ sizeLimit

def dim? : List Char → Option Dim
  | [] => some none
  | digits => (length? digits).map some

/-- Reads a chain of suffixes. The first argument holds the digits since the last open bracket, if
it is still open. -/
def dims? : Option (List Char) → List Char → Option (List Dim)
  | none, [] => some []
  | some _, [] => none
  | none, c :: cs => if c = '[' then dims? (some []) cs else none
  | some digits, c :: cs =>
    if c = ']' then do
      let dim ← dim? digits
      let dims ← dims? none cs
      return dim :: dims
    else if c.isDigit then dims? (some (digits ++ [c])) cs
    else none

def wrap (ty : Ty) : Dim → Ty
  | none => .array ty
  | some length => .fixedArray ty length

def ofChars? (cs : List Char) : Option Ty := do
  let scalar ← scalar? (cs.takeWhile (· ≠ '['))
  let dims ← dims? none (cs.dropWhile (· ≠ '['))
  return dims.foldl wrap scalar

def ofText (raw : String) : Except Failure Ty :=
  match ofChars? raw.toList with
  | some ty => .ok ty
  | none => .error (.unsupportedType raw)

end CallBundle.Abi.Ty
