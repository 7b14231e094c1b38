import CallBundle.Amount.Scale
import CallBundle.Text.Digit

/-!
Number literals: an integer, a fraction behind a point, an exponent behind an `e`, and a unit of one
letter, each of which may be missing, as in `1.5`, `2.5e6` and `3d`. The exponent is the power of ten
to scale by, in place of a given one; a unit of time multiplies by its length in seconds.
-/

namespace CallBundle.Amount

/-- The units of time, with their lengths in seconds. -/
def timeUnits : List (String × Nat) :=
  [("s", 1), ("m", 60), ("h", 3600), ("d", 86400), ("w", 604800), ("y", 31536000)]

/-- A text that names no unit of time multiplies by one. -/
def unitMultiplier (unit : String) : Nat :=
  (timeUnits.lookup unit).getD 1

/-- The parts of a literal, as written. The point belongs to the amount. -/
structure Literal where
  amount : List Char
  exponent : Option (List Char)
  unit : Option Char
  deriving DecidableEq

namespace Literal

/-- Any letter of ASCII but `e` and `E`. -/
def isUnit (c : Char) : Bool := c.isAlpha && c != 'e' && c != 'E'

/-- The integer and the fraction, and what follows them. Digits of any script count. -/
def splitAmount (cs : List Char) : List Char × List Char :=
  let integer := cs.takeWhile Text.isDecimalDigit
  match cs.dropWhile Text.isDecimalDigit with
  | '.' :: rest =>
    (integer ++ '.' :: rest.takeWhile Text.isDecimalDigit, rest.dropWhile Text.isDecimalDigit)
  | rest => (integer, rest)

/-- The digits behind an `e`, and what follows them. -/
def splitExponent : List Char → Option (List Char) × List Char
  | 'e' :: rest =>
    (some (rest.takeWhile Text.isDecimalDigit), rest.dropWhile Text.isDecimalDigit)
  | rest => (none, rest)

def ofChars? (cs : List Char) : Option Literal :=
  let (amount, rest) := splitAmount cs
  let (exponent, rest) := splitExponent rest
  if exponent = some [] then none
  else match rest with
    | [] => some ⟨amount, exponent, none⟩
    | [c] => if isUnit c then some ⟨amount, exponent, some c⟩ else none
    | _ => none

end Literal

/-- Reads an exponent from left to right, up to the first character that is no digit of ASCII or
that takes the number past 32 bits. -/
def readExponent : Nat → List Char → Except NumberFault Nat
  | n, [] => .ok n
  | n, c :: cs =>
    if !c.isDigit then .error .badExponentDigit
    else
      let n := 10 * n + (c.toNat - 48)
      if n < Nat.pow 2 32 then readExponent n cs else .error .exponentTooLarge

/-- The power of ten to scale by, which is the given one if the literal has no exponent. -/
def Literal.precision (literal : Literal) (given : Nat) : Except NumberFault Nat :=
  match literal.exponent with
  | some digits => readExponent 0 digits
  | none => .ok given

def Literal.multiplier (literal : Literal) : Nat :=
  match literal.unit with
  | some c => unitMultiplier c.toString
  | none => 1

/-- The integer of 256 bits that a literal denotes, at the given precision unless it has its own. -/
def readNumber (raw : String) (precision : Nat) : Except NumberFault Uint256 :=
  match Literal.ofChars? raw.toList with
  | none => .error .notLiteral
  | some literal => do
    let precision ← literal.precision precision
    let scaled ← (scale literal.amount precision).mapError .scale
    let n := scaled.toNat * literal.multiplier
    if n < Nat.pow 2 256 then return BitVec.ofNat 256 n else .error .overflow

end CallBundle.Amount
