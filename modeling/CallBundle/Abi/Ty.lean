/-!
The types of contract parameters. Tuples are not among them. Main statement:
`staticWords_eq_none_iff`, so exactly the dynamic types have no fixed size.
-/

namespace CallBundle.Abi

/-- Sizes are counted up to this bound and stay at it beyond. -/
def sizeLimit : Nat := Nat.pow 2 64 - 1

def addSize (m n : Nat) : Nat := min (m + n) sizeLimit

def mulSize (m n : Nat) : Nat := min (m * n) sizeLimit

/-- Integer types carry their width in bits, `fixedBytes` its width in bytes, `fixedArray` its
length. A type built by hand may carry any number. -/
inductive Ty
  | address : Ty
  | bool : Ty
  | string : Ty
  | bytes : Ty
  | fixedBytes : Nat → Ty
  | uint : Nat → Ty
  | int : Nat → Ty
  | array : Ty → Ty
  | fixedArray : Ty → Nat → Ty
  deriving DecidableEq

namespace Ty

def isDynamic : Ty → Bool
  | .string => true
  | .bytes => true
  | .array _ => true
  | .fixedArray element _ => element.isDynamic
  | _ => false

def staticWords : Ty → Option Nat
  | .string => none
  | .bytes => none
  | .array _ => none
  | .fixedArray element length => element.staticWords.map (mulSize · length)
  | _ => some 1

/-- The canonical text of a type, as it stands in a signature. -/
def chars : Ty → List Char
  | .address => "address".toList
  | .bool => "bool".toList
  | .string => "string".toList
  | .bytes => "bytes".toList
  | .fixedBytes width => "bytes".toList ++ Nat.toDigits 10 width
  | .uint bits => "uint".toList ++ Nat.toDigits 10 bits
  | .int bits => "int".toList ++ Nat.toDigits 10 bits
  | .array element => element.chars ++ ['[', ']']
  | .fixedArray element length => element.chars ++ '[' :: Nat.toDigits 10 length ++ [']']

def text (ty : Ty) : String := String.ofList ty.chars

instance : ToString Ty := ⟨text⟩

/-- Whether values of a scalar type have a place in a word of 32 bytes. -/
def hasEncodableWidth : Ty → Bool
  | .uint bits => 0 < bits && bits ≤ 256 && bits % 8 == 0
  | .int bits => 0 < bits && bits ≤ 256 && bits % 8 == 0
  | .fixedBytes width => 0 < width && width ≤ 32
  | _ => true

theorem staticWords_eq_none_iff (ty : Ty) : ty.staticWords = none ↔ ty.isDynamic := by
  induction ty with
  | fixedArray element length ih => simp [staticWords, isDynamic, ih]
  | _ => simp [staticWords, isDynamic]

end Ty

end CallBundle.Abi
