import CallBundle.Bytes.Hex
import CallBundle.Bytes.Keccak
import CallBundle.Text.Blank

/-!
Account addresses: twenty bytes, written in hexadecimal with letter case as a checksum and read in
any letter case.
-/

namespace CallBundle

structure Address where
  bytes : Bytes
  length_bytes : bytes.length = 20
  deriving DecidableEq

namespace Address

def zero : Address := ⟨Bytes.zeros 20, by simp⟩

def ofBytes? (bytes : Bytes) : Option Address :=
  if h : bytes.length = 20 then some ⟨bytes, h⟩ else none

def digits (a : Address) : List Char := Hex.encode a.bytes

/-- The half-bytes of a byte string, the high half of each byte first. -/
def halves (bytes : Bytes) : List Nat :=
  bytes.flatMap fun b => [b.toNat / 16, b.toNat % 16]

/-- The digits with the checksum in their letter case: a letter is upper case where the half-byte
at its place in the hash of the lower-case digits is eight or more. -/
def checksummed (a : Address) : List Char :=
  let marks := halves (Keccak.hash (Bytes.ofText (String.ofList a.digits)))
  a.digits.mapIdx fun i c => if 8 ≤ marks.getD i 0 then c.toUpper else c

def text (a : Address) : String :=
  String.ofList ('0' :: 'x' :: a.checksummed)

def plainText (a : Address) : String := Hex.text a.bytes

/-- Reads a marked text of forty digits, in any letter case and between any white space. -/
def ofText? (raw : String) : Option Address := do
  let digits ← Hex.unmarked? (Text.trim raw.toList)
  Address.ofBytes? (← Hex.decode? digits)

end Address

/-- Reads a marked text of any even number of digits, between any white space. -/
def Bytes.ofHexText? (raw : String) : Option Bytes := do
  Hex.decode? (← Hex.unmarked? (Text.trim raw.toList))

end CallBundle
