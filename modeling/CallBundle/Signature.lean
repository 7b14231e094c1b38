import CallBundle.Abi.Ty.Reader
import CallBundle.Bytes.Keccak

/-!
Function signatures: a name and, in parentheses, parameter types with commas between them.
-/

namespace CallBundle

/-- `text` is the signature as it was written, since the selector is the hash of that. -/
structure Signature where
  name : String
  inputs : List Abi.Ty
  text : String
  deriving DecidableEq

/-- The first four bytes of the hash of a signature's text. -/
def selectorOf (text : String) : Bytes :=
  (Keccak.hash (Bytes.ofText text)).take 4

namespace Signature

def selector (signature : Signature) : Bytes := selectorOf signature.text

/-- Letters and digits of ASCII, and the underscore. -/
def isWord (c : Char) : Bool := c.isAlphanum || c == '_'

def isTypeCharacter (c : Char) : Bool := isWord c || c == '[' || c == ']'

/-- The pieces between commas; a text without a comma is one piece. -/
def pieces : List Char → List (List Char)
  | [] => [[]]
  | c :: cs =>
    if c = ',' then [] :: pieces cs
    else match pieces cs with
      | [] => [[c]]
      | piece :: rest => (c :: piece) :: rest

def readInputs (raw : String) : List (List Char) → Except Failure (List Abi.Ty)
  | [] => return []
  | piece :: rest =>
    if piece = [] then .error (.invalidSignature raw .emptyType)
    else if piece.all isTypeCharacter then do
      let ty ← Abi.Ty.ofText (String.ofList piece)
      return ty :: (← readInputs raw rest)
    else .error (.invalidSignature raw .badTypeCharacter)

/-- What stands before the last character, if that is a closing parenthesis. -/
def unclose? (cs : List Char) : Option (List Char) :=
  if cs.getLast? = some ')' then some cs.dropLast else none

/-- Reads a signature; the first check to fail decides the failure. -/
def ofText (raw : String) : Except Failure Signature :=
  let fail (fault : SignatureFault) : Except Failure Signature :=
    .error (.invalidSignature raw fault)
  let name := raw.toList.takeWhile (· ≠ '(')
  match raw.toList.dropWhile (· ≠ '(') with
  | [] => fail .noOpenParen
  | _ :: rest =>
    if name = [] then fail .emptyName
    else if !name.all isWord then fail .badName
    else match unclose? rest with
      | none => fail .noCloseParen
      | some args =>
        if args.any (fun c => c == '(' || c == ')') then fail .nestedParens
        else do
          let tys ← readInputs raw (if args = [] then [] else pieces args)
          return ⟨String.ofList name, tys, raw⟩

end Signature

end CallBundle
