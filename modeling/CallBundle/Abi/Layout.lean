import CallBundle.Abi.Word
import CallBundle.Signature

/-!
Encoding values in the head and tail layout. Each component of a tuple has its part in the head:
a static one stands there itself, a dynamic one leaves the distance to its body in the tail. There is
taken to be room for every head; `encodeTupleWithin` is the encoding that asks for it.
-/

namespace CallBundle.Abi

/-- Applies `f` to each element under its index, from left to right, up to the first failure. -/
def eachFrom {ε α β : Type} (f : Nat → α → Except ε β) : Nat → List α → Except ε (List β)
  | _, [] => return []
  | i, a :: as => do
    let b ← f i a
    return b :: (← eachFrom f (i + 1) as)

def headWords (tys : List Ty) : Nat :=
  tys.foldl (fun words ty => addSize words (ty.staticWords.getD 1)) 0

/-- The head and the tail of a tuple, from the encoded components with their types; `offset` is the
distance from the start of the tuple to the end of the tail so far. -/
def headAndTail : Nat → List (Ty × Bytes) → Bytes × Bytes
  | _, [] => ([], [])
  | offset, (ty, body) :: rest =>
    if ty.isDynamic then
      let (head, tail) := headAndTail (addSize offset body.length) rest
      (wordOfNat offset ++ head, body ++ tail)
    else
      let (head, tail) := headAndTail offset rest
      (body ++ head, tail)

/-- Lays out encoded components one after another, all heads before all tails. -/
def layout (tys : List Ty) (bodies : List Bytes) : Bytes :=
  let (head, tail) := headAndTail (mulSize (headWords tys) 32) (tys.zip bodies)
  head ++ tail

/-- A length word and the bytes, filled up to a whole number of words. -/
def encodeBlob (bytes : Bytes) : Bytes :=
  wordOfNat bytes.length ++ bytes ++ Bytes.zeros ((32 - bytes.length % 32) % 32)

def elements (ty : Ty) (place : Place) : Value → Except Failure (List Value)
  | .array vs => .ok vs
  | v => .error (.typeMismatch place ty v)

def elementsOfLength (ty : Ty) (length : Nat) (place : Place) (v : Value) :
    Except Failure (List Value) := do
  let vs ← elements ty place v
  if vs.length = length then return vs
  else .error (.arityMismatch (.fixedArray place ty) length vs.length)

/-- Encodes a value without the offset that leads to it. -/
def encode : Ty → Place → Value → Except Failure Bytes
  | .array element, place, v => do
    let vs ← elements (.array element) place v
    let bodies ← eachFrom (fun i => encode element (place.item i)) 0 vs
    return wordOfNat vs.length ++ layout (bodies.map fun _ => element) bodies
  | .fixedArray element length, place, v => do
    let vs ← elementsOfLength (.fixedArray element length) length place v
    let bodies ← eachFrom (fun i => encode element (place.item i)) 0 vs
    return layout (bodies.map fun _ => element) bodies
  | .bytes, place, v =>
    match v.blob? with
    | some b => .ok (encodeBlob b)
    | none => .error (.typeMismatch place .bytes v)
  | .string, place, v =>
    match v with
    | .string s => .ok (encodeBlob (Bytes.ofText s))
    | v => .error (.typeMismatch place .string v)
  | ty, place, v => encodeWord ty place v

def encodeTuple (tys : List Ty) (vs : List Value) (place : Place) : Except Failure Bytes :=
  if tys.length = vs.length then do
    let bodies ← eachFrom (fun i (ty, v) => encode ty (place.item i) v) 0 (tys.zip vs)
    return layout tys bodies
  else .error (.arityMismatch (.tuple place) tys.length vs.length)

/-- The data of a call: the selector of the signature and the encoded arguments. -/
def encodeCall (signature : Signature) (vs : List Value) : Except Failure Bytes :=
  if signature.inputs.length = vs.length then do
    let args ← encodeTuple signature.inputs vs (.ofRoot "arg")
    return signature.selector ++ args
  else .error (.arityMismatch (.parameters signature.text) signature.inputs.length vs.length)

def encodeCallText (signature : String) (vs : List Value) : Except Failure Bytes := do
  encodeCall (← Signature.ofText signature) vs

end CallBundle.Abi
