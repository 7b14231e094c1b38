import CallBundle.Abi.Layout

/-!
Encoding with a bound on what can be reserved at once. The room for a head is reserved before its
components are looked at, and how much that is, the types alone say: a list that is far too short for
its type may ask for more than there is.
-/

namespace CallBundle.Abi

/-- No more than this can be reserved at once, whatever memory there is. -/
def capacityLimit : Nat := Nat.pow 2 63 - 1

/-- What ends an encoding early. A reservation that cannot be made is no failure of the call. -/
inductive Stop
  | failed : Failure → Stop
  | overCapacity : Stop

def reserve (capacity bytes : Nat) : Except Stop Unit :=
  if bytes ≤ capacity then return () else .error .overCapacity

/-- The size of a head, as it is announced. -/
def headBytes (tys : List Ty) : Nat := mulSize (headWords tys) 32

/-- What is reserved for `count` elements of a list: the head of a tuple of them, except that static
elements of a list of fixed length count as a word each. -/
def Ty.itemBytes : Ty → Nat → Nat
  | .array element, count => headBytes (List.replicate count element)
  | .fixedArray element _, count =>
    if element.isDynamic then headBytes (List.replicate count element) else mulSize count 32
  | _, _ => 0

/-- `encode` with at most `capacity` bytes to be reserved at once. -/
def encodeWithin (capacity : Nat) : Ty → Place → Value → Except Stop Bytes
  | .array element, place, v => do
    let vs ← (elements (.array element) place v).mapError .failed
    reserve capacity ((Ty.array element).itemBytes vs.length)
    let bodies ← eachFrom (fun i => encodeWithin capacity element (place.item i)) 0 vs
    return wordOfNat vs.length ++ layout (bodies.map fun _ => element) bodies
  | .fixedArray element length, place, v => do
    let vs ← (elementsOfLength (.fixedArray element length) length place v).mapError .failed
    reserve capacity ((Ty.fixedArray element length).itemBytes vs.length)
    let bodies ← eachFrom (fun i => encodeWithin capacity element (place.item i)) 0 vs
    return layout (bodies.map fun _ => element) bodies
  | ty, place, v => (encode ty place v).mapError .failed

/-- `encodeTuple` with at most `capacity` bytes to be reserved at once. -/
def encodeTupleWithin (capacity : Nat) (tys : List Ty) (vs : List Value) (place : Place) :
    Except Stop Bytes :=
  if tys.length = vs.length then do
    reserve capacity (headBytes tys)
    let bodies ← eachFrom (fun i (ty, v) => encodeWithin capacity ty (place.item i) v) 0 (tys.zip vs)
    return layout tys bodies
  else .error (.failed (.arityMismatch (.tuple place) tys.length vs.length))

def encodeCallWithin (capacity : Nat) (signature : Signature) (vs : List Value) :
    Except Stop Bytes :=
  if signature.inputs.length = vs.length then do
    let args ← encodeTupleWithin capacity signature.inputs vs (.ofRoot "arg")
    return signature.selector ++ args
  else
    .error (.failed (.arityMismatch (.parameters signature.text) signature.inputs.length vs.length))

def encodeCallTextWithin (capacity : Nat) (signature : String) (vs : List Value) :
    Except Stop Bytes := do
  let signature ← (Signature.ofText signature).mapError .failed
  encodeCallWithin capacity signature vs

end CallBundle.Abi
