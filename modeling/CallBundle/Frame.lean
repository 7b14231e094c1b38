import CallBundle.Action
import CallBundle.Failure

/-!
Call scripts: an identifier of the format in four bytes, then one frame for each call, which is the
address of its target, the length of its data in four bytes, and the data. Nothing about the data is
looked at.
-/

namespace CallBundle

structure Frame where
  target : Address
  data : Bytes
  deriving DecidableEq

structure Script where
  specId : UInt32
  frames : List Frame
  deriving DecidableEq

namespace Frame

def ofAction (action : Action) : Frame := ⟨action.target, action.data⟩

/-- A frame whose data is too long for the length field has no bytes. -/
def toBytes? (frame : Frame) : Option Bytes :=
  if frame.data.length < Nat.pow 2 32 then
    some (frame.target.bytes ++ Bytes.ofNat 4 frame.data.length ++ frame.data)
  else none

end Frame

namespace Script

def defaultSpecId : UInt32 := 1

/-- The bytes of frames one after another; `index` is that of the first. -/
def framesToBytes : Nat → List Frame → Except Failure Bytes
  | _, [] => return []
  | index, frame :: frames =>
    match frame.toBytes? with
    | none => .error (.malformedScript (.payloadTooLong index frame.data.length))
    | some bytes => do return bytes ++ (← framesToBytes (index + 1) frames)

def toBytes (script : Script) : Except Failure Bytes := do
  return Bytes.ofNat 4 script.specId.toNat ++ (← framesToBytes 0 script.frames)

/-- The script that calls each action in order, leaving out the value. -/
def ofActions (specId : UInt32) (actions : List Action) : Script :=
  ⟨specId, actions.map .ofAction⟩

/-- Reads frames up to the end of the bytes; `offset` is where they start in the script. -/
def readFrames (offset : Nat) (bytes : Bytes) : Except Failure (List Frame) :=
  if bytes = [] then .ok []
  else if h : (bytes.take 20).length = 20 then
    let lengthField := (bytes.drop 20).take 4
    let length := Bytes.toNat lengthField
    let data := (bytes.drop 24).take length
    if lengthField.length < 4 then .error (.malformedScript (.truncatedLength (offset + 20)))
    else if data.length < length then
      .error (.malformedScript (.truncatedPayload length (offset + 24)))
    else do
      let frames ← readFrames (offset + 24 + length) (bytes.drop (24 + length))
      return ⟨⟨bytes.take 20, h⟩, data⟩ :: frames
  else .error (.malformedScript (.truncatedAddress offset))
termination_by bytes.length
decreasing_by simp_all; omega

def ofBytes (bytes : Bytes) : Except Failure Script :=
  if bytes.length < 4 then .error (.malformedScript (.noHeader bytes.length))
  else do
    let frames ← readFrames 4 (bytes.drop 4)
    return ⟨UInt32.ofNat (Bytes.toNat (bytes.take 4)), frames⟩

end Script

end CallBundle
