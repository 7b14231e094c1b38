import CallBundle.Json.Reader

/-!
Passing over one value of JSON whose content does not matter. Arrays and objects may be nested to any
depth, numbers may be of any size, and escapes may name half a surrogate pair.
-/

namespace CallBundle.Json

inductive Container
  | array : Container
  | object : Container

namespace Reader

/-- Passes over what stands behind an opening quote, with the closing one. -/
def skipQuoted : Reader Unit :=
  loop (fun () => do
    let c ← next
    if c = '"' then return .inr ()
    else if c = '\\' then
      let c ← next
      if c = 'u' then discard codeUnit
      else if (shortEscape? c).isNone then failure
      return .inl ()
    else if c.toNat < 0x20 then failure
    else return .inl ()) ()

def skipKey : Reader Unit := do
  expect '"'
  skipQuoted
  expect ':'

/-- Closes containers up to one in which another value follows, and passes over the key of that value.
The open containers are given from the innermost outwards. -/
def afterValue : List Container → Reader (List Container ⊕ Unit)
  | [] => return .inr ()
  | .array :: stack => do
    skipSpaces
    match ← peek with
    | some ',' => drop; return .inl (.array :: stack)
    | some ']' => drop; afterValue stack
    | _ => failure
  | .object :: stack => do
    skipSpaces
    match ← peek with
    | some ',' => drop; skipKey; return .inl (.object :: stack)
    | some '}' => drop; afterValue stack
    | _ => failure

/-- Passes over a value without parts, or opens a container. -/
def skipStep (stack : List Container) : Reader (List Container ⊕ Unit) := do
  skipSpaces
  match ← peek with
  | some '[' =>
    drop
    skipSpaces
    if (← peek) = some ']' then
      drop
      afterValue stack
    else return .inl (.array :: stack)
  | some '{' =>
    drop
    skipSpaces
    if (← peek) = some '}' then
      drop
      afterValue stack
    else
      skipKey
      return .inl (.object :: stack)
  | some 'n' => word "null".toList; afterValue stack
  | some 't' => word "true".toList; afterValue stack
  | some 'f' => word "false".toList; afterValue stack
  | some '"' => drop; skipQuoted; afterValue stack
  | some c =>
    if startsNumber c then
      discard (number none)
      afterValue stack
    else failure
  | none => failure

def skipValue : Reader Unit := loop skipStep []

end Reader

end CallBundle.Json
