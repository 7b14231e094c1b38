import CallBundle.Bytes.Hex

/-!
Reading JSON from left to right. A reader that fails has still taken what it looked at: where a failure
is passed over, reading goes on behind it.
-/

namespace CallBundle.Json

/-- Takes characters from the front of a text, and may fail. -/
abbrev Reader := OptionT (StateM (List Char))

namespace Reader

def peek : Reader (Option Char) := do return (← get).head?

def drop : Reader Unit := modify List.tail

def next : Reader Char := do
  match ← peek with
  | some c => drop; return c
  | none => failure

/-- Fails at the next byte, which is taken. The rest of a longer character cannot be read, nor what
follows it. -/
def refuse {α : Type} : Reader α := do
  modify fun
    | [] => []
    | c :: cs => if c.utf8Size = 1 then cs else []
  failure

def attempt {α : Type} (reader : Reader α) : Reader (Option α) := OptionT.mk (some <$> reader.run)

/-- Takes turns until one gives a result: one turn for each of the given characters at most, and a last
one behind them. -/
def turns {σ α : Type} (turn : σ → Reader (σ ⊕ α)) : List Char → σ → Reader α
  | [], s => do
    match ← turn s with
    | .inl _ => failure
    | .inr a => return a
  | _ :: cs, s => do
    match ← turn s with
    | .inl s => turns turn cs s
    | .inr a => return a

/-- Takes turns until one gives a result. A turn without a result has to take a character, so that the
turns come to an end with the text. -/
def loop {σ α : Type} (turn : σ → Reader (σ ⊕ α)) (s : σ) : Reader α := do
  turns turn (← get) s

def isSpace (c : Char) : Bool := c == ' ' || c == '\t' || c == '\n' || c == '\r'

def skipSpaces : Reader Unit := modify (List.dropWhile isSpace)

/-- Takes one character behind any spaces. -/
def expect (c : Char) : Reader Unit := do
  skipSpaces
  if (← peek) = some c then drop else failure

/-- Takes the given characters. One that is not as given is taken as well. -/
def word : List Char → Reader Unit
  | [] => return ()
  | c :: cs => do
    if (← peek) = some c then
      drop
      word cs
    else refuse

/-! ## Texts -/

def shortEscape? (c : Char) : Option Char :=
  match c with
  | '"' => some '"'
  | '\\' => some '\\'
  | '/' => some '/'
  | 'b' => some '\x08'
  | 'f' => some '\x0c'
  | 'n' => some '\n'
  | 'r' => some '\r'
  | 't' => some '\t'
  | _ => none

/-- What follows the first `n` bytes, which is nothing if they end inside a character. -/
def dropBytes : Nat → List Char → List Char
  | 0, cs => cs
  | _ + 1, [] => []
  | n + 1, c :: cs => if c.utf8Size ≤ n + 1 then dropBytes (n + 1 - c.utf8Size) cs else []

def codeUnit? : List Char → Option Nat
  | a :: b :: c :: d :: _ => do
    return 4096 * (← Hex.digit? a) + 256 * (← Hex.digit? b) + 16 * (← Hex.digit? c) + (← Hex.digit? d)
  | _ => none

/-- Takes four bytes, which have to be the digits of a code unit. -/
def codeUnit : Reader Nat := do
  let cs ← get
  set (dropBytes 4 cs)
  match codeUnit? cs with
  | some unit => return unit
  | none => failure

def isHighSurrogate (unit : Nat) : Bool := 0xd800 ≤ unit && unit ≤ 0xdbff

def isLowSurrogate (unit : Nat) : Bool := 0xdc00 ≤ unit && unit ≤ 0xdfff

def ofSurrogates (high low : Nat) : Char :=
  Char.ofNat (0x10000 + 0x400 * (high - 0xd800) + (low - 0xdc00))

/-- A character by its code unit, or by the two of a surrogate pair. Neither half of a pair stands
alone. -/
def codePoint : Reader Char := do
  let unit ← codeUnit
  if isLowSurrogate unit then failure
  else if isHighSurrogate unit then
    word ['\\', 'u']
    let low ← codeUnit
    if isLowSurrogate low then return ofSurrogates unit low else failure
  else return Char.ofNat unit

def escaped : Reader Char := do
  match ← peek with
  | none => failure
  | some 'u' => drop; codePoint
  | some c =>
    match shortEscape? c with
    | some c => drop; return c
    | none => refuse

/-- The text behind an opening quote, up to the closing one. Control characters have to be escaped. -/
def quoted : Reader String :=
  loop (fun taken => do
    let c ← next
    if c = '"' then return .inr (String.ofList taken.reverse)
    else if c = '\\' then return .inl ((← escaped) :: taken)
    else if c.toNat < 0x20 then failure
    else return .inl (c :: taken)) []

/-! ## Numbers -/

def digits : Reader (List Char) := do
  let cs ← get
  set (cs.dropWhile Char.isDigit)
  return cs.takeWhile Char.isDigit

/-- The digits of an integer, which has no leading zero. -/
def integer : Reader (List Char) := do
  match ← peek with
  | some '0' =>
    drop
    if (← peek).any Char.isDigit then failure else return ['0']
  | some c => if c.isDigit then digits else refuse
  | none => failure

def fraction : Reader (List Char) := do
  if (← peek) = some '.' then
    drop
    match ← digits with
    | [] => failure
    | ds => return ds
  else return []

/-- Takes the digits of an exponent, up to one that takes it past the limit, if there is one. -/
def exponentDigits (limit : Option Nat) : Reader Unit :=
  loop (fun n => do
    match ← peek with
    | some c =>
      if c.isDigit then
        drop
        let n := 10 * n + (c.toNat - 48)
        if limit.any (· < n) then failure else return .inl n
      else return .inr ()
    | none => return .inr ()) 0

/-- Takes an exponent, if there is one, and tells whether there was. The limit is for exponents that
are not negative. -/
def exponent (limit : Option Nat) : Reader Bool := do
  if (← peek).any fun c => c == 'e' || c == 'E' then
    drop
    let sign ← peek
    if sign = some '+' ∨ sign = some '-' then drop
    if (← peek).any Char.isDigit then
      exponentDigits (if sign = some '-' then none else limit)
      return true
    else refuse
  else return false

/-- Takes a number, which is given if it is written in digits alone. The limit is for the exponent of
a number other than zero. -/
def number (limit : Option Nat) : Reader (Option Nat) := do
  let negative := (← peek) = some '-'
  if negative then drop
  let whole ← integer
  let part ← fraction
  let scaled ← exponent (if (whole ++ part).all (· == '0') then none else limit)
  if negative ∨ part ≠ [] ∨ scaled then return none
  else return some (Nat.ofDigitChars 10 whole 0)

def startsNumber (c : Char) : Bool := c == '-' || c.isDigit

end Reader

/-! ## Values without parts -/

/-- A number is kept if it is written in digits alone: only then is it ever asked for. -/
inductive Scalar
  | null : Scalar
  | bool : Bool → Scalar
  | number : Option Nat → Scalar
  | text : String → Scalar

namespace Reader

/-- The highest exponent of a number that is read for its value. -/
def maxExponent : Nat := Nat.pow 2 31 - 1

def scalar : Reader Scalar := do
  skipSpaces
  match ← peek with
  | some 'n' => word "null".toList; return .null
  | some 't' => word "true".toList; return .bool true
  | some 'f' => word "false".toList; return .bool false
  | some '"' => drop; return .text (← quoted)
  | some c => if startsNumber c then return .number (← number (some maxExponent)) else failure
  | none => failure

def ofText? {α : Type} (reader : Reader α) (text : String) : Option α := do
  let (a, rest) := reader.run text.toList
  if rest.all isSpace then a else none

end Reader

end CallBundle.Json
