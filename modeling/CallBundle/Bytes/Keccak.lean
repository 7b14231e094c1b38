import CallBundle.Bytes

/-!
The hash keccak-256: the Keccak-f[1600] permutation under a sponge of rate 136 bytes, with the
padding that begins with the byte `0x01`.
-/

namespace CallBundle.Keccak

/-- Five by five lanes; the lane of column `x` and row `y` stands at `x + 5 * y`. -/
abbrev State := Vector UInt64 25

/-- The lane at column `x` and row `y`, both taken modulo five. -/
def State.lane (s : State) (x y : Nat) : UInt64 :=
  s.get ⟨x % 5 + 5 * (y % 5), by omega⟩

def State.ofLanes (lane : Nat → Nat → UInt64) : State :=
  Vector.ofFn fun i => lane (i.val % 5) (i.val / 5)

def rotateLeft (lane : UInt64) (amount : Nat) : UInt64 :=
  if amount % 64 = 0 then lane
  else lane <<< UInt64.ofNat (amount % 64) ||| lane >>> UInt64.ofNat (64 - amount % 64)

/-- How far the lane at column `x` and row `y` turns. -/
def rotation (x y : Nat) : Nat :=
  [ 0, 1, 62, 28, 27,
    36, 44, 6, 55, 20,
    3, 10, 43, 25, 39,
    41, 45, 15, 21, 8,
    18, 2, 61, 56, 14].getD (x % 5 + 5 * (y % 5)) 0

def roundConstants : List UInt64 :=
  [ 0x0000000000000001, 0x0000000000008082, 0x800000000000808a, 0x8000000080008000,
    0x000000000000808b, 0x0000000080000001, 0x8000000080008081, 0x8000000000008009,
    0x000000000000008a, 0x0000000000000088, 0x0000000080008009, 0x000000008000000a,
    0x000000008000808b, 0x800000000000008b, 0x8000000000008089, 0x8000000000008003,
    0x8000000000008002, 0x8000000000000080, 0x000000000000800a, 0x800000008000000a,
    0x8000000080008081, 0x8000000000008080, 0x0000000080000001, 0x8000000080008008]

def State.parity (s : State) (x : Nat) : UInt64 :=
  s.lane x 0 ^^^ s.lane x 1 ^^^ s.lane x 2 ^^^ s.lane x 3 ^^^ s.lane x 4

/-- Adds to each lane the parities of the columns to its left and, turned by one, to its right. -/
def State.theta (s : State) : State :=
  let parities : Vector UInt64 5 := Vector.ofFn fun x => s.parity x.val
  let parity (x : Nat) : UInt64 := parities.get ⟨x % 5, by omega⟩
  .ofLanes fun x y => s.lane x y ^^^ parity (x + 4) ^^^ rotateLeft (parity (x + 1)) 1

/-- Turns each lane and moves the one at `x, y` to `y, 2 * x + 3 * y`. -/
def State.rhoPi (s : State) : State :=
  .ofLanes fun x y => rotateLeft (s.lane (x + 3 * y) x) (rotation (x + 3 * y) x)

/-- Mixes each lane with the two lanes to its right. -/
def State.chi (s : State) : State :=
  .ofLanes fun x y => s.lane x y ^^^ (~~~ s.lane (x + 1) y &&& s.lane (x + 2) y)

def State.iota (s : State) (constant : UInt64) : State :=
  s.set 0 (s[0] ^^^ constant)

def State.permute (s : State) : State :=
  roundConstants.foldl (fun s constant => (s.theta.rhoPi.chi).iota constant) s

/-- The rate of the sponge, in bytes. -/
def rate : Nat := 136

/-- A lane from its eight bytes, least significant first. -/
def laneOfBytes (bytes : Bytes) : UInt64 :=
  UInt64.ofNat (Bytes.toNat bytes.reverse)

def bytesOfLane (lane : UInt64) : Bytes :=
  (Bytes.ofNat 8 lane.toNat).reverse

/-- Adds a block of `rate` bytes to the state and permutes it. -/
def State.absorb (s : State) (block : Bytes) : State :=
  let lanes := Vector.ofFn fun i : Fin 25 => laneOfBytes ((block.drop (8 * i.val)).take 8)
  State.permute (Vector.zipWith (· ^^^ ·) s lanes)

/-- The bytes that fill a message of the given length up to a multiple of the rate. -/
def padding (length : Nat) : Bytes :=
  match rate - length % rate with
  | 0 => []
  | 1 => [0x81]
  | n + 2 => 0x01 :: Bytes.zeros n ++ [0x80]

def blocks (message : Bytes) : List Bytes :=
  let padded := message ++ padding message.length
  (List.range (padded.length / rate)).map fun i => (padded.drop (rate * i)).take rate

def hash (message : Bytes) : Bytes :=
  let s := (blocks message).foldl State.absorb (Vector.replicate 25 0)
  ((s.toList.take 4).flatMap bytesOfLane)

@[simp] theorem length_hash (message : Bytes) : (hash message).length = 32 := by
  simp only [hash]
  generalize List.foldl State.absorb _ (blocks message) = s
  match h : s.toList with
  | a :: b :: c :: d :: _ => simp [bytesOfLane]
  | [] | [_] | [_, _] | [_, _, _] => exact absurd (congrArg List.length h) (by simp)

end CallBundle.Keccak
