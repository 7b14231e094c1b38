import CallBundle.Bytes

/-!
Bytes as hexadecimal text: two digits a byte, lower case when written, either case when read.
Main statement: `decode?_encode`.
-/

namespace CallBundle.Hex

def digit? (c : Char) : Option Nat :=
  if '0' ≤ c ∧ c ≤ '9' then some (c.toNat - 48)
  else if 'a' ≤ c ∧ c ≤ 'f' then some (c.toNat - 87)
  else if 'A' ≤ c ∧ c ≤ 'F' then some (c.toNat - 55)
  else none

def isDigit (c : Char) : Bool := (digit? c).isSome

def encode : Bytes → List Char
  | [] => []
  | b :: bytes => Nat.digitChar (b.toNat / 16) :: Nat.digitChar (b.toNat % 16) :: encode bytes

/-- Reads pairs of digits; fails on any other character and on a digit left over. -/
def decode? : List Char → Option Bytes
  | [] => some []
  | [_] => none
  | high :: low :: rest => do
    let h ← digit? high
    let l ← digit? low
    let bytes ← decode? rest
    return UInt8.ofNat (16 * h + l) :: bytes

/-- What follows the mark `0x` or `0X`. -/
def unmarked? : List Char → Option (List Char)
  | '0' :: 'x' :: rest => some rest
  | '0' :: 'X' :: rest => some rest
  | _ => none

/-- The digits of `bytes` behind the mark `0x`. -/
def text (bytes : Bytes) : String :=
  String.ofList ('0' :: 'x' :: encode bytes)

/-- The digits of a number behind the mark `0x`, with no digit more than it needs. -/
def quantity (n : Nat) : String :=
  String.ofList ('0' :: 'x' :: Nat.toDigits 16 n)

theorem digit?_digitChar {n : Nat} (h : n < 16) : digit? (Nat.digitChar n) = some n := by
  have all : ∀ n < 16, digit? (Nat.digitChar n) = some n := by decide
  exact all n h

@[simp] theorem length_encode (bytes : Bytes) : (encode bytes).length = 2 * bytes.length := by
  induction bytes with
  | nil => rfl
  | cons b bytes ih => simp only [encode, List.length_cons, ih]; omega

theorem decode?_encode (bytes : Bytes) : decode? (encode bytes) = some bytes := by
  induction bytes with
  | nil => rfl
  | cons b bytes ih =>
    have hb := b.toNat_lt
    have hh : b.toNat / 16 < 16 := by omega
    have hl : b.toNat % 16 < 16 := by omega
    simp only [encode, decode?, digit?_digitChar hh, digit?_digitChar hl, ih, Option.pure_def,
      Option.bind_eq_bind, Option.bind_some, Nat.div_add_mod, UInt8.ofNat_toNat]

theorem length_of_decode? {cs : List Char} {bytes : Bytes} (h : decode? cs = some bytes) :
    cs.length = 2 * bytes.length := by
  fun_induction decode? cs generalizing bytes with
  | case1 => simp_all
  | case2 => simp at h
  | case3 high low rest ih =>
    simp only [Option.bind_eq_bind, Option.bind_eq_some_iff, Option.pure_def,
      Option.some.injEq] at h
    obtain ⟨_, _, _, _, bytes', hrest, rfl⟩ := h
    simp only [List.length_cons, ih hrest]
    omega

end CallBundle.Hex
