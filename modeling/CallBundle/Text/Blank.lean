/-!
White space: the property `White_Space`, which has 25 characters, and the removal of white space from
both ends of a text.
-/

namespace CallBundle.Text

def isBlank (c : Char) : Bool :=
  let n := c.toNat
  (0x0009 ≤ n && n ≤ 0x000d) || n == 0x0020 || n == 0x0085 || n == 0x00a0 || n == 0x1680
    || (0x2000 ≤ n && n ≤ 0x200a) || n == 0x2028 || n == 0x2029 || n == 0x202f || n == 0x205f
    || n == 0x3000

/-- A text without the white space at its two ends. -/
def trim (cs : List Char) : List Char :=
  ((cs.dropWhile isBlank).reverse.dropWhile isBlank).reverse

end CallBundle.Text
