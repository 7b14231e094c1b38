import CallBundle.Text.GraphemeExtend
import CallBundle.Text.Unprintable

/-!
Text between double quotes. Tab, line feed, carriage return, the null character, the quote and the
backslash have short escapes; what has no form of its own on the page is written by its code point.
-/

namespace CallBundle.Text

/-- The code point of `c` in lower-case hexadecimal, in braces behind a backslash and a `u`. -/
def codePoint (c : Char) : List Char :=
  '\\' :: 'u' :: '{' :: Nat.toDigits 16 c.toNat ++ ['}']

/-- The halfwidth marks of voiced and half-voiced sound, which extend a grapheme and yet are written in
a place of their own. -/
def isSoundMark (c : Char) : Bool := c == '\uff9e' || c == '\uff9f'

def escape (c : Char) : List Char :=
  if c = '\t' then ['\\', 't']
  else if c = '\r' then ['\\', 'r']
  else if c = '\n' then ['\\', 'n']
  else if c = '\x00' then ['\\', '0']
  else if c = '"' then ['\\', '"']
  else if c = '\\' then ['\\', '\\']
  else if isGraphemeExtend c && !isSoundMark c || isUnprintable c then codePoint c
  else [c]

def quoted (text : String) : String :=
  String.ofList ('"' :: text.toList.flatMap escape ++ ['"'])

end CallBundle.Text
