import QueryTree.Text.Digit
import QueryTree.Text.Printable

/-!
# Text inside messages

A message quotes a text in single quotes, or in double quotes if the text holds
single quotes only.  Backslashes, the quote itself and characters that are not
printable are written as escapes.

* `hex`        : a hexadecimal numeral of fixed width
* `quoteFor`   : the quote that suits a text
* `shownText`  : a quoted text
* `shownBytes` : a quoted byte string
-/

namespace QueryTree.Text

def hexDigit (d : Nat) : Char :=
  if d < 10 then Char.ofNat (48 + d) else Char.ofNat (87 + d)

/-- The last `width` hexadecimal digits of a number. -/
def hex : Nat → Nat → List Char
  | 0, _ => []
  | width + 1, n => hex width (n / 16) ++ [hexDigit (n % 16)]

/-- Single quotes, unless the text holds single and no double quotes. -/
def quoteFor (cs : List Char) : Char :=
  if cs.contains '\'' && !cs.contains '"' then '"' else '\''

/-- A character of a text in the given quotes. -/
def shownChar (quote c : Char) : List Char :=
  if c = quote ∨ c = '\\' then ['\\', c]
  else if c = '\n' then ['\\', 'n']
  else if c = '\r' then ['\\', 'r']
  else if c = '\t' then ['\\', 't']
  else if isPrintable c then [c]
  else if c.toNat < 0x100 then '\\' :: 'x' :: hex 2 c.toNat
  else if c.toNat < 0x10000 then '\\' :: 'u' :: hex 4 c.toNat
  else '\\' :: 'U' :: hex 8 c.toNat

def shownText (cs : List Char) : List Char :=
  let quote := quoteFor cs
  quote :: cs.flatMap (shownChar quote) ++ [quote]

/-- A byte of a byte string in the given quotes; only printable ASCII stands as it is. -/
def shownByte (quote : Char) (b : UInt8) : List Char :=
  let c := Char.ofNat b.toNat
  if c.toNat < 0x80 then shownChar quote c else '\\' :: 'x' :: hex 2 b.toNat

/-- A byte string in quotes, marked by a letter in front. -/
def shownBytes (bs : List UInt8) : List Char :=
  let quote := quoteFor (bs.map fun b => Char.ofNat b.toNat)
  'b' :: quote :: bs.flatMap (shownByte quote) ++ [quote]

end QueryTree.Text
