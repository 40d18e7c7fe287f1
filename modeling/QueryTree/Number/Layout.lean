import QueryTree.Number.Shortest

/-!
# Layouts of decimal numbers

How the digits of a decimal are written down: positionally or with an exponent,
with or without a fraction that is only a zero.

* `Layout`          : the decisions of a number format
* `Layout.shown`    : the format of numbers inside messages
* `Layout.query`    : the format of numbers inside queries
* `Layout.magnitude`, `Layout.write` : the text of a decimal, of a signed decimal
-/

namespace QueryTree

/-- The decisions that a text format for numbers makes about a string of digits. -/
structure Layout where
  -- the least decimal exponent (of the first digit) that is written positionally
  leastPositional : Int
  -- the greatest decimal exponent (of the first digit) that is written positionally
  greatestPositional : Int
  -- whether an integral number written positionally ends in `.0`
  fractionZero : Bool
  -- the least number of digits in a written exponent
  exponentWidth : Nat
  -- whether a negative zero keeps its sign
  signedZero : Bool
  deriving DecidableEq, Repr

namespace Layout

/-- Numbers shown inside messages are positional from `0.0001` up to below `10^16`, keep `.0`,
    and have exponents of at least two digits. -/
def shown : Layout := ⟨-4, 15, true, 2, true⟩

/-- Numbers in a query are positional from `0.000001` up to below `10^21`, integral ones drop
    the fraction, and exponents are not filled up. -/
def query : Layout := ⟨-6, 20, false, 1, false⟩

/-! ## Digits and point -/

/-- An exponent is always signed and is filled up to the width of the format. -/
def exponentText (l : Layout) (e : Int) : List Char :=
  'e' :: (if e < 0 then '-' else '+') :: Text.padded l.exponentWidth e.natAbs

/-- A string of digits with the point behind its first `whole` digits: zeros fill up what is
    missing on either side. -/
def positional (l : Layout) (ds : List Char) (whole : Int) : List Char :=
  if whole ≤ 0 then '0' :: '.' :: List.replicate (-whole).toNat '0' ++ ds
  else if (ds.length : Int) ≤ whole then
    ds ++ List.replicate (whole.toNat - ds.length) '0' ++ (if l.fractionZero then ['.', '0'] else [])
  else ds.take whole.toNat ++ '.' :: ds.drop whole.toNat

/-- A string of digits in scientific form, the point behind the first digit. -/
def scientific (l : Layout) (ds : List Char) (e : Int) : List Char :=
  match ds with
  | [] => []
  | [d] => d :: l.exponentText e
  | d :: rest => d :: '.' :: rest ++ l.exponentText e

/-- The text of a decimal; which form it takes depends on the exponent of its first digit. -/
def magnitude (l : Layout) (d : Decimal) : List Char :=
  let ds := Text.decimal d.coefficient
  let e := d.exponent + ds.length - 1
  if d.coefficient = 0 then l.positional ds 1
  else if l.leastPositional ≤ e ∧ e ≤ l.greatestPositional then l.positional ds (e + 1)
  else l.scientific ds e

/-- The text of a binary number: its sign and its shortest decimal. -/
def write (l : Layout) (x : Binary64) : List Char :=
  if x.negative && (l.signedZero || !x.isZero) then '-' :: l.magnitude x.shortest
  else l.magnitude x.shortest

end Layout

end QueryTree
