import QueryTree.Number.Layout

/-!
# Numbers

The numbers of a query are integers of any size and finite binary numbers.  Whole
numbers stay exact: an integer is never turned into a binary number.

* `Number`             : the two kinds of number
* `Number.units`       : the exact value, on one scale for both kinds
* `Number.sameValue`   : numeric equality across the kinds
* `Number.queryText`   : the text of a number in a query
* `digitLimit`, `Number.writable` : integers beyond the limit are not written
-/

namespace QueryTree

-- The powers of the core library, also where another library brings its own.
attribute [local instance (high)] instPowNat

/-- A number: an exact integer or a finite binary number. -/
inductive Number where
  | int (n : Int)
  | float (x : Binary64)
  deriving DecidableEq, Repr

/-- The greatest number of digits of an integer that is written or read. -/
def digitLimit : Nat := 4300

def writableInt (n : Int) : Bool :=
  n.natAbs < 10 ^ digitLimit

namespace Number

/-- The value as a multiple of `2^-1074`, on which both kinds of number agree. -/
def units : Number → Int
  | .int n => n * 2 ^ (1074 : Nat)
  | .float x => x.units

/-- Numeric equality: `1` and `1.0` are the same value, and so are the two zeros. -/
def sameValue (a b : Number) : Bool :=
  a.units == b.units

/-- The text of a number in a query: all digits of an integer, the shortest digits of a
    binary number. -/
def queryText : Number → List Char
  | .int n => Text.decimalInt n
  | .float x => Layout.query.write x

/-- Whether the number can be written: only integers beyond the digit limit cannot. -/
def writable : Number → Bool
  | .int n => writableInt n
  | .float _ => true

end Number

end QueryTree
