import QueryTree.Number.Basic
import QueryTree.Text.Blank

/-!
# Reading numbers

The numerals that a number may be written as: an optional sign, digits with an
optional point, and an optional exponent.  Digits are decimal digits of any
script.

* `Numeral`        : the parts of a numeral
* `Numeral.scan?`  : a text as a numeral, all of it
* `Numeral.binary?`: the binary number nearest to what a numeral denotes
* `Number.read`    : trimmed text as a number; integers stay exact
-/

namespace QueryTree

/-! ## Scanning -/

structure Numeral where
  -- whether a minus sign stands in front
  negative : Bool
  whole : List Nat
  point : Bool
  fraction : List Nat
  -- the exponent, if there is one: whether it is negative, and its digit values
  exponent : Option (Bool × List Nat)
  deriving DecidableEq, Repr

/-- Splits an optional sign off a text; the flag says whether it was a minus sign. -/
def takeSign : List Char → Bool × List Char
  | '-' :: cs => (true, cs)
  | '+' :: cs => (false, cs)
  | cs => (false, cs)

def takeDigits : List Char → List Nat × List Char
  | [] => ([], [])
  | c :: cs =>
    match Text.digitValue? c with
    | some d => let (ds, rest) := takeDigits cs; (d :: ds, rest)
    | none => ([], c :: cs)

namespace Numeral

/-- The exponent part of a numeral, which is all that may follow its digits. -/
def scanExponent? : List Char → Option (Option (Bool × List Nat))
  | [] => some none
  | c :: cs =>
    if c = 'e' ∨ c = 'E' then
      let (negative, cs) := takeSign cs
      let (ds, rest) := takeDigits cs
      if ds.isEmpty || !rest.isEmpty then none else some (some (negative, ds))
    else none

/-- A text as a numeral; there has to be a digit before or behind the point, and nothing may be
    left over. -/
def scan? (cs : List Char) : Option Numeral :=
  let (negative, cs) := takeSign cs
  let (whole, cs) := takeDigits cs
  let (point, fraction, cs) :=
    match cs with
    | '.' :: rest => let (ds, rest) := takeDigits rest; (true, ds, rest)
    | _ => (false, [], cs)
  if whole.isEmpty && fraction.isEmpty then none
  else (scanExponent? cs).map fun exponent => { negative, whole, point, fraction, exponent }

/-! ## Value -/

/-- A numeral without point and exponent denotes an integer. -/
def isInteger (n : Numeral) : Bool :=
  !n.point && n.exponent.isNone

def integer (n : Numeral) : Int :=
  if n.negative then -(Text.ofDigits n.whole : Int) else Text.ofDigits n.whole

/-- The power of ten of the last digit. -/
def scale (n : Numeral) : Int :=
  let e : Int :=
    match n.exponent with
    | none => 0
    | some (negative, ds) => if negative then -(Text.ofDigits ds : Int) else Text.ofDigits ds
  e - n.fraction.length

/-- The binary number nearest to the decimal that the numeral denotes; none beyond the greatest
    finite one. -/
def binary? (n : Numeral) : Option Binary64 :=
  Binary64.ofDecimal? n.negative (Text.ofDigits (n.whole ++ n.fraction)) n.scale

end Numeral

/-! ## Numbers -/

inductive NumberError where
  -- the text is no numeral, or denotes a number beyond the finite binary numbers
  | unreadable
  -- the text is an integer numeral of more digits than the limit
  | tooManyDigits (count : Nat)
  deriving DecidableEq, Repr

/-- Trimmed text as a number: integer numerals give the integer, all other numerals the nearest
    binary number. -/
def Number.read (cs : List Char) : Except NumberError Number :=
  match Numeral.scan? (Text.trim cs) with
  | none => .error .unreadable
  | some n =>
    if n.isInteger then
      if digitLimit < n.whole.length then .error (.tooManyDigits n.whole.length)
      else .ok (.int n.integer)
    else
      match n.binary? with
      | some x => .ok (.float x)
      | none => .error .unreadable

end QueryTree
