/-!
# Binary floating-point numbers

The finite numbers of the 64-bit binary format as exact data: a sign, a mantissa
and a power of two, in the one form that the format stores.  Rounding is done in
exact integer arithmetic.

* `Binary64`            : the finite numbers
* `Binary64.units`      : the exact value, as a multiple of the least positive number
* `roundHalfEven`       : rounding a quotient of naturals, a half going to the even side
* `Binary64.ofRatio?`   : the number nearest to a quotient
* `Binary64.ofDecimal?` : the number nearest to a decimal
-/

namespace QueryTree

-- The powers of the core library, also where another library brings its own.
attribute [local instance (high)] instPowNat

/-- A finite binary number `(-1)^negative * mantissa * 2^exponent`.  The mantissa has at most
    53 bits and the exponent is the least one that the format allows for the value, so equal
    fields are the only way to hold the same number with the same sign. -/
structure Binary64 where
  -- whether the sign bit is set; zero has both signs
  negative : Bool
  -- the integer mantissa
  mantissa : Nat
  -- the power of two that scales the mantissa
  exponent : Int
  -- numbers are normalised, except those below the normal range
  canonical : mantissa < 2 ^ (53 : Nat) ∧ -1074 ≤ exponent ∧ exponent ≤ 971 ∧
    (2 ^ (52 : Nat) ≤ mantissa ∨ exponent = -1074)
  deriving DecidableEq, Repr

/-! ## Rounding -/

/-- The natural number nearest to `num / den`; a half goes to the even neighbour. -/
def roundHalfEven (num den : Nat) : Nat :=
  let q := num / den
  let twice := 2 * (num % den)
  if twice < den then q
  else if den < twice then q + 1
  else q + q % 2

/-- The greatest `e` with `2^e ≤ num / den`, for positive arguments. -/
def floorLog2 (num den : Nat) : Int :=
  let e : Int := (num.log2 : Int) - den.log2
  if den * 2 ^ e.toNat ≤ num * 2 ^ (-e).toNat then e else e - 1

namespace Binary64

def zero (negative : Bool) : Binary64 :=
  ⟨negative, 0, -1074, by decide⟩

/-- The number with these parts, if they are in canonical form. -/
def ofParts? (negative : Bool) (mantissa : Nat) (exponent : Int) : Option Binary64 :=
  if h : mantissa < 2 ^ (53 : Nat) ∧ -1074 ≤ exponent ∧ exponent ≤ 971 ∧
      (2 ^ (52 : Nat) ≤ mantissa ∨ exponent = -1074) then
    some ⟨negative, mantissa, exponent, h⟩
  else none

/-- The number nearest to `num / den` with the given sign, ties to the even mantissa; none if
    the quotient rounds beyond the greatest finite number. -/
def ofRatio? (negative : Bool) (num den : Nat) : Option Binary64 :=
  if num = 0 then some (zero negative)
  else
    let k := max (-1074) (floorLog2 num den - 52)
    let m := roundHalfEven (num * 2 ^ (-k).toNat) (den * 2 ^ k.toNat)
    if m = 2 ^ (53 : Nat) then ofParts? negative (2 ^ (52 : Nat)) (k + 1) else ofParts? negative m k

/-- The number nearest to `coefficient * 10^exponent` with the given sign; none if that rounds
    beyond the greatest finite number.  Exponents that decide the answer by themselves are
    answered without computing the power. -/
def ofDecimal? (negative : Bool) (coefficient : Nat) (exponent : Int) : Option Binary64 :=
  if coefficient = 0 then some (zero negative)
  else if 400 < exponent then none
  else if exponent + coefficient.log2 < -400 then some (zero negative)
  else ofRatio? negative (coefficient * 10 ^ exponent.toNat) (10 ^ (-exponent).toNat)

/-! ## Exact value -/

def isZero (x : Binary64) : Bool :=
  x.mantissa == 0

/-- The value as a multiple of `2^-1074`, of which every finite number is one. -/
def units (x : Binary64) : Int :=
  let magnitude : Int := (x.mantissa * 2 ^ (x.exponent + 1074).toNat : Nat)
  if x.negative then -magnitude else magnitude

end Binary64

end QueryTree
