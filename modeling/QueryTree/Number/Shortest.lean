import QueryTree.Number.Binary64
import QueryTree.Text.Digit

/-!
# Shortest decimals

The shortest decimal that reads back as a given binary number: of the decimals in
the interval of reals that round to the number, those with the fewest digits, and
of these the one nearest to the number.

* `Decimal`            : a natural coefficient and a power of ten
* `RoundingInterval`   : the reals that round to a positive number
* `Binary64.shortest`  : the shortest decimal of a number's magnitude

The search tries ever finer grids of decimals, from the powers of ten on; on each grid
only the two neighbours of the value can be nearest, and seventeen digits always suffice.
-/

namespace QueryTree

-- The powers of the core library, also where another library brings its own.
attribute [local instance (high)] instPowNat

structure Decimal where
  -- the digits, read as a natural number
  coefficient : Nat
  -- the power of ten of the last digit
  exponent : Int
  deriving DecidableEq, Repr

/-! ## The interval of a number -/

/-- The reals that round to a number, in quarters of its last binary place: the centre and the
    two ends over a common denominator.  The ends belong to the interval when the mantissa is
    even, because a tie goes to the even side. -/
structure RoundingInterval where
  -- numerator of the lower end
  lower : Nat
  -- numerator of the number itself
  centre : Nat
  -- numerator of the upper end
  upper : Nat
  -- the common denominator
  denominator : Nat
  -- whether the ends round to the number too
  closed : Bool
  deriving DecidableEq, Repr

/-- The interval of a nonzero magnitude.  Below a power of two the numbers lie twice as close,
    so there the lower half is half as long. -/
def Binary64.interval (x : Binary64) : RoundingInterval :=
  let scale := 2 ^ (x.exponent - 2).toNat
  let below := if x.mantissa = 2 ^ (52 : Nat) ∧ -1074 < x.exponent then 1 else 2
  { lower := (4 * x.mantissa - below) * scale
    centre := 4 * x.mantissa * scale
    upper := (4 * x.mantissa + 2) * scale
    denominator := 2 ^ (2 - x.exponent).toNat
    closed := x.mantissa % 2 == 0 }

namespace RoundingInterval

/-- The interval with numerators and denominator scaled so that the decimals with the last
    place `10^g` are the integers times `denominator`. -/
def onGrid (r : RoundingInterval) (g : Int) : RoundingInterval :=
  { r with
    lower := r.lower * 10 ^ (-g).toNat
    centre := r.centre * 10 ^ (-g).toNat
    upper := r.upper * 10 ^ (-g).toNat
    denominator := r.denominator * 10 ^ g.toNat }

def contains (r : RoundingInterval) (k : Nat) : Bool :=
  let x := k * r.denominator
  if r.closed then r.lower ≤ x && x ≤ r.upper else r.lower < x && x < r.upper

/-- The integer of the interval nearest to its centre, if one of the centre's two neighbours
    lies in it; a tie goes to the even one. -/
def nearest? (r : RoundingInterval) : Option Nat :=
  let k := r.centre / r.denominator
  match r.contains k, r.contains (k + 1) with
  | true, true => some (roundHalfEven r.centre r.denominator)
  | true, false => some k
  | false, true => some (k + 1)
  | false, false => none

end RoundingInterval

/-! ## The search -/

/-- The greatest `e` with `10^e ≤ num / den`, for positive arguments: one less than the number
    of digits of the quotient, or found from the digits of the inverse quotient below one. -/
def floorLog10 (num den : Nat) : Int :=
  if den ≤ num then (Text.digits (num / den)).length - 1
  else
    let places := (Text.digits (den / num)).length
    if den ≤ num * 10 ^ (places - 1) then 1 - (places : Int) else -places

/-- The shortest decimal that rounds to the magnitude of the number; zero for zero. -/
def Binary64.shortest (x : Binary64) : Decimal :=
  if x.isZero then ⟨0, 0⟩
  else
    let r := x.interval
    let top := floorLog10 r.centre r.denominator
    let onPlace (i : Nat) : Option Decimal :=
      let g := top + 1 - i
      (r.onGrid g).nearest?.map fun k => ⟨k, g⟩
    ((List.range 18).findSome? onPlace).getD ⟨0, 0⟩

end QueryTree
