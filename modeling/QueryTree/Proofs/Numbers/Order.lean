import Mathlib.Algebra.Order.AbsoluteValue.Basic
import QueryTree.Proofs.Numbers.Shortest

/-!
# The order of binary numbers

The rounding intervals of binary numbers lie side by side, in the order of the numbers.  So the
shortest decimals of two numbers compare like the numbers themselves.

* `Binary64.magnitude`, `Binary64.value`, `Number.value` : exact values
* `Number.sameValue_iff` : numeric equality is equality of the values
* `Binary64.lt_of_holds` : the intervals of different numbers do not meet
* `Binary64.shortest_value_le_iff` : shortest decimals keep the order
-/

namespace QueryTree

attribute [local instance (high)] instPowNat

/-! ## Exact values -/

namespace Binary64

def magnitude (x : Binary64) : ℚ :=
  x.mantissa * 2 ^ x.exponent

def value (x : Binary64) : ℚ :=
  if x.negative then -x.magnitude else x.magnitude

theorem magnitude_nonneg (x : Binary64) : 0 ≤ x.magnitude :=
  mul_nonneg (Nat.cast_nonneg _) x.zpow_exponent_pos.le

theorem abs_value (x : Binary64) : |x.value| = x.magnitude := by
  unfold value
  split <;> simp [abs_of_nonneg x.magnitude_nonneg]

theorem magnitude_pos_iff {x : Binary64} : 0 < x.magnitude ↔ x.isZero = false := by
  rw [magnitude, mul_pos_iff_of_pos_right x.zpow_exponent_pos, Nat.cast_pos, isZero,
    beq_eq_false_iff_ne, Nat.pos_iff_ne_zero]

theorem units_eq (x : Binary64) : (x.units : ℚ) = x.value * 2 ^ (1074 : ℤ) := by
  have places : (2 : ℚ) ^ (x.exponent + 1074).toNat = 2 ^ x.exponent * 2 ^ (1074 : ℤ) := by
    have least : 0 ≤ x.exponent + 1074 := by
      have := x.canonical.2.1
      omega
    rw [← zpow_natCast, Int.toNat_of_nonneg least]
    exact zpow_add₀ two_ne_zero _ _
  generalize (2 : ℚ) ^ (1074 : ℤ) = scale at places ⊢
  unfold units value magnitude
  split <;> push_cast <;> rw [places] <;> ring

end Binary64

namespace Number

def value : Number → ℚ
  | .int n => n
  | .float x => x.value

theorem units_eq (n : Number) : (n.units : ℚ) = n.value * 2 ^ (1074 : ℤ) := by
  cases n with
  | int n =>
    rw [units, value, Int.cast_mul, Int.cast_pow, Int.cast_ofNat, zpow_ofNat]
  | float x => exact x.units_eq

/-- Numbers are equal exactly if their values are. -/
theorem sameValue_iff {m n : Number} : m.sameValue n = true ↔ m.value = n.value := by
  have scale : (2 : ℚ) ^ (1074 : ℤ) ≠ 0 := zpow_ne_zero _ two_ne_zero
  rw [sameValue, beq_iff_eq, ← Int.cast_inj (α := ℚ), units_eq, units_eq, mul_left_inj' scale]

end Number

/-! ## Intervals side by side -/

theorem RoundingInterval.Holds.between {r : RoundingInterval} {u v w : ℚ} (first : r.Holds u)
    (last : r.Holds w) (above : u ≤ v) (below : v ≤ w) : r.Holds v := by
  have scale : (0 : ℚ) ≤ r.denominator := Nat.cast_nonneg _
  have above' := mul_le_mul_of_nonneg_right above scale
  have below' := mul_le_mul_of_nonneg_right below scale
  unfold Holds at first last ⊢
  split at first
  · next closed =>
    rw [if_pos closed] at last ⊢
    exact ⟨first.1.trans above', below'.trans last.2⟩
  · next opened =>
    rw [if_neg opened] at last ⊢
    exact ⟨first.1.trans_le above', below'.trans_lt last.2⟩

namespace Binary64

variable {x y : Binary64} {v w : ℚ}

theorem holds_magnitude (some : x.isZero = false) : x.interval.Holds x.magnitude := by
  have place := x.zpow_exponent_pos
  have part := x.lowerPart_pos
  refine holds_of_between some ?_ ?_ <;>
    exact mul_lt_mul_of_pos_right (by linarith) place

/-- A value is rounded to one number only. -/
theorem magnitude_eq_of_holds (some : x.isZero = false) (some' : y.isZero = false)
    (inside : x.interval.Holds v) (inside' : y.interval.Holds v) : x.magnitude = y.magnitude := by
  have ratio : ((v.num.toNat : ℕ) : ℚ) / (v.den : ℕ) = v := by
    have positive : 0 ≤ v.num := Rat.num_nonneg.2 (pos_of_holds some inside).le
    have numerator : ((v.num.toNat : ℕ) : ℚ) = v.num := by
      exact_mod_cast congrArg (Int.cast : ℤ → ℚ) (Int.toNat_of_nonneg positive)
    rw [numerator, Rat.num_div_den]
  rw [← ratio] at inside inside'
  -- the sign does not matter for the interval
  have first := ofRatio?_of_holds (x := { x with negative := y.negative }) some v.den_pos inside
  have second := ofRatio?_of_holds some' v.den_pos inside'
  have same := Option.some.inj (first.symm.trans second)
  rw [← same]
  rfl

/-- What is rounded to the smaller of two numbers is smaller. -/
theorem lt_of_holds (some : x.isZero = false) (some' : y.isZero = false)
    (less : x.magnitude < y.magnitude) (inside : x.interval.Holds v)
    (inside' : y.interval.Holds w) : v < w := by
  by_contra! swapped
  by_cases low : w ≤ x.magnitude
  · have shared := inside'.between (holds_magnitude some') low less.le
    exact less.ne (magnitude_eq_of_holds some some' (holds_magnitude some) shared)
  · have shared := (holds_magnitude some).between inside (not_le.1 low).le swapped
    exact less.ne (magnitude_eq_of_holds some some' shared inside')

/-- A sign and a magnitude make a number. -/
theorem eq_of_magnitude (sign : x.negative = y.negative) (same : x.magnitude = y.magnitude) :
    x = y := by
  cases zero : x.isZero with
  | false =>
    have value : (Number.float x).value = (Number.float y).value := by
      simp only [Number.value, Binary64.value, sign, same]
    exact eq_of_units zero (beq_iff_eq.1 (Number.sameValue_iff.2 value))
  | true =>
    have zero' : y.isZero = true := by
      rw [← Bool.not_eq_false, ← magnitude_pos_iff, ← same, magnitude_pos_iff, zero]
      decide
    obtain ⟨negative, m, e, canonical⟩ := x
    obtain ⟨negative', m', e', canonical'⟩ := y
    obtain rfl : m = 0 := beq_iff_eq.1 zero
    obtain rfl : m' = 0 := beq_iff_eq.1 zero'
    obtain rfl : e = -1074 := by omega
    obtain rfl : e' = -1074 := by omega
    obtain rfl : negative = negative' := sign
    rfl

/-! ## Shortest decimals in order -/

theorem shortest_congr (same : x.magnitude = y.magnitude) : x.shortest = y.shortest := by
  have signed : { x with negative := y.negative } = y := eq_of_magnitude rfl same
  rw [← signed]
  rfl

theorem shortest_value_lt (some : x.isZero = false) (some' : y.isZero = false)
    (less : x.magnitude < y.magnitude) : x.shortest.value < y.shortest.value :=
  lt_of_holds some some' less (holds_shortest some) (holds_shortest some')

/-- The shortest decimals of two numbers compare like the numbers. -/
theorem shortest_value_le_iff (some : x.isZero = false) (some' : y.isZero = false) :
    x.shortest.value ≤ y.shortest.value ↔ x.magnitude ≤ y.magnitude := by
  rcases lt_trichotomy x.magnitude y.magnitude with less | same | more
  · exact iff_of_true (shortest_value_lt some some' less).le less.le
  · exact iff_of_true (by rw [shortest_congr same]) same.le
  · exact iff_of_false (shortest_value_lt some' some more).not_ge more.not_ge

end Binary64

end QueryTree
