import Mathlib.Algebra.Order.Floor.Semifield
import Mathlib.Data.Nat.Cast.Order.Field
import QueryTree.Proofs.Equality.Numbers
import QueryTree.Proofs.Numbers.Rounding

/-!
# Shortest decimals

The search for the shortest decimal of a binary number succeeds, at the latest with seventeen
digits: the grid is then narrower than the interval of the number. What it finds lies in the
interval, so that it is read back as the number.

* `ten_zpow_floorLog10_le`    : the first place of a number
* `RoundingInterval.contains_onGrid_iff` : the decimals of an interval
* `Binary64.holds_neighbour`  : a narrow grid has a point in the interval
* `Binary64.holds_shortest`   : the shortest decimal lies in the interval
* `Binary64.ofDecimal?_shortest` : it is read back
-/

namespace QueryTree

attribute [local instance (high)] instPowNat

/-! ## The first place -/

theorem ten_zpow_neg_le_ratio {num den j : ℕ} (some : 0 < den) (reaches : den ≤ num * 10 ^ j) :
    (10 : ℚ) ^ (-(j : ℤ)) ≤ num / den := by
  have denominator : (0 : ℚ) < den := by exact_mod_cast some
  have power : (0 : ℚ) < 10 ^ j := by positivity
  rw [zpow_neg, zpow_natCast, inv_le_iff_one_le_mul₀ power, div_mul_eq_mul_div,
    one_le_div denominator]
  exact_mod_cast reaches

/-- The power of ten of the first digit is not above the quotient. -/
theorem ten_zpow_floorLog10_le {num den : ℕ} (some : 0 < num) (positive : 0 < den) :
    (10 : ℚ) ^ floorLog10 num den ≤ num / den := by
  unfold floorLog10
  split
  · next whole =>
    have digits := pow_length_digits_le (Nat.div_pos whole positive)
    have length : ((Text.digits (num / den)).length : ℤ) - 1 =
        ((Text.digits (num / den)).length - 1 : ℕ) := by
      have := List.length_pos_of_ne_nil (digits_ne_nil (num / den))
      omega
    rw [length, zpow_natCast]
    calc (10 : ℚ) ^ ((Text.digits (num / den)).length - 1)
      _ ≤ (num / den : ℕ) := by exact_mod_cast digits
      _ ≤ num / den := Nat.cast_div_le
  · next proper =>
    dsimp only
    split
    · next reaches =>
      have length : 1 - ((Text.digits (den / num)).length : ℤ) =
          -((Text.digits (den / num)).length - 1 : ℕ) := by
        have := List.length_pos_of_ne_nil (digits_ne_nil (den / num))
        omega
      rw [length]
      exact ten_zpow_neg_le_ratio positive reaches
    · have above := (Nat.div_lt_iff_lt_mul some).1 (lt_pow_length_digits (den / num))
      exact ten_zpow_neg_le_ratio positive (by rw [Nat.mul_comm]; exact above.le)

/-! ## Grids of decimals -/

namespace RoundingInterval

variable {r : RoundingInterval} {g : ℤ} {k : ℕ}

/-- What an interval contains on a grid are its decimals with that place. -/
theorem contains_onGrid_iff : (r.onGrid g).contains k = true ↔ r.Holds (k * 10 ^ g) := by
  have scale : (0 : ℚ) < 10 ^ (-g).toNat := by positivity
  have point : ((k * (r.denominator * 10 ^ g.toNat) : ℕ) : ℚ) =
      k * 10 ^ g * r.denominator * 10 ^ (-g).toNat := by
    push_cast
    rw [← zpow_mul_pow_toNat (by norm_num)]
    ring
  have bound (b : ℕ) : ((b * 10 ^ (-g).toNat : ℕ) : ℚ) = b * 10 ^ (-g).toNat := by push_cast; rfl
  unfold contains onGrid Holds
  dsimp only
  split <;>
    simp only [Bool.and_eq_true, decide_eq_true_eq, ← Nat.cast_le (α := ℚ), ← Nat.cast_lt (α := ℚ),
      point, bound, mul_le_mul_iff_left₀ scale, mul_lt_mul_iff_left₀ scale]

/-- The neighbours of the centre on a grid. -/
theorem neighbours_onGrid (r : RoundingInterval) (g : ℤ) :
    ((r.onGrid g).centre / (r.onGrid g).denominator : ℕ) * (10 : ℚ) ^ g ≤
        r.centre / r.denominator ∧
      (r.centre : ℚ) / r.denominator <
        ((r.onGrid g).centre / (r.onGrid g).denominator + 1 : ℕ) * 10 ^ g := by
  have place : (0 : ℚ) < 10 ^ g := zpow_pos (by norm_num) _
  have ratio : ((r.onGrid g).centre : ℚ) / (r.onGrid g).denominator =
      r.centre / r.denominator / 10 ^ g := by
    unfold onGrid
    dsimp only
    rw [scaled_ratio (by decide), Nat.cast_ofNat]
  have least : (0 : ℚ) ≤ (r.onGrid g).centre / (r.onGrid g).denominator := by positivity
  rw [← Nat.floor_div_eq_div (K := ℚ), ← le_div_iff₀ place, ← div_lt_iff₀ place, ← ratio]
  push_cast
  exact ⟨Nat.floor_le least, Nat.lt_floor_add_one _⟩

end RoundingInterval

/-! ## The shortest decimal -/

namespace Binary64

variable {x : Binary64}

theorem holds_of_between (some : x.isZero = false) {v : ℚ}
    (below : (x.mantissa - x.lowerPart) * 2 ^ x.exponent < v)
    (above : v < (x.mantissa + 1 / 2) * 2 ^ x.exponent) : x.interval.Holds v := by
  have place := x.zpow_exponent_pos
  rw [← lt_div_iff₀ place] at below
  rw [← div_lt_iff₀ place] at above
  rw [holds_interval_iff some]
  split
  · exact ⟨below.le, above.le⟩
  · exact ⟨below, above⟩

/-- The centre of the interval is the magnitude of the number. -/
theorem centre_eq (x : Binary64) :
    (x.interval.centre : ℚ) / x.interval.denominator = x.mantissa * 2 ^ x.exponent := by
  have denominator : (2 : ℚ) ^ (2 - x.exponent).toNat ≠ 0 := pow_ne_zero _ two_ne_zero
  have centre : (4 * x.mantissa : ℚ) * 2 ^ (x.exponent - 2).toNat =
      x.mantissa * 2 ^ x.exponent * 2 ^ (2 - x.exponent).toNat := by
    rw [mul_right_comm, scale_eq]
    ring
  simp only [interval]
  push_cast
  rw [centre, mul_div_cancel_right₀ _ denominator]

/-- A grid that is narrower than the interval has a point in it next to the number. -/
theorem holds_neighbour (some : x.isZero = false) {s : ℚ} {q : ℕ}
    (below : q * s ≤ x.mantissa * 2 ^ x.exponent)
    (above : x.mantissa * 2 ^ x.exponent < (q + 1 : ℕ) * s)
    (narrow : s < (x.lowerPart + 1 / 2) * 2 ^ x.exponent) :
    x.interval.Holds (q * s) ∨ x.interval.Holds ((q + 1 : ℕ) * s) := by
  have place := x.zpow_exponent_pos
  have part := mul_pos x.lowerPart_pos place
  push_cast at above ⊢
  by_cases near : (x.mantissa - x.lowerPart) * 2 ^ x.exponent < q * s
  · exact .inl (holds_of_between some near (by linarith))
  · exact .inr (holds_of_between some (by linarith) (by linarith))

/-- Seventeen digits are enough: numbers have at most 53 binary ones. -/
theorem narrow_of_le {s : ℚ} (top : 10 ^ 16 * s ≤ x.mantissa * 2 ^ x.exponent) :
    s < (x.lowerPart + 1 / 2) * 2 ^ x.exponent := by
  have place := x.zpow_exponent_pos
  rcases x.lowerPart_cases with ⟨mantissa, -, part⟩ | ⟨-, part⟩
  · rw [mantissa] at top
    rw [part]
    push_cast at top
    linarith
  · have short : (x.mantissa : ℚ) * 2 ^ x.exponent ≤ 2 ^ 53 * 2 ^ x.exponent :=
      mul_le_mul_of_nonneg_right (by exact_mod_cast x.canonical.1.le) place.le
    rw [part]
    linarith

theorem isSome_onPlace (some : x.isZero = false) :
    (x.interval.onPlace (floorLog10 x.interval.centre x.interval.denominator) 17).isSome =
      true := by
  have denominator : 0 < x.interval.denominator := Nat.pow_pos two_pos
  have centre : 0 < x.interval.centre :=
    Nat.mul_pos (Nat.mul_pos four_pos (mantissa_pos some)) (Nat.pow_pos two_pos)
  have first := ten_zpow_floorLog10_le centre denominator
  generalize floorLog10 x.interval.centre x.interval.denominator = top at first ⊢
  obtain ⟨below, above⟩ := x.interval.neighbours_onGrid (top + 1 - (17 : ℕ))
  rw [centre_eq] at first below above
  have shift : (10 : ℚ) ^ 16 * 10 ^ (top + 1 - (17 : ℕ)) = 10 ^ top := by
    rw [← zpow_natCast, ← zpow_add₀ (by norm_num)]
    congr 1
    push_cast
    ring
  have narrow := narrow_of_le (shift.trans_le first)
  unfold RoundingInterval.onPlace
  rw [Option.isSome_map]
  refine RoundingInterval.isSome_nearest?_of_contains ?_
  have inside := holds_neighbour some below above narrow
  rwa [← RoundingInterval.contains_onGrid_iff, ← RoundingInterval.contains_onGrid_iff] at inside

/-- The shortest decimal of a number lies in its interval. -/
theorem holds_shortest (some : x.isZero = false) : x.interval.Holds x.shortest.value := by
  have found : ((List.range 18).findSome? (x.interval.onPlace
      (floorLog10 x.interval.centre x.interval.denominator))).isSome = true :=
    List.findSome?_isSome_iff.2 ⟨17, List.self_mem_range_succ, isSome_onPlace some⟩
  obtain ⟨d, first⟩ := Option.isSome_iff_exists.1 found
  obtain ⟨i, -, place⟩ := List.exists_of_findSome?_eq_some first
  obtain ⟨k, nearest, rfl⟩ := Option.map_eq_some_iff.1 place
  rw [shortest_eq some, first, Option.getD_some, Decimal.value,
    ← RoundingInterval.contains_onGrid_iff]
  exact RoundingInterval.contains_of_nearest? nearest

/-- The shortest decimal of a number is read as the number. -/
theorem ofDecimal?_shortest (x : Binary64) :
    ofDecimal? x.negative x.shortest.coefficient x.shortest.exponent = some x := by
  cases zero : x.isZero with
  | false => exact ofDecimal?_of_holds zero (holds_shortest zero)
  | true =>
    rw [shortest_of_isZero zero, ofDecimal?, if_pos rfl]
    obtain ⟨negative, mantissa, exponent, canonical⟩ := x
    obtain rfl : mantissa = 0 := beq_iff_eq.1 zero
    obtain rfl : exponent = -1074 := by omega
    rfl

end Binary64

end QueryTree
