import Mathlib.Data.Int.Log
import Mathlib.Data.Rat.Floor
import Mathlib.Tactic.FieldSimp
import Mathlib.Tactic.Linarith
import Mathlib.Tactic.NormNum
import Mathlib.Tactic.Positivity
import Mathlib.Tactic.Ring
import QueryTree.Number.Shortest

/-!
# Rounding

Whatever lies in the rounding interval of a binary number is rounded to it: on the grid of its last
place if it is in the binade of the number, and on the grid of half of that if it lies below a
power of two.

* `Nearest`, `roundHalfEven_nearest`, `Nearest.unique` : rounding to an integer
* `zpow_mul_pow_toNat`, `floorLog2_eq_log` : quotients by powers, logarithms of quotients
* `RoundingInterval.Holds`, `Binary64.holds_interval_iff` : the interval of a number
* `Binary64.place_of_holds`   : the place on which a quotient of the interval is rounded
* `Binary64.ofRatio?_of_holds`, `Binary64.ofDecimal?_of_holds` : quotients and decimals
-/

namespace QueryTree

attribute [local instance (high)] instPowNat

/-! ## Rounding to an integer -/

/-- No integer is nearer, and of two that are equally near this one is even. -/
def Nearest (w : ℚ) (m : ℕ) : Prop :=
  if m % 2 = 0 then |w - m| ≤ 1 / 2 else |w - m| < 1 / 2

namespace Nearest

variable {w : ℚ} {m n : ℕ}

theorem le (near : Nearest w m) : |w - m| ≤ 1 / 2 := by
  unfold Nearest at near
  split at near
  · exact near
  · exact near.le

theorem of_lt (near : |w - m| < 1 / 2) : Nearest w m := by
  unfold Nearest
  split
  · exact near.le
  · exact near

theorem of_even (even : m % 2 = 0) (near : |w - m| ≤ 1 / 2) : Nearest w m := by
  rwa [Nearest, if_pos even]

theorem down_of_lt {t : ℚ} (least : 0 ≤ t) (below : t < 1 / 2) : Nearest (m + t) m := by
  refine .of_lt ?_
  rw [add_sub_cancel_left, abs_of_nonneg least]
  exact below

theorem up_of_lt {t : ℚ} (above : 1 / 2 < t) (most : t < 1) : Nearest (m + t) (m + 1 : ℕ) := by
  refine .of_lt ?_
  rw [abs_lt]
  push_cast
  constructor <;> linarith

theorem half (m : ℕ) : Nearest (m + 1 / 2) (m + m % 2) := by
  refine .of_even (by omega) ?_
  rw [abs_le]
  rcases Nat.mod_two_eq_zero_or_one m with even | odd
  · rw [even]
    constructor <;> push_cast <;> linarith
  · rw [odd]
    constructor <;> push_cast <;> linarith

theorem not_lt (near : Nearest w m) (near' : Nearest w n) : ¬ m < n := by
  intro less
  have step : (m : ℚ) + 1 ≤ n := by exact_mod_cast less
  have above := abs_le.1 near.le
  have below := abs_le.1 near'.le
  -- both are half away, so they are neighbours, and one of them is odd
  have next : n = m + 1 := by
    have equal : (n : ℚ) = (m + 1 : ℕ) := by push_cast; linarith
    exact_mod_cast equal
  have parity : m % 2 ≠ 0 ∨ n % 2 ≠ 0 := by omega
  rcases parity with odd | odd
  · rw [Nearest, if_neg odd, abs_lt] at near
    linarith
  · rw [Nearest, if_neg odd, abs_lt] at near'
    linarith

theorem unique (near : Nearest w m) (near' : Nearest w n) : m = n :=
  Nat.le_antisymm (Nat.not_lt.1 (near'.not_lt near)) (Nat.not_lt.1 (near.not_lt near'))

end Nearest

theorem ratio_eq_div_add_mod (num : ℕ) {den : ℕ} (positive : 0 < den) :
    (num : ℚ) / den = (num / den : ℕ) + (num % den : ℕ) / den := by
  have scale : (den : ℚ) ≠ 0 := Nat.cast_ne_zero.2 positive.ne'
  have parts : (num : ℚ) = (num / den : ℕ) * den + (num % den : ℕ) := by
    exact_mod_cast (Nat.div_add_mod' num den).symm
  rw [parts]
  field_simp

theorem ratio_lt_half_iff (r : ℕ) {den : ℕ} (positive : 0 < den) :
    (r : ℚ) / den < 1 / 2 ↔ 2 * r < den := by
  have scale : (0 : ℚ) < den := by exact_mod_cast positive
  rw [div_lt_div_iff₀ scale two_pos, one_mul, mul_comm]
  norm_cast

theorem half_lt_ratio_iff (r : ℕ) {den : ℕ} (positive : 0 < den) :
    1 / 2 < (r : ℚ) / den ↔ den < 2 * r := by
  have scale : (0 : ℚ) < den := by exact_mod_cast positive
  rw [div_lt_div_iff₀ two_pos scale, one_mul, mul_comm]
  norm_cast

theorem roundHalfEven_nearest (num : ℕ) {den : ℕ} (positive : 0 < den) :
    Nearest (num / den) (roundHalfEven num den) := by
  have lower := ratio_lt_half_iff (num % den) positive
  have upper := half_lt_ratio_iff (num % den) positive
  rw [ratio_eq_div_add_mod num positive]
  unfold roundHalfEven
  dsimp only
  split
  · next down => exact .down_of_lt (by positivity) (lower.2 down)
  · next notDown =>
    split
    · next up =>
      refine .up_of_lt (upper.2 up) ?_
      rw [div_lt_one (by exact_mod_cast positive)]
      exact_mod_cast Nat.mod_lt num positive
    · next notUp =>
      have tie : ((num % den : ℕ) : ℚ) / den = 1 / 2 :=
        le_antisymm (not_lt.1 (upper.not.2 notUp)) (not_lt.1 (lower.not.2 notDown))
      rw [tie]
      exact .half _

/-! ## Powers and logarithms -/

/-- Multiplying by the negative part of an exponent leaves its positive part. -/
theorem zpow_mul_pow_toNat {b : ℚ} (some : b ≠ 0) (k : ℤ) :
    b ^ k * b ^ (-k).toNat = b ^ k.toNat := by
  rw [← zpow_natCast, ← zpow_natCast, ← zpow_add₀ some]
  congr 1
  omega

/-- A quotient, divided by a power without leaving the naturals. -/
theorem scaled_ratio {b : ℕ} (some : b ≠ 0) (num den : ℕ) (k : ℤ) :
    ((num * b ^ (-k).toNat : ℕ) : ℚ) / (den * b ^ k.toNat : ℕ) = num / den / (b : ℚ) ^ k := by
  have base : (b : ℚ) ≠ 0 := Nat.cast_ne_zero.2 some
  have scale : (b : ℚ) ^ (-k).toNat ≠ 0 := pow_ne_zero _ base
  push_cast
  rw [← zpow_mul_pow_toNat base k, ← mul_assoc, mul_div_mul_right _ _ scale, div_div]

theorem two_zpow_le_ratio_iff {num den : ℕ} (positive : 0 < den) (e : ℤ) :
    (2 : ℚ) ^ e ≤ num / den ↔ den * 2 ^ e.toNat ≤ num * 2 ^ (-e).toNat := by
  have scale : (0 : ℚ) < den := by exact_mod_cast positive
  have places : (0 : ℚ) < 2 ^ (-e).toNat := by positivity
  have whole : (2 : ℚ) ^ e * den * 2 ^ (-e).toNat = den * 2 ^ e.toNat := by
    rw [mul_right_comm, zpow_mul_pow_toNat two_ne_zero, mul_comm]
  rw [le_div_iff₀ scale, ← mul_le_mul_iff_left₀ places, whole]
  norm_cast

/-- A logarithm is the exponent of the greatest power below. -/
theorem log_eq_of_le_of_lt {v : ℚ} (positive : 0 < v) {e : ℤ} (below : (2 : ℚ) ^ e ≤ v)
    (above : v < (2 : ℚ) ^ (e + 1)) : Int.log 2 v = e := by
  have least := (Int.zpow_le_iff_le_log (b := 2) one_lt_two positive).1 (by exact_mod_cast below)
  have most := (Int.lt_zpow_iff_log_lt (b := 2) one_lt_two positive).1 (by exact_mod_cast above)
  omega

/-- A logarithm against the power that a binary exponent scales. -/
theorem add_le_log_iff {v : ℚ} (positive : 0 < v) (e : ℤ) (k : ℕ) :
    e + k ≤ Int.log 2 v ↔ 2 ^ k ≤ v / 2 ^ e := by
  have place : (0 : ℚ) < 2 ^ e := zpow_pos two_pos e
  rw [← Int.zpow_le_iff_le_log one_lt_two positive, Nat.cast_ofNat, zpow_add₀ two_ne_zero,
    zpow_natCast, mul_comm, le_div_iff₀ place]

theorem floorLog2_eq_log {num den : ℕ} (some : 0 < num) (positive : 0 < den) :
    floorLog2 num den = Int.log 2 ((num : ℚ) / den) := by
  have numerator : (0 : ℚ) < num := by exact_mod_cast some
  have denominator : (0 : ℚ) < den := by exact_mod_cast positive
  have quotient : (0 : ℚ) < num / den := div_pos numerator denominator
  have numLow : (2 : ℚ) ^ num.log2 ≤ num := by exact_mod_cast Nat.log2_self_le some.ne'
  have numHigh : (num : ℚ) < 2 ^ (num.log2 + 1) := by exact_mod_cast Nat.lt_log2_self
  have denLow : (2 : ℚ) ^ den.log2 ≤ den := by exact_mod_cast Nat.log2_self_le positive.ne'
  have denHigh : (den : ℚ) < 2 ^ (den.log2 + 1) := by exact_mod_cast Nat.lt_log2_self
  -- the quotient is within a factor of two of the power for the difference of the lengths
  have low : (2 : ℚ) ^ ((num.log2 : ℤ) - den.log2 - 1) ≤ num / den := by
    rw [sub_sub, zpow_sub₀ two_ne_zero, ← Nat.cast_succ, zpow_natCast, zpow_natCast]
    exact div_le_div₀ numerator.le numLow denominator denHigh.le
  have high : (num : ℚ) / den < 2 ^ ((num.log2 : ℤ) - den.log2 + 1) := by
    rw [sub_add_eq_add_sub, zpow_sub₀ two_ne_zero, ← Nat.cast_succ, zpow_natCast, zpow_natCast]
    exact div_lt_div₀ numHigh denLow (by positivity) (by positivity)
  unfold floorLog2
  dsimp only
  split
  · next reaches =>
    exact (log_eq_of_le_of_lt quotient ((two_zpow_le_ratio_iff positive _).2 reaches) high).symm
  · next short =>
    have less := lt_of_not_ge ((two_zpow_le_ratio_iff positive _).not.2 short)
    exact (log_eq_of_le_of_lt quotient low (by rwa [sub_add_cancel])).symm

/-! ## The interval of a number -/

/-- A real between the ends of an interval, or at one of them if they belong to it. -/
def RoundingInterval.Holds (r : RoundingInterval) (v : ℚ) : Prop :=
  if r.closed then r.lower ≤ v * r.denominator ∧ v * r.denominator ≤ r.upper
  else r.lower < v * r.denominator ∧ v * r.denominator < r.upper

namespace Binary64

variable {x : Binary64} {v : ℚ}

/-- The part of a place by which the interval goes below the number. -/
def lowerPart (x : Binary64) : ℚ :=
  if x.mantissa = 2 ^ (52 : Nat) ∧ -1074 < x.exponent then 1 / 4 else 1 / 2

theorem lowerPart_cases (x : Binary64) :
    x.mantissa = 2 ^ (52 : Nat) ∧ -1074 < x.exponent ∧ x.lowerPart = 1 / 4 ∨
      ¬(x.mantissa = 2 ^ (52 : Nat) ∧ -1074 < x.exponent) ∧ x.lowerPart = 1 / 2 := by
  unfold lowerPart
  split
  · next boundary => exact .inl ⟨boundary.1, boundary.2, rfl⟩
  · next inner => exact .inr ⟨inner, rfl⟩

theorem lowerPart_pos (x : Binary64) : 0 < x.lowerPart := by
  rcases x.lowerPart_cases with ⟨-, -, part⟩ | ⟨-, part⟩ <;> rw [part] <;> norm_num

theorem lowerPart_le (x : Binary64) : x.lowerPart ≤ 1 / 2 := by
  rcases x.lowerPart_cases with ⟨-, -, part⟩ | ⟨-, part⟩ <;> rw [part]
  norm_num

theorem mantissa_pos (some : x.isZero = false) : 0 < x.mantissa := by
  rw [isZero, beq_eq_false_iff_ne] at some
  exact Nat.pos_of_ne_zero some

theorem mantissa_le (x : Binary64) : (x.mantissa : ℚ) ≤ 2 ^ 53 - 1 := by
  rw [le_sub_iff_add_le]
  exact_mod_cast x.canonical.1

theorem zpow_exponent_pos (x : Binary64) : (0 : ℚ) < 2 ^ x.exponent :=
  zpow_pos two_pos _

/-- A quarter of the last place, as the interval counts it. -/
theorem scale_eq (e : ℤ) :
    (4 : ℚ) * 2 ^ (e - 2).toNat = 2 ^ e * 2 ^ (2 - e).toNat := by
  have shift := zpow_mul_pow_toNat (two_ne_zero' ℚ) (e - 2)
  rw [neg_sub] at shift
  rw [← shift, zpow_sub₀ two_ne_zero]
  norm_num
  ring

theorem interval_lower (some : x.isZero = false) :
    (x.interval.lower : ℚ) = 4 * (x.mantissa - x.lowerPart) * 2 ^ (x.exponent - 2).toNat := by
  have positive := mantissa_pos some
  have few : (if x.mantissa = 2 ^ (52 : Nat) ∧ -1074 < x.exponent then 1 else 2) ≤
      4 * x.mantissa := by
    split <;> omega
  simp only [interval, lowerPart]
  rw [Nat.cast_mul, Nat.cast_sub few]
  split <;> push_cast <;> ring

theorem interval_upper (x : Binary64) :
    (x.interval.upper : ℚ) = 4 * (x.mantissa + 1 / 2) * 2 ^ (x.exponent - 2).toNat := by
  simp only [interval]
  push_cast
  ring

theorem mul_interval_denominator (x : Binary64) (v : ℚ) :
    v * x.interval.denominator = 4 * (v / 2 ^ x.exponent) * 2 ^ (x.exponent - 2).toNat := by
  have place := x.zpow_exponent_pos
  rw [mul_right_comm, scale_eq]
  simp only [interval]
  push_cast
  field_simp

/-- The interval of a number in its last places. -/
theorem holds_interval_iff (some : x.isZero = false) :
    x.interval.Holds v ↔
      if x.mantissa % 2 = 0 then
        x.mantissa - x.lowerPart ≤ v / 2 ^ x.exponent ∧ v / 2 ^ x.exponent ≤ x.mantissa + 1 / 2
      else
        x.mantissa - x.lowerPart < v / 2 ^ x.exponent ∧
          v / 2 ^ x.exponent < x.mantissa + 1 / 2 := by
  have scale : (0 : ℚ) < 2 ^ (x.exponent - 2).toNat := by positivity
  have closed : x.interval.closed = true ↔ x.mantissa % 2 = 0 := by
    simp only [interval, beq_iff_eq]
  unfold RoundingInterval.Holds
  simp only [interval_lower some, interval_upper, mul_interval_denominator, closed,
    mul_le_mul_iff_left₀ scale, mul_lt_mul_iff_left₀ scale, mul_le_mul_iff_right₀ four_pos,
    mul_lt_mul_iff_right₀ four_pos]

theorem bounds_of_holds (some : x.isZero = false) (inside : x.interval.Holds v) :
    x.mantissa - x.lowerPart ≤ v / 2 ^ x.exponent ∧
      v / 2 ^ x.exponent ≤ x.mantissa + 1 / 2 := by
  rw [holds_interval_iff some] at inside
  split at inside
  · exact inside
  · exact ⟨inside.1.le, inside.2.le⟩

/-- On the grid of its last place the number is nearest. -/
theorem nearest_of_holds (some : x.isZero = false) (inside : x.interval.Holds v) :
    Nearest (v / 2 ^ x.exponent) x.mantissa := by
  have part := x.lowerPart_le
  rw [holds_interval_iff some] at inside
  unfold Nearest
  split
  · next even =>
    rw [if_pos even] at inside
    rw [abs_le]
    constructor <;> linarith
  · next odd =>
    rw [if_neg odd] at inside
    rw [abs_lt]
    constructor <;> linarith

/-- The numbers of an interval are positive, and neither so small nor so great that they round
    to zero or beyond the greatest number. -/
theorem range_of_holds (some : x.isZero = false) (inside : x.interval.Holds v) :
    (2 : ℚ) ^ (-1075 : ℤ) ≤ v ∧ v < 2 ^ (1024 : ℤ) := by
  obtain ⟨-, least, most, -⟩ := x.canonical
  have place := x.zpow_exponent_pos
  have first : (1 : ℚ) ≤ x.mantissa := by exact_mod_cast mantissa_pos some
  have last := x.mantissa_le
  have part := x.lowerPart_le
  obtain ⟨below, above⟩ := bounds_of_holds some inside
  rw [le_div_iff₀ place] at below
  rw [div_le_iff₀ place] at above
  constructor
  · calc (2 : ℚ) ^ (-1075 : ℤ)
      _ = 1 / 2 * 2 ^ (-1074 : ℤ) := by
        rw [one_div, ← zpow_neg_one, ← zpow_add₀ two_ne_zero]
        rfl
      _ ≤ (x.mantissa - x.lowerPart) * 2 ^ x.exponent :=
        mul_le_mul (by linarith) (zpow_le_zpow_right₀ one_le_two least)
          (zpow_nonneg two_pos.le _) (by linarith)
      _ ≤ v := below
  · calc v
      _ ≤ (x.mantissa + 1 / 2) * 2 ^ x.exponent := above
      _ < 2 ^ 53 * 2 ^ x.exponent := mul_lt_mul_of_pos_right (by linarith) place
      _ ≤ 2 ^ 53 * 2 ^ (971 : ℤ) :=
        mul_le_mul_of_nonneg_left (zpow_le_zpow_right₀ one_le_two most) (by positivity)
      _ = 2 ^ (1024 : ℤ) := by
        rw [← zpow_natCast, ← zpow_add₀ two_ne_zero]
        rfl

theorem pos_of_holds (some : x.isZero = false) (inside : x.interval.Holds v) : 0 < v :=
  lt_of_lt_of_le (zpow_pos two_pos _) (range_of_holds some inside).1

/-! ## Reading quotients -/

/-- Below the binade of a number is only what lies in the short half of its interval. -/
theorem boundary_of_lt (some : x.isZero = false) (inside : x.interval.Holds v)
    (normal : x.exponent ≠ -1074) (lower : v / 2 ^ x.exponent < 2 ^ 52) :
    x.mantissa = 2 ^ (52 : Nat) ∧ x.lowerPart = 1 / 4 := by
  have full : 2 ^ (52 : Nat) ≤ x.mantissa := x.canonical.2.2.2.resolve_right normal
  have least := x.canonical.2.1
  have below := (bounds_of_holds some inside).1
  rcases x.lowerPart_cases with ⟨mantissa, -, part⟩ | ⟨inner, part⟩
  · exact ⟨mantissa, part⟩
  · have above : 2 ^ (52 : Nat) + 1 ≤ x.mantissa := by omega
    have more : (2 : ℚ) ^ 52 + 1 ≤ x.mantissa := by exact_mod_cast above
    linarith

/-- The place on which a quotient is rounded is the last one of the number, or the one below that
    for a quotient below a power of two. -/
theorem place_of_holds (some : x.isZero = false) (inside : x.interval.Holds v) :
    max (-1074) (Int.log 2 v - 52) = x.exponent ∨
      max (-1074) (Int.log 2 v - 52) + 1 = x.exponent ∧ x.mantissa = 2 ^ (52 : Nat) ∧
        Nearest (v / 2 ^ (x.exponent - 1)) (2 ^ (53 : Nat)) := by
  have least := x.canonical.2.1
  have last := x.mantissa_le
  have log := add_le_log_iff (pos_of_holds some inside) x.exponent
  obtain ⟨below, above⟩ := bounds_of_holds some inside
  have top : ¬ x.exponent + (53 : ℕ) ≤ Int.log 2 v := by
    rw [log, not_le]
    linarith
  by_cases full : (2 : ℚ) ^ 52 ≤ v / 2 ^ x.exponent
  · have bottom := (log 52).2 full
    omega
  by_cases lowest : x.exponent = -1074
  · omega
  obtain ⟨mantissa, part⟩ := boundary_of_lt some inside lowest (not_le.1 full)
  rw [part, mantissa] at below
  push_cast at below
  have bottom : x.exponent + (51 : ℕ) ≤ Int.log 2 v := by
    rw [log]
    linarith
  have short : ¬ x.exponent + (52 : ℕ) ≤ Int.log 2 v := (log 52).not.2 full
  have half : v / 2 ^ (x.exponent - 1) = 2 * (v / 2 ^ x.exponent) := by
    rw [zpow_sub_one₀ two_ne_zero]
    field_simp
  refine .inr ⟨by omega, mantissa, .of_even (by decide) ?_⟩
  rw [half, abs_le]
  push_cast
  constructor <;> linarith

theorem ofParts?_self (x : Binary64) : ofParts? x.negative x.mantissa x.exponent = some x := by
  rw [ofParts?, dif_pos x.canonical]

/-- A quotient of the interval of a number is rounded to the number. -/
theorem ofRatio?_of_holds (some : x.isZero = false) {num den : ℕ} (positive : 0 < den)
    (inside : x.interval.Holds (num / den)) :
    ofRatio? x.negative num den = .some x := by
  have numerator : num ≠ 0 := by
    rintro rfl
    simpa using pos_of_holds some inside
  have rounded (k : ℤ) : Nearest (num / den / 2 ^ k)
      (roundHalfEven (num * 2 ^ (-k).toNat) (den * 2 ^ k.toNat)) := by
    rw [← Nat.cast_ofNat, ← scaled_ratio two_ne_zero]
    exact roundHalfEven_nearest _ (Nat.mul_pos positive (Nat.pow_pos two_pos))
  rw [ofRatio?, if_neg numerator, floorLog2_eq_log (Nat.pos_of_ne_zero numerator) positive]
  dsimp only
  rcases place_of_holds some inside with last | ⟨lower, mantissa, near⟩
  · rw [last, (rounded _).unique (nearest_of_holds some inside), if_neg x.canonical.1.ne,
      ofParts?_self]
  · have last : max (-1074) (Int.log 2 ((num : ℚ) / den) - 52) = x.exponent - 1 := by omega
    rw [last, (rounded _).unique near, if_pos rfl, sub_add_cancel, ← mantissa, ofParts?_self]

end Binary64

/-! ## Reading decimals -/

def Decimal.value (d : Decimal) : ℚ :=
  d.coefficient * 10 ^ d.exponent

/-- Powers of ten with an exponent of 400 are beyond the range of binary numbers. -/
theorem two_pow_lt_ten_pow : (2 : ℚ) ^ (1075 : ℤ) < 10 ^ (400 : ℤ) := by
  rw [zpow_ofNat, zpow_ofNat]
  calc (2 : ℚ) ^ 1075
    _ = (2 ^ 43) ^ 25 := pow_mul 2 43 25
    _ < (10 ^ 16) ^ 25 := pow_lt_pow_left₀ (by norm_num) (by positivity) (by decide)
    _ = 10 ^ 400 := (pow_mul 10 16 25).symm

namespace Decimal

variable {d : Decimal}

theorem value_nonneg (d : Decimal) : 0 ≤ d.value :=
  mul_nonneg (Nat.cast_nonneg _) (zpow_nonneg (by norm_num) _)

/-- A decimal with an exponent that decides the answer is too great. -/
theorem lt_value_of_great (some : d.coefficient ≠ 0) (great : 400 < d.exponent) :
    (2 : ℚ) ^ (1075 : ℤ) < d.value := by
  have power : (0 : ℚ) < 10 ^ d.exponent := zpow_pos (by norm_num) _
  have coefficient : (1 : ℚ) ≤ d.coefficient := by exact_mod_cast Nat.pos_of_ne_zero some
  calc (2 : ℚ) ^ (1075 : ℤ)
    _ < 10 ^ (400 : ℤ) := two_pow_lt_ten_pow
    _ ≤ 10 ^ d.exponent := zpow_le_zpow_right₀ (by norm_num) great.le
    _ ≤ d.value := le_mul_of_one_le_left power.le coefficient

/-- A decimal with few digits for its exponent is too small. -/
theorem value_lt_of_small (small : d.exponent + d.coefficient.log2 < -400) :
    d.value < (2 : ℚ) ^ (-1075 : ℤ) := by
  have power : (0 : ℚ) < 10 ^ d.exponent := zpow_pos (by norm_num) _
  have digits : (d.coefficient : ℚ) < 10 ^ (d.coefficient.log2 + 1) :=
    calc (d.coefficient : ℚ)
      _ < 2 ^ (d.coefficient.log2 + 1) := by exact_mod_cast Nat.lt_log2_self
      _ ≤ 10 ^ (d.coefficient.log2 + 1) := by gcongr; norm_num
  calc d.value
    _ < 10 ^ (d.coefficient.log2 + 1) * 10 ^ d.exponent := mul_lt_mul_of_pos_right digits power
    _ = 10 ^ ((d.coefficient.log2 + 1 : ℕ) + d.exponent) := by
      rw [zpow_add₀ (by norm_num), zpow_natCast]
    _ ≤ 10 ^ (-400 : ℤ) := zpow_le_zpow_right₀ (by norm_num) (by push_cast; omega)
    _ < 2 ^ (-1075 : ℤ) := by
      rw [zpow_neg, zpow_neg]
      exact inv_strictAnti₀ (zpow_pos two_pos _) two_pow_lt_ten_pow

/-- The quotient of naturals that a decimal is read as. -/
theorem ratio_eq_value (d : Decimal) :
    ((d.coefficient * 10 ^ d.exponent.toNat : ℕ) : ℚ) / (10 ^ (-d.exponent).toNat : ℕ) =
      d.value := by
  have places : (10 : ℚ) ^ (-d.exponent).toNat ≠ 0 := pow_ne_zero _ (by norm_num)
  have shift := zpow_mul_pow_toNat (b := 10) (by norm_num) d.exponent
  push_cast
  rw [← shift, ← mul_assoc, mul_div_cancel_right₀ _ places, value]

end Decimal

namespace Binary64

variable {x : Binary64} {d : Decimal}

theorem coefficient_ne_zero_of_holds (some : x.isZero = false)
    (inside : x.interval.Holds d.value) : d.coefficient ≠ 0 := by
  intro zero
  have positive := pos_of_holds some inside
  rw [Decimal.value, zero, Nat.cast_zero, zero_mul] at positive
  exact lt_irrefl _ positive

/-- Of a decimal with an exponent that decides the answer the value is too great. -/
theorem exponent_le_of_holds (some : x.isZero = false) (inside : x.interval.Holds d.value) :
    d.exponent ≤ 400 := by
  by_contra! great
  have beyond : (2 : ℚ) ^ (1024 : ℤ) < d.value :=
    calc (2 : ℚ) ^ (1024 : ℤ)
      _ ≤ 2 ^ (1075 : ℤ) := zpow_le_zpow_right₀ one_le_two (by decide)
      _ < d.value := Decimal.lt_value_of_great (coefficient_ne_zero_of_holds some inside) great
  exact lt_asymm beyond (range_of_holds some inside).2

/-- Of a decimal with few digits for its exponent the value is too small. -/
theorem le_exponent_of_holds (some : x.isZero = false) (inside : x.interval.Holds d.value) :
    -400 ≤ d.exponent + d.coefficient.log2 := by
  by_contra! small
  exact absurd (range_of_holds some inside).1 (not_le.2 (Decimal.value_lt_of_small small))

/-- A decimal of the interval of a number is read as the number. -/
theorem ofDecimal?_of_holds (some : x.isZero = false) (inside : x.interval.Holds d.value) :
    ofDecimal? x.negative d.coefficient d.exponent = .some x := by
  rw [ofDecimal?, if_neg (coefficient_ne_zero_of_holds some inside),
    if_neg (not_lt.2 (exponent_le_of_holds some inside)),
    if_neg (not_lt.2 (le_exponent_of_holds some inside))]
  refine ofRatio?_of_holds some (Nat.pow_pos (by decide)) ?_
  rwa [d.ratio_eq_value]

end Binary64

end QueryTree
