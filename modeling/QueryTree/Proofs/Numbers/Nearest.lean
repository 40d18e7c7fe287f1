import QueryTree.Proofs.Numbers.Order

/-!
# Nearest numbers

A decimal is read as the binary number nearest to it; of two that are equally near it is the one
with the even mantissa. There is none exactly if the decimal is rounded beyond the greatest number.

* `Binary64.IsNearest`, `Overflows` : what is nearest, and when nothing is
* `Binary64.isNearest_signed_iff` : with the sign of what is rounded only magnitudes count
* `Binary64.IsNearest.unique` : there is one nearest number of a sign
* `Binary64.nearMagnitude_of_nearest` : the grid of the last place is fine enough
* `Binary64.Rounded`, `Binary64.ofRatio?_spec`, `Binary64.ofDecimal?_spec` : quotients and decimals
-/

namespace QueryTree

attribute [local instance (high)] instPowNat

/-! ## What is nearest -/

/-- No number is nearer to `v`; if another one is equally near, the mantissa is even. -/
structure Binary64.IsNearest (x : Binary64) (v : ℚ) : Prop where
  near (y : Binary64) : |v - x.value| ≤ |v - y.value|
  even (y : Binary64) : y.value ≠ x.value → |v - y.value| = |v - x.value| → x.mantissa % 2 = 0

/-- The distance to the greatest number is half a place of that, or more. -/
def Overflows (v : ℚ) : Prop :=
  (2 ^ 53 - 1 / 2) * 2 ^ (971 : ℤ) ≤ |v|

/-- A magnitude with a sign. -/
def signed (negative : Bool) (v : ℚ) : ℚ :=
  if negative then -v else v

section Signs

variable {negative negative' : Bool} {v w : ℚ}

theorem abs_signed (negative : Bool) (v : ℚ) : |signed negative v| = |v| := by
  cases negative <;> simp [signed]

theorem abs_signed_sub_signed (negative : Bool) (v w : ℚ) :
    |signed negative v - signed negative w| = |v - w| := by
  cases negative with
  | false => rfl
  | true =>
    have swap : signed true v - signed true w = -(v - w) := by
      simp only [signed, if_true]
      ring
    rw [swap, abs_neg]

theorem abs_signed_sub_signed_of_ne (differ : negative ≠ negative') (positive : 0 ≤ v)
    (positive' : 0 ≤ w) : |signed negative v - signed negative' w| = v + w := by
  cases negative with
  | false =>
    obtain rfl : negative' = true := by simpa using differ.symm
    simp only [signed, Bool.false_eq_true, if_false, if_true, sub_neg_eq_add]
    exact abs_of_nonneg (add_nonneg positive positive')
  | true =>
    obtain rfl : negative' = false := by simpa using differ.symm
    simp only [signed, Bool.false_eq_true, if_false, if_true, ← neg_add', abs_neg]
    exact abs_of_nonneg (add_nonneg positive positive')

theorem signed_inj : signed negative v = signed negative w ↔ v = w := by
  cases negative with
  | false => rfl
  | true => exact neg_inj

end Signs

/-! ## Magnitudes -/

namespace Binary64

variable {x y : Binary64} {v : ℚ} {negative : Bool}

theorem value_eq_signed (x : Binary64) : x.value = signed x.negative x.magnitude := rfl

/-- Nearest to a magnitude, among the magnitudes. -/
structure NearMagnitude (x : Binary64) (v : ℚ) : Prop where
  near (y : Binary64) : |v - x.magnitude| ≤ |v - y.magnitude|
  even (y : Binary64) : y.magnitude ≠ x.magnitude → |v - y.magnitude| = |v - x.magnitude| →
    x.mantissa % 2 = 0

theorem abs_sub_magnitude_le (positive : 0 ≤ v) (negative : Bool) (y : Binary64) :
    |v - y.magnitude| ≤ |signed negative v - y.value| := by
  have apart := abs_abs_sub_abs_le_abs_sub (signed negative v) y.value
  rwa [abs_signed, abs_of_nonneg positive, abs_value] at apart

/-- A number of the other sign is farther away. -/
theorem NearMagnitude.magnitude_ne (nearest : x.NearMagnitude v) (positive : 0 ≤ v)
    (sign : x.negative = negative) (other : y.value ≠ x.value)
    (tie : |signed negative v - y.value| = |v - x.magnitude|) : y.magnitude ≠ x.magnitude := by
  intro same
  have least := x.magnitude_nonneg
  have differ : negative ≠ y.negative := by
    intro signs
    rw [value_eq_signed, value_eq_signed, same, sign, signs] at other
    exact other rfl
  rw [value_eq_signed, same, abs_signed_sub_signed_of_ne differ positive least] at tie
  -- the sum of two magnitudes is their difference only if one of them is zero
  have none : v = 0 → x.magnitude = 0 := by
    intro nothing
    have near := nearest.near (zero false)
    have centre : (zero false).magnitude = 0 := by simp [magnitude, zero]
    rw [nothing, centre, sub_self, abs_zero, zero_sub, abs_neg] at near
    exact abs_eq_zero.1 (le_antisymm near (abs_nonneg _))
  have zero : x.magnitude = 0 := by
    rcases abs_cases (v - x.magnitude) with ⟨value, -⟩ | ⟨value, -⟩
    · linarith
    · exact none (by linarith)
  refine other ?_
  rw [value_eq_signed, value_eq_signed, same, zero]
  simp [signed]

/-- With the sign of what is rounded, only magnitudes count. -/
theorem isNearest_signed_iff (positive : 0 ≤ v) (sign : x.negative = negative) :
    x.IsNearest (signed negative v) ↔ x.NearMagnitude v := by
  have own : |signed negative v - x.value| = |v - x.magnitude| := by
    rw [value_eq_signed, sign, abs_signed_sub_signed]
  constructor
  · intro nearest
    have turned (y : Binary64) : |signed negative v -
        Binary64.value { y with negative := negative }| = |v - y.magnitude| :=
      abs_signed_sub_signed negative v y.magnitude
    refine ⟨fun y => ?_, fun y other tie => ?_⟩
    · rw [← own, ← turned]
      exact nearest.near _
    · refine nearest.even { y with negative := negative } (fun same => other ?_) ?_
      · rw [← abs_value x, ← same, abs_value]
        rfl
      · rw [turned, own, tie]
  · intro nearest
    refine ⟨fun y => ?_, fun y other tie => ?_⟩
    · rw [own]
      exact (nearest.near y).trans (abs_sub_magnitude_le positive negative y)
    · rw [own] at tie
      have apart := abs_sub_magnitude_le positive negative y
      rw [tie] at apart
      exact nearest.even y (nearest.magnitude_ne positive sign other tie)
        (le_antisymm apart (nearest.near y))

/-! ## One nearest number -/

/-- The next number is at least a last place away. -/
theorem magnitude_add_place_le (less : x.magnitude < y.magnitude) :
    x.magnitude + 2 ^ x.exponent ≤ y.magnitude := by
  have place := x.zpow_exponent_pos
  have sum : x.magnitude + 2 ^ x.exponent = (x.mantissa + 1 : ℕ) * 2 ^ x.exponent := by
    rw [magnitude]
    push_cast
    ring
  rw [sum]
  by_cases coarse : x.exponent ≤ y.exponent
  · -- on the grid of that place the next point is the first candidate
    obtain ⟨k, higher⟩ : ∃ k : ℕ, y.exponent = x.exponent + k :=
      ⟨(y.exponent - x.exponent).toNat, by omega⟩
    have grid : y.magnitude = (y.mantissa * 2 ^ k : ℕ) * 2 ^ x.exponent := by
      rw [magnitude, higher, zpow_add₀ two_ne_zero, zpow_natCast]
      push_cast
      ring
    rw [grid] at less ⊢
    have points : x.mantissa < y.mantissa * 2 ^ k := by
      exact_mod_cast lt_of_mul_lt_mul_right less place.le
    exact mul_le_mul_of_nonneg_right (by exact_mod_cast points) place.le
  · -- numbers with finer places are smaller than those with long mantissas
    have long : 2 ^ (52 : Nat) ≤ x.mantissa := by
      have least := y.canonical.2.1
      exact x.canonical.2.2.2.resolve_right (by omega)
    have below : y.magnitude < x.magnitude :=
      calc y.magnitude
        _ < 2 ^ 53 * 2 ^ y.exponent :=
          mul_lt_mul_of_pos_right (by exact_mod_cast y.canonical.1) y.zpow_exponent_pos
        _ ≤ 2 ^ 53 * 2 ^ (x.exponent - 1) :=
          mul_le_mul_of_nonneg_left (zpow_le_zpow_right₀ one_le_two (by omega)) (by positivity)
        _ = 2 ^ 52 * 2 ^ x.exponent := by
          rw [zpow_sub_one₀ two_ne_zero]
          ring
        _ ≤ x.magnitude := mul_le_mul_of_nonneg_right (by exact_mod_cast long) place.le
    exact absurd less below.not_gt

/-- Between two numbers with even mantissas there is another one. -/
theorem exists_between (less : x.magnitude < y.magnitude) (even : x.mantissa % 2 = 0)
    (even' : y.mantissa % 2 = 0) :
    ∃ z : Binary64, x.magnitude < z.magnitude ∧ z.magnitude < y.magnitude := by
  have canonical : x.mantissa + 1 < 2 ^ (53 : Nat) ∧ -1074 ≤ x.exponent ∧ x.exponent ≤ 971 ∧
      (2 ^ (52 : Nat) ≤ x.mantissa + 1 ∨ x.exponent = -1074) := by
    have := x.canonical
    omega
  have sum : magnitude ⟨y.negative, x.mantissa + 1, x.exponent, canonical⟩ =
      x.magnitude + 2 ^ x.exponent := by
    unfold magnitude
    push_cast
    ring
  refine ⟨⟨y.negative, x.mantissa + 1, x.exponent, canonical⟩, ?_, ?_⟩
  · rw [sum]
    exact lt_add_of_pos_right _ x.zpow_exponent_pos
  · refine lt_of_le_of_ne (sum ▸ magnitude_add_place_le less) fun same => ?_
    have next : ⟨y.negative, x.mantissa + 1, x.exponent, canonical⟩ = y := eq_of_magnitude rfl same
    rw [← next] at even'
    simp only at even'
    omega

theorem NearMagnitude.not_lt (nearest : x.NearMagnitude v) (nearest' : y.NearMagnitude v) :
    ¬ x.magnitude < y.magnitude := by
  intro less
  have tie : |v - y.magnitude| = |v - x.magnitude| :=
    le_antisymm (nearest'.near x) (nearest.near y)
  obtain ⟨z, above, below⟩ := exists_between less (nearest.even y less.ne' tie)
    (nearest'.even x less.ne tie.symm)
  have near := nearest.near z
  -- both are equally far from their middle, and the other number is nearer to it
  rcases abs_cases (v - y.magnitude) with ⟨right, _⟩ | ⟨right, _⟩ <;>
    rcases abs_cases (v - x.magnitude) with ⟨left, _⟩ | ⟨left, _⟩ <;>
      rcases abs_cases (v - z.magnitude) with ⟨middle, _⟩ | ⟨middle, _⟩ <;> linarith

/-- There is one nearest number of the sign of what is rounded. -/
theorem IsNearest.unique (nearest : x.IsNearest (signed negative v))
    (nearest' : y.IsNearest (signed negative v)) (positive : 0 ≤ v) (sign : x.negative = negative)
    (sign' : y.negative = negative) : x = y := by
  rw [isNearest_signed_iff positive sign] at nearest
  rw [isNearest_signed_iff positive sign'] at nearest'
  refine eq_of_magnitude (sign.trans sign'.symm) ?_
  exact le_antisymm (not_lt.1 (nearest'.not_lt nearest)) (not_lt.1 (nearest.not_lt nearest'))

end Binary64

/-! ## Rounding on a grid -/

namespace Nearest

variable {w : ℚ} {m n : ℕ}

theorem le_of_lt (near : Nearest w m) (below : w < n) : m ≤ n := by
  by_contra! more
  have step : (n : ℚ) + 1 ≤ m := by exact_mod_cast more
  have bounds := abs_le.1 near.le
  linarith

theorem ge_of_ge (near : Nearest w m) (above : n ≤ w) : n ≤ m := by
  by_contra! less
  have step : (m : ℚ) + 1 ≤ n := by exact_mod_cast less
  have bounds := abs_le.1 near.le
  linarith

theorem half_le_abs_sub (near : Nearest w m) (other : n ≠ m) : 1 / 2 ≤ |w - n| := by
  have bounds := abs_le.1 near.le
  rw [le_abs]
  rcases Nat.lt_or_gt_of_ne other with less | more
  · have step : (n : ℚ) + 1 ≤ m := by exact_mod_cast less
    exact .inl (by linarith)
  · have step : (m : ℚ) + 1 ≤ n := by exact_mod_cast more
    exact .inr (by linarith)

theorem abs_sub_le (near : Nearest w m) (n : ℕ) : |w - m| ≤ |w - n| := by
  by_cases same : n = m
  · rw [same]
  · exact near.le.trans (near.half_le_abs_sub same)

theorem even_of_tie (near : Nearest w m) (other : n ≠ m) (tie : |w - n| = |w - m|) :
    m % 2 = 0 := by
  by_contra odd
  have apart := near.half_le_abs_sub other
  rw [Nearest, if_neg odd] at near
  linarith

/-- What is rounded below an even integer is more than half below it. -/
theorem lt_of_lt_even (near : Nearest w m) (less : m < n) (even : n % 2 = 0) :
    w < n - 1 / 2 := by
  have step : (m : ℚ) + 1 ≤ n := by exact_mod_cast less
  have bounds := abs_le.1 near.le
  by_cases next : m + 1 = n
  · have odd : ¬ m % 2 = 0 := by omega
    rw [Nearest, if_neg odd, abs_lt] at near
    linarith
  · have more : (m : ℚ) + 1 + 1 ≤ n := by exact_mod_cast (by omega : m + 1 + 1 ≤ n)
    linarith

end Nearest

namespace Binary64

variable {x : Binary64} {v : ℚ} {m : ℕ}

/-- The place on which a quotient is rounded. -/
def roundingPlace (v : ℚ) : ℤ :=
  max (-1074) (Int.log 2 v - 52)

theorem div_roundingPlace_lt (positive : 0 < v) : v / 2 ^ roundingPlace v < 2 ^ 53 := by
  rw [← not_le, ← add_le_log_iff positive]
  unfold roundingPlace
  omega

theorem le_div_roundingPlace (positive : 0 < v) (normal : roundingPlace v ≠ -1074) :
    2 ^ 52 ≤ v / 2 ^ roundingPlace v := by
  refine (add_le_log_iff positive (roundingPlace v) 52).1 ?_
  unfold roundingPlace at normal ⊢
  omega

/-- Numbers with finer places are below the points of the grid, all others are points of it. -/
theorem magnitude_on_grid (positive : 0 < v) (y : Binary64) :
    (∃ n : ℕ, y.magnitude = n * 2 ^ roundingPlace v) ∨
      y.magnitude < (2 ^ 52 : ℕ) * 2 ^ roundingPlace v ∧ 2 ^ 52 ≤ v / 2 ^ roundingPlace v := by
  by_cases coarse : roundingPlace v ≤ y.exponent
  · obtain ⟨k, higher⟩ : ∃ k : ℕ, y.exponent = roundingPlace v + k :=
      ⟨(y.exponent - roundingPlace v).toNat, by omega⟩
    refine .inl ⟨y.mantissa * 2 ^ k, ?_⟩
    rw [magnitude, higher, zpow_add₀ two_ne_zero, zpow_natCast]
    push_cast
    ring
  · have normal : roundingPlace v ≠ -1074 := by
      have least := y.canonical.2.1
      omega
    refine .inr ⟨?_, le_div_roundingPlace positive normal⟩
    calc y.magnitude
      _ < 2 ^ 53 * 2 ^ y.exponent :=
        mul_lt_mul_of_pos_right (by exact_mod_cast y.canonical.1) y.zpow_exponent_pos
      _ ≤ 2 ^ 53 * 2 ^ (roundingPlace v - 1) :=
        mul_le_mul_of_nonneg_left (zpow_le_zpow_right₀ one_le_two (by omega)) (by positivity)
      _ = (2 ^ 52 : ℕ) * 2 ^ roundingPlace v := by
        rw [zpow_sub_one₀ two_ne_zero]
        push_cast
        ring

/-- The nearest point of the grid is nearest among all numbers. -/
theorem nearMagnitude_of_nearest (positive : 0 < v) (near : Nearest (v / 2 ^ roundingPlace v) m)
    (point : x.magnitude = m * 2 ^ roundingPlace v) (even : m % 2 = 0 → x.mantissa % 2 = 0) :
    x.NearMagnitude v := by
  have place : (0 : ℚ) < 2 ^ roundingPlace v := zpow_pos two_pos _
  have scaled (n : ℚ) : |v - n * 2 ^ roundingPlace v| =
      |v / 2 ^ roundingPlace v - n| * 2 ^ roundingPlace v := by
    rw [← abs_of_pos place, ← abs_mul, abs_of_pos place, sub_mul, div_mul_cancel₀ _ place.ne']
  have strict {y : Binary64} (finer : y.magnitude < (2 ^ 52 : ℕ) * 2 ^ roundingPlace v)
      (full : 2 ^ 52 ≤ v / 2 ^ roundingPlace v) : |v - x.magnitude| < |v - y.magnitude| := by
    have first : ((2 ^ 52 : ℕ) : ℚ) * 2 ^ roundingPlace v ≤ v := by
      rw [le_div_iff₀ place] at full
      exact_mod_cast full
    calc |v - x.magnitude|
      _ ≤ |v - (2 ^ 52 : ℕ) * 2 ^ roundingPlace v| := by
        rw [point, scaled, scaled]
        exact mul_le_mul_of_nonneg_right (near.abs_sub_le _) place.le
      _ = v - (2 ^ 52 : ℕ) * 2 ^ roundingPlace v := abs_of_nonneg (sub_nonneg.2 first)
      _ < v - y.magnitude := sub_lt_sub_left finer v
      _ ≤ |v - y.magnitude| := le_abs_self _
  constructor
  · intro y
    rcases magnitude_on_grid positive y with ⟨n, grid⟩ | ⟨finer, full⟩
    · rw [point, grid, scaled, scaled]
      exact mul_le_mul_of_nonneg_right (near.abs_sub_le n) place.le
    · exact (strict finer full).le
  · intro y other tie
    rcases magnitude_on_grid positive y with ⟨n, grid⟩ | ⟨finer, full⟩
    · rw [point, grid] at other
      rw [point, grid, scaled, scaled] at tie
      have points : n ≠ m := fun same => other (by rw [same])
      exact even (near.even_of_tie points (mul_right_cancel₀ place.ne' tie))
    · exact absurd tie (strict finer full).ne'

/-! ## Quotients -/

/-- A mantissa rounded beyond the greatest one is that of the next power of two. -/
def ofRounded? (negative : Bool) (m : ℕ) (k : ℤ) : Option Binary64 :=
  if m = 2 ^ (53 : Nat) then ofParts? negative (2 ^ (52 : Nat)) (k + 1) else ofParts? negative m k

theorem ofRatio?_eq (negative : Bool) {num den : ℕ} (some : 0 < num) (positive : 0 < den) :
    ∃ m, Nearest (num / den / 2 ^ roundingPlace (num / den)) m ∧
      ofRatio? negative num den = ofRounded? negative m (roundingPlace (num / den)) := by
  have near := roundHalfEven_nearest
    (num * 2 ^ (-roundingPlace (num / den)).toNat)
    (Nat.mul_pos positive (Nat.pow_pos (n := (roundingPlace (num / den)).toNat) two_pos))
  rw [scaled_ratio two_ne_zero, Nat.cast_ofNat] at near
  refine ⟨_, near, ?_⟩
  rw [ofRatio?, if_neg some.ne', floorLog2_eq_log some positive]
  rfl

/-! ## The greatest number -/

/-- What rounding a magnitude is to give: the nearest number, if there is one. -/
def Rounded (negative : Bool) (v : ℚ) : Option Binary64 → Prop
  | none => Overflows v
  | some x => ¬ Overflows v ∧ x.negative = negative ∧ x.NearMagnitude v

theorem overflows_of_le {A : ℚ} {k K : ℤ} (great : A ≤ v / 2 ^ k) (least : 0 ≤ A) (higher : K ≤ k)
    (limit : (2 ^ 53 - 1 / 2) * 2 ^ (971 : ℤ) ≤ A * 2 ^ K) : Overflows v := by
  have place : (0 : ℚ) < 2 ^ k := zpow_pos two_pos k
  rw [le_div_iff₀ place] at great
  have beyond : (2 ^ 53 - 1 / 2) * 2 ^ (971 : ℤ) ≤ v :=
    calc (2 ^ 53 - 1 / 2) * 2 ^ (971 : ℤ)
      _ ≤ A * 2 ^ K := limit
      _ ≤ A * 2 ^ k := mul_le_mul_of_nonneg_left (zpow_le_zpow_right₀ one_le_two higher) least
      _ ≤ v := great
  exact beyond.trans (le_abs_self v)

theorem not_overflows_of_lt {A : ℚ} {k K : ℤ} (positive : 0 ≤ v) (small : v / 2 ^ k < A)
    (least : 0 ≤ A) (lower : k ≤ K)
    (limit : A * 2 ^ K ≤ (2 ^ 53 - 1 / 2) * 2 ^ (971 : ℤ)) : ¬ Overflows v := by
  have place : (0 : ℚ) < 2 ^ k := zpow_pos two_pos k
  rw [div_lt_iff₀ place] at small
  rw [Overflows, abs_of_nonneg positive, not_le]
  calc v
    _ < A * 2 ^ k := small
    _ ≤ A * 2 ^ K := mul_le_mul_of_nonneg_left (zpow_le_zpow_right₀ one_le_two lower) least
    _ ≤ (2 ^ 53 - 1 / 2) * 2 ^ (971 : ℤ) := limit

theorem ofRounded?_spec (positive : 0 < v) (near : Nearest (v / 2 ^ roundingPlace v) m)
    (negative : Bool) : Rounded negative v (ofRounded? negative m (roundingPlace v)) := by
  have below := div_roundingPlace_lt positive
  have most : m ≤ 2 ^ (53 : Nat) := near.le_of_lt (by exact_mod_cast below)
  have least : -1074 ≤ roundingPlace v := le_max_left _ _
  have long (normal : roundingPlace v ≠ -1074) : 2 ^ (52 : Nat) ≤ m :=
    near.ge_of_ge (by exact_mod_cast le_div_roundingPlace positive normal)
  unfold ofRounded? ofParts?
  split
  · next full =>
    split
    · next fits =>
      have halves : ((2 ^ (52 : Nat) : ℕ) : ℚ) * 2 ^ (roundingPlace v + 1) =
          m * 2 ^ roundingPlace v := by
        rw [full, zpow_add_one₀ two_ne_zero]
        push_cast
        ring
      refine ⟨not_overflows_of_lt (K := 970) positive.le below (by norm_num) (by omega) ?_, rfl,
        nearMagnitude_of_nearest positive near halves fun _ => Nat.mod_eq_zero_of_dvd ?_⟩
      · have double : (2 : ℚ) ^ (971 : ℤ) = 2 * 2 ^ (970 : ℤ) := zpow_one_add₀ two_ne_zero 970
        have power : (0 : ℚ) < 2 ^ (970 : ℤ) := zpow_pos two_pos _
        rw [double]
        generalize (2 : ℚ) ^ (970 : ℤ) = scale at power ⊢
        linarith
      · exact Dvd.intro (2 ^ (51 : Nat)) rfl
    · next beyond =>
      have great : 2 ^ 53 - 1 / 2 ≤ v / 2 ^ roundingPlace v := by
        have bounds := abs_le.1 near.le
        rw [full] at bounds
        push_cast at bounds
        linarith
      exact overflows_of_le (K := 971) great (by norm_num) (by omega) le_rfl
  · next proper =>
    split
    · next fits =>
      have small := near.lt_of_lt_even (n := 2 ^ (53 : Nat)) (by omega) rfl
      push_cast at small
      exact ⟨not_overflows_of_lt positive.le small (by norm_num) fits.2.2.1 le_rfl, rfl,
        nearMagnitude_of_nearest positive near rfl id⟩
    · next beyond =>
      have normal : roundingPlace v ≠ -1074 := by omega
      refine overflows_of_le (K := 972) (le_div_roundingPlace positive normal) (by norm_num)
        (by omega) ?_
      have double : (2 : ℚ) ^ (972 : ℤ) = 2 * 2 ^ (971 : ℤ) := zpow_one_add₀ two_ne_zero 971
      have power : (0 : ℚ) < 2 ^ (971 : ℤ) := zpow_pos two_pos _
      rw [double]
      generalize (2 : ℚ) ^ (971 : ℤ) = scale at power ⊢
      linarith

theorem ofRatio?_spec {num den : ℕ} (some : 0 < num) (positive : 0 < den) (negative : Bool) :
    Rounded negative (num / den) (ofRatio? negative num den) := by
  obtain ⟨m, near, result⟩ := ofRatio?_eq negative some positive
  rw [result]
  exact ofRounded?_spec (by positivity) near negative

/-! ## Decimals -/

theorem magnitude_zero (negative : Bool) : (zero negative).magnitude = 0 := by
  simp [magnitude, zero]

/-- No positive number is below the least one. -/
theorem le_magnitude (some : x.isZero = false) : 2 ^ (-1074 : ℤ) ≤ x.magnitude := by
  have first : (1 : ℚ) ≤ x.mantissa := by exact_mod_cast mantissa_pos some
  calc (2 : ℚ) ^ (-1074 : ℤ)
    _ ≤ 2 ^ x.exponent := zpow_le_zpow_right₀ one_le_two x.canonical.2.1
    _ ≤ x.magnitude := le_mul_of_one_le_left x.zpow_exponent_pos.le first

theorem nearMagnitude_zero (positive : 0 ≤ v) (small : 2 * v < 2 ^ (-1074 : ℤ)) (negative : Bool) :
    (zero negative).NearMagnitude v := by
  refine ⟨fun y => ?_, fun _ _ _ => rfl⟩
  rw [magnitude_zero, sub_zero, abs_of_nonneg positive]
  cases none : y.isZero with
  | true =>
    have nothing : y.magnitude = 0 :=
      le_antisymm (not_lt.1 fun more => by rw [magnitude_pos_iff.1 more] at none; cases none)
        y.magnitude_nonneg
    rw [nothing, sub_zero]
    exact le_abs_self v
  | false =>
    have least := le_magnitude none
    rw [le_abs]
    exact .inr (by linarith)

/-- A decimal is read as the number nearest to it, if it is not beyond the greatest one. -/
theorem ofDecimal?_spec (negative : Bool) (d : Decimal) :
    Rounded negative d.value (ofDecimal? negative d.coefficient d.exponent) := by
  have tiny (positive : 0 ≤ d.value) (small : d.value < 2 ^ (-1075 : ℤ)) :
      Rounded negative d.value (some (zero negative)) := by
    have double : (2 : ℚ) ^ (-1074 : ℤ) = 2 * 2 ^ (-1075 : ℤ) := zpow_one_add₀ two_ne_zero (-1075)
    have least : (2 : ℚ) ^ (-1075 : ℤ) ≤ 2 ^ (971 : ℤ) := zpow_le_zpow_right₀ one_le_two (by decide)
    refine ⟨?_, rfl, nearMagnitude_zero positive (by linarith) negative⟩
    rw [Overflows, abs_of_nonneg positive]
    generalize (2 : ℚ) ^ (971 : ℤ) = scale at least ⊢
    linarith
  unfold ofDecimal?
  split
  · next none =>
    have value : d.value = 0 := by rw [Decimal.value, none, Nat.cast_zero, zero_mul]
    exact tiny value.ge (value.trans_lt (zpow_pos two_pos _))
  · next some =>
    have power : (0 : ℚ) < 10 ^ d.exponent := zpow_pos (by norm_num) _
    have coefficient : 0 < d.coefficient := Nat.pos_of_ne_zero some
    have positive : 0 < d.value := mul_pos (by exact_mod_cast coefficient) power
    split
    · next great =>
      have beyond := Decimal.lt_value_of_great some great
      have limit : (2 : ℚ) ^ 53 * 2 ^ (971 : ℤ) = 2 ^ (1024 : ℤ) := by
        rw [← zpow_natCast, ← zpow_add₀ two_ne_zero]
        rfl
      calc ((2 : ℚ) ^ 53 - 1 / 2) * 2 ^ (971 : ℤ)
        _ ≤ 2 ^ 53 * 2 ^ (971 : ℤ) :=
          mul_le_mul_of_nonneg_right (by norm_num) (zpow_nonneg two_pos.le _)
        _ = 2 ^ (1024 : ℤ) := limit
        _ ≤ 2 ^ (1075 : ℤ) := zpow_le_zpow_right₀ one_le_two (by decide)
        _ ≤ d.value := beyond.le
        _ ≤ |d.value| := le_abs_self _
    · split
      · next small => exact tiny positive.le (Decimal.value_lt_of_small small)
      · rw [← d.ratio_eq_value]
        exact ofRatio?_spec (Nat.mul_pos coefficient (Nat.pow_pos (by decide)))
          (Nat.pow_pos (by decide)) negative

end Binary64

end QueryTree
