import QueryTree.Proofs.Numbers.Order

/-!
# Fewest digits

The search for the shortest decimal goes from coarse grids to fine ones and finds a point of the
interval on each grid that has one.  So no decimal of the interval ends on a higher place than the
shortest one, which therefore does not end in a zero, and is whole if the number is.

* `lt_ten_zpow_floorLog10`  : the first place of a number is the highest below it
* `Binary64.isSome_onPlace_of_holds` : a grid with a point in the interval is good enough
* `Binary64.exponent_le_shortest` : no decimal of the interval is coarser
* `Binary64.coefficient_mod_ten` : the last digit of a shortest decimal
* `Binary64.shortest_exponent_nonneg_iff` : whole numbers
-/

namespace QueryTree

attribute [local instance (high)] instPowNat

/-! ## The first place -/

theorem ratio_lt_ten_zpow_neg {num den j : ℕ} (positive : 0 < den) (short : num * 10 ^ j < den) :
    (num : ℚ) / den < 10 ^ (-(j : ℤ)) := by
  have denominator : (0 : ℚ) < den := by exact_mod_cast positive
  have power : (0 : ℚ) < 10 ^ j := by positivity
  rw [zpow_neg, zpow_natCast, div_lt_iff₀ denominator, inv_mul_eq_div, lt_div_iff₀ power]
  exact_mod_cast short

/-- The next power of ten is above the quotient. -/
theorem lt_ten_zpow_floorLog10 {num den : ℕ} (some : 0 < num) (positive : 0 < den) :
    (num : ℚ) / den < 10 ^ (floorLog10 num den + 1) := by
  have denominator : (0 : ℚ) < den := by exact_mod_cast positive
  unfold floorLog10
  split
  · next whole =>
    have above := (Nat.div_lt_iff_lt_mul positive).1 (lt_pow_length_digits (num / den))
    rw [sub_add_cancel, zpow_natCast, div_lt_iff₀ denominator]
    exact_mod_cast above
  · next proper =>
    have first : 0 < den / num := Nat.div_pos (by omega) some
    have places := List.length_pos_of_ne_nil (digits_ne_nil (den / num))
    dsimp only
    split
    · -- the digits of the inverse quotient bound it from below
      have digits := Nat.mul_le_of_le_div _ _ _ (pow_length_digits_le first)
      have proper' : num * 10 ^ ((Text.digits (den / num)).length - 1) ≤ den := by
        rw [Nat.mul_comm]
        exact digits
      have ratio : (num : ℚ) / den ≤ 10 ^ (1 - ((Text.digits (den / num)).length : ℤ)) := by
        have exponent : 1 - ((Text.digits (den / num)).length : ℤ) =
            -(((Text.digits (den / num)).length - 1 : ℕ) : ℤ) := by omega
        have power : (0 : ℚ) < 10 ^ ((Text.digits (den / num)).length - 1) := by positivity
        rw [exponent, zpow_neg, zpow_natCast, div_le_iff₀ denominator, inv_mul_eq_div,
          le_div_iff₀ power]
        exact_mod_cast proper'
      refine ratio.trans_lt (zpow_lt_zpow_right₀ (by norm_num) ?_)
      omega
    · next short =>
      have exponent : -((Text.digits (den / num)).length : ℤ) + 1 =
          -(((Text.digits (den / num)).length - 1 : ℕ) : ℤ) := by omega
      rw [exponent]
      exact ratio_lt_ten_zpow_neg positive (Nat.not_le.1 short)

/-! ## The first grid that is good enough -/

theorem exists_first_of_findSome? {α : Type} {f : ℕ → Option α} {n : ℕ} {a : α}
    (found : (List.range n).findSome? f = some a) : ∃ i, f i = some a ∧ ∀ j < i, f j = none := by
  induction n with
  | zero => cases found
  | succ n ih =>
    rw [List.range_succ, List.findSome?_append] at found
    cases before : (List.range n).findSome? f with
    | some b =>
      rw [before, Option.some_or] at found
      exact ih (before.trans found)
    | none =>
      rw [before, Option.none_or, List.findSome?_singleton] at found
      refine ⟨n, found, fun j less => ?_⟩
      exact List.findSome?_eq_none_iff.1 before j (List.mem_range.2 less)

namespace Binary64

variable {x : Binary64} {k : ℕ} {g : ℤ}

/-- The power of ten of the first digit of a number. -/
def top (x : Binary64) : ℤ :=
  floorLog10 x.interval.centre x.interval.denominator

theorem magnitude_lt_top (some : x.isZero = false) : x.magnitude < 10 ^ (x.top + 1) := by
  have denominator : 0 < x.interval.denominator := Nat.pow_pos two_pos
  have centre : 0 < x.interval.centre :=
    Nat.mul_pos (Nat.mul_pos four_pos (mantissa_pos some)) (Nat.pow_pos two_pos)
  have above := lt_ten_zpow_floorLog10 centre denominator
  rwa [centre_eq] at above

/-- If a point of a grid lies in the interval, then one of the two neighbours of the number does:
    it lies between that point and the number. -/
theorem isSome_onPlace_of_holds (some : x.isZero = false) {i : ℕ}
    (inside : x.interval.Holds (k * 10 ^ (x.top + 1 - i))) :
    (x.interval.onPlace x.top i).isSome = true := by
  have place : (0 : ℚ) ≤ 10 ^ (x.top + 1 - i) := zpow_nonneg (by norm_num) _
  obtain ⟨below, above⟩ := x.interval.neighbours_onGrid (x.top + 1 - i)
  rw [centre_eq] at below above
  have centre := holds_magnitude some
  rw [magnitude] at centre
  unfold RoundingInterval.onPlace
  rw [Option.isSome_map]
  apply RoundingInterval.isSome_nearest?_of_contains
  rw [RoundingInterval.contains_onGrid_iff, RoundingInterval.contains_onGrid_iff]
  generalize (x.interval.onGrid (x.top + 1 - i)).centre /
    (x.interval.onGrid (x.top + 1 - i)).denominator = q at below above
  by_cases low : k ≤ q
  · have near : (k : ℚ) * 10 ^ (x.top + 1 - i) ≤ q * 10 ^ (x.top + 1 - i) :=
      mul_le_mul_of_nonneg_right (by exact_mod_cast low) place
    exact .inl (inside.between centre near below)
  · have near : ((q + 1 : ℕ) : ℚ) * 10 ^ (x.top + 1 - i) ≤ k * 10 ^ (x.top + 1 - i) :=
      mul_le_mul_of_nonneg_right (by exact_mod_cast Nat.not_le.1 low) place
    exact .inr (centre.between inside above.le near)

/-- The shortest decimal is found on the first grid on which the search finds anything. -/
theorem exists_place (some : x.isZero = false) :
    ∃ i : ℕ, x.shortest.exponent = x.top + 1 - i ∧
      ∀ j < i, x.interval.onPlace x.top j = none := by
  have found : ((List.range 18).findSome? (x.interval.onPlace x.top)).isSome = true :=
    List.findSome?_isSome_iff.2 ⟨17, List.self_mem_range_succ, isSome_onPlace some⟩
  obtain ⟨d, first⟩ := Option.isSome_iff_exists.1 found
  obtain ⟨i, place, none⟩ := exists_first_of_findSome? first
  obtain ⟨k, -, rfl⟩ := Option.map_eq_some_iff.1 place
  refine ⟨i, ?_, none⟩
  rw [shortest_eq some, ← top, first, Option.getD_some]

theorem lt_two_mul_of_holds (some : x.isZero = false) {v : ℚ} (inside : x.interval.Holds v) :
    v < 2 * x.magnitude := by
  have place := x.zpow_exponent_pos
  have first : (1 : ℚ) ≤ x.mantissa := by exact_mod_cast mantissa_pos some
  have above := (bounds_of_holds some inside).2
  rw [div_le_iff₀ place] at above
  calc v
    _ ≤ (x.mantissa + 1 / 2) * 2 ^ x.exponent := above
    _ < 2 * x.mantissa * 2 ^ x.exponent := mul_lt_mul_of_pos_right (by linarith) place
    _ = 2 * x.magnitude := mul_assoc _ _ _

/-- No decimal of the interval ends on a higher place than the shortest one. -/
theorem exponent_le_shortest (some : x.isZero = false) (inside : x.interval.Holds (k * 10 ^ g)) :
    g ≤ x.shortest.exponent := by
  obtain ⟨i, exponent, first⟩ := exists_place some
  by_contra! higher
  have power : (0 : ℚ) < 10 ^ g := zpow_pos (by norm_num) _
  -- above the first place of the number the powers of ten are too great
  have low : g ≤ x.top + 1 := by
    by_contra! great
    have digit : (1 : ℚ) ≤ k := by
      exact_mod_cast pos_of_mul_pos_left (pos_of_holds some inside) power.le
    have beyond : 2 * x.magnitude < k * 10 ^ g :=
      calc 2 * x.magnitude
        _ < 10 * 10 ^ (x.top + 1) := by
          have below := magnitude_lt_top some
          have positive := magnitude_pos_iff.2 some
          linarith
        _ = 10 ^ (x.top + 1 + 1) := by rw [zpow_add_one₀ (by norm_num) (x.top + 1), mul_comm]
        _ ≤ 10 ^ g := zpow_le_zpow_right₀ (by norm_num) great
        _ ≤ k * 10 ^ g := le_mul_of_one_le_left power.le digit
    exact lt_asymm beyond (lt_two_mul_of_holds some inside)
  obtain ⟨j, place⟩ : ∃ j : ℕ, g = x.top + 1 - j := ⟨(x.top + 1 - g).toNat, by omega⟩
  rw [place] at inside
  have found := isSome_onPlace_of_holds some inside
  rw [first j (by omega)] at found
  cases found

theorem coefficient_pos (some : x.isZero = false) : 0 < x.shortest.coefficient := by
  have positive := pos_of_holds some (holds_shortest some)
  have power : (0 : ℚ) ≤ 10 ^ x.shortest.exponent := zpow_nonneg (by norm_num) _
  exact_mod_cast pos_of_mul_pos_left positive power

/-- A shortest decimal does not end in a zero. -/
theorem coefficient_mod_ten (some : x.isZero = false) : x.shortest.coefficient % 10 ≠ 0 := by
  intro zero
  have inside := holds_shortest some
  have shifted : x.shortest.value =
      ((x.shortest.coefficient / 10 : ℕ) : ℚ) * 10 ^ (x.shortest.exponent + 1) := by
    have tens : x.shortest.coefficient = x.shortest.coefficient / 10 * 10 := by omega
    rw [Decimal.value, zpow_add_one₀ (by norm_num), mul_comm _ (10 : ℚ), ← mul_assoc]
    congr 1
    exact_mod_cast tens
  rw [shifted] at inside
  have higher := exponent_le_shortest some inside
  omega

/-! ## Whole numbers -/

/-- The number has no fractional part. -/
def IsWhole (x : Binary64) : Prop :=
  ∃ n : ℕ, x.magnitude = n

/-- A number with an integer in its interval is that integer, or has no places behind the point. -/
theorem isWhole_of_holds (some : x.isZero = false) (inside : x.interval.Holds k) : x.IsWhole := by
  by_cases places : 0 ≤ x.exponent
  · refine ⟨x.mantissa * 2 ^ x.exponent.toNat, ?_⟩
    have power : (2 : ℚ) ^ x.exponent = 2 ^ x.exponent.toNat := by
      rw [← zpow_natCast, Int.toNat_of_nonneg places]
    rw [magnitude, power]
    push_cast
    rfl
  · have power : (k : ℚ) / 2 ^ x.exponent = (k * 2 ^ (-x.exponent).toNat : ℕ) := by
      have negative : ((-x.exponent).toNat : ℤ) = -x.exponent := by omega
      push_cast
      rw [← zpow_natCast, negative, zpow_neg, div_eq_mul_inv]
    have near := nearest_of_holds some inside
    have same : Nearest (k / 2 ^ x.exponent) (k * 2 ^ (-x.exponent).toNat) := by
      rw [power]
      exact .of_lt (by rw [sub_self, abs_zero]; norm_num)
    refine ⟨k, ?_⟩
    rw [magnitude, near.unique same, ← power, div_mul_cancel₀ _ x.zpow_exponent_pos.ne']

/-- The shortest decimal has no places behind the point exactly if the number is whole. -/
theorem shortest_exponent_nonneg_iff (some : x.isZero = false) :
    0 ≤ x.shortest.exponent ↔ x.IsWhole := by
  constructor
  · intro whole
    have value : x.shortest.value =
        (x.shortest.coefficient * 10 ^ x.shortest.exponent.toNat : ℕ) := by
      have power : (10 : ℚ) ^ x.shortest.exponent = 10 ^ x.shortest.exponent.toNat := by
        rw [← zpow_natCast, Int.toNat_of_nonneg whole]
      rw [Decimal.value, power]
      push_cast
      rfl
    exact isWhole_of_holds some (value ▸ holds_shortest some)
  · rintro ⟨n, whole⟩
    have centre : x.interval.Holds (n * 10 ^ (0 : ℤ)) := by
      rw [zpow_zero, mul_one, ← whole]
      exact holds_magnitude some
    exact exponent_le_shortest some centre

end Binary64

end QueryTree
