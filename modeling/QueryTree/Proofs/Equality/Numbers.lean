import Mathlib.Tactic.Ring
import QueryTree.Proofs.NumberText

/-!
# Equal numbers

Numbers of one value need not have one text: an integer is written with all its digits, a binary
number with the shortest ones that read back as it, and from `10^21` on with an exponent.

* `Decimal.Spells`           : the digits of a decimal, filled up with zeros, as an integer
* `Layout.magnitude_eq_decimal_iff` : when a decimal is written like an integer
* `Number.WrittenAlike`      : two kinds of number that are written alike
* `Number.queryText_eq_iff`  : when numbers of one value have one text
* `RoundingInterval.Around`  : an integer alone in its interval
* `Number.WrittenAlike.of_small` : integers that binary numbers hold exactly
-/

namespace QueryTree

attribute [local instance (high)] instPowNat

/-! ## Decimals written like integers -/

/-- The digits of a decimal, filled up with zeros, are those of an integer. -/
def Decimal.Spells (d : Decimal) (n : Nat) : Prop :=
  ∃ g : Nat, d.exponent = g ∧ d.coefficient * 10 ^ g = n

theorem length_digits_mul_pow_le_iff {c : Nat} (some : c ≠ 0) {g width : Nat}
    (positive : 0 < width) :
    (Text.decimal c).length + g ≤ width ↔ c * 10 ^ g < 10 ^ width := by
  rw [← length_digits_le_iff positive, digits_mul_pow some, List.length_append,
    List.length_replicate, Text.decimal, List.length_map]

namespace Layout

variable {d : Decimal} {n : Nat}

theorem magnitude_zero (zero : d.coefficient = 0) : query.magnitude d = Text.decimal 0 := by
  have text : Text.decimal 0 = ['0'] := by rw [Text.decimal, Text.digits_of_lt (by decide)]; rfl
  simp [magnitude, positional, query, zero, text]

/-- Below `10^21` a decimal without places behind the point is written with all its digits. -/
theorem magnitude_whole {g : Nat} (some : d.coefficient ≠ 0) (whole : d.exponent = g)
    (fits : d.coefficient * 10 ^ g < 10 ^ 21) :
    query.magnitude d = Text.decimal (d.coefficient * 10 ^ g) := by
  have short := (length_digits_mul_pow_le_iff some (by decide)).2 fits
  have first : 0 < (Text.decimal d.coefficient).length := by
    obtain ⟨c, cs, text, -⟩ := decimal_eq_cons d.coefficient
    rw [text]
    exact Nat.succ_pos _
  have band : query.leastPositional ≤ d.exponent + (Text.decimal d.coefficient).length - 1 ∧
      d.exponent + (Text.decimal d.coefficient).length - 1 ≤ query.greatestPositional := by
    constructor <;> simp only [query] <;> omega
  have zeros : (d.exponent + (Text.decimal d.coefficient).length - 1 + 1).toNat -
      (Text.decimal d.coefficient).length = g := by omega
  rw [magnitude, if_neg some, if_pos band, positional, if_neg (by omega), if_pos (by omega), zeros,
    decimal_mul_pow some]
  exact List.append_nil _

/-- Every other decimal has a point or an exponent in its text. -/
theorem whole_of_digits (some : d.coefficient ≠ 0)
    (digits : ∀ c ∈ query.magnitude d, IsAsciiDigit c) :
    0 ≤ d.exponent ∧ d.exponent + (Text.decimal d.coefficient).length ≤ 21 := by
  have noPoint : '.' ∉ query.magnitude d := fun member => (digits _ member).ne (by decide) rfl
  have noExponent : 'e' ∉ query.magnitude d := fun member => (digits _ member).ne (by decide) rfl
  rw [magnitude, if_neg some] at noPoint noExponent
  split at noPoint
  · next band =>
    have upper := band.2
    simp only [query] at upper
    refine ⟨?_, by omega⟩
    by_contra negative
    refine noPoint ?_
    rw [positional]
    split
    · simp
    · rw [if_neg (by omega)]
      simp
  · next outside =>
    rw [if_neg outside] at noExponent
    refine absurd ?_ noExponent
    obtain ⟨c, cs, text, -⟩ := decimal_eq_cons d.coefficient
    rw [text]
    cases cs <;> simp [scientific, exponentText]

/-- A decimal is written like an integer exactly when it spells it below `10^21`. -/
theorem magnitude_eq_decimal_iff (some : n ≠ 0) :
    query.magnitude d = Text.decimal n ↔ n < 10 ^ 21 ∧ d.Spells n := by
  constructor
  · intro same
    have digits : ∀ c ∈ query.magnitude d, IsAsciiDigit c := fun c member =>
      isAsciiDigit_of_mem_decimal (same ▸ member)
    by_cases zero : d.coefficient = 0
    · rw [magnitude_zero zero] at same
      exact absurd (decimal_injective same).symm some
    · obtain ⟨above, short⟩ := whole_of_digits zero digits
      obtain ⟨g, whole⟩ := Int.eq_ofNat_of_zero_le above
      have fits : d.coefficient * 10 ^ g < 10 ^ 21 :=
        (length_digits_mul_pow_le_iff zero (by decide)).1 (by omega)
      have value := decimal_injective ((magnitude_whole zero whole fits).symm.trans same)
      exact ⟨value ▸ fits, g, whole, value⟩
  · rintro ⟨fits, g, whole, rfl⟩
    exact magnitude_whole (fun zero => some (by rw [zero, Nat.zero_mul])) whole fits

end Layout

/-! ## Binary numbers of one value -/

namespace Binary64

theorem natAbs_units (x : Binary64) :
    x.units.natAbs = x.mantissa * 2 ^ (x.exponent + 1074).toNat := by
  rw [units]
  split
  · rw [Int.natAbs_neg, Int.natAbs_natCast]
  · rw [Int.natAbs_natCast]

theorem isZero_iff {x : Binary64} : x.isZero = true ↔ x.units = 0 := by
  have positive : 2 ^ (x.exponent + 1074).toNat ≠ 0 := Nat.ne_of_gt (Nat.pow_pos (by decide))
  rw [← Int.natAbs_eq_zero, natAbs_units, isZero, beq_iff_eq, Nat.mul_eq_zero]
  exact (or_iff_left positive).symm

theorem shortest_of_isZero {x : Binary64} (zero : x.isZero = true) : x.shortest = ⟨0, 0⟩ := by
  rw [shortest, if_pos zero]

theorem spells_zero {x : Binary64} (zero : x.isZero = true) : x.shortest.Spells 0 :=
  ⟨0, by rw [shortest_of_isZero zero]; rfl, by rw [shortest_of_isZero zero]; rfl⟩

/-- Of two numbers of one magnitude neither has the greater exponent: it would have at most half the
    mantissa of the other, although mantissas above the least exponent are long. -/
theorem exponent_le_of_natAbs_units {x y : Binary64} (some : x.isZero = false)
    (same : x.units.natAbs = y.units.natAbs) : y.exponent ≤ x.exponent := by
  have nonzero : x.mantissa ≠ 0 := by simpa [isZero] using some
  obtain ⟨short, least, -, -⟩ := x.canonical
  obtain ⟨-, least', -, long⟩ := y.canonical
  by_contra greater
  obtain ⟨k, further⟩ : ∃ k : Nat, y.exponent = x.exponent + (k + 1 : Nat) :=
    ⟨(y.exponent - x.exponent - 1).toNat, by omega⟩
  have shifted : (y.exponent + 1074).toNat = (x.exponent + 1074).toNat + (k + 1) := by omega
  have positive : 0 < 2 ^ (x.exponent + 1074).toNat := Nat.pow_pos (by decide)
  rw [natAbs_units, natAbs_units, shifted, Nat.pow_add, Nat.mul_comm (2 ^ _) (2 ^ (k + 1)),
    ← Nat.mul_assoc] at same
  have mantissa := Nat.eq_of_mul_eq_mul_right positive same
  have double : y.mantissa * 2 ≤ y.mantissa * 2 ^ (k + 1) :=
    Nat.mul_le_mul_left _ (Nat.le_self_pow (by omega) 2)
  omega

/-- Equal fields are the only way to hold a value other than zero. -/
theorem eq_of_units {x y : Binary64} (some : x.isZero = false) (same : x.units = y.units) :
    x = y := by
  have some' : y.isZero = false := by
    rw [← Bool.not_eq_true, isZero_iff, ← same, ← isZero_iff, Bool.not_eq_true]
    exact some
  have magnitude := congrArg Int.natAbs same
  have exponent : x.exponent = y.exponent :=
    Int.le_antisymm (exponent_le_of_natAbs_units some' magnitude.symm)
      (exponent_le_of_natAbs_units some magnitude)
  have mantissa : x.mantissa = y.mantissa := by
    rw [natAbs_units, natAbs_units, exponent] at magnitude
    exact Nat.eq_of_mul_eq_mul_right (Nat.pow_pos (by decide)) magnitude
  have sign : (Number.float x).isNegative = (Number.float y).isNegative := by
    rw [Number.isNegative, Number.isNegative, Number.units, Number.units, same]
  rw [Number.isNegative_float, Number.isNegative_float, some, some'] at sign
  cases x
  cases y
  simp only [Bool.not_false, Bool.and_true] at mantissa exponent sign
  subst mantissa exponent sign
  rfl

end Binary64

/-! ## When equal numbers have one text -/

namespace Number

/-- Numbers of one value have one sign, so their magnitudes decide. -/
theorem queryText_eq_iff_magnitudeText {m n : Number} (same : m.sameValue n = true) :
    m.queryText = n.queryText ↔ m.magnitudeText = n.magnitudeText := by
  have sign : m.isNegative = n.isNegative := by
    rw [isNegative, isNegative, eq_of_beq same]
  rw [queryText_eq_sign, queryText_eq_sign, sign, List.append_cancel_left_eq]

/-- Numbers of one value are written alike: an integer beside a binary number is below `10^21` and
    spelt by the shortest digits of that. -/
def WrittenAlike : Number → Number → Prop
  | .int n, .float x | .float x, .int n => n.natAbs < 10 ^ 21 ∧ x.shortest.Spells n.natAbs
  | _, _ => True

theorem natAbs_mul_eq {n : Int} {x : Binary64} (same : (int n).units = x.units) :
    n.natAbs * 2 ^ (1074 : Nat) = x.mantissa * 2 ^ (x.exponent + 1074).toNat := by
  have two : (2 : Int).natAbs = 2 := rfl
  rw [← Binary64.natAbs_units, ← same, units, Int.natAbs_mul, Int.natAbs_pow, two]

theorem isZero_iff_int {n : Int} {x : Binary64} (same : (int n).units = x.units) :
    x.isZero = true ↔ n = 0 := by
  rw [Binary64.isZero_iff, ← same, units, Int.mul_eq_zero]
  exact or_iff_left (Int.ne_of_gt scale_pos)

theorem magnitudeText_int_eq_iff {n : Int} {x : Binary64} (same : (int n).units = x.units) :
    (int n).magnitudeText = (float x).magnitudeText ↔
      n.natAbs < 10 ^ 21 ∧ x.shortest.Spells n.natAbs := by
  by_cases zero : x.isZero = true
  · have text : (float x).magnitudeText = Text.decimal 0 :=
      Layout.magnitude_zero (by rw [Binary64.shortest_of_isZero zero])
    rw [text, (isZero_iff_int same).1 zero]
    exact iff_of_true rfl ⟨by decide, Binary64.spells_zero zero⟩
  · have some : n.natAbs ≠ 0 := by
      rw [ne_eq, Int.natAbs_eq_zero, ← isZero_iff_int same]
      exact zero
    rw [magnitudeText, magnitudeText, ← Layout.magnitude_eq_decimal_iff some]
    exact eq_comm

theorem magnitudeText_float_eq {x y : Binary64} (same : x.units = y.units) :
    (float x).magnitudeText = (float y).magnitudeText := by
  cases zero : x.isZero with
  | false => rw [Binary64.eq_of_units zero same]
  | true =>
    have zero' : y.isZero = true := by
      rw [Binary64.isZero_iff, ← same, ← Binary64.isZero_iff]
      exact zero
    rw [magnitudeText, magnitudeText, Binary64.shortest_of_isZero zero,
      Binary64.shortest_of_isZero zero']

/-- Numbers of one value have one text exactly when they are written alike. -/
theorem queryText_eq_iff {m n : Number} (same : m.sameValue n = true) :
    m.queryText = n.queryText ↔ m.WrittenAlike n := by
  rw [queryText_eq_iff_magnitudeText same]
  have value : m.units = n.units := eq_of_beq same
  cases m with
  | int m =>
    cases n with
    | int n =>
      have one : m = n := Int.eq_of_mul_eq_mul_right (Int.ne_of_gt scale_pos) value
      exact iff_of_true (by rw [one]) trivial
    | float x => exact magnitudeText_int_eq_iff value
  | float x =>
    cases n with
    | int n => exact eq_comm.trans (magnitudeText_int_eq_iff value.symm)
    | float y => exact iff_of_true (magnitudeText_float_eq value) trivial

end Number

/-! ## Integers that binary numbers hold exactly -/

theorem roundHalfEven_eq_or (num den : Nat) :
    roundHalfEven num den = num / den ∨ roundHalfEven num den = num / den + 1 := by
  simp only [roundHalfEven]
  generalize num / den = q
  split
  · exact .inl rfl
  · split <;> omega

namespace RoundingInterval

variable {r : RoundingInterval} {n k : Nat}

theorem contains_of_nearest? (found : r.nearest? = some k) : r.contains k = true := by
  rw [nearest?] at found
  split at found
  · next below above =>
    cases found
    rcases roundHalfEven_eq_or r.centre r.denominator with same | same <;> rw [same] <;> assumption
  · next below _ => cases found; exact below
  · next _ above => cases found; exact above
  · cases found

/-- The search on a grid tries the two neighbours of the centre. -/
theorem isSome_nearest?_of_contains (inside : r.contains (r.centre / r.denominator) = true ∨
    r.contains (r.centre / r.denominator + 1) = true) : r.nearest?.isSome = true := by
  unfold nearest?
  dsimp only
  rcases inside with inside | inside
  · rw [inside]
    split <;> first | rfl | contradiction
  · rw [inside]
    split <;> first | rfl | contradiction

/-- On a grid of integers only the denominator changes. -/
theorem onGrid_natCast (r : RoundingInterval) (g : Nat) :
    r.onGrid g = { r with denominator := r.denominator * 10 ^ g } := by
  simp [onGrid]

theorem le_of_contains (inside : r.contains k = true) :
    r.lower ≤ k * r.denominator ∧ k * r.denominator ≤ r.upper := by
  rw [contains] at inside
  split at inside
  · simpa using inside
  · simp only [Bool.and_eq_true, decide_eq_true_eq] at inside
    omega

/-- The interval of an integer, with less than one on either side of it. -/
structure Around (r : RoundingInterval) (n : Nat) : Prop where
  centre : r.centre = n * r.denominator
  below : r.lower < r.centre
  above : r.centre < r.upper
  lower : r.centre < r.lower + r.denominator
  upper : r.upper < r.centre + r.denominator

namespace Around

/-- No other integer is in the interval, on whichever grid. -/
theorem eq_of_contains (around : r.Around n) {g : Nat}
    (inside : (r.onGrid g).contains k = true) : k * 10 ^ g = n := by
  obtain ⟨centre, -, -, lower, upper⟩ := around
  rw [onGrid_natCast] at inside
  have ends := le_of_contains inside
  have grid : k * (r.denominator * 10 ^ g) = k * 10 ^ g * r.denominator := by ring
  simp only [grid] at ends
  -- an integer further down or up would be one denominator away
  have down : n ≤ k * 10 ^ g := by
    by_contra less
    have step := Nat.mul_le_mul_right r.denominator (Nat.succ_le_of_lt (Nat.not_le.1 less))
    rw [Nat.succ_mul] at step
    omega
  have up : k * 10 ^ g ≤ n := by
    by_contra more
    have step := Nat.mul_le_mul_right r.denominator (Nat.succ_le_of_lt (Nat.not_le.1 more))
    rw [Nat.succ_mul] at step
    omega
  exact Nat.le_antisymm up down

theorem isSome_nearest? (around : r.Around n) : (r.onGrid 0).nearest?.isSome = true := by
  obtain ⟨centre, below, above, lower, upper⟩ := around
  have positive : 0 < r.denominator := by omega
  have inside : r.contains n = true := by
    rw [contains, ← centre]
    split <;> simp <;> omega
  have grid : r.onGrid 0 = r := by simpa using r.onGrid_natCast 0
  rw [grid]
  refine isSome_nearest?_of_contains (.inl ?_)
  rwa [centre, Nat.mul_div_cancel _ positive]

theorem floorLog10_eq (around : r.Around n) :
    floorLog10 r.centre r.denominator = (Text.digits n).length - 1 := by
  obtain ⟨centre, below, above, lower, upper⟩ := around
  have positive : 0 < r.denominator := by omega
  have some : 0 < n :=
    Nat.pos_of_mul_pos_right (Nat.lt_of_le_of_lt (Nat.zero_le _) (centre ▸ below))
  rw [floorLog10, centre, if_pos (Nat.le_mul_of_pos_left _ some), Nat.mul_div_cancel _ positive]

end Around

/-- The decimal that the search finds on the grid for its first `i` digits. -/
def onPlace (r : RoundingInterval) (top : Int) (i : Nat) : Option Decimal :=
  let g := top + 1 - i
  (r.onGrid g).nearest?.map fun k => ⟨k, g⟩

theorem Around.spells_of_onPlace (around : r.Around n) {i : Nat} {d : Decimal}
    (whole : i ≤ (Text.digits n).length)
    (found : r.onPlace ((Text.digits n).length - 1) i = some d) : d.Spells n := by
  obtain ⟨g, place⟩ : ∃ g : Nat, ((Text.digits n).length : Int) - 1 + 1 - i = g :=
    ⟨(Text.digits n).length - i, by omega⟩
  simp only [onPlace, place, Option.map_eq_some_iff] at found
  obtain ⟨k, nearest, rfl⟩ := found
  exact ⟨g, rfl, around.eq_of_contains (contains_of_nearest? nearest)⟩

theorem Around.isSome_onPlace (around : r.Around n) :
    (r.onPlace ((Text.digits n).length - 1) (Text.digits n).length).isSome = true := by
  have place : ((Text.digits n).length : Int) - 1 + 1 - (Text.digits n).length = 0 := by omega
  simp only [onPlace, place, Option.isSome_map]
  exact around.isSome_nearest?

end RoundingInterval

namespace Binary64

variable {x : Binary64} {n : Nat}

theorem shortest_eq (some : x.isZero = false) :
    x.shortest = ((List.range 18).findSome? (x.interval.onPlace
      (floorLog10 x.interval.centre x.interval.denominator))).getD ⟨0, 0⟩ := by
  rw [shortest, some, if_neg Bool.false_ne_true]
  rfl

/-- The search finds the digits of an integer that is alone in its interval, at the latest on the
    grid of the integers. -/
theorem spells_of_around (some : x.isZero = false) (around : x.interval.Around n)
    (short : (Text.digits n).length ≤ 17) : x.shortest.Spells n := by
  have split : List.range 18 = List.range ((Text.digits n).length + 1) ++
      (List.range (17 - (Text.digits n).length)).map ((Text.digits n).length + 1 + ·) := by
    rw [← List.range_add]
    congr 1
    omega
  have found : ((List.range ((Text.digits n).length + 1)).findSome?
      (x.interval.onPlace ((Text.digits n).length - 1))).isSome = true :=
    List.findSome?_isSome_iff.2 ⟨_, List.self_mem_range_succ, around.isSome_onPlace⟩
  obtain ⟨d, first⟩ := Option.isSome_iff_exists.1 found
  obtain ⟨i, member, place⟩ := List.exists_of_findSome?_eq_some first
  rw [shortest_eq some, around.floorLog10_eq, split, List.findSome?_append, first, Option.some_or,
    Option.getD_some]
  exact around.spells_of_onPlace (Nat.le_of_lt_succ (List.mem_range.1 member)) place

theorem interval_around (some : x.isZero = false) (whole : x.exponent ≤ 0)
    (value : x.mantissa = n * 2 ^ (-x.exponent).toNat) : x.interval.Around n := by
  have nonzero : x.mantissa ≠ 0 := by simpa [isZero] using some
  have scale : (x.exponent - 2).toNat = 0 := by omega
  have quarters : (2 - x.exponent).toNat = (-x.exponent).toNat + 2 := by omega
  have places : 0 < 2 ^ (-x.exponent).toNat := Nat.pow_pos (by decide)
  have centre : 4 * x.mantissa = n * (2 ^ (-x.exponent).toNat * 4) := by rw [value]; ring
  have below : (if x.mantissa = 2 ^ (52 : Nat) ∧ -1074 < x.exponent then 1 else 2) ≤ 2 := by
    split <;> decide
  have below' : 0 < (if x.mantissa = 2 ^ (52 : Nat) ∧ -1074 < x.exponent then 1 else 2) := by
    split <;> decide
  constructor <;>
    simp only [interval, scale, quarters, Nat.pow_add, Nat.pow_zero, Nat.mul_one] <;> omega

theorem mantissa_of_whole (whole : x.exponent ≤ 0)
    (value : n * 2 ^ (1074 : Nat) = x.mantissa * 2 ^ (x.exponent + 1074).toNat) :
    x.mantissa = n * 2 ^ (-x.exponent).toNat := by
  have least := x.canonical.2.1
  have places : (1074 : Nat) = (-x.exponent).toNat + (x.exponent + 1074).toNat := by omega
  rw [places, Nat.pow_add, ← Nat.mul_assoc] at value
  exact (Nat.eq_of_mul_eq_mul_right (Nat.pow_pos (by decide)) value).symm

/-- Of the numbers with a positive exponent, whose mantissas are long, only the least is within
    `2^53`. -/
theorem eq_two_pow_of_small (above : 0 < x.exponent)
    (value : n * 2 ^ (1074 : Nat) = x.mantissa * 2 ^ (x.exponent + 1074).toNat)
    (small : n ≤ 2 ^ (53 : Nat)) :
    x.mantissa = 2 ^ (52 : Nat) ∧ x.exponent = 1 ∧ n = 2 ^ (53 : Nat) := by
  obtain ⟨-, -, -, long⟩ := x.canonical
  obtain ⟨k, exponent⟩ : ∃ k : Nat, x.exponent = k + 1 := ⟨(x.exponent - 1).toNat, by omega⟩
  have places : (x.exponent + 1074).toNat = k + 1 + 1074 := by omega
  rw [places, Nat.pow_add, ← Nat.mul_assoc] at value
  have power : n = x.mantissa * 2 ^ (k + 1) :=
    Nat.eq_of_mul_eq_mul_right (Nat.pow_pos (by decide)) value
  have first : 2 ^ (52 : Nat) * 2 ^ (k + 1) ≤ 2 ^ (52 : Nat) * 2 ^ 1 :=
    calc 2 ^ (52 : Nat) * 2 ^ (k + 1)
      _ ≤ x.mantissa * 2 ^ (k + 1) := Nat.mul_le_mul_right _ (by omega)
      _ ≤ 2 ^ (52 : Nat) * 2 ^ 1 := by rw [← power]; exact small
  have none : k + 1 ≤ 1 :=
    (Nat.pow_le_pow_iff_right (by decide)).1 (Nat.le_of_mul_le_mul_left first (by decide))
  obtain rfl : k = 0 := by omega
  omega

/-- The number above `2^53` lies in its interval, but is further away. -/
theorem spells_two_pow (mantissa : x.mantissa = 2 ^ (52 : Nat)) (exponent : x.exponent = 1) :
    x.shortest.Spells (2 ^ (53 : Nat)) := by
  have positive : shortest ⟨false, 2 ^ (52 : Nat), 1, by decide⟩ = ⟨2 ^ (53 : Nat), 0⟩ := by
    decide +kernel
  have negative : shortest ⟨true, 2 ^ (52 : Nat), 1, by decide⟩ = ⟨2 ^ (53 : Nat), 0⟩ := by
    decide +kernel
  have shortest : x.shortest = ⟨2 ^ (53 : Nat), 0⟩ := by
    obtain ⟨sign, m, e, canonical⟩ := x
    simp only at mantissa exponent
    subst mantissa exponent
    cases sign with
    | false => exact positive
    | true => exact negative
  exact ⟨0, by rw [shortest]; rfl, by rw [shortest]; rfl⟩

end Binary64

namespace Number.WrittenAlike

theorem of_small {n : Int} {x : Binary64} (same : (Number.int n).units = x.units)
    (small : n.natAbs ≤ 2 ^ (53 : Nat)) : (Number.int n).WrittenAlike (.float x) := by
  refine ⟨Nat.lt_of_le_of_lt small (by decide), ?_⟩
  have value := natAbs_mul_eq same
  cases zero : x.isZero with
  | true =>
    rw [(isZero_iff_int same).1 zero]
    exact Binary64.spells_zero zero
  | false =>
    by_cases whole : x.exponent ≤ 0
    · have mantissa := Binary64.mantissa_of_whole whole value
      refine Binary64.spells_of_around zero (Binary64.interval_around zero whole mantissa) ?_
      exact length_digits_le (Nat.lt_of_le_of_lt small (by decide)) (by decide)
    · obtain ⟨mantissa, exponent, power⟩ :=
        Binary64.eq_two_pow_of_small (Int.not_le.1 whole) value small
      rw [power]
      exact Binary64.spells_two_pow mantissa exponent

/-- Equal numbers are written alike as long as the integers among them are within `2^53`. -/
theorem of_exact {m n : Number} (same : m.sameValue n = true)
    (small : ∀ k : Int, m = .int k ∨ n = .int k → k.natAbs ≤ 2 ^ (53 : Nat)) :
    m.WrittenAlike n := by
  have value : m.units = n.units := eq_of_beq same
  cases m with
  | int m =>
    cases n with
    | int n => trivial
    | float x => exact of_small value (small m (.inl rfl))
  | float x =>
    cases n with
    | int n => exact of_small value.symm (small n (.inr rfl))
    | float y => trivial

end Number.WrittenAlike

end QueryTree
