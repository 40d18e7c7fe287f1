import Mathlib.Tactic.ByContra
import QueryTree.Number.Basic
import QueryTree.Proofs.Digits

/-!
# Numbers as text

What the text of a number in a query looks like: a minus sign if the number is negative, and a
magnitude that starts with a digit and goes on with digits, a point and an exponent.

* `IsNumeralChar`         : the characters of magnitudes
* `Number.isNegative`, `Number.abs` : the sign of a number and its absolute value
* `Number.queryText_eq_sign`, `Number.queryText_signed`, `Number.queryText_negative` : sign and
  magnitude of a text
* `Number.queryText_eq_cons`, `Number.numeralChar_of_mem_queryText` : its characters
-/

namespace QueryTree

attribute [local instance (high)] instPowNat

/-! ## Magnitudes -/

/-- A digit, or a character of points and exponents. -/
def IsNumeralChar (c : Char) : Prop :=
  IsAsciiDigit c ∨ c ∈ ['.', 'e', '+', '-']

namespace Layout

variable {l : Layout}

/-- The digits of a text stay digits, and zeros are put around them. -/
theorem numeralChar_of_mem_positional {ds : List Char} {whole : Int} {c : Char}
    (digits : ∀ c ∈ ds, IsAsciiDigit c) (member : c ∈ l.positional ds whole) :
    IsNumeralChar c := by
  have zero : IsAsciiDigit '0' := ⟨0, by decide, rfl⟩
  have point : IsNumeralChar '.' := .inr (by decide)
  unfold positional at member
  split at member
  · simp only [List.cons_append, List.mem_cons, List.mem_append] at member
    rcases member with rfl | rfl | zeros | digit
    · exact .inl zero
    · exact point
    · exact .inl (List.eq_of_mem_replicate zeros ▸ zero)
    · exact .inl (digits c digit)
  · split at member
    · rw [List.mem_append, List.mem_append] at member
      rcases member with (digit | zeros) | fraction
      · exact .inl (digits c digit)
      · exact .inl (List.eq_of_mem_replicate zeros ▸ zero)
      · split at fraction
        · rcases List.mem_pair.1 fraction with rfl | rfl
          · exact point
          · exact .inl zero
        · cases fraction
    · simp only [List.mem_append, List.mem_cons] at member
      rcases member with digit | rfl | digit
      · exact .inl (digits c (List.mem_of_mem_take digit))
      · exact point
      · exact .inl (digits c (List.mem_of_mem_drop digit))

theorem numeralChar_of_mem_exponentText {e : Int} {c : Char}
    (member : c ∈ l.exponentText e) : IsNumeralChar c := by
  simp only [exponentText, List.mem_cons] at member
  rcases member with rfl | rfl | digit
  · exact .inr (by decide)
  · split <;> exact .inr (by decide)
  · exact .inl (isAsciiDigit_of_mem_padded digit)

theorem numeralChar_of_mem_scientific {ds : List Char} {e : Int} {c : Char}
    (digits : ∀ c ∈ ds, IsAsciiDigit c) (member : c ∈ l.scientific ds e) :
    IsNumeralChar c := by
  unfold scientific at member
  split at member
  · cases member
  · rcases List.mem_cons.1 member with rfl | exponent
    · exact .inl (digits _ (.head _))
    · exact numeralChar_of_mem_exponentText exponent
  · simp only [List.cons_append, List.mem_cons, List.mem_append] at member
    rcases member with rfl | rfl | digit | exponent
    · exact .inl (digits _ (.head _))
    · exact .inr (by decide)
    · exact .inl (digits c (.tail _ digit))
    · exact numeralChar_of_mem_exponentText exponent

theorem numeralChar_of_mem_magnitude {d : Decimal} {c : Char}
    (member : c ∈ l.magnitude d) : IsNumeralChar c := by
  have digits : ∀ c ∈ Text.decimal d.coefficient, IsAsciiDigit c := fun _ =>
    isAsciiDigit_of_mem_decimal
  simp only [magnitude] at member
  split at member
  · exact numeralChar_of_mem_positional digits member
  · split at member
    · exact numeralChar_of_mem_positional digits member
    · exact numeralChar_of_mem_scientific digits member

theorem numeralChar_of_mem_write {x : Binary64} {c : Char} (member : c ∈ l.write x) :
    IsNumeralChar c := by
  unfold write at member
  split at member
  · rcases List.mem_cons.1 member with rfl | magnitude
    · exact .inr (by decide)
    · exact numeralChar_of_mem_magnitude magnitude
  · exact numeralChar_of_mem_magnitude member

/-- A magnitude starts with a digit: the first one of its own, or a zero before the point. -/
theorem magnitude_eq_cons (d : Decimal) :
    ∃ c cs, query.magnitude d = c :: cs ∧ IsAsciiDigit c := by
  obtain ⟨c, cs, text, digit⟩ := decimal_eq_cons d.coefficient
  have positional (whole : Int) :
      ∃ c' cs', query.positional (c :: cs) whole = c' :: cs' ∧ IsAsciiDigit c' := by
    unfold Layout.positional
    split
    · exact ⟨'0', _, rfl, 0, by decide, rfl⟩
    · next positive =>
      split
      · exact ⟨c, _, rfl, digit⟩
      · obtain ⟨k, more⟩ : ∃ k, whole.toNat = k + 1 := ⟨whole.toNat - 1, by omega⟩
        rw [more]
        exact ⟨c, _, rfl, digit⟩
  unfold magnitude
  simp only [text]
  split
  · exact positional 1
  · split
    · exact positional _
    · unfold scientific
      split
      · next empty => cases empty
      · next single => cases single; exact ⟨c, _, rfl, digit⟩
      · next several => cases several; exact ⟨c, _, rfl, digit⟩

end Layout

/-! ## Signs -/

theorem natAbs_signed (negative : Bool) (n : Nat) :
    (if negative then -(n : Int) else n).natAbs = n := by
  cases negative <;> simp

namespace Number

def abs : Number → Number
  | .int n => .int n.natAbs
  | .float x => .float { x with negative := false }

/-- The scale on which integers and binary numbers agree. -/
theorem scale_pos : (0 : Int) < 2 ^ (1074 : Nat) :=
  Int.pow_pos (by decide)

theorem units_abs (n : Number) : n.abs.units = n.units.natAbs := by
  cases n with
  | int n =>
    have scaled (k : Int) (positive : 0 < k) : (n.natAbs : Int) * k = ((n * k).natAbs : Int) := by
      rw [Int.natAbs_mul, Int.natCast_mul, Int.natAbs_of_nonneg (Int.le_of_lt positive)]
    exact scaled _ scale_pos
  | float x =>
    rw [abs, units, units, Binary64.units, Binary64.units, if_neg Bool.false_ne_true]
    dsimp only
    split
    · rw [Int.natAbs_neg, Int.natAbs_natCast]
    · rw [Int.natAbs_natCast]

/-- Whether a number is less than zero. -/
def isNegative (n : Number) : Bool :=
  n.units < 0

theorem isNegative_int {n : Int} : (int n).isNegative = decide (n < 0) := by
  have scaled (k : Int) (positive : 0 < k) : n * k < 0 ↔ n < 0 := by
    constructor
    · intro below
      by_contra above
      have product := Int.mul_nonneg (Int.not_lt.1 above) (Int.le_of_lt positive)
      omega
    · exact fun below => Int.mul_neg_of_neg_of_pos below positive
  rw [isNegative, decide_eq_decide]
  exact scaled _ scale_pos

/-- Of the binary numbers, those with a sign are negative, but not the zero with a sign. -/
theorem isNegative_float {x : Binary64} :
    (float x).isNegative = (x.negative && !x.isZero) := by
  have scale : 0 < 2 ^ (x.exponent + 1074).toNat := Nat.pow_pos (by decide)
  rw [isNegative, units, Binary64.units, Binary64.isZero]
  generalize 2 ^ (x.exponent + 1074).toNat = k at scale
  cases x.negative with
  | false =>
    simp only [Bool.false_eq_true, if_false, Bool.false_and, decide_eq_false_iff_not]
    omega
  | true =>
    by_cases zero : x.mantissa = 0
    · simp [zero]
    · have positive : 0 < x.mantissa * k := Nat.mul_pos (Nat.pos_of_ne_zero zero) scale
      have below : -((x.mantissa * k : Nat) : Int) < 0 := by omega
      have some : (x.mantissa == 0) = false := beq_false_of_ne zero
      simp only [if_true, some, below, decide_true, Bool.not_false, Bool.and_self]

theorem isNegative_abs (n : Number) : n.abs.isNegative = false := by
  rw [isNegative, units_abs, decide_eq_false_iff_not]
  omega

/-- The text of a number without its sign. -/
def magnitudeText : Number → List Char
  | .int n => Text.decimal n.natAbs
  | .float x => Layout.query.magnitude x.shortest

theorem magnitudeText_abs (n : Number) : n.abs.magnitudeText = n.magnitudeText := by
  cases n with
  | int n => rw [abs, magnitudeText, magnitudeText, Int.natAbs_natCast]
  | float x => rfl

theorem queryText_eq_sign (n : Number) :
    n.queryText = (if n.isNegative then ['-'] else []) ++ n.magnitudeText := by
  cases n with
  | int n =>
    rw [isNegative_int, queryText, Text.decimalInt, magnitudeText]
    by_cases negative : n < 0 <;> simp [negative]
  | float x =>
    have sign : (x.negative && (Layout.query.signedZero || !x.isZero)) = (float x).isNegative := by
      rw [isNegative_float]
      rfl
    rw [queryText, Layout.write, sign, magnitudeText]
    cases (float x).isNegative <;> rfl

/-- The text of an integer that is put together from a sign and a magnitude; there is no negative
    zero. -/
theorem queryText_signed {negative : Bool} {n : Nat} (proper : negative = true → 0 < n) :
    (int (if negative then -n else n)).queryText =
      (if negative then ['-'] else []) ++ Text.decimal n := by
  have sign : decide ((if negative then -n else n : Int) < 0) = negative := by
    cases negative with
    | false => exact decide_eq_false (by simp)
    | true => exact decide_eq_true (by simpa using proper rfl)
  rw [queryText_eq_sign, isNegative_int, sign, magnitudeText, natAbs_signed]

/-- The text of a negative number is that of its absolute value behind a minus sign. -/
theorem queryText_negative {n : Number} (negative : n.isNegative = true) :
    n.queryText = '-' :: n.abs.queryText := by
  rw [queryText_eq_sign, queryText_eq_sign, negative, isNegative_abs, magnitudeText_abs]
  rfl

/-- The text of any other number starts with a digit. -/
theorem queryText_eq_cons {n : Number} (positive : n.isNegative = false) :
    ∃ c cs, n.queryText = c :: cs ∧ IsAsciiDigit c := by
  rw [queryText_eq_sign, positive]
  cases n with
  | int n => exact decimal_eq_cons _
  | float x => exact Layout.magnitude_eq_cons _

theorem numeralChar_of_mem_queryText {n : Number} {c : Char} (member : c ∈ n.queryText) :
    IsNumeralChar c := by
  rw [queryText_eq_sign, List.mem_append] at member
  rcases member with sign | digit
  · split at sign
    · rw [List.mem_singleton.1 sign]
      exact .inr (by decide)
    · cases sign
  · cases n with
    | int n => exact .inl (isAsciiDigit_of_mem_decimal digit)
    | float x => exact Layout.numeralChar_of_mem_magnitude digit

end Number

end QueryTree
