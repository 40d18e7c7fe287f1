import QueryTree.Proofs.NumberText
import QueryTree.Proofs.Numbers.Scanner
import QueryTree.Proofs.Numbers.Shortest

/-!
# Numerals

The text of a numeral is scanned as the numeral, and the text of a decimal, in whatever layout, is
that of a numeral that denotes the decimal.

* `Numeral.text`, `Numeral.Spelled`, `Numeral.scan?_text` : numerals in ASCII digits
* `Numeral.decimal`           : the decimal that a numeral denotes
* `Layout.numeral`, `Layout.magnitude_eq_text` : the numeral that a decimal is written as
* `Layout.value_numeral`      : it denotes the decimal
* `Layout.isInteger_numeral_iff`, `Layout.magnitude_of_isInteger` : numerals of queries without point
  and exponent
-/

namespace QueryTree

attribute [local instance (high)] instPowNat

/-! ## Scanning digits -/

theorem digitValue?_digitChar {d : Nat} (small : d < 10) :
    Text.digitValue? (Text.digitChar d) = some d := by
  have all : ∀ d < 10, Text.digitValue? (Text.digitChar d) = some d := by decide
  exact all d small

theorem digitsText_map {ds : List Nat} (small : ∀ d ∈ ds, d < 10) :
    DigitsText (ds.map Text.digitChar) ds := by
  rw [DigitsText, List.forall₂_map_left_iff, List.forall₂_same]
  exact fun d member => digitValue?_digitChar (small d member)

/-! ## Numerals in ASCII digits -/

namespace Numeral

/-- The text of an exponent, which always has a sign. -/
def exponentText : Option (Bool × List Nat) → List Char
  | none => []
  | some (negative, ds) => 'e' :: (if negative then '-' else '+') :: ds.map Text.digitChar

/-- The point, the digits behind it and the exponent. -/
def endText (n : Numeral) : List Char :=
  if n.point then '.' :: (n.fraction.map Text.digitChar ++ exponentText n.exponent)
  else exponentText n.exponent

def text (n : Numeral) : List Char :=
  (if n.negative then ['-'] else []) ++ (n.whole.map Text.digitChar ++ n.endText)

/-- A numeral that can be told from its text: there is a digit in front of the point, and there are
    digits behind it only if there is one. -/
structure Spelled (n : Numeral) : Prop where
  whole : n.whole ≠ []
  wholeSmall : ∀ d ∈ n.whole, d < 10
  fraction : n.point = false → n.fraction = []
  fractionSmall : ∀ d ∈ n.fraction, d < 10
  exponent : ∀ e ∈ n.exponent, e.2 ≠ [] ∧ ∀ d ∈ e.2, d < 10

section Written

variable {n : Numeral}

theorem exponentText_written {e : Option (Bool × List Nat)}
    (spelled : ∀ e' ∈ e, e'.2 ≠ [] ∧ ∀ d ∈ e'.2, d < 10) : ExponentText e (exponentText e) := by
  cases e with
  | none => exact .none
  | some e =>
    obtain ⟨negative, ds⟩ := e
    obtain ⟨some, small⟩ := spelled _ rfl
    cases negative with
    | false => exact .power (.inl rfl) .plus (digitsText_map small) some
    | true => exact .power (.inl rfl) .minus (digitsText_map small) some

theorem Spelled.written (spelled : n.Spelled) : n.WrittenAs n.text := by
  obtain ⟨some, small, none, places, exponent⟩ := spelled
  obtain ⟨negative, whole, point, fraction, e⟩ := n
  have signed : SignText negative (if negative then ['-'] else []) := by
    cases negative with
    | false => exact .none
    | true => exact .minus
  have power := exponentText_written exponent
  unfold text endText
  cases point with
  | true =>
    have behind : PointText true fraction ('.' :: fraction.map Text.digitChar) :=
      .point (digitsText_map places)
    exact .parts signed (digitsText_map small) behind power (.inl some)
  | false =>
    obtain rfl : fraction = [] := none rfl
    exact .parts signed (digitsText_map small) .none power (.inl some)

theorem scan?_text (spelled : n.Spelled) : scan? n.text = some n :=
  scan?_of_written spelled.written

end Written

/-- The decimal that a numeral denotes, apart from its sign. -/
def decimal (n : Numeral) : Decimal :=
  ⟨Text.ofDigits (n.whole ++ n.fraction), n.scale⟩

theorem value_decimal (n : Numeral) :
    n.decimal.value = Text.ofDigits (n.whole ++ n.fraction) * (10 : ℚ) ^ n.scale :=
  rfl

end Numeral

/-! ## The numerals of decimals -/

namespace Layout

/-- Digits with a point behind the first `whole` of them. -/
def positionalNumeral (l : Layout) (ds : List Nat) (whole : Int) : Numeral :=
  if whole ≤ 0 then ⟨false, [0], true, List.replicate (-whole).toNat 0 ++ ds, none⟩
  else if (ds.length : Int) ≤ whole then
    ⟨false, ds ++ List.replicate (whole.toNat - ds.length) 0, l.fractionZero,
      List.replicate l.fractionZero.toNat 0, none⟩
  else ⟨false, ds.take whole.toNat, true, ds.drop whole.toNat, none⟩

/-- Digits with the point behind the first and an exponent. -/
def scientificNumeral (l : Layout) (ds : List Nat) (e : Int) : Numeral :=
  ⟨false, ds.take 1, 1 < ds.length, ds.drop 1,
    some (e < 0, paddedDigits l.exponentWidth e.natAbs)⟩

/-- The numeral that a decimal is written as. -/
def numeral (l : Layout) (d : Decimal) : Numeral :=
  let ds := Text.digits d.coefficient
  let e := d.exponent + ds.length - 1
  if d.coefficient = 0 then l.positionalNumeral ds 1
  else if l.leastPositional ≤ e ∧ e ≤ l.greatestPositional then l.positionalNumeral ds (e + 1)
  else l.scientificNumeral ds e

section Digits

variable {l : Layout} {ds : List Nat} (some : ds ≠ [])

theorem positional_eq_text (whole : Int) :
    l.positional (ds.map Text.digitChar) whole = (l.positionalNumeral ds whole).text := by
  have zero : Text.digitChar 0 = '0' := rfl
  unfold positional positionalNumeral
  rw [List.length_map]
  split
  · simp [Numeral.text, Numeral.endText, Numeral.exponentText, zero]
  · split
    · cases l.fractionZero <;>
        simp [Numeral.text, Numeral.endText, Numeral.exponentText, zero]
    · simp [Numeral.text, Numeral.endText, Numeral.exponentText]

theorem exponentText_eq (e : Int) :
    l.exponentText e =
      Numeral.exponentText (.some (e < 0, paddedDigits l.exponentWidth e.natAbs)) := by
  unfold exponentText Numeral.exponentText
  rw [padded_eq]
  simp only [decide_eq_true_eq]

theorem value_positional (whole : Int) :
    (l.positionalNumeral ds whole).decimal.value =
      Text.ofDigits ds * (10 : ℚ) ^ (whole - ds.length) := by
  rw [Numeral.value_decimal]
  unfold positionalNumeral
  split
  · next lead =>
    have places : -(((-whole).toNat + ds.length : ℕ) : ℤ) = whole - ds.length := by omega
    have digits : Text.ofDigits ([0] ++ (List.replicate (-whole).toNat 0 ++ ds)) =
        Text.ofDigits ds :=
      (ofDigits_zeros_append 1 _).trans (ofDigits_zeros_append _ _)
    simp only [Numeral.scale, digits, List.length_append, List.length_replicate, zero_sub, places]
  · next positive =>
    split
    · next filled =>
      have zeros : (whole.toNat - ds.length : ℕ) = whole - ds.length := by omega
      have power : (10 : ℚ) ^ l.fractionZero.toNat * 10 ^ (-(l.fractionZero.toNat : ℤ)) = 1 := by
        rw [← zpow_natCast, ← zpow_add₀ (by norm_num), add_neg_cancel, zpow_zero]
      simp only [Numeral.scale, ofDigits_append_zeros, List.length_replicate, zero_sub]
      push_cast
      rw [mul_assoc, power, mul_one, ← zeros, zpow_natCast]
    · next split =>
      have places : -((ds.length - whole.toNat : ℕ) : ℤ) = whole - ds.length := by omega
      simp only [Numeral.scale, List.take_append_drop, List.length_drop, zero_sub, places]

theorem isInteger_positional_iff {whole : Int} :
    (l.positionalNumeral ds whole).isInteger = true ↔
      0 < whole ∧ ds.length ≤ whole ∧ l.fractionZero = false := by
  unfold positionalNumeral
  split
  · next lead => exact iff_of_false Bool.false_ne_true (by omega)
  · next positive =>
    split
    · next filled =>
      simp only [Numeral.isInteger, Option.isNone_none, Bool.and_true, Bool.not_eq_true']
      exact ⟨fun pointless => ⟨not_le.1 positive, filled, pointless⟩, fun proper => proper.2.2⟩
    · next short => exact iff_of_false Bool.false_ne_true fun proper => short proper.2.1

include some

theorem scientific_eq_text (e : Int) :
    l.scientific (ds.map Text.digitChar) e = (l.scientificNumeral ds e).text := by
  unfold scientificNumeral
  cases ds with
  | nil => exact absurd rfl some
  | cons d ds =>
    cases ds with
    | nil => simp [scientific, exponentText_eq, Numeral.text, Numeral.endText]
    | cons d' ds => simp [scientific, exponentText_eq, Numeral.text, Numeral.endText]

theorem decimal_scientific (e : Int) :
    (l.scientificNumeral ds e).decimal = ⟨Text.ofDigits ds, e - ds.length + 1⟩ := by
  have exponent : (if decide (e < 0) = true then -(e.natAbs : Int) else e.natAbs) = e := by
    split <;> next sign => simp only [decide_eq_true_eq] at sign; omega
  have places : e - ((ds.length - 1 : ℕ) : ℤ) = e - ds.length + 1 := by
    have := List.length_pos_of_ne_nil some
    omega
  simp only [Numeral.decimal, scientificNumeral, Numeral.scale, ofDigits_paddedDigits, exponent,
    List.length_drop, places, List.take_append_drop]

theorem value_scientific (e : Int) :
    (l.scientificNumeral ds e).decimal.value =
      Text.ofDigits ds * (10 : ℚ) ^ (e - ds.length + 1) := by
  rw [decimal_scientific some, Decimal.value]

variable (small : ∀ d ∈ ds, d < 10)

include small

theorem spelled_positional {whole : Int} : (l.positionalNumeral ds whole).Spelled := by
  have zeros {k d : Nat} (member : d ∈ List.replicate k 0) : d < 10 := by
    rw [List.eq_of_mem_replicate member]
    decide
  unfold positionalNumeral
  split
  · refine ⟨List.cons_ne_nil _ _, by simp, by rintro ⟨⟩, fun d member => ?_, by rintro e ⟨⟩⟩
    rcases List.mem_append.1 member with zero | digit
    · exact zeros zero
    · exact small d digit
  · split
    · refine ⟨by simp [some], fun d member => ?_, fun point => ?_, fun d => zeros, by rintro e ⟨⟩⟩
      · rcases List.mem_append.1 member with digit | zero
        · exact small d digit
        · exact zeros zero
      · dsimp only at point ⊢
        rw [point]
        rfl
    · next positive _ =>
      refine ⟨?_, fun d member => small d (List.mem_of_mem_take member), by rintro ⟨⟩,
        fun d member => small d (List.mem_of_mem_drop member), by rintro e ⟨⟩⟩
      rw [ne_eq, List.take_eq_nil_iff, not_or]
      exact ⟨by omega, some⟩

theorem spelled_scientific {e : Int} : (l.scientificNumeral ds e).Spelled := by
  refine ⟨?_, fun d member => small d (List.mem_of_mem_take member), fun point => ?_,
    fun d member => small d (List.mem_of_mem_drop member), ?_⟩
  · unfold scientificNumeral
    rw [ne_eq, List.take_eq_nil_iff, not_or]
    exact ⟨by decide, some⟩
  · unfold scientificNumeral at point ⊢
    rw [decide_eq_false_iff_not] at point
    rw [List.drop_eq_nil_iff]
    omega
  · rintro e ⟨⟩
    exact ⟨paddedDigits_ne_nil _ _, fun d => lt_of_mem_paddedDigits⟩

end Digits

end Layout

/-- The power of ten of the first digit of a decimal. -/
def Decimal.top (d : Decimal) : ℤ :=
  d.exponent + (Text.digits d.coefficient).length - 1

namespace Layout

/-- The first digit has one of the places that the layout writes positionally. -/
def InBand (l : Layout) (d : Decimal) : Prop :=
  l.leastPositional ≤ d.top ∧ d.top ≤ l.greatestPositional

section Decimals

variable {l : Layout} {d : Decimal}

theorem magnitude_eq_text (l : Layout) (d : Decimal) : l.magnitude d = (l.numeral d).text := by
  unfold magnitude numeral
  simp only [Text.decimal, List.length_map]
  split
  · exact positional_eq_text 1
  · split
    · exact positional_eq_text _
    · exact scientific_eq_text (digits_ne_nil _) _

theorem numeral_of_zero (zero : d.coefficient = 0) : l.numeral d = l.positionalNumeral [0] 1 := by
  rw [numeral, if_pos zero, zero, Text.digits_of_lt (by decide)]

/-- A decimal is written positionally in the band of its layout, and else with an exponent. -/
theorem numeral_cases (l : Layout) (d : Decimal) :
    d.coefficient = 0 ∧ l.numeral d = l.positionalNumeral [0] 1 ∨
      d.coefficient ≠ 0 ∧ l.InBand d ∧
        l.numeral d = l.positionalNumeral (Text.digits d.coefficient) (d.top + 1) ∨
      d.coefficient ≠ 0 ∧ ¬ l.InBand d ∧
        l.numeral d = l.scientificNumeral (Text.digits d.coefficient) d.top := by
  by_cases zero : d.coefficient = 0
  · exact .inl ⟨zero, numeral_of_zero zero⟩
  · rw [numeral, if_neg zero]
    split
    · next band => exact .inr (.inl ⟨zero, band, rfl⟩)
    · next outside => exact .inr (.inr ⟨zero, outside, rfl⟩)

theorem spelled_numeral (l : Layout) (d : Decimal) : (l.numeral d).Spelled := by
  have some := digits_ne_nil d.coefficient
  have small : ∀ e ∈ Text.digits d.coefficient, e < 10 := fun _ => Text.lt_of_mem_digits
  rcases l.numeral_cases d with ⟨-, form⟩ | ⟨-, -, form⟩ | ⟨-, -, form⟩ <;> rw [form]
  · exact spelled_positional (List.cons_ne_nil _ _) (by decide)
  · exact spelled_positional some small
  · exact spelled_scientific some small

theorem negative_numeral (l : Layout) (d : Decimal) : (l.numeral d).negative = false := by
  have positional (ds : List Nat) (whole : Int) :
      (l.positionalNumeral ds whole).negative = false := by
    unfold positionalNumeral
    split
    · rfl
    · split <;> rfl
  rcases l.numeral_cases d with ⟨-, form⟩ | ⟨-, -, form⟩ | ⟨-, -, form⟩ <;> rw [form]
  · exact positional _ _
  · exact positional _ _
  · rfl

/-- Whatever its layout, the numeral that a decimal is written as denotes the decimal. -/
theorem value_numeral (l : Layout) (d : Decimal) : (l.numeral d).decimal.value = d.value := by
  have value : d.value = d.coefficient * (10 : ℚ) ^ d.exponent := rfl
  rw [value]
  rcases l.numeral_cases d with ⟨zero, form⟩ | ⟨-, -, form⟩ | ⟨-, -, form⟩ <;> rw [form]
  · rw [value_positional, zero, Nat.cast_zero, zero_mul]
    exact zero_mul _
  · rw [value_positional, Text.ofDigits_digits, Decimal.top]
    congr 2
    ring
  · rw [value_scientific (digits_ne_nil _), Text.ofDigits_digits, Decimal.top]
    congr 2
    ring

/-- In a query only decimals below `10^21` without places behind the point have neither a point nor
    an exponent. -/
theorem isInteger_numeral_iff (some : d.coefficient ≠ 0) :
    (query.numeral d).isInteger = true ↔ 0 ≤ d.exponent ∧ d.top ≤ 20 := by
  have first := List.length_pos_of_ne_nil (digits_ne_nil d.coefficient)
  have top : d.top + 1 = d.exponent + (Text.digits d.coefficient).length := by
    unfold Decimal.top
    omega
  rcases query.numeral_cases d with ⟨zero, -⟩ | ⟨-, band, form⟩ | ⟨-, outside, form⟩
  · exact absurd zero some
  · have most : d.top ≤ 20 := band.2
    have pointless : query.fractionZero = false := rfl
    rw [form, isInteger_positional_iff, and_iff_left pointless]
    omega
  · have proper : (query.numeral d).isInteger = false := by
      rw [form]
      exact Bool.and_false _
    rw [proper]
    refine iff_of_false Bool.false_ne_true fun whole => outside ⟨?_, whole.2⟩
    show -6 ≤ d.top
    omega

/-- Without point and exponent, the text of a decimal is that of an integer. -/
theorem magnitude_of_isInteger (integer : (query.numeral d).isInteger = true) :
    ∃ n, query.magnitude d = Text.decimal n ∧ n < 10 ^ 21 ∧ (n : ℚ) = d.value := by
  by_cases zero : d.coefficient = 0
  · exact ⟨0, magnitude_zero zero, by decide, by rw [Decimal.value, zero, Nat.cast_zero, zero_mul]⟩
  · obtain ⟨natural, most⟩ := (isInteger_numeral_iff zero).1 integer
    obtain ⟨g, exponent⟩ := Int.eq_ofNat_of_zero_le natural
    have fits : d.coefficient * 10 ^ g < 10 ^ 21 := by
      refine (length_digits_mul_pow_le_iff zero (by decide)).1 ?_
      unfold Decimal.top at most
      rw [Text.decimal, List.length_map]
      omega
    refine ⟨_, magnitude_whole zero exponent fits, fits, ?_⟩
    rw [Decimal.value, exponent, zpow_natCast]
    push_cast
    rfl

end Decimals

end Layout

end QueryTree
