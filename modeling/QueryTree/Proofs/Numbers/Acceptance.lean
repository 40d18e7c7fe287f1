import QueryTree.Proofs.Numbers.Nearest
import QueryTree.Proofs.Numbers.Numerals
import QueryTree.Query

/-!
# Accepted numbers

Which texts are read as numbers, and as which: blanks around a text are ignored, a sign and digits
are the integer that they denote, and any other numeral is the binary number nearest to what it
denotes.

* `Numeral.value`             : the number that a numeral denotes
* `Numeral.binary?_eq_some_iff`, `Numeral.binary?_eq_none_iff` : numerals as binary numbers
* `NumberReading`             : what a text is to be read as
* `Value.readNumber_eq_iff`   : it is read as that
-/

namespace QueryTree

attribute [local instance (high)] instPowNat

/-! ## What numerals denote -/

namespace Numeral

/-- The power of ten that the exponent of a numeral stands for. -/
def power (n : Numeral) : ℤ :=
  match n.exponent with
  | none => 0
  | some (negative, ds) => if negative then -Text.ofDigits ds else Text.ofDigits ds

/-- The number that a numeral denotes. -/
def value (n : Numeral) : ℚ :=
  signed n.negative
    ((Text.ofDigits n.whole + Text.ofDigits n.fraction / 10 ^ n.fraction.length) * 10 ^ n.power)

section Values

variable {n : Numeral} {x : Binary64} {cs : List Char}

/-- Point and exponent move the last digit to its place. -/
theorem value_eq_signed (n : Numeral) : n.value = signed n.negative n.decimal.value := by
  have places : (10 : ℚ) ^ n.fraction.length ≠ 0 := pow_ne_zero _ (by norm_num)
  have scale : n.scale = n.power - n.fraction.length := rfl
  rw [value, value_decimal, scale, ofDigits_append, zpow_sub₀ (by norm_num), zpow_natCast]
  congr 1
  push_cast
  field_simp

theorem overflows_value_iff : Overflows n.value ↔ Overflows n.decimal.value := by
  rw [value_eq_signed, Overflows, Overflows, abs_signed]

theorem rounded_binary? (n : Numeral) : Binary64.Rounded n.negative n.decimal.value n.binary? :=
  Binary64.ofDecimal?_spec n.negative n.decimal

theorem binary?_eq_none_iff : n.binary? = none ↔ Overflows n.value := by
  have rounded := n.rounded_binary?
  rw [overflows_value_iff]
  cases found : n.binary? with
  | none =>
    rw [found] at rounded
    exact iff_of_true rfl rounded
  | some x =>
    rw [found] at rounded
    exact iff_of_false (Option.some_ne_none x) rounded.1

/-- What a numeral is read as is the nearest number with its sign. -/
theorem binary?_eq_some_iff : n.binary? = some x ↔
    ¬ Overflows n.value ∧ x.negative = n.negative ∧ x.IsNearest n.value := by
  have rounded := n.rounded_binary?
  rw [overflows_value_iff, value_eq_signed]
  cases found : n.binary? with
  | none =>
    rw [found] at rounded
    exact iff_of_false (Option.some_ne_none x).symm fun nearest => nearest.1 rounded
  | some y =>
    rw [found] at rounded
    obtain ⟨fits, sign, near⟩ := rounded
    rw [← Binary64.isNearest_signed_iff n.decimal.value_nonneg sign] at near
    rw [Option.some_inj]
    constructor
    · rintro rfl
      exact ⟨fits, sign, near⟩
    · rintro ⟨-, sign', near'⟩
      exact near.unique near' n.decimal.value_nonneg sign sign'

theorem intCast_integer (n : Numeral) :
    (n.integer : ℚ) = signed n.negative (Text.ofDigits n.whole) := by
  unfold integer signed
  split <;> push_cast <;> rfl

/-- A sign and digits denote an integer. -/
theorem value_of_isInteger (written : n.WrittenAs cs) (whole : n.isInteger = true) :
    n.value = n.integer := by
  cases written with
  | @parts negative point ds es exponent sign front behind last signed digits dotted marked some =>
  simp only [isInteger, Bool.and_eq_true, Bool.not_eq_true', Option.isNone_iff_eq_none] at whole
  obtain ⟨rfl, rfl⟩ := whole
  cases dotted
  rw [intCast_integer, value]
  congr 1
  simp [power, Text.ofDigits]

end Values

end Numeral

/-! ## What texts are read as -/

/-- What a text is to be read as, if `cs` is the text without the blanks around it. -/
inductive NumberReading (s : String) (cs : List Char) : Except Failure Number → Prop where
  | integer {n : Numeral} {k : Int} :
      n.WrittenAs cs → n.isInteger = true → n.whole.length ≤ digitLimit → (k : ℚ) = n.value →
      NumberReading s cs (.ok (.int k))
  | nearest {n : Numeral} {x : Binary64} :
      n.WrittenAs cs → n.isInteger = false → ¬ Overflows n.value → x.negative = n.negative →
      x.IsNearest n.value → NumberReading s cs (.ok (.float x))
  | beyond {n : Numeral} :
      n.WrittenAs cs → n.isInteger = false → Overflows n.value →
      NumberReading s cs (.error (.query (.unreadable .number (.str s))))
  | noNumeral :
      (∀ n : Numeral, ¬ n.WrittenAs cs) →
      NumberReading s cs (.error (.query (.unreadable .number (.str s))))
  | tooLong {n : Numeral} :
      n.WrittenAs cs → n.isInteger = true → digitLimit < n.whole.length →
      NumberReading s cs (.error (.oversized (some n.whole.length)))

section Texts

variable {s : String} {n : Numeral} {r : Except Failure Number}

theorem Value.readNumber_of_noNumeral (none : ∀ n : Numeral, ¬ n.WrittenAs (Text.trim s.toList)) :
    (Value.str s).readNumber = .error (.query (.unreadable .number (.str s))) := by
  have scanned : Numeral.scan? (Text.trim s.toList) = .none := by
    refine Option.eq_none_iff_forall_ne_some.2 fun n found => ?_
    exact none n (Numeral.scan?_eq_some_iff.1 found)
  simp only [readNumber, text?, Number.read, scanned]
  rfl

theorem Value.readNumber_of_written (written : n.WrittenAs (Text.trim s.toList)) :
    (Value.str s).readNumber =
      if n.isInteger then
        if digitLimit < n.whole.length then .error (.oversized (some n.whole.length))
        else .ok (.int n.integer)
      else
        match n.binary? with
        | some x => .ok (.float x)
        | none => .error (.query (.unreadable .number (.str s))) := by
  have scanned := Numeral.scan?_of_written written
  simp only [readNumber, text?, Number.read, scanned]
  cases n.isInteger with
  | true =>
    by_cases long : digitLimit < n.whole.length
    · simp only [if_true, if_pos long]
    · simp only [if_true, if_neg long]
  | false => cases n.binary? <;> rfl

theorem Value.readNumber_reading (s : String) :
    NumberReading s (Text.trim s.toList) (Value.str s).readNumber := by
  by_cases numeral : ∃ n : Numeral, n.WrittenAs (Text.trim s.toList)
  · obtain ⟨n, written⟩ := numeral
    rw [readNumber_of_written written]
    cases whole : n.isInteger with
    | true =>
      by_cases long : digitLimit < n.whole.length
      · rw [if_pos rfl, if_pos long]
        exact .tooLong written whole long
      · rw [if_pos rfl, if_neg long]
        exact .integer written whole (not_lt.1 long) (Numeral.value_of_isInteger written whole).symm
    | false =>
      rw [if_neg Bool.false_ne_true]
      cases found : n.binary? with
      | none => exact .beyond written whole (Numeral.binary?_eq_none_iff.1 found)
      | some x =>
        obtain ⟨fits, sign, near⟩ := Numeral.binary?_eq_some_iff.1 found
        exact .nearest written whole fits sign near
  · have none := not_exists.1 numeral
    rw [readNumber_of_noNumeral none]
    exact .noNumeral none

theorem NumberReading.readNumber_eq (reading : NumberReading s (Text.trim s.toList) r) :
    (Value.str s).readNumber = r := by
  cases reading with
  | @integer n k written whole short value =>
    have same : n.integer = k := by
      rw [Numeral.value_of_isInteger written whole] at value
      exact_mod_cast value.symm
    rw [Value.readNumber_of_written written, if_pos whole, if_neg (not_lt.2 short), same]
  | nearest written proper fits sign near =>
    rw [Value.readNumber_of_written written, if_neg (by rw [proper]; decide),
      Numeral.binary?_eq_some_iff.2 ⟨fits, sign, near⟩]
  | beyond written proper overflows =>
    rw [Value.readNumber_of_written written, if_neg (by rw [proper]; decide),
      Numeral.binary?_eq_none_iff.2 overflows]
  | noNumeral none => exact Value.readNumber_of_noNumeral none
  | tooLong written whole long =>
    rw [Value.readNumber_of_written written, if_pos whole, if_pos long]

/-- A text is read as a number exactly if it is a numeral between blanks, and then as the number
    that the numeral denotes, or as the nearest one. -/
theorem Value.readNumber_eq_iff :
    (Value.str s).readNumber = r ↔ NumberReading s (Text.trim s.toList) r := by
  constructor
  · rintro rfl
    exact readNumber_reading s
  · exact NumberReading.readNumber_eq

end Texts

end QueryTree
