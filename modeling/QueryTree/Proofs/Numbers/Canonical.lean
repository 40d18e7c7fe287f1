import Mathlib.Computability.RegularExpressions
import QueryTree.Proofs.Numbers.Acceptance
import QueryTree.Proofs.Numbers.Fewest
import QueryTree.Proofs.Numbers.Reading
import QueryTree.Proofs.Rendering

/-!
# Canonical texts of numbers

The text of a number in a query has neither superfluous zeros nor a signed zero, denotes the decimal
that the number is shown as, and has an exponent exactly outside the band of numbers from a
millionth up to below `10^21`.

* `canonicalPattern`, `Numeral.Canonical` : texts without superfluous zeros, and their numerals
* `Layout.canonical_numeral`  : decimals in queries
* `Decimal.ten_zpow_le_iff`   : the place of the first digit
* `Binary64.inBand_iff`       : which numbers are written positionally
* `Value.numberText_canonical` : the texts of numbers
-/

namespace QueryTree

attribute [local instance (high)] instPowNat

/-! ## A pattern for numbers -/

def oneOf (cs : List Char) : RegularExpression Char :=
  cs.foldr (fun c p => .char c + p) 0

def maybe (p : RegularExpression Char) : RegularExpression Char :=
  1 + p

def anyDigit : RegularExpression Char :=
  oneOf ['0', '1', '2', '3', '4', '5', '6', '7', '8', '9']

def leadingDigit : RegularExpression Char :=
  oneOf ['1', '2', '3', '4', '5', '6', '7', '8', '9']

/-- Digits of which the first is no zero. -/
def leadingDigits : RegularExpression Char :=
  leadingDigit * anyDigit.star

/-- The pattern `-?(0|[1-9][0-9]*)(\.[0-9]*[1-9])?(e[+-][1-9][0-9]*)?`. -/
def canonicalPattern : RegularExpression Char :=
  maybe (.char '-') * ((.char '0' + leadingDigits) *
    (maybe (.char '.' * (anyDigit.star * leadingDigit)) *
      maybe (.char 'e' * (oneOf ['+', '-'] * leadingDigits))))

section Patterns

variable {p q : RegularExpression Char} {cs cs' : List Char} {c : Char} {ds : List Nat}

theorem mem_char (c : Char) : [c] ∈ (RegularExpression.char c).matches' :=
  rfl

theorem mem_oneOf (member : c ∈ cs) : [c] ∈ (oneOf cs).matches' := by
  induction cs with
  | nil => cases member
  | cons d cs ih =>
    rw [oneOf, List.foldr_cons, RegularExpression.matches'_add, Language.mem_add]
    rcases List.mem_cons.1 member with rfl | later
    · exact .inl (mem_char _)
    · exact .inr (ih later)

theorem append_mem (front : cs ∈ p.matches') (back : cs' ∈ q.matches') :
    cs ++ cs' ∈ (p * q).matches' :=
  Language.mem_mul.2 ⟨cs, front, cs', back, rfl⟩

theorem nil_mem_maybe : [] ∈ (maybe p).matches' :=
  (Language.mem_add _ _ _).2 (.inl rfl)

theorem mem_maybe (inside : cs ∈ p.matches') : cs ∈ (maybe p).matches' :=
  (Language.mem_add _ _ _).2 (.inr inside)

theorem digitChar_mem {d : Nat} (small : d < 10) : [Text.digitChar d] ∈ anyDigit.matches' := by
  have all : ∀ d < 10, Text.digitChar d ∈ ['0', '1', '2', '3', '4', '5', '6', '7', '8', '9'] := by
    decide
  exact mem_oneOf (all d small)

theorem digitChar_mem_leading {d : Nat} (small : d < 10) (some : d ≠ 0) :
    [Text.digitChar d] ∈ leadingDigit.matches' := by
  have all : ∀ d < 10, d ≠ 0 →
      Text.digitChar d ∈ ['1', '2', '3', '4', '5', '6', '7', '8', '9'] := by
    decide
  exact mem_oneOf (all d small some)

theorem map_digitChar_mem (small : ∀ d ∈ ds, d < 10) :
    ds.map Text.digitChar ∈ anyDigit.star.matches' := by
  refine Language.mem_kstar.2 ⟨ds.map fun d => [Text.digitChar d], ?_, ?_⟩
  · induction ds with
    | nil => rfl
    | cons d ds ih =>
      rw [List.map_cons, List.map_cons, List.flatten_cons,
        ← ih fun e member => small e (.tail _ member)]
      rfl
  · intro text member
    obtain ⟨d, inside, rfl⟩ := List.mem_map.1 member
    exact digitChar_mem (small d inside)

theorem map_digitChar_mem_leading (small : ∀ d ∈ ds, d < 10) (head : ∃ d ∈ ds.head?, d ≠ 0) :
    ds.map Text.digitChar ∈ leadingDigits.matches' := by
  obtain ⟨d, first, some⟩ := head
  obtain ⟨rest, rfl⟩ := List.head?_eq_some_iff.1 first
  refine append_mem (digitChar_mem_leading (small d (.head _)) some) ?_
  exact map_digitChar_mem fun e member => small e (.tail _ member)

theorem map_digitChar_mem_trailing (small : ∀ d ∈ ds, d < 10) (last : ∃ d ∈ ds.getLast?, d ≠ 0) :
    ds.map Text.digitChar ∈ (anyDigit.star * leadingDigit).matches' := by
  obtain ⟨d, last, some⟩ := last
  obtain ⟨front, rfl⟩ := List.getLast?_eq_some_iff.1 last
  rw [List.map_append]
  refine append_mem (map_digitChar_mem fun e member => small e (List.mem_append_left _ member)) ?_
  exact digitChar_mem_leading (small d (by simp)) some

end Patterns

/-! ## Numerals without superfluous zeros -/

namespace Numeral

/-- A numeral in which no digit can be left out. -/
structure Canonical (n : Numeral) : Prop where
  spelled : n.Spelled
  whole : n.whole = [0] ∨ ∃ d ∈ n.whole.head?, d ≠ 0
  fraction : n.point = true → ∃ d ∈ n.fraction.getLast?, d ≠ 0
  exponent : ∀ e ∈ n.exponent, ∃ d ∈ e.2.head?, d ≠ 0

theorem Canonical.text_mem {n : Numeral} (canonical : n.Canonical) :
    n.text ∈ canonicalPattern.matches' := by
  obtain ⟨⟨-, small, -, places, powers⟩, leading, trailing, proper⟩ := canonical
  obtain ⟨negative, whole, point, fraction, e⟩ := n
  have sign : (if negative then ['-'] else []) ∈ (maybe (.char '-')).matches' := by
    cases negative with
    | false => exact nil_mem_maybe
    | true => exact mem_maybe (mem_char '-')
  have front : whole.map Text.digitChar ∈ (.char '0' + leadingDigits).matches' := by
    rw [RegularExpression.matches'_add, Language.mem_add]
    rcases leading with zero | head
    · dsimp only at zero
      rw [zero]
      exact .inl (mem_char '0')
    · exact .inr (map_digitChar_mem_leading small head)
  have last : exponentText e ∈
      (maybe (.char 'e' * (oneOf ['+', '-'] * leadingDigits))).matches' := by
    cases e with
    | none => exact nil_mem_maybe
    | some e =>
      obtain ⟨negative, ds⟩ := e
      have digits := map_digitChar_mem_leading (powers _ rfl).2 (proper _ rfl)
      have sign : [if negative then '-' else '+'] ∈ (oneOf ['+', '-']).matches' := by
        cases negative <;> exact mem_oneOf (by decide)
      exact mem_maybe (append_mem (mem_char 'e') (append_mem sign digits))
  refine append_mem sign (append_mem front ?_)
  unfold endText
  cases point with
  | false => exact append_mem nil_mem_maybe last
  | true =>
    have behind := append_mem (mem_char '.') (map_digitChar_mem_trailing places (trailing rfl))
    exact append_mem (mem_maybe behind) last

end Numeral

/-! ## Decimals in queries -/

namespace Layout

section Decimals

variable {d : Decimal}

theorem canonical_positional {ds : List Nat} (spelled : ds ≠ []) (small : ∀ d ∈ ds, d < 10)
    (head : ∃ d ∈ ds.head?, d ≠ 0) (last : ∃ d ∈ ds.getLast?, d ≠ 0) (whole : ℤ) :
    (query.positionalNumeral ds whole).Canonical := by
  refine ⟨spelled_positional spelled small, ?_, ?_, ?_⟩ <;> unfold positionalNumeral
  · split
    · exact .inl rfl
    · split
      · next filled =>
        obtain ⟨d, first, some⟩ := head
        refine .inr ⟨d, ?_, some⟩
        rw [List.head?_append, first]
        rfl
      · next positive _ =>
        obtain ⟨d, first, some⟩ := head
        refine .inr ⟨d, ?_, some⟩
        rw [List.head?_take, if_neg (by omega)]
        exact first
  · obtain ⟨d, last, some⟩ := last
    split
    · intro _
      refine ⟨d, ?_, some⟩
      rw [List.getLast?_append, last]
      rfl
    · split
      · rintro ⟨⟩
      · intro _
        refine ⟨d, ?_, some⟩
        rw [List.getLast?_drop, if_neg (by omega)]
        exact last
  · split
    · rintro e ⟨⟩
    · split <;> rintro e ⟨⟩

theorem canonical_scientific {ds : List Nat} {e : ℤ} (spelled : ds ≠ []) (small : ∀ d ∈ ds, d < 10)
    (head : ∃ d ∈ ds.head?, d ≠ 0) (last : ∃ d ∈ ds.getLast?, d ≠ 0) (some : e ≠ 0) :
    (query.scientificNumeral ds e).Canonical := by
  refine ⟨spelled_scientific spelled small, .inr ?_, ?_, ?_⟩
  · obtain ⟨d, first, some⟩ := head
    refine ⟨d, ?_, some⟩
    rw [scientificNumeral, List.head?_take]
    exact first
  · intro point
    obtain ⟨d, last, some⟩ := last
    refine ⟨d, ?_, some⟩
    rw [scientificNumeral, decide_eq_true_eq] at point
    rw [scientificNumeral, List.getLast?_drop, if_neg (by omega)]
    exact last
  · have digits : paddedDigits query.exponentWidth e.natAbs = Text.digits e.natAbs :=
      paddedDigits_one _
    rintro _ ⟨⟩
    rw [digits]
    exact head?_digits (Int.natAbs_ne_zero.2 some)

/-- A decimal whose last digit is no zero is written canonically. -/
theorem canonical_numeral (trailing : d.coefficient ≠ 0 → d.coefficient % 10 ≠ 0) :
    (query.numeral d).Canonical := by
  have some := digits_ne_nil d.coefficient
  have small : ∀ e ∈ Text.digits d.coefficient, e < 10 := fun _ => Text.lt_of_mem_digits
  have last (nonzero : d.coefficient ≠ 0) : ∃ e ∈ (Text.digits d.coefficient).getLast?, e ≠ 0 :=
    ⟨_, getLast?_digits _, trailing nonzero⟩
  rcases query.numeral_cases d with ⟨-, form⟩ | ⟨nonzero, -, form⟩ | ⟨nonzero, outside, form⟩
  · rw [form]
    exact ⟨spelled_positional (List.cons_ne_nil _ _) (by decide), .inl rfl, by rintro ⟨⟩,
      by rintro e ⟨⟩⟩
  · rw [form]
    exact canonical_positional some small (head?_digits nonzero) (last nonzero) _
  · have proper : d.top ≠ 0 := by
      intro zero
      refine outside ?_
      rw [InBand, zero]
      decide
    rw [form]
    exact canonical_scientific some small (head?_digits nonzero) (last nonzero) proper

theorem exponent_positional {l : Layout} {ds : List Nat} {whole : ℤ} :
    (l.positionalNumeral ds whole).exponent = none := by
  unfold positionalNumeral
  split
  · rfl
  · split <;> rfl

theorem exponent_numeral_iff {l : Layout} :
    (l.numeral d).exponent ≠ none ↔ d.coefficient ≠ 0 ∧ ¬ l.InBand d := by
  rcases l.numeral_cases d with ⟨zero, form⟩ | ⟨-, band, form⟩ | ⟨some, outside, form⟩ <;> rw [form]
  · exact iff_of_false (not_not.2 exponent_positional) fun proper => proper.1 zero
  · exact iff_of_false (not_not.2 exponent_positional) fun proper => proper.2 band
  · exact iff_of_true (Option.some_ne_none _) ⟨some, outside⟩

end Decimals

end Layout

/-! ## The band of positional texts -/

/-- The first digit has the highest place that the decimal reaches. -/
theorem Decimal.ten_zpow_le_iff {d : Decimal} (some : d.coefficient ≠ 0) (k : ℤ) :
    10 ^ k ≤ d.value ↔ k ≤ d.top := by
  have place : (0 : ℚ) < 10 ^ d.exponent := zpow_pos (by norm_num) _
  have length := List.length_pos_of_ne_nil (digits_ne_nil d.coefficient)
  have reached : (10 : ℚ) ^ d.top ≤ d.value := by
    have digits : (10 : ℚ) ^ ((Text.digits d.coefficient).length - 1) ≤ d.coefficient := by
      exact_mod_cast pow_length_digits_le (Nat.pos_of_ne_zero some)
    have top : d.top = ((Text.digits d.coefficient).length - 1 : ℕ) + d.exponent := by
      unfold top
      omega
    rw [top, zpow_add₀ (by norm_num), zpow_natCast]
    exact mul_le_mul_of_nonneg_right digits place.le
  have bounded : d.value < 10 ^ (d.top + 1) := by
    have digits : (d.coefficient : ℚ) < 10 ^ (Text.digits d.coefficient).length := by
      exact_mod_cast lt_pow_length_digits d.coefficient
    have top : d.top + 1 = (Text.digits d.coefficient).length + d.exponent := by
      unfold top
      omega
    rw [top, zpow_add₀ (by norm_num), zpow_natCast]
    exact mul_lt_mul_of_pos_right digits place
  constructor
  · intro least
    by_contra! higher
    have beyond : (10 : ℚ) ^ (d.top + 1) ≤ 10 ^ k := zpow_le_zpow_right₀ (by norm_num) higher
    exact absurd bounded (beyond.trans least).not_gt
  · intro lower
    exact (zpow_le_zpow_right₀ (by norm_num) lower).trans reached

namespace Binary64

variable {x : Binary64}

/-- The number nearest to a millionth. -/
def millionth : Binary64 :=
  ⟨false, 4722366482869645, -72, by decide⟩

theorem ofDecimal?_millionth : ofDecimal? false 1 (-6) = some millionth := by
  decide +kernel

/-- The power of ten from which on numbers have an exponent. -/
def tenPow21 : Binary64 :=
  ⟨false, 5 ^ (21 : Nat) * 2 ^ (4 : Nat), 17, by decide⟩

theorem magnitude_tenPow21 : tenPow21.magnitude = 10 ^ 21 := by
  norm_num [magnitude, tenPow21]

theorem le_top_shortest_iff (some : x.isZero = false) :
    -6 ≤ x.shortest.top ↔ millionth.magnitude ≤ x.magnitude := by
  have shortest : millionth.shortest = ⟨1, -6⟩ := by decide +kernel
  have value : millionth.shortest.value = 10 ^ (-6 : ℤ) := by
    rw [shortest, Decimal.value, Nat.cast_one, one_mul]
  rw [← Decimal.ten_zpow_le_iff (coefficient_pos some).ne', ← value, shortest_value_le_iff rfl some]

theorem top_shortest_le_iff (some : x.isZero = false) :
    x.shortest.top ≤ 20 ↔ x.magnitude < 10 ^ 21 := by
  have shortest : tenPow21.shortest = ⟨1, 21⟩ := by decide +kernel
  have value : tenPow21.shortest.value = 10 ^ (21 : ℤ) := by
    rw [shortest, Decimal.value, Nat.cast_one, one_mul]
  have reached : 21 ≤ x.shortest.top ↔ 10 ^ 21 ≤ x.magnitude := by
    rw [← Decimal.ten_zpow_le_iff (coefficient_pos some).ne', ← value,
      shortest_value_le_iff rfl some, magnitude_tenPow21]
  rw [← not_le, ← reached]
  omega

/-- The numbers that are written positionally. -/
theorem inBand_iff (some : x.isZero = false) :
    Layout.query.InBand x.shortest ↔ millionth.magnitude ≤ x.magnitude ∧ x.magnitude < 10 ^ 21 :=
  and_congr (le_top_shortest_iff some) (top_shortest_le_iff some)

end Binary64

/-! ## The numerals of numbers -/

namespace Numeral

variable {n : Numeral} {cs : List Char}

theorem e_notMem_map {ds : List Nat} (small : ∀ d ∈ ds, d < 10) :
    'e' ∉ ds.map Text.digitChar := by
  intro member
  obtain ⟨d, inside, digit⟩ := List.mem_map.1 member
  exact IsAsciiDigit.ne ⟨d, small d inside, rfl⟩ (by decide) digit

/-- The mark of an exponent stands in a text exactly if there is an exponent. -/
theorem Spelled.e_mem_text_iff (spelled : n.Spelled) : 'e' ∈ n.text ↔ n.exponent ≠ none := by
  obtain ⟨-, small, -, places, -⟩ := spelled
  have front := e_notMem_map small
  have behind := e_notMem_map places
  have sign : 'e' ∉ (if n.negative then ['-'] else []) := by cases n.negative <;> decide
  have last : 'e' ∈ exponentText n.exponent ↔ n.exponent ≠ none := by
    cases n.exponent with
    | none => exact iff_of_false List.not_mem_nil (not_not.2 rfl)
    | some e => exact iff_of_true (.head _) (Option.some_ne_none e)
  have ending : 'e' ∈ n.endText ↔ n.exponent ≠ none := by
    unfold endText
    split
    · rw [List.mem_cons, List.mem_append, or_iff_right (by decide), or_iff_right behind, last]
    · exact last
  rw [text, List.mem_append, List.mem_append, or_iff_right sign, or_iff_right front, ending]

theorem ne_negativeZero (written : n.WrittenAs cs)
    (proper : n.negative = true → 0 < n.decimal.value) : cs ≠ ['-', '0'] := by
  rintro rfl
  have zero : scan? ['-', '0'] = some ⟨true, [0], false, [], none⟩ := by decide +kernel
  obtain rfl := Option.some.inj (zero.symm.trans (scan?_of_written written))
  have value := proper rfl
  rw [value_decimal] at value
  norm_num [Text.ofDigits] at value

end Numeral

namespace Number

/-- The numeral that an integer is written as. -/
def intNumeral (n : Int) : Numeral :=
  ⟨decide (n < 0), Text.digits n.natAbs, false, [], none⟩

theorem canonical_intNumeral (n : Int) : (intNumeral n).Canonical := by
  refine ⟨⟨digits_ne_nil _, fun _ => Text.lt_of_mem_digits, fun _ => rfl, List.forall_mem_nil _,
    by rintro e ⟨⟩⟩, ?_, by rintro ⟨⟩, by rintro e ⟨⟩⟩
  by_cases zero : n.natAbs = 0
  · refine .inl ?_
    rw [intNumeral, zero]
    exact Text.digits_of_lt (by decide)
  · exact .inr (head?_digits zero)

theorem text_intNumeral (n : Int) : (intNumeral n).text = Text.decimalInt n := by
  unfold intNumeral Numeral.text Numeral.endText Text.decimalInt
  by_cases negative : n < 0
  · simp [negative, Numeral.exponentText, Text.decimal]
  · simp [negative, Numeral.exponentText, Text.decimal]

theorem decimal_intNumeral_pos {n : Int} (negative : (intNumeral n).negative = true) :
    0 < (intNumeral n).decimal.value := by
  have below : n < 0 := of_decide_eq_true negative
  have some : 0 < n.natAbs := by omega
  rw [Numeral.value_decimal]
  refine mul_pos ?_ (zpow_pos (by norm_num) _)
  simpa [intNumeral, Text.ofDigits_digits] using below.ne

theorem canonical_floatNumeral (x : Binary64) : (floatNumeral x).Canonical := by
  have trailing (some : x.shortest.coefficient ≠ 0) : x.shortest.coefficient % 10 ≠ 0 := by
    cases zero : x.isZero with
    | false => exact Binary64.coefficient_mod_ten zero
    | true =>
      rw [Binary64.shortest_of_isZero zero] at some
      exact absurd rfl some
  obtain ⟨-, whole, fraction, exponent⟩ := Layout.canonical_numeral trailing
  exact ⟨spelled_floatNumeral x, whole, fraction, exponent⟩

theorem decimal_floatNumeral (x : Binary64) :
    (floatNumeral x).decimal.value = x.shortest.value :=
  Layout.query.value_numeral x.shortest

theorem decimal_floatNumeral_pos {x : Binary64} (negative : (floatNumeral x).negative = true) :
    0 < (floatNumeral x).decimal.value := by
  have some : x.isZero = false := by
    have sign : (float x).isNegative = true := negative
    rw [isNegative_float, Bool.and_eq_true, Bool.not_eq_true'] at sign
    exact sign.2
  rw [decimal_floatNumeral]
  exact Binary64.pos_of_holds some (Binary64.holds_shortest some)

theorem exponent_floatNumeral_iff (x : Binary64) : (floatNumeral x).exponent ≠ none ↔
    x.isZero = false ∧ (x.magnitude < Binary64.millionth.magnitude ∨ 10 ^ 21 ≤ x.magnitude) := by
  refine Layout.exponent_numeral_iff.trans ?_
  cases zero : x.isZero with
  | false =>
    rw [Binary64.inBand_iff zero, not_and_or, not_le, not_lt]
    exact and_congr_left' (iff_of_true (Binary64.coefficient_pos zero).ne' rfl)
  | true =>
    rw [Binary64.shortest_of_isZero zero]
    exact iff_of_false (fun some => some.1 rfl) (by rintro ⟨⟨⟩, -⟩)

/-- The numeral that a binary number is shown as. -/
def shownNumeral (x : Binary64) : Numeral :=
  { Layout.shown.numeral x.shortest with negative := x.negative }

theorem spelled_shownNumeral (x : Binary64) : (shownNumeral x).Spelled := by
  obtain ⟨some, small, none, places, exponent⟩ := Layout.shown.spelled_numeral x.shortest
  exact ⟨some, small, none, places, exponent⟩

theorem text_shownNumeral (x : Binary64) : (shownNumeral x).text = Layout.shown.write x := by
  have unsigned := Layout.shown.magnitude_eq_text x.shortest
  rw [Numeral.text, Layout.negative_numeral] at unsigned
  have sign : (x.negative && (Layout.shown.signedZero || !x.isZero)) = x.negative :=
    Bool.and_true _
  rw [Layout.write, sign, unsigned]
  unfold shownNumeral Numeral.text
  cases x.negative <;> rfl

/-- The query text of a number denotes the decimal that the number is shown as. -/
theorem value_floatNumeral (x : Binary64) : (floatNumeral x).value = (shownNumeral x).value := by
  have shown : (shownNumeral x).decimal.value = x.shortest.value :=
    Layout.shown.value_numeral x.shortest
  rw [Numeral.value_eq_signed, Numeral.value_eq_signed, decimal_floatNumeral, shown]
  cases zero : x.isZero with
  | false =>
    have sign : (floatNumeral x).negative = (shownNumeral x).negative := by
      show (float x).isNegative = x.negative
      rw [isNegative_float, zero, Bool.not_false, Bool.and_true]
    rw [sign]
  | true =>
    rw [Binary64.shortest_of_isZero zero, Decimal.value, Nat.cast_zero, zero_mul]
    simp [signed]

end Number

/-! ## Texts of numbers -/

/-- The text of a number has no superfluous zero and is never that of a negative zero, denotes what
    the number is shown as, and has an exponent exactly outside the band from a millionth up to
    below `10^21`. -/
theorem Value.numberText_canonical {n : Number} (writable : n.writable = true) :
    ∃ text, (Value.ofNumber n).numberText = .ok text ∧
      text ∈ canonicalPattern.matches' ∧ text ≠ ['-', '0'] ∧
      (∃ a b : Numeral, a.WrittenAs text ∧ b.WrittenAs (Value.ofNumber n).shown.toList ∧
        a.value = b.value) ∧
      ('e' ∈ text ↔ ∃ x, n = .float x ∧ x.isZero = false ∧
        (x.magnitude < Binary64.millionth.magnitude ∨ 10 ^ 21 ≤ x.magnitude)) := by
  refine ⟨n.queryText, ?_, ?_⟩
  · rw [Number.numberText_ofNumber, written, if_pos writable]
  cases n with
  | int n =>
    have text := Number.text_intNumeral n
    have canonical := Number.canonical_intNumeral n
    have written : (Number.intNumeral n).WrittenAs (Text.decimalInt n) :=
      text ▸ canonical.spelled.written
    have shown : (Value.ofNumber (.int n)).shown.toList = Text.decimalInt n :=
      String.toList_ofList
    rw [Number.queryText, shown]
    refine ⟨text ▸ canonical.text_mem,
      Numeral.ne_negativeZero written Number.decimal_intNumeral_pos,
      ⟨_, _, written, written, rfl⟩, ?_⟩
    rw [← text, canonical.spelled.e_mem_text_iff]
    exact iff_of_false (not_not.2 rfl) (by rintro ⟨x, ⟨⟩, -⟩)
  | float x =>
    have text := Number.text_floatNumeral x
    have canonical := Number.canonical_floatNumeral x
    have written : (Number.floatNumeral x).WrittenAs (Number.float x).queryText :=
      text ▸ canonical.spelled.written
    have shown : (Value.ofNumber (.float x)).shown.toList = Layout.shown.write x :=
      String.toList_ofList
    have written' : (Number.shownNumeral x).WrittenAs (Layout.shown.write x) :=
      Number.text_shownNumeral x ▸ (Number.spelled_shownNumeral x).written
    rw [shown]
    refine ⟨text ▸ canonical.text_mem,
      Numeral.ne_negativeZero written Number.decimal_floatNumeral_pos,
      ⟨_, _, written, written', Number.value_floatNumeral x⟩, ?_⟩
    rw [← text, canonical.spelled.e_mem_text_iff, Number.exponent_floatNumeral_iff]
    constructor
    · exact fun outside => ⟨x, rfl, outside⟩
    · rintro ⟨_, ⟨⟩, outside⟩
      exact outside

/-- A negative number just below the band. -/
def minusFifthOfMillionth : Number :=
  .float ⟨true, 7555786372591432, -75, by decide⟩

theorem numberText_minusFifthOfMillionth :
    minusFifthOfMillionth.writable = true ∧
      ∃ text, (Value.ofNumber minusFifthOfMillionth).numberText = .ok text ∧
        text = "-2e-7".toList ∧ (Value.ofNumber minusFifthOfMillionth).shown = "-2e-07" ∧
        text ∈ canonicalPattern.matches' := by
  have expected : (Value.ofNumber minusFifthOfMillionth).numberText = .ok "-2e-7".toList :=
    congrArg Except.ok (by decide +kernel)
  have shown : (Value.ofNumber minusFifthOfMillionth).shown = "-2e-07" :=
    congrArg String.ofList (by decide +kernel)
  obtain ⟨text, written, canonical, -⟩ :=
    Value.numberText_canonical (n := minusFifthOfMillionth) rfl
  exact ⟨rfl, text, written, Except.ok.inj (written.symm.trans expected), shown, canonical⟩

end QueryTree
