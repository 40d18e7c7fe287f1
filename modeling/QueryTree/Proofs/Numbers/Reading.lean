import QueryTree.Proofs.MomentText
import QueryTree.Proofs.Numbers.Numerals

/-!
# Numbers read back

The text of a number in a query is read as a number with the same text: integers and binary
numbers with a point or an exponent as themselves, a whole binary number below `10^21` as the
integer that its digits spell.

* `Number.trim_queryText`     : texts of numbers have no blanks
* `Number.read_queryText_int` : integers
* `Number.read_float_of_point`, `Number.read_float_of_whole` : binary numbers
* `Number.read_queryText`     : reading and writing again
-/

namespace QueryTree

attribute [local instance (high)] instPowNat

namespace Number

/-! ## Trimming -/

theorem not_blank_of_numeralChar {c : Char} (known : IsNumeralChar c) :
    Text.isBlank c = false := by
  rcases known with digit | sign
  · exact digit.not_blank
  · have all : (['.', 'e', '+', '-'].all fun c => !Text.isBlank c) = true := rfl
    simpa using List.all_eq_true.1 all c sign

theorem trim_of_solid {cs : List Char} (solid : ∀ c ∈ cs, Text.isBlank c = false) :
    Text.trim cs = cs := by
  have kept {ds : List Char} (solid : ∀ c ∈ ds, Text.isBlank c = false) :
      ds.dropWhile Text.isBlank = ds := by
    cases ds with
    | nil => rfl
    | cons c ds => rw [List.dropWhile_cons_of_neg (by simp [solid c (.head _)])]
  rw [Text.trim, kept solid, Text.trimEnd,
    kept fun c member => solid c (List.mem_reverse.1 member), List.reverse_reverse]

theorem trim_queryText (n : Number) : Text.trim n.queryText = n.queryText :=
  trim_of_solid fun _ member => not_blank_of_numeralChar (numeralChar_of_mem_queryText member)

/-! ## Integers -/

theorem lt_digitLimit_of_small {n : Nat} (small : n < 10 ^ 21) : n < 10 ^ digitLimit :=
  Nat.lt_of_lt_of_le small (Nat.pow_le_pow_right (by decide) (by decide))

theorem writableInt_of_small {n : Int} (small : n.natAbs < 10 ^ 21) : writableInt n = true := by
  rw [writableInt, decide_eq_true_eq]
  exact lt_digitLimit_of_small small

/-- A sign and the digits of a natural number within the limit. -/
theorem read_integer (negative : Bool) {n : Nat} (short : n < 10 ^ digitLimit) :
    read ((if negative then ['-'] else []) ++ Text.decimal n) =
      .ok (.int (if negative then -n else n)) := by
  have numeralChar : ∀ c ∈ (if negative then ['-'] else []) ++ Text.decimal n,
      IsNumeralChar c := by
    intro c member
    rcases List.mem_append.1 member with sign | digit
    · cases negative with
      | true =>
        rw [List.mem_singleton.1 sign]
        exact .inr (by decide)
      | false => cases sign
    · exact .inl (isAsciiDigit_of_mem_decimal digit)
  have trimmed := trim_of_solid fun c member => not_blank_of_numeralChar (numeralChar c member)
  have text : (if negative then ['-'] else []) ++ Text.decimal n =
      Numeral.text ⟨negative, Text.digits n, false, [], none⟩ := by
    rw [Numeral.text, Numeral.endText, if_neg Bool.false_ne_true, Numeral.exponentText,
      List.append_nil]
    rfl
  have scanned : Numeral.scan? ((if negative then ['-'] else []) ++ Text.decimal n) =
      some ⟨negative, Text.digits n, false, [], none⟩ := by
    rw [text]
    exact Numeral.scan?_text ⟨digits_ne_nil n, fun _ => Text.lt_of_mem_digits, fun _ => rfl,
      List.forall_mem_nil _, by rintro e ⟨⟩⟩
  have few : ¬ digitLimit < (Text.digits n).length :=
    Nat.not_lt.2 ((length_digits_le_iff (by decide)).2 short)
  simp only [read, trimmed, scanned, Numeral.isInteger, Numeral.integer, Option.isNone_none,
    Bool.not_false, Bool.and_self, if_true, if_neg few, Text.ofDigits_digits]

/-- Integers within the limit on digits are read as themselves. -/
theorem read_queryText_int {n : Int} (writable : writableInt n = true) :
    read (int n).queryText = .ok (int n) := by
  have value : (if decide (n < 0) then -(n.natAbs : Int) else n.natAbs) = n := by
    split <;> next sign => simp only [decide_eq_true_eq] at sign; omega
  rw [queryText_eq_sign, isNegative_int, magnitudeText, read_integer _ (of_decide_eq_true writable),
    value]

/-! ## Binary numbers -/

/-- The numeral that a binary number is written as. -/
def floatNumeral (x : Binary64) : Numeral :=
  { Layout.query.numeral x.shortest with negative := (float x).isNegative }

theorem spelled_floatNumeral (x : Binary64) : (floatNumeral x).Spelled := by
  obtain ⟨some, small, none, places, exponent⟩ := Layout.query.spelled_numeral x.shortest
  exact ⟨some, small, none, places, exponent⟩

theorem text_floatNumeral (x : Binary64) : (floatNumeral x).text = (float x).queryText := by
  have unsigned : (Layout.query.numeral x.shortest).text =
      (Layout.query.numeral x.shortest).whole.map Text.digitChar ++
        (Layout.query.numeral x.shortest).endText := by
    rw [Numeral.text, Layout.negative_numeral]
    rfl
  rw [queryText_eq_sign, magnitudeText, Layout.magnitude_eq_text, unsigned]
  rfl

theorem scan?_float (x : Binary64) :
    Numeral.scan? (float x).queryText = some (floatNumeral x) := by
  rw [← text_floatNumeral]
  exact Numeral.scan?_text (spelled_floatNumeral x)

/-- Zeros are written without a point. -/
theorem isInteger_floatNumeral {x : Binary64} (zero : x.isZero = true) :
    (floatNumeral x).isInteger = true := by
  rw [floatNumeral, Binary64.shortest_of_isZero zero, Layout.numeral_of_zero rfl]
  rfl

/-- A binary number that is written with a point or an exponent is read as itself. -/
theorem read_float_of_point {x : Binary64} (point : (floatNumeral x).isInteger = false) :
    read (float x).queryText = .ok (float x) := by
  have some : x.isZero = false := by
    cases zero : x.isZero with
    | false => rfl
    | true => cases (isInteger_floatNumeral zero).symm.trans point
  have sign : (floatNumeral x).negative = x.negative := by
    show (float x).isNegative = x.negative
    rw [isNegative_float, some, Bool.not_false, Bool.and_true]
  have value : (floatNumeral x).decimal.value = x.shortest.value :=
    Layout.query.value_numeral x.shortest
  have nearest : (floatNumeral x).binary? = Option.some x := by
    rw [Numeral.binary?, sign]
    refine Binary64.ofDecimal?_of_holds (d := (floatNumeral x).decimal) some ?_
    rw [value]
    exact Binary64.holds_shortest some
  simp only [read, trim_queryText, scan?_float, point, nearest, Bool.false_eq_true, if_false]

/-- A binary number that is written without point and exponent is read as the integer that its
    digits spell. -/
theorem read_float_of_whole {x : Binary64} (whole : (floatNumeral x).isInteger = true) :
    ∃ k : Int, read (float x).queryText = .ok (int k) ∧ (int k).queryText = (float x).queryText ∧
      k.natAbs < 10 ^ 21 ∧ (k.natAbs : ℚ) = x.shortest.value := by
  obtain ⟨n, digits, small, value⟩ := Layout.magnitude_of_isInteger whole
  have text : (float x).queryText =
      (if (float x).isNegative then ['-'] else []) ++ Text.decimal n := by
    rw [queryText_eq_sign, magnitudeText, digits]
  -- a negative number is not written as zero
  have proper (negative : (float x).isNegative = true) : 0 < n := by
    have some : x.isZero = false := by
      rw [isNegative_float, Bool.and_eq_true, Bool.not_eq_true'] at negative
      exact negative.2
    have positive : (0 : ℚ) < n :=
      value ▸ Binary64.pos_of_holds some (Binary64.holds_shortest some)
    exact_mod_cast positive
  refine ⟨if (float x).isNegative then -n else n, ?_, ?_, ?_, ?_⟩
  · rw [text]
    exact read_integer _ (lt_digitLimit_of_small small)
  · rw [text]
    exact queryText_signed proper
  · rw [natAbs_signed]
    exact small
  · rw [natAbs_signed, value]

/-! ## Reading and writing again -/

/-- The text of a number that can be written is read as a number with the same text. -/
theorem read_queryText {n : Number} (writable : n.writable = true) :
    ∃ m, read n.queryText = .ok m ∧ m.queryText = n.queryText ∧ m.writable = true := by
  cases n with
  | int n => exact ⟨int n, read_queryText_int writable, rfl, writable⟩
  | float x =>
    cases form : (floatNumeral x).isInteger with
    | false => exact ⟨float x, read_float_of_point form, rfl, rfl⟩
    | true =>
      obtain ⟨k, read, text, small, -⟩ := read_float_of_whole form
      exact ⟨int k, read, text, writableInt_of_small small⟩

end Number

end QueryTree
