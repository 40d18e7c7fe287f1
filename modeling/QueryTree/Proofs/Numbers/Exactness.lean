import QueryTree.Proofs.Numbers.Canonical

/-!
# Numbers read back exactly

The text of a number in a query is read as a number of the same value, with one exception: a binary
number that is written without point and exponent is read as the integer that its digits spell, and
from `2^53` on that need not be its exact value. The number is still the one nearest to it.

* `Binary64.nearMagnitude_shortest` : a number is nearest to its shortest decimal
* `Binary64.isInteger_floatNumeral_iff` : numbers that are written as integers
* `Binary64.shortest_value_of_small` : whole numbers within `2^53`
* `Value.readNumber_numberText` : reading what was written
-/

namespace QueryTree

attribute [local instance (high)] instPowNat

/-! ## Shortest decimals -/

namespace Binary64

variable {x : Binary64} {v : ℚ}

theorem nearMagnitude_shortest (x : Binary64) : x.NearMagnitude x.shortest.value := by
  have rounded := ofDecimal?_spec x.negative x.shortest
  rw [ofDecimal?_shortest] at rounded
  exact rounded.2.2

theorem isNearest_value (x : Binary64) : x.IsNearest x.value := by
  have own : |x.value - x.value| = 0 := by rw [sub_self, abs_zero]
  refine ⟨fun y => ?_, fun y other tie => ?_⟩
  · rw [own]
    exact abs_nonneg _
  · rw [own] at tie
    exact absurd (sub_eq_zero.1 (abs_eq_zero.1 tie)).symm other

theorem magnitude_of_isZero (zero : x.isZero = true) : x.magnitude = 0 := by
  have mantissa : x.mantissa = 0 := beq_iff_eq.1 zero
  rw [magnitude, mantissa, Nat.cast_zero, zero_mul]

/-- Whole numbers below `10^21` are written without point and exponent. -/
theorem isInteger_floatNumeral_iff :
    (Number.floatNumeral x).isInteger = true ↔ x.IsWhole ∧ x.magnitude < 10 ^ 21 := by
  cases zero : x.isZero with
  | true =>
    have magnitude : x.magnitude = 0 := magnitude_of_isZero zero
    refine iff_of_true (Number.isInteger_floatNumeral zero) ⟨⟨0, ?_⟩, ?_⟩
    · rw [magnitude, Nat.cast_zero]
    · rw [magnitude]
      positivity
  | false =>
    rw [← shortest_exponent_nonneg_iff zero, ← top_shortest_le_iff zero]
    exact Layout.isInteger_numeral_iff (coefficient_pos zero).ne'

/-- The shortest decimal of a whole number within `2^53` is its exact value. -/
theorem shortest_value_of_small (whole : x.IsWhole) (small : x.magnitude ≤ 2 ^ 53) :
    x.shortest.value = x.magnitude := by
  obtain ⟨n, value⟩ := whole
  have same : (Number.int n).sameValue (.float { x with negative := false }) = true :=
    Number.sameValue_iff.2 value.symm
  have short : ∀ k : Int,
      Number.int n = .int k ∨ Number.float { x with negative := false } = .int k →
      k.natAbs ≤ 2 ^ (53 : Nat) := by
    rintro k (⟨⟨⟩⟩ | ⟨⟨⟩⟩)
    rw [value] at small
    exact_mod_cast small
  obtain ⟨-, g, exponent, spelled⟩ := Number.WrittenAlike.of_exact same short
  have digits : x.shortest.coefficient * 10 ^ g = n := spelled
  have places : x.shortest.exponent = g := exponent
  rw [Decimal.value, places, zpow_natCast, value, ← digits]
  push_cast
  rfl

end Binary64

/-! ## Reading what was written -/

namespace Number

variable {x : Binary64} {n : Number}

/-- A binary number written as an integer is read as the integer that its shortest decimal is. -/
theorem read_float_eq_of_whole (whole : (floatNumeral x).isInteger = true) :
    ∃ k : Int, read (float x).queryText = .ok (int k) ∧
      (k : ℚ) = signed x.negative x.shortest.value := by
  obtain ⟨k, found, -⟩ := read_float_of_whole whole
  refine ⟨k, found, ?_⟩
  have written := (spelled_floatNumeral x).written
  rw [read, trim_queryText, scan?_float] at found
  simp only [whole, if_true] at found
  split at found
  · cases found
  · cases found
    rw [← Numeral.value_of_isInteger written whole, value_floatNumeral, Numeral.value_eq_signed]
    congr 1
    exact Layout.shown.value_numeral x.shortest

/-- What the text of a binary number is read as: the number, or the integer that its shortest
    decimal is. -/
theorem read_float (x : Binary64) : ∃ m, read (float x).queryText = .ok m ∧
    (¬ (x.IsWhole ∧ x.magnitude < 10 ^ 21) ∧ m = .float x ∨
      (x.IsWhole ∧ x.magnitude < 10 ^ 21) ∧
        ∃ k : Int, m = .int k ∧ (k : ℚ) = signed x.negative x.shortest.value) := by
  rw [← Binary64.isInteger_floatNumeral_iff]
  cases form : (floatNumeral x).isInteger with
  | false => exact ⟨_, read_float_of_point form, .inl ⟨Bool.false_ne_true, rfl⟩⟩
  | true =>
    obtain ⟨k, found, value⟩ := read_float_eq_of_whole form
    exact ⟨_, found, .inr ⟨rfl, k, rfl, value⟩⟩

end Number

theorem Value.readNumber_queryText (n : Number) {m : Number}
    (found : Number.read n.queryText = .ok m) :
    (Value.str (String.ofList n.queryText)).readNumber = .ok m := by
  simp only [readNumber, text?, String.toList_ofList, found]

/-- The text of a number is read as a number of the same value, apart from whole binary numbers
    below `10^21` whose shortest digits are not their exact value. Those are read as the integer that
    the digits spell, are the number nearest to it, and are beyond `2^53`. -/
theorem Value.readNumber_numberText {n : Number} (writable : n.writable = true) :
    ∃ text m, (Value.ofNumber n).numberText = .ok text ∧
      (Value.str (String.ofList text)).readNumber = .ok m ∧
      (m.sameValue n = true ↔ ∀ x, n = .float x → x.IsWhole → x.magnitude < 10 ^ 21 →
        x.shortest.value = x.magnitude) ∧
      ∀ x, n = .float x →
        (x.IsWhole → x.magnitude < 10 ^ 21 →
          ∃ k : Int, m = .int k ∧ (k : ℚ) = signed x.negative x.shortest.value) ∧
        x.IsNearest m.value ∧ (x.magnitude ≤ 2 ^ 53 → m.sameValue n = true) := by
  have text : (Value.ofNumber n).numberText = .ok n.queryText := by
    rw [Number.numberText_ofNumber, written, if_pos writable]
  cases n with
  | int n =>
    refine ⟨_, .int n, text, readNumber_queryText _ (Number.read_queryText_int writable), ?_, ?_⟩
    · exact iff_of_true (Number.sameValue_iff.2 rfl) (by rintro x ⟨⟩)
    · rintro x ⟨⟩
  | float x =>
    obtain ⟨m, found, ⟨proper, rfl⟩ | ⟨whole, k, rfl, value⟩⟩ := Number.read_float x
    · have same : (Number.float x).sameValue (.float x) = true := Number.sameValue_iff.2 rfl
      refine ⟨_, _, text, readNumber_queryText _ found, iff_of_true same ?_, ?_⟩
      · rintro _ ⟨⟩ whole small
        exact absurd ⟨whole, small⟩ proper
      · rintro _ ⟨⟩
        refine ⟨fun whole small => absurd ⟨whole, small⟩ proper, x.isNearest_value, fun _ => same⟩
    · have same : (Number.int k).sameValue (.float x) = true ↔
          x.shortest.value = x.magnitude := by
        rw [Number.sameValue_iff, Number.value, value]
        exact signed_inj
      refine ⟨_, _, text, readNumber_queryText _ found, same.trans ⟨?_, ?_⟩, ?_⟩
      · rintro equal _ ⟨⟩ - -
        exact equal
      · exact fun equal => equal x rfl whole.1 whole.2
      · rintro _ ⟨⟩
        refine ⟨fun _ _ => ⟨k, rfl, value⟩, ?_,
          fun small => same.2 (Binary64.shortest_value_of_small whole.1 small)⟩
        rw [Number.value, value, Binary64.isNearest_signed_iff x.shortest.value_nonneg rfl]
        exact x.nearMagnitude_shortest

/-- A power of ten that binary numbers hold exactly. -/
def tenPow20 : Number :=
  .float ⟨false, 6103515625000000, 14, by decide⟩

theorem readNumber_tenPow20 :
    tenPow20.writable = true ∧ ∃ text m, (Value.ofNumber tenPow20).numberText = .ok text ∧
      (Value.str (String.ofList text)).readNumber = .ok m ∧ m.sameValue tenPow20 = true := by
  obtain ⟨text, m, written, found, same, -⟩ := Value.readNumber_numberText (n := tenPow20) rfl
  refine ⟨rfl, text, m, written, found, same.2 ?_⟩
  rintro _ ⟨⟩ - -
  have shortest : Binary64.shortest ⟨false, 6103515625000000, 14, by decide⟩ = ⟨1, 20⟩ := by
    decide +kernel
  rw [shortest]
  norm_num [Decimal.value, Binary64.magnitude]

/-- Eight more than a power of two; the shortest digits are two less. -/
def twoPow54Plus8 : Binary64 :=
  ⟨false, 2 ^ (52 : Nat) + 2, 2, by decide⟩

theorem readNumber_twoPow54Plus8 :
    (Value.ofNumber (.float twoPow54Plus8)).numberText = .ok "18014398509481990".toList ∧
      (Value.str "18014398509481990").readNumber = .ok (.int 18014398509481990) ∧
      (Number.int 18014398509481990).sameValue (.float twoPow54Plus8) = false ∧
      (Number.int 18014398509481992).sameValue (.float twoPow54Plus8) = true := by
  refine ⟨congrArg Except.ok (by decide +kernel), ?_, by decide +kernel, by decide +kernel⟩
  have found : Number.read "18014398509481990".toList = .ok (.int 18014398509481990) := by
    decide +kernel
  rw [Value.readNumber, Value.text?]
  simp only [found]

end QueryTree
