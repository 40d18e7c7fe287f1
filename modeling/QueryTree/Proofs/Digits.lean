import Mathlib.Data.List.Basic
import QueryTree.Text.Digit

/-!
# Numerals

ASCII numerals, of any length and filled up to a fixed width.

* `IsAsciiDigit`        : the characters of numerals
* `notMem_of_digit_or_sign` : what texts of digits and signs do not hold
* `decimal_eq_cons`, `padded_eq_cons` : numerals start with a digit
* `decimal_injective`, `decimal_mul_pow`, `length_digits_le_iff`, `ofDigits_lt` : numerals and
  powers of ten
* `paddedDigits`, `ofDigits_paddedDigits`, `length_padded` : numerals of a fixed width
-/

namespace QueryTree

-- The definitions are elaborated without Mathlib, so powers of natural numbers in them are those of
-- `instPowNat`; with Mathlib in scope they would be those of the monoid of natural numbers here and
-- not be the same to a rewrite.  Modules about the same definitions prefer that instance too.
attribute [local instance (high)] instPowNat

/-! ## Digits -/

/-- A character is an ASCII digit. -/
def IsAsciiDigit (c : Char) : Prop :=
  ∃ d < 10, c = Text.digitChar d

theorem asciiDigit?_digitChar {d : Nat} (small : d < 10) :
    Text.asciiDigit? (Text.digitChar d) = some d := by
  have all : ∀ d < 10, Text.asciiDigit? (Text.digitChar d) = some d := by decide
  exact all d small

theorem IsAsciiDigit.ne {c x : Char} (digit : IsAsciiDigit c) (other : Text.asciiDigit? x = none) :
    c ≠ x := by
  rintro rfl
  obtain ⟨d, small, rfl⟩ := digit
  rw [asciiDigit?_digitChar small] at other
  cases other

/-- A character outside a class is in no list of characters of the class. -/
theorem notMem_of_all {p : Char → Bool} {xs : List Char} {c : Char} (all : xs.all p = true)
    (other : p c = false) : c ∉ xs := by
  intro member
  rw [List.all_eq_true.1 all c member] at other
  cases other

theorem IsAsciiDigit.notMem {c : Char} {xs : List Char} (digit : IsAsciiDigit c)
    (others : xs.all (fun x => (Text.asciiDigit? x).isNone) = true) : c ∉ xs := by
  refine notMem_of_all others ?_
  obtain ⟨d, small, rfl⟩ := digit
  rw [asciiDigit?_digitChar small]
  rfl

/-- A digit or one of some signs is in no list that has neither. -/
theorem notMem_of_digit_or_sign {c : Char} {signs xs : List Char}
    (known : IsAsciiDigit c ∨ c ∈ signs)
    (others : xs.all (fun x => (Text.asciiDigit? x).isNone && !signs.contains x) = true) :
    c ∉ xs := by
  intro member
  have other := List.all_eq_true.1 others c member
  simp only [Bool.and_eq_true, Option.isNone_iff_eq_none, Bool.not_eq_true',
    List.contains_eq_mem, decide_eq_false_iff_not] at other
  rcases known with digit | sign
  · exact digit.ne other.1 rfl
  · exact other.2 sign

/-! ## Numerals -/

theorem digits_ne_nil (n : Nat) : Text.digits n ≠ [] := by
  by_cases small : n < 10
  · rw [Text.digits_of_lt small]
    exact List.cons_ne_nil _ _
  · rw [Text.digits_of_ge (Nat.not_lt.1 small)]
    simp

theorem getLast?_digits (n : Nat) : (Text.digits n).getLast? = some (n % 10) := by
  by_cases small : n < 10
  · rw [Text.digits_of_lt small, Nat.mod_eq_of_lt small]
    rfl
  · rw [Text.digits_of_ge (Nat.not_lt.1 small), List.getLast?_concat]

theorem head?_digits {n : Nat} (some : n ≠ 0) : ∃ d ∈ (Text.digits n).head?, d ≠ 0 := by
  induction n using Nat.strongRecOn with
  | _ n ih =>
    by_cases small : n < 10
    · rw [Text.digits_of_lt small]
      exact ⟨n, rfl, some⟩
    · obtain ⟨d, first, nonzero⟩ := ih (n / 10) (by omega) (by omega)
      rw [Text.digits_of_ge (Nat.not_lt.1 small), List.head?_append, first]
      exact ⟨d, rfl, nonzero⟩

/-- Text of digit values below ten, of which there is one, starts with a digit. -/
theorem map_digitChar_eq_cons {ds : List Nat} (some : ds ≠ []) (small : ∀ d ∈ ds, d < 10) :
    ∃ c cs, ds.map Text.digitChar = c :: cs ∧ IsAsciiDigit c := by
  cases ds with
  | nil => exact absurd rfl some
  | cons d ds => exact ⟨_, _, rfl, d, small d (.head _), rfl⟩

theorem decimal_ne_nil (n : Nat) : Text.decimal n ≠ [] :=
  fun empty => digits_ne_nil n (List.map_eq_nil_iff.1 empty)

theorem decimal_eq_cons (n : Nat) : ∃ c cs, Text.decimal n = c :: cs ∧ IsAsciiDigit c :=
  map_digitChar_eq_cons (digits_ne_nil n) fun _ => Text.lt_of_mem_digits

theorem isAsciiDigit_of_mem_decimal {n : Nat} {c : Char} (member : c ∈ Text.decimal n) :
    IsAsciiDigit c := by
  obtain ⟨d, inside, rfl⟩ := List.mem_map.1 member
  exact ⟨d, Text.lt_of_mem_digits inside, rfl⟩

theorem decimal_injective {m n : Nat} (same : Text.decimal m = Text.decimal n) : m = n := by
  -- the digits can be read back
  have read (n : Nat) : (Text.decimal n).filterMap Text.asciiDigit? = Text.digits n := by
    rw [Text.decimal, List.filterMap_map, List.filterMap_congr (g := some), List.filterMap_some]
    exact fun d member => asciiDigit?_digitChar (Text.lt_of_mem_digits member)
  rw [← Text.ofDigits_digits m, ← read, same, read, Text.ofDigits_digits]

theorem digits_mul_pow {n : Nat} (some : n ≠ 0) (g : Nat) :
    Text.digits (n * 10 ^ g) = Text.digits n ++ List.replicate g 0 := by
  induction g with
  | zero => simp
  | succ g ih =>
    have positive : 0 < n * 10 ^ g :=
      Nat.mul_pos (Nat.pos_of_ne_zero some) (Nat.pow_pos (by decide))
    rw [Nat.pow_succ, ← Nat.mul_assoc, Text.digits_of_ge (by omega),
      Nat.mul_div_cancel _ (by decide), Nat.mul_mod_left, ih, List.append_assoc,
      List.replicate_succ']

/-- The numeral of a multiple of a power of ten ends in its zeros. -/
theorem decimal_mul_pow {n : Nat} (some : n ≠ 0) (g : Nat) :
    Text.decimal (n * 10 ^ g) = Text.decimal n ++ List.replicate g '0' := by
  rw [Text.decimal, digits_mul_pow some, List.map_append, List.map_replicate]
  rfl

theorem lt_pow_length_digits (n : Nat) : n < 10 ^ (Text.digits n).length := by
  induction n using Nat.strongRecOn with
  | _ n ih =>
    by_cases small : n < 10
    · rw [Text.digits_of_lt small]
      exact small
    · have above := ih (n / 10) (by omega)
      rw [Text.digits_of_ge (Nat.not_lt.1 small), List.length_append, List.length_singleton,
        Nat.pow_succ]
      omega

theorem ofDigits_append (ds es : List Nat) :
    Text.ofDigits (ds ++ es) = Text.ofDigits ds * 10 ^ es.length + Text.ofDigits es := by
  -- a number that has been read moves up one place with every digit
  have shifts (n : Nat) : es.foldl (fun n d => 10 * n + d) n =
      n * 10 ^ es.length + es.foldl (fun n d => 10 * n + d) 0 := by
    induction es generalizing n with
    | nil => simp
    | cons e es ih =>
      rw [List.foldl_cons, List.foldl_cons, ih, ih (10 * 0 + e), List.length_cons, Nat.pow_succ',
        ← Nat.mul_assoc, Nat.mul_zero, Nat.zero_add, Nat.add_mul, Nat.mul_comm 10 n, Nat.add_assoc]
  rw [Text.ofDigits, List.foldl_append, shifts]
  rfl

theorem ofDigits_zeros (k : Nat) : Text.ofDigits (List.replicate k 0) = 0 := by
  induction k with
  | zero => rfl
  | succ k ih => simpa [Text.ofDigits, List.replicate_succ] using ih

theorem ofDigits_zeros_append (k : Nat) (ds : List Nat) :
    Text.ofDigits (List.replicate k 0 ++ ds) = Text.ofDigits ds := by
  rw [ofDigits_append, ofDigits_zeros, Nat.zero_mul, Nat.zero_add]

theorem ofDigits_append_zeros (ds : List Nat) (k : Nat) :
    Text.ofDigits (ds ++ List.replicate k 0) = Text.ofDigits ds * 10 ^ k := by
  rw [ofDigits_append, ofDigits_zeros, List.length_replicate, Nat.add_zero]

theorem ofDigits_lt {ds : List Nat} (small : ∀ d ∈ ds, d < 10) :
    Text.ofDigits ds < 10 ^ ds.length := by
  -- a number that has been read grows by a factor of ten with every digit
  have grows (n : Nat) : ds.foldl (fun n d => 10 * n + d) n < (n + 1) * 10 ^ ds.length := by
    induction ds generalizing n with
    | nil => simp
    | cons d ds ih =>
      have digit := small d (.head _)
      calc (d :: ds).foldl (fun n d => 10 * n + d) n
        _ < (10 * n + d + 1) * 10 ^ ds.length := ih (fun e member => small e (.tail _ member)) _
        _ ≤ ((n + 1) * 10) * 10 ^ ds.length := Nat.mul_le_mul_right _ (by omega)
        _ = (n + 1) * 10 ^ (d :: ds).length := by
          rw [List.length_cons, Nat.pow_succ', Nat.mul_assoc]
  simpa [Text.ofDigits] using grows 0

/-! ## Numerals of a fixed width -/

/-- The digit values of a number, filled up with zeros. -/
def paddedDigits (width n : Nat) : List Nat :=
  List.replicate (width - (Text.digits n).length) 0 ++ Text.digits n

theorem padded_eq (width n : Nat) :
    Text.padded width n = (paddedDigits width n).map Text.digitChar := by
  rw [Text.padded, paddedDigits, List.map_append, List.map_replicate]
  rfl

theorem lt_of_mem_paddedDigits {width n d : Nat} (member : d ∈ paddedDigits width n) : d < 10 := by
  rcases List.mem_append.1 member with zero | digit
  · rw [List.eq_of_mem_replicate zero]
    decide
  · exact Text.lt_of_mem_digits digit

theorem ofDigits_paddedDigits (width n : Nat) : Text.ofDigits (paddedDigits width n) = n := by
  rw [paddedDigits, ofDigits_zeros_append, Text.ofDigits_digits]

theorem paddedDigits_ne_nil (width n : Nat) : paddedDigits width n ≠ [] := by
  rw [paddedDigits, ne_eq, List.append_eq_nil_iff, not_and]
  exact fun _ => digits_ne_nil n

theorem paddedDigits_one (n : Nat) : paddedDigits 1 n = Text.digits n := by
  have some := List.length_pos_of_ne_nil (digits_ne_nil n)
  have none : 1 - (Text.digits n).length = 0 := by omega
  rw [paddedDigits, none]
  rfl

theorem padded_one (n : Nat) : Text.padded 1 n = Text.decimal n := by
  rw [padded_eq, paddedDigits_one, Text.decimal]

theorem length_digits_le {width n : Nat} (fits : n < 10 ^ width) (some : 0 < width) :
    (Text.digits n).length ≤ width := by
  induction width generalizing n with
  | zero => cases some
  | succ width ih =>
    by_cases small : n < 10
    · rw [Text.digits_of_lt small]
      simp
    · rw [Text.digits_of_ge (Nat.not_lt.1 small), List.length_append, List.length_singleton]
      have shorter : n / 10 < 10 ^ width := by
        rw [Nat.div_lt_iff_lt_mul (by decide)]
        exact fits
      have left : 0 < width := by
        rcases Nat.eq_zero_or_pos width with rfl | left
        · simp at shorter
          omega
        · exact left
      exact Nat.succ_le_succ (ih shorter left)

theorem length_digits_le_iff {width n : Nat} (some : 0 < width) :
    (Text.digits n).length ≤ width ↔ n < 10 ^ width := by
  refine ⟨fun short => ?_, fun fits => length_digits_le fits some⟩
  exact Nat.lt_of_lt_of_le (lt_pow_length_digits n) (Nat.pow_le_pow_right (by decide) short)

theorem pow_length_digits_le {n : Nat} (some : 0 < n) :
    10 ^ ((Text.digits n).length - 1) ≤ n := by
  rcases Nat.eq_zero_or_pos ((Text.digits n).length - 1) with one | more
  · rw [one]
    exact some
  · have long : ¬ (Text.digits n).length ≤ (Text.digits n).length - 1 := by omega
    exact Nat.not_lt.1 ((length_digits_le_iff more).not.1 long)

theorem length_paddedDigits {width n : Nat} (fits : n < 10 ^ width) (some : 0 < width) :
    (paddedDigits width n).length = width := by
  have short := length_digits_le fits some
  rw [paddedDigits, List.length_append, List.length_replicate]
  omega

theorem length_padded {width n : Nat} (fits : n < 10 ^ width) (some : 0 < width) :
    (Text.padded width n).length = width := by
  rw [padded_eq, List.length_map, length_paddedDigits fits some]

theorem isAsciiDigit_of_mem_padded {width n : Nat} {c : Char} (member : c ∈ Text.padded width n) :
    IsAsciiDigit c := by
  rw [padded_eq] at member
  obtain ⟨d, inside, rfl⟩ := List.mem_map.1 member
  exact ⟨d, lt_of_mem_paddedDigits inside, rfl⟩

theorem padded_eq_cons (width n : Nat) :
    ∃ c cs, Text.padded width n = c :: cs ∧ IsAsciiDigit c := by
  rw [padded_eq]
  exact map_digitChar_eq_cons (paddedDigits_ne_nil width n) fun _ => lt_of_mem_paddedDigits

end QueryTree
