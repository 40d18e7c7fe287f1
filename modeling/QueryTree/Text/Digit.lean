/-!
# Decimal digits

Numerals are read and written through their digit values.

* `digits`, `ofDigits`     : a natural number and its decimal digit values, most
                             significant first
* `digitChar`, `decimal`   : the ASCII numeral of a natural number
* `decimalInt`             : the same with a sign
* `padded`                 : a numeral with leading zeros up to a width
* `asciiDigit?`            : the value of an ASCII digit
* `digitValue?`            : the value of a decimal digit of any script
-/

namespace QueryTree.Text

/-! ## Writing -/

/-- Decimal digit values of a natural number, most significant first; zero has the
    one digit `0`, no other number starts with it. -/
def digits (n : Nat) : List Nat :=
  if n < 10 then [n] else digits (n / 10) ++ [n % 10]
termination_by n
decreasing_by omega

/-- The number that a list of digit values denotes; the empty list denotes zero. -/
def ofDigits (ds : List Nat) : Nat :=
  ds.foldl (fun n d => 10 * n + d) 0

/-- The ASCII character of a digit value below ten. -/
def digitChar (d : Nat) : Char :=
  Char.ofNat (48 + d)

/-- The ASCII numeral of a natural number, without leading zeros. -/
def decimal (n : Nat) : List Char :=
  (digits n).map digitChar

def decimalInt (n : Int) : List Char :=
  if n < 0 then '-' :: decimal n.natAbs else decimal n.natAbs

/-- A numeral filled up with zeros on the left to at least `width` digits. -/
def padded (width n : Nat) : List Char :=
  List.replicate (width - (digits n).length) '0' ++ decimal n

/-! ## Reading -/

/-- The value of an ASCII decimal digit. -/
def asciiDigit? (c : Char) : Option Nat :=
  if 48 ≤ c.toNat ∧ c.toNat ≤ 57 then some (c.toNat - 48) else none

/-- The code points of the digit zero in the scripts that write decimal numerals.  The
    other nine digits follow each of them. -/
def zeroDigits : List Nat :=
  [0x30, 0x660, 0x6F0, 0x7C0, 0x966, 0x9E6, 0xA66, 0xAE6, 0xB66, 0xBE6, 0xC66, 0xCE6, 0xD66,
   0xDE6, 0xE50, 0xED0, 0xF20, 0x1040, 0x1090, 0x17E0, 0x1810, 0x1946, 0x19D0, 0x1A80,
   0x1A90, 0x1B50, 0x1BB0, 0x1C40, 0x1C50, 0xA620, 0xA8D0, 0xA900, 0xA9D0, 0xA9F0, 0xAA50,
   0xABF0, 0xFF10, 0x104A0, 0x10D30, 0x11066, 0x110F0, 0x11136, 0x111D0, 0x112F0, 0x11450,
   0x114D0, 0x11650, 0x116C0, 0x11730, 0x118E0, 0x11950, 0x11C50, 0x11D50, 0x11DA0, 0x16A60,
   0x16AC0, 0x16B50, 0x1D7CE, 0x1D7D8, 0x1D7E2, 0x1D7EC, 0x1D7F6, 0x1E140, 0x1E2F0, 0x1E950,
   0x1FBF0]

/-- The value of a decimal digit of any script. -/
def digitValue? (c : Char) : Option Nat :=
  (zeroDigits.find? fun z => decide (z ≤ c.toNat ∧ c.toNat ≤ z + 9)).map (c.toNat - ·)

def isDigit (c : Char) : Bool :=
  (digitValue? c).isSome

/-! ## Laws -/

theorem digits_of_lt {n : Nat} (h : n < 10) : digits n = [n] := by
  rw [digits]; simp [h]

theorem digits_of_ge {n : Nat} (h : 10 ≤ n) : digits n = digits (n / 10) ++ [n % 10] := by
  rw [digits]; simp [Nat.not_lt.2 h]

theorem ofDigits_digits (n : Nat) : ofDigits (digits n) = n := by
  induction n using Nat.strongRecOn with
  | _ n ih =>
    by_cases h : n < 10
    · simp [digits_of_lt h, ofDigits]
    · have hlt : n / 10 < n := by omega
      rw [digits_of_ge (Nat.not_lt.1 h), ofDigits, List.foldl_append]
      have := ih _ hlt
      rw [ofDigits] at this
      simp only [this, List.foldl_cons, List.foldl_nil]
      omega

theorem lt_of_mem_digits {n d : Nat} (h : d ∈ digits n) : d < 10 := by
  induction n using Nat.strongRecOn with
  | _ n ih =>
    by_cases hn : n < 10
    · rw [digits_of_lt hn] at h
      simp only [List.mem_singleton] at h
      omega
    · rw [digits_of_ge (Nat.not_lt.1 hn), List.mem_append] at h
      rcases h with h | h
      · exact ih _ (by omega) h
      · simp only [List.mem_singleton] at h
        omega

end QueryTree.Text
