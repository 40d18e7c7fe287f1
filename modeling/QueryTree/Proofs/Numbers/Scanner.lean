import Mathlib.Data.List.Forall2
import QueryTree.Number.Reader

/-!
# Scanning numerals

A text is scanned as a numeral exactly if it is written as one: an optional sign, digits of any
script with an optional point in front of, between or behind them, and an optional exponent.

* `DigitsText`, `SignText`, `PointText`, `ExponentText` : the parts of a numeral as texts
* `Numeral.WrittenAs`         : the texts of a numeral
* `takeDigits_append`, `takeSign_append` : digits are read up to a character that is none
* `Numeral.scanExponent?_eq_some_iff`, `Numeral.scan?_eq_some_iff` : exponents and numerals
-/

namespace QueryTree

/-! ## The texts of numerals -/

/-- Decimal digits with these values, of any script. -/
def DigitsText (cs : List Char) (ds : List Nat) : Prop :=
  List.Forall₂ (fun c d => Text.digitValue? c = some d) cs ds

/-- A sign, which says whether a number is negative. -/
inductive SignText : Bool → List Char → Prop where
  | none : SignText false []
  | plus : SignText false ['+']
  | minus : SignText true ['-']

/-- A point and the digits behind it. -/
inductive PointText : Bool → List Nat → List Char → Prop where
  | none : PointText false [] []
  | point {cs : List Char} {ds : List Nat} : DigitsText cs ds → PointText true ds ('.' :: cs)

/-- An exponent: its mark, a sign, and at least one digit. -/
inductive ExponentText : Option (Bool × List Nat) → List Char → Prop where
  | none : ExponentText none []
  | power {mark : Char} {negative : Bool} {sign cs : List Char} {ds : List Nat} :
      mark = 'e' ∨ mark = 'E' → SignText negative sign → DigitsText cs ds → ds ≠ [] →
      ExponentText (some (negative, ds)) (mark :: (sign ++ cs))

/-- The texts of a numeral, in which there is a digit in front of or behind the point. -/
inductive Numeral.WrittenAs : Numeral → List Char → Prop where
  | parts {negative point : Bool} {ds es : List Nat} {exponent : Option (Bool × List Nat)}
      {sign whole fraction power : List Char} :
      SignText negative sign → DigitsText whole ds → PointText point es fraction →
      ExponentText exponent power → ds ≠ [] ∨ es ≠ [] →
      WrittenAs ⟨negative, ds, point, es, exponent⟩ (sign ++ (whole ++ (fraction ++ power)))

/-! ## Digits and signs -/

/-- The marks of numerals are no digits. -/
theorem digitValue?_mark {c : Char} (mark : c ∈ ['+', '-', '.', 'e', 'E']) :
    Text.digitValue? c = none := by
  simp only [List.mem_cons, List.not_mem_nil, or_false] at mark
  rcases mark with rfl | rfl | rfl | rfl | rfl <;> decide +kernel

section Parts

variable {cs rest : List Char} {ds : List Nat} {negative : Bool}

/-- Digits are read up to the first character that is none. -/
theorem takeDigits_append (digits : DigitsText cs ds)
    (ends : ∀ c ∈ rest.head?, Text.digitValue? c = none) :
    takeDigits (cs ++ rest) = (ds, rest) := by
  induction digits with
  | nil =>
    cases rest with
    | nil => rfl
    | cons c rest => rw [List.nil_append, takeDigits, ends c rfl]
  | cons digit _ ih => rw [List.cons_append, takeDigits, digit, ih]

theorem digitsText_of_takeDigits (taken : takeDigits cs = (ds, rest)) :
    ∃ front, DigitsText front ds ∧ cs = front ++ rest := by
  induction cs generalizing ds with
  | nil =>
    cases taken
    exact ⟨[], List.Forall₂.nil, rfl⟩
  | cons c cs ih =>
    rw [takeDigits] at taken
    split at taken
    · next d digit =>
      cases taken
      obtain ⟨front, digits, split⟩ := ih rfl
      exact ⟨c :: front, List.Forall₂.cons digit digits, congrArg (c :: ·) split⟩
    · cases taken
      exact ⟨[], List.Forall₂.nil, rfl⟩

theorem DigitsText.head (digits : DigitsText cs ds) (some : ds ≠ []) :
    ∃ c cs', cs = c :: cs' ∧ Text.digitValue? c ≠ none := by
  cases digits with
  | nil => exact absurd rfl some
  | cons digit _ => exact ⟨_, _, rfl, by rw [digit]; exact Option.some_ne_none _⟩

/-- A sign is read off whatever does not start with one. -/
theorem takeSign_append {sign : List Char} (signed : SignText negative sign)
    (ends : ∀ c ∈ rest.head?, c ≠ '+' ∧ c ≠ '-') : takeSign (sign ++ rest) = (negative, rest) := by
  cases signed with
  | plus => rfl
  | minus => rfl
  | none =>
    rw [List.nil_append]
    unfold takeSign
    split
    · exact absurd rfl (ends _ rfl).2
    · exact absurd rfl (ends _ rfl).1
    · rfl

theorem signText_of_takeSign (taken : takeSign cs = (negative, rest)) :
    ∃ sign, SignText negative sign ∧ cs = sign ++ rest := by
  unfold takeSign at taken
  split at taken <;> cases taken
  · exact ⟨_, .minus, rfl⟩
  · exact ⟨_, .plus, rfl⟩
  · exact ⟨_, .none, rfl⟩

theorem ne_sign_of_digit {c : Char} (digit : Text.digitValue? c ≠ none) : c ≠ '+' ∧ c ≠ '-' := by
  constructor <;> rintro rfl <;> exact digit (digitValue?_mark (by decide))

end Parts

/-! ## Fractions and exponents -/

/-- An exponent starts with its mark. -/
theorem ExponentText.head {e : Option (Bool × List Nat)} {cs : List Char}
    (power : ExponentText e cs) : ∀ c ∈ cs.head?, Text.digitValue? c = .none ∧ c ≠ '.' := by
  cases power with
  | none => rintro c ⟨⟩
  | power marked =>
    rcases marked with rfl | rfl
    · rintro c ⟨⟩
      exact ⟨digitValue?_mark (by decide), by decide⟩
    · rintro c ⟨⟩
      exact ⟨digitValue?_mark (by decide), by decide⟩

/-- Splits an optional point and the digits behind it off a text. -/
def takeFraction : List Char → Bool × List Nat × List Char
  | '.' :: cs => (true, takeDigits cs)
  | cs => (false, [], cs)

section Fractions

variable {cs rest : List Char} {point : Bool} {ds : List Nat}

theorem takeFraction_append (behind : PointText point ds cs)
    (ends : ∀ c ∈ rest.head?, Text.digitValue? c = none ∧ c ≠ '.') :
    takeFraction (cs ++ rest) = (point, ds, rest) := by
  cases behind with
  | point digits =>
    have read := takeDigits_append digits fun c member => (ends c member).1
    rw [List.cons_append, takeFraction, read]
  | none =>
    rw [List.nil_append]
    unfold takeFraction
    split
    · exact absurd rfl (ends _ rfl).2
    · rfl

theorem pointText_of_takeFraction (taken : takeFraction cs = (point, ds, rest)) :
    ∃ front, PointText point ds front ∧ cs = front ++ rest := by
  unfold takeFraction at taken
  split at taken
  · next cs =>
    obtain ⟨rfl, read⟩ := Prod.mk.inj taken
    obtain ⟨front, digits, rfl⟩ := digitsText_of_takeDigits read
    exact ⟨'.' :: front, .point digits, rfl⟩
  · cases taken
    exact ⟨[], .none, rfl⟩

end Fractions

namespace Numeral

section Parts

variable {cs : List Char} {e : Option (Bool × List Nat)}

theorem scanExponent?_of_text (power : ExponentText e cs) : scanExponent? cs = some e := by
  cases power with
  | none => rfl
  | @power mark negative sign cs ds marked signed digits some =>
    obtain ⟨c, cs', rfl, digit⟩ := digits.head some
    have first : takeSign (sign ++ c :: cs') = (negative, c :: cs') :=
      takeSign_append signed (by rintro _ ⟨⟩; exact ne_sign_of_digit digit)
    have nothing : ∀ c ∈ ([] : List Char).head?, Text.digitValue? c = .none := by rintro _ ⟨⟩
    have read := takeDigits_append digits nothing
    rw [List.append_nil] at read
    have occupied : (ds.isEmpty || !([] : List Char).isEmpty) = false := by simpa using some
    simp only [scanExponent?, if_pos marked, first, read, occupied, Bool.false_eq_true, if_false]

theorem text_of_scanExponent? (scanned : scanExponent? cs = some e) : ExponentText e cs := by
  unfold scanExponent? at scanned
  split at scanned
  · cases scanned
    exact .none
  · next c cs =>
    split at scanned
    · next marked =>
      rcases first : takeSign cs with ⟨negative, rest⟩
      rcases read : takeDigits rest with ⟨ds, left⟩
      simp only [first, read] at scanned
      split at scanned
      · cases scanned
      · next occupied =>
        cases scanned
        simp only [Bool.or_eq_true, List.isEmpty_iff, Bool.not_eq_true', List.isEmpty_eq_false_iff,
          not_or, not_not] at occupied
        obtain ⟨some, rfl⟩ := occupied
        obtain ⟨sign, signed, rfl⟩ := signText_of_takeSign first
        obtain ⟨front, digits, rfl⟩ := digitsText_of_takeDigits read
        rw [List.append_nil]
        exact .power marked signed digits some
    · cases scanned

/-- An exponent is all that may follow the digits of a numeral. -/
theorem scanExponent?_eq_some_iff : scanExponent? cs = some e ↔ ExponentText e cs :=
  ⟨text_of_scanExponent?, scanExponent?_of_text⟩

end Parts

/-! ## Numerals -/

section Numerals

variable {cs : List Char} {n : Numeral}

/-- The parts of a numeral that the scanner finds one after the other. -/
theorem scan?_eq {negative point : Bool} {ds es : List Nat}
    {behindSign behindWhole rest : List Char} (first : takeSign cs = (negative, behindSign))
    (before : takeDigits behindSign = (ds, behindWhole))
    (behind : takeFraction behindWhole = (point, es, rest)) :
    scan? cs = if ds.isEmpty && es.isEmpty then none
      else (scanExponent? rest).map fun exponent => ⟨negative, ds, point, es, exponent⟩ := by
  unfold takeFraction at behind
  split at behind
  · obtain ⟨rfl, read⟩ := Prod.mk.inj behind
    simp only [scan?, first, before, read]
  · cases behind
    simp only [scan?, first, before]

theorem scan?_of_written (written : n.WrittenAs cs) : scan? cs = some n := by
  cases written with
  | @parts negative point ds es exponent sign whole fraction power signed digits behind last some =>
  have ends := last.head
  have first : takeSign (sign ++ (whole ++ (fraction ++ power))) =
      (negative, whole ++ (fraction ++ power)) := by
    refine takeSign_append signed ?_
    cases digits with
    | cons digit => rintro c ⟨⟩; exact ne_sign_of_digit (by rw [digit]; exact Option.some_ne_none _)
    | nil =>
      cases behind with
      | none => simp at some
      | point => rintro c ⟨⟩; decide
  have before : takeDigits (whole ++ (fraction ++ power)) = (ds, fraction ++ power) := by
    refine takeDigits_append digits ?_
    cases behind with
    | none => exact fun c member => (ends c member).1
    | point => rintro c ⟨⟩; exact digitValue?_mark (by decide)
  have occupied : (ds.isEmpty && es.isEmpty) = false := by simpa [imp_iff_not_or] using some
  rw [scan?_eq first before (takeFraction_append behind ends), occupied,
    scanExponent?_of_text last]
  rfl

theorem written_of_scan? (scanned : scan? cs = some n) : n.WrittenAs cs := by
  rcases first : takeSign cs with ⟨negative, behindSign⟩
  rcases before : takeDigits behindSign with ⟨ds, behindWhole⟩
  rcases behind : takeFraction behindWhole with ⟨point, es, rest⟩
  rw [scan?_eq first before behind] at scanned
  split at scanned
  · cases scanned
  · next occupied =>
    obtain ⟨exponent, last, rfl⟩ := Option.map_eq_some_iff.1 scanned
    obtain ⟨sign, signed, rfl⟩ := signText_of_takeSign first
    obtain ⟨whole, digits, rfl⟩ := digitsText_of_takeDigits before
    obtain ⟨fraction, point, rfl⟩ := pointText_of_takeFraction behind
    refine .parts signed digits point (text_of_scanExponent? last) ?_
    simpa [imp_iff_not_or] using occupied

/-- The scanner finds a numeral exactly in the texts of numerals, and finds the one numeral that
    they are the text of. -/
theorem scan?_eq_some_iff : scan? cs = some n ↔ n.WrittenAs cs :=
  ⟨written_of_scan?, scan?_of_written⟩

end Numerals

end Numeral

end QueryTree
