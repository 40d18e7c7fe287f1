import QueryTree.Proofs.Numbers.Canonical

/-!
# Shown texts respelled

The text of a number in a query can be made from the text that the number is shown as. An exponent
within the band is written out, or else a fraction that is only a zero is left out, and the zeros at
the start of an exponent are left out in any case.

* `expandExponent`, `dropFraction`, `trimExponents` : the changes to a text
* `Binary64.respelled`        : which of them are made
* `Layout.dropFraction_positional`, `Layout.trimExponents_scientific` : what they do to the texts of
  decimals
* `Number.queryText_eq_respelled` : they make the text in a query
-/

namespace QueryTree

attribute [local instance (high)] instPowNat

/-! ## Changes to texts -/

/-- Moves the digits of a numeral to the places that its exponent gives them. -/
def expandExponent (cs : List Char) : List Char :=
  match Numeral.scan? cs with
  | none => cs
  | some n =>
    let ds := Text.decimal n.decimal.coefficient
    (if n.negative then ['-'] else []) ++
      Layout.query.positional ds (n.decimal.exponent + ds.length)

/-- Leaves out a fraction that is only a zero. -/
def dropFraction (cs : List Char) : List Char :=
  if ['.', '0'] <:+ cs then cs.dropLast.dropLast else cs

/-- What stands in front of a character, so far as exponents are concerned. -/
inductive Spot where
  | elsewhere
  | mark
  -- a mark and a sign, and zeros that have been left out
  | sign
  deriving DecidableEq

def Spot.next (s : Spot) (c : Char) : Spot :=
  if c = 'e' then .mark
  else if s = .mark ∧ (c = '+' ∨ c = '-') then .sign
  else .elsewhere

/-- Leaves out the zeros behind the sign of an exponent, except for one that no digit follows. -/
def trimFrom (s : Spot) : List Char → List Char
  | [] => []
  | c :: cs =>
    if s = .sign ∧ c = '0' ∧ cs.head?.any Text.isDigit = true then trimFrom .sign cs
    else c :: trimFrom (s.next c) cs

def trimExponents (cs : List Char) : List Char :=
  trimFrom .elsewhere cs

/-- The text of a number in a query, made from the text that it is shown as. -/
def Binary64.respelled (x : Binary64) : List Char :=
  let shown := Layout.shown.write x
  if x.isZero then ['0']
  else if 'e' ∈ shown ∧ millionth.magnitude ≤ x.magnitude ∧ x.magnitude < 10 ^ 21 then
    trimExponents (expandExponent shown)
  else trimExponents (dropFraction shown)

section Changes

variable {cs rest : List Char} {c : Char}

theorem dropFraction_append (cs : List Char) : dropFraction (cs ++ ['.', '0']) = cs := by
  rw [dropFraction, if_pos (List.suffix_append _ _)]
  simp

theorem dropFraction_of_last (last : '0' ∉ cs.getLast?) : dropFraction cs = cs := by
  rw [dropFraction, if_neg]
  rintro ⟨front, rfl⟩
  exact last (by simp)

/-- What stands behind the last point is no zero alone. -/
theorem dropFraction_of_pointless (long : 2 ≤ rest.length) (pointless : '.' ∉ rest) :
    dropFraction (cs ++ rest) = cs ++ rest := by
  rw [dropFraction, if_neg]
  intro zero
  have inside := List.suffix_of_suffix_length_le zero (List.suffix_append cs rest) long
  exact pointless (inside.subset (.head _))

theorem trimFrom_append (none : 'e' ∉ cs) :
    trimFrom .elsewhere (cs ++ rest) = cs ++ trimFrom .elsewhere rest := by
  induction cs with
  | nil => rfl
  | cons c cs ih =>
    obtain ⟨first, others⟩ := not_or.1 (List.mem_cons.not.1 none)
    have still : Spot.next .elsewhere c = .elsewhere := by
      rw [Spot.next, if_neg (Ne.symm first), if_neg (by rintro ⟨⟨⟩, -⟩)]
    rw [List.cons_append, trimFrom, if_neg (by rintro ⟨⟨⟩, -⟩), still, ih others]
    rfl

theorem trimExponents_of_notMem (none : 'e' ∉ cs) : trimExponents cs = cs := by
  have whole : trimFrom .elsewhere (cs ++ []) = cs ++ trimFrom .elsewhere [] :=
    trimFrom_append none
  rwa [List.append_nil, trimFrom, List.append_nil] at whole

end Changes

/-! ## Texts of decimals -/

theorem isDigit_of_ascii {c : Char} (digit : IsAsciiDigit c) : Text.isDigit c = true := by
  obtain ⟨d, small, rfl⟩ := digit
  rw [Text.isDigit, digitValue?_digitChar small]
  rfl

theorem digitChar_eq_zero {d : ℕ} (small : d < 10) (zero : Text.digitChar d = '0') : d = 0 := by
  have all : ∀ d < 10, Text.digitChar d = '0' → d = 0 := by decide
  exact all d small zero

theorem e_notMem_decimal (n : ℕ) : 'e' ∉ Text.decimal n :=
  Numeral.e_notMem_map fun _ => Text.lt_of_mem_digits

/-- The digits of a number are left behind a sign. -/
theorem trimFrom_decimal (n : ℕ) : trimFrom .sign (Text.decimal n) = Text.decimal n := by
  have none := e_notMem_decimal n
  obtain ⟨c, cs, text, digit⟩ := decimal_eq_cons n
  rw [text] at none ⊢
  obtain ⟨first, others⟩ := not_or.1 (List.mem_cons.not.1 none)
  have behind : Spot.next .sign c = .elsewhere := by
    rw [Spot.next, if_neg (Ne.symm first), if_neg (by rintro ⟨⟨⟩, -⟩)]
  rw [trimFrom, if_neg, behind]
  · exact congrArg (c :: ·) (trimExponents_of_notMem others)
  · rintro ⟨-, rfl, more⟩
    -- only zero itself starts with a zero
    by_cases zero : n = 0
    · rw [zero, Text.decimal, Text.digits_of_lt (by decide)] at text
      cases text
      cases more
    · obtain ⟨d, leading, some⟩ := head?_digits zero
      have first : (Text.decimal n).head? = Option.some (Text.digitChar d) := by
        rw [Text.decimal, List.head?_map, leading]
        rfl
      rw [text] at first
      exact some (digitChar_eq_zero (Text.lt_of_mem_digits (List.mem_of_mem_head? leading))
        (Option.some.inj first).symm)

/-- The zeros that a number is filled up with are left out behind a sign. -/
theorem trimFrom_padded (width n : ℕ) : trimFrom .sign (Text.padded width n) = Text.decimal n := by
  rw [Text.padded]
  generalize width - (Text.digits n).length = k
  induction k with
  | zero => exact trimFrom_decimal n
  | succ k ih =>
    have digits : ∀ c ∈ List.replicate k '0' ++ Text.decimal n, IsAsciiDigit c := by
      intro c member
      rcases List.mem_append.1 member with zero | digit
      · exact ⟨0, by decide, List.eq_of_mem_replicate zero⟩
      · exact isAsciiDigit_of_mem_decimal digit
    have more : (List.replicate k '0' ++ Text.decimal n).head?.any Text.isDigit = true := by
      cases text : List.replicate k '0' ++ Text.decimal n with
      | nil =>
        exact absurd (List.append_eq_nil_iff.1 text).2 (decimal_ne_nil n)
      | cons c cs => exact isDigit_of_ascii (digits c (by rw [text]; exact .head _))
    rw [List.replicate_succ, List.cons_append, trimFrom, if_pos ⟨rfl, rfl, more⟩, ih]

namespace Layout

variable {l : Layout} {ds sign : List Char} {d : Decimal} {whole e : ℤ}

/-- Exponents lose the zeros that they are filled up with. -/
theorem trimExponents_exponentText (l : Layout) (e : ℤ) :
    trimExponents (l.exponentText e) = query.exponentText e := by
  have digits : Text.padded query.exponentWidth e.natAbs = Text.decimal e.natAbs := padded_one _
  rw [exponentText, exponentText, digits, ← trimFrom_padded l.exponentWidth]
  split <;> rfl

theorem length_exponentText (l : Layout) (e : ℤ) : 2 ≤ (l.exponentText e).length := by
  rw [exponentText, List.length_cons, List.length_cons]
  omega

theorem point_notMem_exponentText (l : Layout) (e : ℤ) : '.' ∉ l.exponentText e := by
  have digits : '.' ∉ Text.padded l.exponentWidth e.natAbs := fun member =>
    (isAsciiDigit_of_mem_padded member).ne (by decide) rfl
  have sign : '.' ≠ if e < 0 then '-' else '+' := by split <;> decide
  rw [exponentText, List.mem_cons, List.mem_cons, or_iff_right (by decide), or_iff_right sign]
  exact digits

/-- The layouts differ in the exponent only. -/
theorem exists_scientific (some : ds ≠ []) (e : ℤ) :
    ∃ front, (∀ l : Layout, l.scientific ds e = front ++ l.exponentText e) ∧
      ∀ c ∈ front, c ∈ ds ∨ c = '.' := by
  match ds with
  | [] => exact absurd rfl some
  | [c] => exact ⟨[c], fun l => rfl, fun x member => .inl member⟩
  | c :: d :: ds =>
    refine ⟨c :: '.' :: d :: ds, fun l => rfl, fun x member => ?_⟩
    simp only [List.mem_cons] at member ⊢
    tauto

/-- A text without an exponent loses a fraction that is only a zero, and no other digit. -/
theorem dropFraction_positional (sign : List Char) (some : ds ≠ []) (last : '0' ∉ ds.getLast?) :
    dropFraction (sign ++ shown.positional ds whole) = sign ++ query.positional ds whole := by
  have kept {front behind : List Char} (some : behind ≠ [])
      (last : '0' ∉ behind.getLast?) : dropFraction (front ++ behind) = front ++ behind := by
    refine dropFraction_of_last ?_
    rwa [List.getLast?_append_of_ne_nil _ some]
  unfold positional
  split
  · next lead =>
    rw [← List.append_assoc]
    exact kept some last
  · next positive =>
    split
    · have none : (if query.fractionZero = true then ['.', '0'] else []) = [] := rfl
      have zero : (if shown.fractionZero = true then ['.', '0'] else []) = ['.', '0'] := rfl
      rw [none, zero, List.append_nil, ← List.append_assoc sign]
      exact dropFraction_append _
    · next short =>
      have behind : ds.drop whole.toNat ≠ [] := by
        rw [ne_eq, List.drop_eq_nil_iff]
        omega
      have split : sign ++ (ds.take whole.toNat ++ '.' :: ds.drop whole.toNat) =
          (sign ++ (ds.take whole.toNat ++ ['.'])) ++ ds.drop whole.toNat := by simp
      rw [split]
      refine kept behind ?_
      rwa [List.getLast?_drop, if_neg (by omega)]

theorem trimExponents_scientific (some : ds ≠ []) (none : 'e' ∉ sign ++ ds) (e : ℤ) :
    trimExponents (dropFraction (sign ++ shown.scientific ds e)) =
      sign ++ query.scientific ds e := by
  obtain ⟨front, text, inside⟩ := exists_scientific some e
  have plain : 'e' ∉ sign ++ front := by
    rw [List.mem_append] at none ⊢
    rintro (member | member)
    · exact none (.inl member)
    · rcases inside _ member with digit | ⟨⟨⟩⟩
      exact none (.inr digit)
  rw [text, text, ← List.append_assoc, ← List.append_assoc,
    dropFraction_of_pointless (length_exponentText _ e) (point_notMem_exponentText _ e)]
  refine (trimFrom_append plain).trans ?_
  exact congrArg (sign ++ front ++ ·) (trimExponents_exponentText shown e)

theorem magnitude_of_inBand (some : d.coefficient ≠ 0) (band : l.InBand d) :
    l.magnitude d = l.positional (Text.decimal d.coefficient) (d.top + 1) := by
  rw [magnitude_eq_text, Text.decimal, positional_eq_text]
  rcases l.numeral_cases d with ⟨zero, -⟩ | ⟨-, -, form⟩ | ⟨-, outside, -⟩
  · exact absurd zero some
  · rw [form]
  · exact absurd band outside

theorem magnitude_of_not_inBand (some : d.coefficient ≠ 0) (outside : ¬ l.InBand d) :
    l.magnitude d = l.scientific (Text.decimal d.coefficient) d.top := by
  rw [magnitude_eq_text, Text.decimal, scientific_eq_text (digits_ne_nil _)]
  rcases l.numeral_cases d with ⟨zero, -⟩ | ⟨-, band, -⟩ | ⟨-, -, form⟩
  · exact absurd zero some
  · exact absurd band outside
  · rw [form]

end Layout

/-! ## Texts of numbers -/

namespace Binary64

variable {x : Binary64}

theorem write_eq_sign (l : Layout) (some : x.isZero = false) :
    l.write x = (if x.negative then ['-'] else []) ++ l.magnitude x.shortest := by
  rw [Layout.write, some, Bool.not_false, Bool.or_true, Bool.and_true]
  split <;> rfl

/-- An exponent stands in a text outside the band of its layout. -/
theorem e_mem_shown_iff (some : x.isZero = false) :
    'e' ∈ Layout.shown.write x ↔ ¬ Layout.shown.InBand x.shortest := by
  rw [← Number.text_shownNumeral, (Number.spelled_shownNumeral x).e_mem_text_iff]
  exact Layout.exponent_numeral_iff.trans (and_iff_right (coefficient_pos some).ne')

theorem e_mem_query_iff (some : x.isZero = false) :
    'e' ∈ Layout.query.write x ↔ ¬ Layout.query.InBand x.shortest := by
  have text : (Number.floatNumeral x).text = Layout.query.write x := Number.text_floatNumeral x
  rw [← text, (Number.spelled_floatNumeral x).e_mem_text_iff]
  exact Layout.exponent_numeral_iff.trans (and_iff_right (coefficient_pos some).ne')

/-- Every number that is shown without an exponent is written so in a query. -/
theorem inBand_of_shown (band : Layout.shown.InBand x.shortest) :
    Layout.query.InBand x.shortest :=
  ⟨le_trans (by decide) band.1, band.2.trans (by decide)⟩

theorem decimal_shownNumeral (some : x.isZero = false)
    (outside : ¬ Layout.shown.InBand x.shortest) :
    (Number.shownNumeral x).decimal = x.shortest := by
  have unsigned : (Number.shownNumeral x).decimal = (Layout.shown.numeral x.shortest).decimal := rfl
  rw [unsigned]
  rcases Layout.shown.numeral_cases x.shortest with ⟨zero, -⟩ | ⟨-, band, -⟩ | ⟨-, -, form⟩
  · exact absurd zero (coefficient_pos some).ne'
  · exact absurd band outside
  · have place : x.shortest.top - (Text.digits x.shortest.coefficient).length + 1 =
        x.shortest.exponent := by
      unfold Decimal.top
      ring
    rw [form, Layout.decimal_scientific (digits_ne_nil _), Text.ofDigits_digits, place]

/-- Numbers that are shown without an exponent differ in the fraction only. -/
theorem dropFraction_shown (some : x.isZero = false) (inside : Layout.shown.InBand x.shortest) :
    dropFraction (Layout.shown.write x) = Layout.query.write x := by
  have nonzero := (coefficient_pos some).ne'
  have last : '0' ∉ (Text.decimal x.shortest.coefficient).getLast? := by
    rw [Text.decimal, List.getLast?_map, getLast?_digits]
    intro zero
    exact coefficient_mod_ten some
      (digitChar_eq_zero (Nat.mod_lt _ (by decide)) (Option.some.inj zero))
  rw [write_eq_sign _ some, write_eq_sign _ some, Layout.magnitude_of_inBand nonzero inside,
    Layout.magnitude_of_inBand nonzero (inBand_of_shown inside)]
  exact Layout.dropFraction_positional _ (decimal_ne_nil _) last

/-- Numbers that have an exponent in a query differ in that only. -/
theorem trimExponents_shown (some : x.isZero = false)
    (outside : ¬ Layout.query.InBand x.shortest) :
    trimExponents (dropFraction (Layout.shown.write x)) = Layout.query.write x := by
  have nonzero := (coefficient_pos some).ne'
  have outside' : ¬ Layout.shown.InBand x.shortest := fun inside =>
    outside (inBand_of_shown inside)
  rw [write_eq_sign _ some, write_eq_sign _ some,
    Layout.magnitude_of_not_inBand nonzero outside', Layout.magnitude_of_not_inBand nonzero outside]
  refine Layout.trimExponents_scientific (decimal_ne_nil _) ?_ _
  rw [List.mem_append, or_iff_left (e_notMem_decimal _)]
  split <;> decide

/-- Within the band an exponent is written out. -/
theorem expandExponent_shown (some : x.isZero = false)
    (outside : ¬ Layout.shown.InBand x.shortest) (band : Layout.query.InBand x.shortest) :
    expandExponent (Layout.shown.write x) = Layout.query.write x := by
  have scanned : Numeral.scan? (Layout.shown.write x) = .some (Number.shownNumeral x) := by
    rw [← Number.text_shownNumeral]
    exact Numeral.scan?_text (Number.spelled_shownNumeral x)
  have sign : (Number.shownNumeral x).negative = x.negative := rfl
  have place : x.shortest.exponent + (Text.decimal x.shortest.coefficient).length =
      x.shortest.top + 1 := by
    rw [Text.decimal, List.length_map, Decimal.top]
    ring
  rw [write_eq_sign Layout.query some,
    Layout.magnitude_of_inBand (coefficient_pos some).ne' band, expandExponent, scanned]
  simp only [decimal_shownNumeral some outside, sign, place]

end Binary64

/-- The text of a number in a query is the respelled text that the number is shown as. -/
theorem Number.queryText_eq_respelled (x : Binary64) : (float x).queryText = x.respelled := by
  show Layout.query.write x = x.respelled
  unfold Binary64.respelled
  dsimp only
  cases zero : x.isZero with
  | true =>
    have sign : (x.negative && (Layout.query.signedZero || !true)) = false := Bool.and_false _
    rw [if_pos rfl, Layout.write, zero, sign, if_neg Bool.false_ne_true,
      Binary64.shortest_of_isZero zero, Layout.magnitude_zero rfl, Text.decimal,
      Text.digits_of_lt (by decide)]
    rfl
  | false =>
    have marked := Binary64.e_mem_shown_iff zero
    have bounds := Binary64.inBand_iff zero
    rw [if_neg Bool.false_ne_true]
    by_cases band : Layout.query.InBand x.shortest
    · have plain := trimExponents_of_notMem fun member =>
        (Binary64.e_mem_query_iff zero).1 member band
      by_cases inside : Layout.shown.InBand x.shortest
      · rw [if_neg fun both => marked.1 both.1 inside, Binary64.dropFraction_shown zero inside,
          plain]
      · rw [if_pos ⟨marked.2 inside, bounds.1 band⟩,
          Binary64.expandExponent_shown zero inside band, plain]
    · rw [if_neg fun both => band (bounds.2 both.2), Binary64.trimExponents_shown zero band]

end QueryTree
