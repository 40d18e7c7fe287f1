import QueryTree.Proofs.Readability.Token

/-!
# Leaves of the query language

The texts of leaves and ranges are tokens, and what a leaf or range says is found in its text.

* `IsToken`            : text that is read as one token
* `Literal.isToken`, `Range.isToken` : leaves and ranges
* `rangeText_injective` : what stands between brackets
* `Range.closed`, `Range.boundTexts` : all that the text of a range says
-/

namespace QueryTree

/-! ## Tokens -/

def isIdentChar (c : Char) : Bool :=
  c.isAlphanum || c == '_'

def openings : List Char :=
  ['+', '-', '(', ')', ' ']

/-- Text that is read as one token: it has no end inside, does not start like a composite tree, and
    not with the name of a field. -/
structure IsToken (t : List Char) : Prop where
  passes : Passes .outside t .outside
  start : ∃ c cs, t = c :: cs ∧ c ∉ openings
  noField : (t.dropWhile isIdentChar).head? ≠ some ':'

theorem IsAsciiDigit.isIdentChar {c : Char} (digit : IsAsciiDigit c) : isIdentChar c = true := by
  obtain ⟨d, small, rfl⟩ := digit
  have all : ∀ d < 10, QueryTree.isIdentChar (Text.digitChar d) = true := by decide
  exact all d small

theorem noField_of_start {c : Char} {cs : List Char} (other : isIdentChar c = false) (colon : c ≠ ':') :
    ((c :: cs).dropWhile isIdentChar).head? ≠ some ':' := by
  rw [List.dropWhile_cons_of_neg (by simp [other])]
  simpa using colon

/-! ## Numbers -/

theorem IsNumeralChar.ordinary {c : Char} (numeral : IsNumeralChar c) : c ∉ marks :=
  notMem_of_digit_or_sign numeral (by decide)

theorem IsNumeralChar.ne_colon {c : Char} (numeral : IsNumeralChar c) : c ≠ ':' := by
  rcases numeral with digit | sign
  · exact digit.ne (by decide)
  · rintro rfl
    revert sign
    decide

theorem passes_number (n : Number) (bracketed : Bool) :
    Passes ⟨false, bracketed⟩ n.queryText ⟨false, bracketed⟩ :=
  passes_ordinary (fun _ member => (Number.numeralChar_of_mem_queryText member).ordinary) bracketed

theorem Number.isToken {n : Number} (positive : n.isNegative = false) : IsToken n.queryText := by
  obtain ⟨c, cs, text, digit⟩ := queryText_eq_cons positive
  refine ⟨passes_number n false, ⟨c, cs, text, IsAsciiDigit.notMem digit (by decide)⟩, ?_⟩
  intro colon
  have member : ':' ∈ n.queryText :=
    (List.dropWhile_sublist isIdentChar).mem (List.mem_of_mem_head? colon)
  exact (numeralChar_of_mem_queryText member).ne_colon rfl

/-! ## Dates -/

theorem Moment.queryText_eq (m : Moment) :
    ∃ rest, m.queryText = Text.padded 4 m.civil.date.year ++ '-' :: rest := by
  refine ⟨Text.padded 2 m.civil.date.month ++ '-' :: Text.padded 2 m.civil.date.day ++ 'T' ::
    Moment.clockText m.civil ++ '.' :: Text.padded 3 (m.civil.micro / 1000) ++ ['Z'], ?_⟩
  simp [queryText, dateText]

theorem Moment.ordinary_queryText (m : Moment) : ∀ c ∈ m.queryText, c ∉ marks := fun c member =>
  notMem_of_digit_or_sign (m.digit_or_sign_of_mem_queryText c member) (by decide)

theorem passes_moment (m : Moment) (bracketed : Bool) :
    Passes ⟨false, bracketed⟩ m.queryText ⟨false, bracketed⟩ :=
  passes_ordinary m.ordinary_queryText bracketed

theorem Moment.isToken (m : Moment) : IsToken m.queryText := by
  obtain ⟨rest, text⟩ := m.queryText_eq
  obtain ⟨c, cs, year, digit⟩ := padded_eq_cons 4 m.civil.date.year
  refine ⟨passes_moment m false, ⟨c, cs ++ '-' :: rest, by rw [text, year]; rfl,
    IsAsciiDigit.notMem digit (by decide)⟩, ?_⟩
  have digits : ∀ c ∈ Text.padded 4 m.civil.date.year, isIdentChar c = true := fun _ member =>
    (isAsciiDigit_of_mem_padded member).isIdentChar
  -- the hyphen behind the year comes before the colons of the clock
  rw [text, List.dropWhile_append_of_pos digits]
  exact noField_of_start (by decide) (by decide)

/-! ## Patterns and strings -/

theorem noField_escapeGlob (cs : List Char) :
    ((Text.escapeGlob cs).dropWhile isIdentChar).head? ≠ some ':' := by
  induction cs with
  | nil => decide
  | cons c cs ih =>
    rw [Text.escapeGlob, Text.escape]
    split
    -- a colon would stand behind a backslash, at which no name goes on
    · exact noField_of_start (by decide) (by decide)
    · next plain =>
      by_cases ident : isIdentChar c = true
      · rw [List.dropWhile_cons_of_pos ident]
        exact ih
      · refine noField_of_start (by simpa using ident) ?_
        rintro rfl
        exact plain (by decide)

theorem escapeGlob_eq_cons {cs : List Char} (some : cs ≠ []) :
    ∃ c rest, Text.escapeGlob cs = c :: rest ∧ (c = '\\' ∨ Text.isGlobSpecial c = false) := by
  cases cs with
  | nil => exact absurd rfl some
  | cons c cs =>
    rw [Text.escapeGlob, Text.escape]
    split
    · exact ⟨'\\', _, rfl, .inl rfl⟩
    · next plain => exact ⟨c, _, rfl, .inr (by simpa using plain)⟩

theorem isToken_escapeGlob {cs : List Char} (some : cs ≠ []) : IsToken (Text.escapeGlob cs) := by
  obtain ⟨c, rest, text, start⟩ := escapeGlob_eq_cons some
  refine ⟨passes_escapeGlob cs, ⟨c, rest, text, ?_⟩, noField_escapeGlob cs⟩
  rcases start with rfl | plain
  · decide
  · have special : openings.all Text.isGlobSpecial = true := by decide
    exact notMem_of_all special plain

theorem isToken_quote (cs : List Char) : IsToken (Text.quote cs) :=
  ⟨passes_quote cs false, ⟨'"', _, rfl, by decide⟩, noField_of_start (by decide) (by decide)⟩

/-! ## Ranges -/

/-- A range is known by its brackets and the texts of its bounds. -/
theorem rangeText_injective {cl cu cl' cu' : Bool} {lower upper lower' upper' : List Char}
    (first : Passes .outside lower .outside) (first' : Passes .outside lower' .outside)
    (same : rangeText cl cu lower upper = rangeText cl' cu' lower' upper') :
    cl = cl' ∧ cu = cu' ∧ lower = lower' ∧ upper = upper' := by
  simp only [rangeText, List.cons_append, List.append_assoc, List.cons.injEq] at same
  obtain ⟨opening, inside⟩ := same
  -- the scanner stops behind the lower bounds, so both stand before the same blank
  have ends (rest : List Char) : Ends (" TO ".toList ++ rest) := by
    rintro c ⟨⟩
    exact .inl rfl
  have split := token_append first (ends (upper ++ [if cu then ']' else '\x7d']))
  rw [inside, token_append first' (ends _), Prod.mk.injEq] at split
  obtain ⟨rfl, rest⟩ := split
  obtain ⟨rfl, closing⟩ := List.append_inj' (List.append_cancel_left rest) rfl
  refine ⟨?_, ?_, rfl, rfl⟩
  · revert opening
    cases cl <;> cases cl' <;> decide
  · revert closing
    cases cu <;> cases cu' <;> decide

structure IsBound (t : List Char) : Prop where
  passes : ∀ bracketed, Passes ⟨false, bracketed⟩ t ⟨false, bracketed⟩
  present : t ≠ wildcard

theorem isBound_quote (cs : List Char) : IsBound (Text.quote cs) :=
  ⟨passes_quote cs, by rintro ⟨⟩⟩

theorem Number.isBound (n : Number) : IsBound n.queryText := by
  refine ⟨passes_number n, fun star => ?_⟩
  have member : '*' ∈ n.queryText := by rw [star]; exact .head _
  rcases numeralChar_of_mem_queryText member with digit | sign
  · exact digit.ne (by decide) rfl
  · revert sign
    decide

theorem Moment.isBound (m : Moment) : IsBound m.queryText := by
  refine ⟨passes_moment m, fun star => ?_⟩
  obtain ⟨rest, text⟩ := m.queryText_eq
  obtain ⟨c, cs, year, digit⟩ := padded_eq_cons 4 m.civil.date.year
  rw [text, year, wildcard, List.cons_append, List.cons.injEq] at star
  exact digit.ne (by decide) star.1

namespace Bounds

variable {α : Type}

/-- Which bounds belong to a range. -/
def closed (b : Bounds α) : Bool × Bool :=
  (b.closedLower, b.closedUpper)

/-- The texts of the bounds that a range has. -/
def boundTexts (write : α → List Char) (b : Bounds α) : Option (List Char) × Option (List Char) :=
  (b.span.lower?.map write, b.span.upper?.map write)

end Bounds

namespace Range

def closed : Range → Bool × Bool
  | .string b => b.closed
  | .number b => b.closed
  | .date b => b.closed

def boundTexts : Range → Option (List Char) × Option (List Char)
  | .string b => b.boundTexts fun s => Text.quote s.toList
  | .number b => b.boundTexts Number.queryText
  | .date b => b.boundTexts Moment.queryText

theorem text_eq (r : Range) :
    r.text = rangeText r.closed.1 r.closed.2 (r.boundTexts.1.getD wildcard)
      (r.boundTexts.2.getD wildcard) := by
  cases r <;> rfl

theorem isBound_of_mem (r : Range) :
    (∀ t ∈ r.boundTexts.1, IsBound t) ∧ ∀ t ∈ r.boundTexts.2, IsBound t := by
  have each {α : Type} {write : α → List Char} (writes : ∀ a, IsBound (write a)) (b : Bounds α) :
      (∀ t ∈ (b.boundTexts write).1, IsBound t) ∧ ∀ t ∈ (b.boundTexts write).2, IsBound t := by
    constructor
    all_goals
      intro t member
      obtain ⟨a, -, rfl⟩ := Option.map_eq_some_iff.1 member
      exact writes a
  cases r with
  | string b => exact each (fun s => isBound_quote s.toList) b
  | number b => exact each Number.isBound b
  | date b => exact each Moment.isBound b

theorem passes_bound {bound : Option (List Char)} (each : ∀ t ∈ bound, IsBound t)
    (bracketed : Bool) :
    Passes ⟨false, bracketed⟩ (bound.getD wildcard) ⟨false, bracketed⟩ := by
  cases bound with
  | none => exact passes_word (by decide) bracketed
  | some t => exact (each t rfl).passes bracketed

theorem bound_injective {bound bound' : Option (List Char)} (each : ∀ t ∈ bound, IsBound t)
    (each' : ∀ t ∈ bound', IsBound t) (same : bound.getD wildcard = bound'.getD wildcard) :
    bound = bound' := by
  cases bound with
  | none =>
    cases bound' with
    | none => rfl
    | some t' => exact absurd same.symm (each' t' rfl).present
  | some t =>
    cases bound' with
    | none => exact absurd same (each t rfl).present
    | some t' => exact congrArg some same

/-- Ranges with one text agree in all that the text says. -/
theorem text_injective {r r' : Range} (same : r.text = r'.text) :
    r.closed = r'.closed ∧ r.boundTexts = r'.boundTexts := by
  have bounds := r.isBound_of_mem
  have bounds' := r'.isBound_of_mem
  rw [text_eq, text_eq] at same
  obtain ⟨lower, upper, first, last⟩ := rangeText_injective (passes_bound bounds.1 false)
    (passes_bound bounds'.1 false) same
  exact ⟨Prod.ext lower upper, Prod.ext (bound_injective bounds.1 bounds'.1 first)
    (bound_injective bounds.2 bounds'.2 last)⟩

theorem text_eq_cons (r : Range) :
    ∃ c cs, r.text = c :: cs ∧ (c = '[' ∨ c = '\x7b') := by
  rw [text_eq]
  cases r.closed.1 with
  | false => exact ⟨'\x7b', _, rfl, .inr rfl⟩
  | true => exact ⟨'[', _, rfl, .inl rfl⟩

theorem isToken (r : Range) : IsToken r.text := by
  have bounds := r.isBound_of_mem
  obtain ⟨c, cs, text, start⟩ := r.text_eq_cons
  refine ⟨?_, ⟨c, cs, text, ?_⟩, ?_⟩
  · rw [text_eq]
    exact passes_rangeText _ _ (passes_bound bounds.1 true) (passes_bound bounds.2 true)
  · rcases start with rfl | rfl <;> decide
  · rw [text]
    rcases start with rfl | rfl <;> exact noField_of_start (by decide) (by decide)

end Range

end QueryTree
