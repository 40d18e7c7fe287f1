import QueryTree.Proofs.Numbers.Reading
import QueryTree.Proofs.Readability.Leaf
import QueryTree.Proofs.Readability.Reader
import QueryTree.Proofs.Rendering

/-!
# Signs at the start of a query

Of all trees only modified ones and negative numbers start with a sign. So a text that starts with
a plus sign is that of a requirement, and one that starts with a minus sign that of a prohibition or
of a negative number.

* `Node.unwrapped`           : a tree without the wrappers around it
* `Node.unsigned`            : trees that start with no sign
* `Node.text_minus_iff`, `Node.text_plus_iff` : trees that start with one
* `Node.literal_of_text_number` : trees that are written like numbers
* `Node.render_modified_iff` : trees that are written like modified ones
-/

namespace QueryTree

/-! ## Wrappers -/

/-- A tree without the wrappers around it. -/
def Node.unwrapped : Node → Node
  | .term v => v.unwrapped
  | n => n

/-- All fields of a tree are names. -/
def Node.Named (n : Node) : Prop :=
  ∀ f v, Node.Within (.namedTerm f v) n → f.legible = true

/-! ## Starts of texts -/

theorem IsToken.unsigned {t : List Char} (token : IsToken t) :
    ∀ c ∈ t.head?, c ≠ '+' ∧ c ≠ '-' := by
  obtain ⟨c, cs, rfl, start⟩ := token.start
  rintro _ ⟨⟩
  constructor <;> rintro rfl <;> exact start (by decide)

theorem FieldName.head_eq_cons {f : FieldName} (legible : f.legible = true) :
    ∃ c cs, f.text.toList = c :: cs ∧ (c.isAlpha || c == '_') = true := by
  obtain ⟨first, -⟩ := Bool.and_eq_true_iff.1 legible
  cases text : f.text.toList with
  | nil =>
    rw [text] at first
    cases first
  | cons c cs =>
    rw [text] at first
    exact ⟨c, cs, rfl, first⟩

/-- Literals start with no sign, apart from negative numbers. -/
theorem Literal.unsigned (l : Literal) : (∃ a, l = .number a ∧ a.isNegative = true) ∨
    ∀ c ∈ l.text.head?, c ≠ '+' ∧ c ≠ '-' := by
  cases l with
  | string s => exact .inr (isToken_quote s.toList).unsigned
  | number n =>
    cases sign : n.isNegative with
    | true => exact .inl ⟨n, rfl, sign⟩
    | false => exact .inr (Number.isToken sign).unsigned
  | date m => exact .inr m.isToken.unsigned
  | glob p =>
    by_cases empty : p.toList = []
    · refine .inr ?_
      rw [text, empty]
      rintro c ⟨⟩
    · exact .inr (isToken_escapeGlob empty).unsigned
  | spatial p => exact .inr (isToken_quote p.text).unsigned

namespace Node

variable {n m : Node} {t : List Char}

/-- Trees start with no sign, apart from modified ones and negative numbers. -/
theorem unsigned (named : n.Named) :
    (∃ s k, n.unwrapped = .modify s k) ∨
      (∃ a, n.unwrapped = .literal (.number a) ∧ a.isNegative = true) ∨
      ∀ c ∈ n.text.head?, c ≠ '+' ∧ c ≠ '-' := by
  induction n using Node.induction with
  | literal l =>
    rcases l.unsigned with ⟨a, rfl, negative⟩ | other
    · exact .inr (.inl ⟨a, rfl, negative⟩)
    · exact .inr (.inr other)
  | range r => exact .inr (.inr r.isToken.unsigned)
  | term v ih => exact ih fun f w inside => named f w (.term inside)
  | namedTerm f v =>
    obtain ⟨c, cs, text, letter⟩ := FieldName.head_eq_cons (named f v .self)
    refine .inr (.inr ?_)
    rw [Node.text, fieldText, text]
    rintro _ ⟨⟩
    constructor <;> rintro rfl <;> revert letter <;> decide
  | combine c ns => exact .inr (.inr (by rintro _ ⟨⟩; decide))
  | modify s k => exact .inl ⟨s, k, rfl⟩
  | constant k boost => exact .inr (.inr (by rintro _ ⟨⟩; decide))

theorem text_unwrapped (n : Node) : n.unwrapped.text = n.text := by
  induction n using Node.induction with
  | term v ih => exact ih
  | _ => rfl

/-- What starts with a minus sign is a prohibition or a negative number. -/
theorem text_minus_iff (named : m.Named) : m.text = '-' :: t ↔
    (∃ k, m.unwrapped = .modify .prohibited k ∧ k.text = t) ∨
      ∃ a, m.unwrapped = .literal (.number a) ∧ a.isNegative = true ∧ a.abs.queryText = t := by
  rw [← text_unwrapped]
  constructor
  · intro text
    rcases unsigned named with ⟨s, k, form⟩ | ⟨a, form, negative⟩ | other
    · rw [form, Node.text] at text
      cases s with
      | not | required => cases text
      | prohibited => exact .inl ⟨k, form, (List.cons.inj text).2⟩
    · rw [form, Node.text, Literal.text, Number.queryText_negative negative] at text
      exact .inr ⟨a, form, negative, (List.cons.inj text).2⟩
    · exact absurd rfl (other '-' (by rw [← text_unwrapped, text]; rfl)).2
  · rintro (⟨k, form, rfl⟩ | ⟨a, form, negative, rfl⟩)
    · rw [form]
      rfl
    · rw [form, Node.text, Literal.text, Number.queryText_negative negative]

/-- What starts with a plus sign is a requirement. -/
theorem text_plus_iff (named : m.Named) : m.text = '+' :: t ↔
    ∃ k, m.unwrapped = .modify .required k ∧ k.text = t := by
  rw [← text_unwrapped]
  constructor
  · intro text
    rcases unsigned named with ⟨s, k, form⟩ | ⟨a, form, negative⟩ | other
    · rw [form, Node.text] at text
      cases s with
      | not | prohibited => cases text
      | required => exact ⟨k, form, (List.cons.inj text).2⟩
    · rw [form, Node.text, Literal.text, Number.queryText_negative negative] at text
      cases text
    · exact absurd rfl (other '+' (by rw [← text_unwrapped, text]; rfl)).1
  · rintro ⟨k, form, rfl⟩
    rw [form]
    rfl

/-- What starts with a digit, and has no colon behind it, is a number or a pattern. -/
theorem literal_of_digit (named : n.Named) {c : Char} (digit : IsAsciiDigit c)
    (first : c ∈ n.text.head?) (noColon : ':' ∉ n.text) :
    ∃ l, n.unwrapped = .literal l ∧ (l.kind = .number ∨ l.kind = .glob) := by
  -- a text that starts with another character starts with no digit
  have other {x : Char} (start : x ∈ n.text.head?) : Text.asciiDigit? x ≠ none := by
    rw [Option.mem_unique start first]
    exact fun none => digit.ne none rfl
  induction n using Node.induction with
  | literal l =>
    cases l with
    | number a => exact ⟨_, rfl, .inl rfl⟩
    | glob p => exact ⟨_, rfl, .inr rfl⟩
    | string s => exact absurd (by decide) (other (x := '"') rfl)
    | spatial p => exact absurd (by decide) (other (x := '"') rfl)
    | date m =>
      refine absurd ?_ noColon
      simp [Node.text, Literal.text, Moment.queryText, Moment.clockText]
  | range r =>
    obtain ⟨x, xs, text, bracket⟩ := r.text_eq_cons
    have start := other (x := x) (by rw [Node.text, text]; rfl)
    rcases bracket with rfl | rfl <;> exact absurd (by decide) start
  | term v ih => exact ih (fun f w inside => named f w (.term inside)) first noColon other
  | namedTerm f v =>
    obtain ⟨x, xs, text, letter⟩ := FieldName.head_eq_cons (named f v .self)
    have start : x ∈ (Node.namedTerm f v).text.head? := by
      rw [Node.text, fieldText, text]
      rfl
    obtain ⟨d, small, rfl⟩ := Option.mem_unique start first ▸ digit
    have all : ∀ d < 10, ((Text.digitChar d).isAlpha || Text.digitChar d == '_') = false := by
      decide
    rw [all d small] at letter
    cases letter
  | combine k ns => exact absurd (by decide) (other (x := '(') rfl)
  | modify s k =>
    cases s with
    | not => exact absurd (by decide) (other (x := '(') rfl)
    | required => exact absurd (by decide) (other (x := '+') rfl)
    | prohibited => exact absurd (by decide) (other (x := '-') rfl)
  | constant k boost => exact absurd (by decide) (other (x := '(') rfl)

/-- What is written like a number is a number or a pattern. -/
theorem literal_of_text_number {a : Number} (positive : a.isNegative = false) (named : n.Named)
    (text : n.text = a.queryText) :
    ∃ l, n.unwrapped = .literal l ∧ (l.kind = .number ∨ l.kind = .glob) := by
  obtain ⟨c, cs, number, digit⟩ := Number.queryText_eq_cons positive
  refine literal_of_digit named digit ?_ ?_
  · rw [text, number]
    rfl
  · rw [text]
    exact fun member => (Number.numeralChar_of_mem_queryText member).ne_colon rfl

/-! ## Prohibitions and requirements -/

/-- A modifier of a well-formed tree is rendered, whether or not there is room for one more. -/
theorem Formed.render_modify (formed : n.Formed) (writable : n.writable = true) (s : Modifier) :
    (Node.modify s n).toValue.render = .ok (s.text n.text) := by
  have rendered : (Node.modify s n).toValue.render = written n.writable (s.text n.text) := by
    refine render_of_leaves fun l within => ?_
    cases within with
    | modify inside => exact formed.leaf inside
  rw [rendered, writable]
  rfl

/-- A tree that is written like a prohibition is a prohibition, or it is a negative number and a
    number or pattern that is written like its absolute value is prohibited. A tree that is written
    like a requirement is a requirement. -/
theorem render_modified_iff (formed : n.Formed) (formed' : m.Formed) (writable : n.writable = true)
    (writable' : m.writable = true) (named : n.Named) (named' : m.Named) :
    ((Node.modify .prohibited n).toValue.render = m.toValue.render ↔
      (∃ k, m.unwrapped = .modify .prohibited k ∧ k.text = n.text) ∨
        ∃ a l, m.unwrapped = .literal (.number a) ∧ a.isNegative = true ∧
          n.unwrapped = .literal l ∧ (l.kind = .number ∨ l.kind = .glob) ∧
          l.text = a.abs.queryText) ∧
      ((Node.modify .required n).toValue.render = m.toValue.render ↔
        ∃ k, m.unwrapped = .modify .required k ∧ k.text = n.text) := by
  have texts (s : Modifier) : (Node.modify s n).toValue.render = .ok (s.text n.text) :=
    formed.render_modify writable s
  have prohibited := text_minus_iff (t := n.text) named'
  have required := text_plus_iff (t := n.text) named'
  rw [texts, texts, formed'.render_toValue writable', Except.ok.injEq, Except.ok.injEq]
  refine ⟨eq_comm.trans (prohibited.trans (or_congr_right ?_)), eq_comm.trans required⟩
  constructor
  · rintro ⟨a, form, negative, text⟩
    obtain ⟨l, literal, kind⟩ := literal_of_text_number a.isNegative_abs named text.symm
    refine ⟨a, l, form, negative, literal, kind, ?_⟩
    rw [text, ← text_unwrapped, literal]
    rfl
  · rintro ⟨a, l, form, negative, literal, -, text⟩
    refine ⟨a, form, negative, ?_⟩
    rw [← text, ← text_unwrapped n, literal]
    rfl

/-- A number in a field. -/
def ageFive : Node :=
  .namedTerm ⟨"age", by decide⟩ (.literal (.number (.int 5)))

theorem named_ageFive : ageFive.Named := by
  intro f v inside
  cases inside with
  | self => decide
  | namedTerm below => cases below

theorem render_modified_ageFive :
    ageFive.Formed ∧ ageFive.writable = true ∧ ageFive.Named ∧
      (Node.modify .prohibited ageFive).toValue.render =
        (Node.term (.modify .prohibited ageFive)).toValue.render ∧
      (Node.modify .required ageFive).toValue.render ≠
        (Node.term (.modify .prohibited ageFive)).toValue.render := by
  have formed : ageFive.Formed := formed_iff.2 (by decide)
  have formed' : (Node.term (.modify .prohibited ageFive)).Formed := formed_iff.2 (by decide)
  have writable : ageFive.writable = true := Number.writableInt_of_small (n := 5) (by decide)
  have named : (Node.term (.modify .prohibited ageFive)).Named := by
    intro f v inside
    cases inside with
    | term below =>
      cases below with
      | modify rhs => exact named_ageFive f v rhs
  obtain ⟨prohibited, required⟩ := render_modified_iff
    formed formed' writable writable named_ageFive named
  refine ⟨formed, writable, named_ageFive, prohibited.2 (.inl ⟨ageFive, rfl, rfl⟩), fun same => ?_⟩
  obtain ⟨k, form, -⟩ := required.1 same
  cases form

theorem named_literal (l : Literal) : (Node.literal l).Named := by
  rintro f v ⟨⟩

/-- A negative number is written like the prohibition of its absolute value. -/
theorem render_minusFive :
    (Node.modify .prohibited (.literal (.number (.int 5)))).toValue.render = .ok ['-', '5'] ∧
      (Node.literal (.number (.int (-5)))).toValue.render = .ok ['-', '5'] ∧
      ((Node.literal (.number (.int 5))).Formed ∧ (Node.literal (.number (.int (-5)))).Formed) ∧
      (Node.literal (.number (.int 5))).Named ∧ (Node.literal (.number (.int (-5)))).Named ∧
      ∀ k, (Node.literal (.number (.int (-5)))).unwrapped ≠ .modify .prohibited k := by
  have writable (n : Int) (small : n.natAbs < 10 ^ 21) :
      (Node.literal (.number (.int n))).writable = true :=
    Number.writableInt_of_small (n := n) small
  have five : Text.decimalInt 5 = ['5'] := by decide +kernel
  have minusFive : Text.decimalInt (-5) = ['-', '5'] := by decide +kernel
  have formed : (Node.literal (.number (.int 5))).Formed := formed_iff.2 (by decide)
  have formed' : (Node.literal (.number (.int (-5)))).Formed := formed_iff.2 (by decide)
  refine ⟨?_, ?_, ⟨formed, formed'⟩, named_literal _, named_literal _, by rintro k ⟨⟩⟩
  · rw [formed.render_modify (writable 5 (by decide))]
    exact congrArg (fun digits => Except.ok ('-' :: digits)) five
  · rw [formed'.render_toValue (writable (-5) (by decide))]
    exact congrArg Except.ok minusFive

end Node

end QueryTree
