import QueryTree.Proofs.MomentText
import QueryTree.Proofs.NumberText
import QueryTree.Proofs.Rendering
import QueryTree.Proofs.RoundTrip

/-!
# Delimiters

The brackets and quotes of a query are balanced, whatever its strings, patterns, numbers, dates and
geometries are.  The names of fields are written as they are, so that this rests on them.

* `Place`, `Place.scan` : what is open at a place of a text
* `Balanced`            : text that closes all that it opens, and nothing else
* `balanced_quote`, `balanced_escape`, `Balanced.intercalate` : parts of a query
* `Node.balanced_text`  : trees
* `toQuery_balanced`    : queries of untrusted values
-/

namespace QueryTree

/-! ## Places -/

inductive Bracket where
  -- around a group
  | round
  -- at an end of a range; the other end may have the other shape
  | range
  deriving DecidableEq, Repr

namespace Bracket

def opened? (c : Char) : Option Bracket :=
  if c = '(' then some .round else if c = '[' ∨ c = '\x7b' then some .range else none

def closed? (c : Char) : Option Bracket :=
  if c = ')' then some .round else if c = ']' ∨ c = '\x7d' then some .range else none

end Bracket

/-- What is open at a place of a text. -/
structure Place where
  quoted : Bool
  -- the brackets around the place, the innermost one first
  brackets : List Bracket
  deriving DecidableEq, Repr

namespace Place

def outside : Place := ⟨false, []⟩

def close (p : Place) (b : Bracket) : Option Place :=
  match p.brackets with
  | [] => none
  | a :: as => if a = b then some { p with brackets := as } else none

/-- The place behind a character that is not escaped. -/
def after (p : Place) (c : Char) : Option Place :=
  if c = '"' then some { p with quoted := !p.quoted }
  else if p.quoted then some p
  else
    match Bracket.opened? c, Bracket.closed? c with
    | some b, _ => some { p with brackets := b :: p.brackets }
    | none, some b => p.close b
    | none, none => some p

/-- The place behind a text: there is none if the text closes what is not open, or has nothing
    behind its last backslash. -/
def scan (p : Place) : List Char → Option Place
  | [] => some p
  | ['\\'] => none
  | '\\' :: _ :: cs => scan p cs
  | c :: cs => do scan (← p.after c) cs

end Place

/-- Text that closes all that it opens, and nothing else. -/
def Balanced (t : List Char) : Prop :=
  Place.outside.scan t = some .outside

instance (t : List Char) : Decidable (Balanced t) :=
  inferInstanceAs (Decidable (_ = _))

namespace Place

variable {p q : Place} {t u : List Char} {c : Char}

/-! ## Scanning -/

theorem scan_escaped (p : Place) (c : Char) (t : List Char) :
    p.scan ('\\' :: c :: t) = p.scan t := by
  rw [scan]

theorem scan_cons (p : Place) (t : List Char) (plain : c ≠ '\\') :
    p.scan (c :: t) = p.after c >>= fun q => q.scan t := by
  rw [scan]
  · rintro rfl
    exact absurd rfl plain
  · rintro d ds rfl
    exact absurd rfl plain

/-- A place inside further brackets. -/
def inside (p : Place) (around : List Bracket) : Place :=
  { p with brackets := p.brackets ++ around }

theorem close_inside {b : Bracket} (closes : p.close b = some q) (around : List Bracket) :
    (p.inside around).close b = some (q.inside around) := by
  obtain ⟨quoted, brackets⟩ := p
  cases brackets with
  | nil => cases closes
  | cons a as =>
    by_cases same : a = b
    · simp only [close, same, if_true, Option.some.injEq] at closes
      subst closes
      simp [close, inside, same]
    · simp [close, same] at closes

theorem after_inside (step : p.after c = some q) (around : List Bracket) :
    (p.inside around).after c = some (q.inside around) := by
  unfold after at step ⊢
  by_cases quote : c = '"'
  · rw [if_pos quote] at step ⊢
    cases step
    rfl
  · rw [if_neg quote] at step ⊢
    by_cases quoted : p.quoted = true
    · rw [if_pos quoted] at step
      rw [inside, if_pos quoted]
      cases step
      rfl
    · rw [if_neg quoted] at step
      rw [if_neg (by exact quoted)]
      cases opening : Bracket.opened? c with
      | some b =>
        rw [opening] at step
        cases step
        rfl
      | none =>
        cases closing : Bracket.closed? c with
        | none =>
          rw [opening, closing] at step
          cases step
          rfl
        | some b =>
          rw [opening, closing] at step
          exact close_inside step around

/-- What a text does at a place, it does inside further brackets and before further text. -/
theorem scan_append (front : p.scan t = some q) (around : List Bracket) (rest : List Char) :
    (p.inside around).scan (t ++ rest) = (q.inside around).scan rest := by
  induction p, t using scan.induct with
  | case1 p =>
    cases front
    rfl
  | case2 p => cases front
  | case3 p c cs ih =>
    rw [scan_escaped] at front
    exact ih front
  | case4 p c cs dangling escaping ih =>
    have plain : c ≠ '\\' := by
      rintro rfl
      cases cs with
      | nil => exact dangling rfl rfl
      | cons d ds => exact escaping d ds rfl rfl
    rw [scan_cons p cs plain] at front
    rw [List.cons_append, scan_cons _ _ plain]
    cases step : p.after c with
    | none =>
      rw [step] at front
      cases front
    | some r =>
      rw [step] at front
      rw [after_inside step around]
      exact ih r front

end Place

/-! ## Balanced text -/

namespace Place

theorem after_opening {c : Char} {b : Bracket} (opens : Bracket.opened? c = some b)
    (around : List Bracket) :
    c ≠ '\\' ∧ after ⟨false, around⟩ c = some ⟨false, b :: around⟩ := by
  have noQuote : c ≠ '"' := by
    rintro rfl
    cases opens
  refine ⟨?_, ?_⟩
  · rintro rfl
    cases opens
  · simp [after, noQuote, opens]

theorem after_closing {c : Char} {b : Bracket} (closes : Bracket.closed? c = some b)
    (around : List Bracket) :
    c ≠ '\\' ∧ after ⟨false, b :: around⟩ c = some ⟨false, around⟩ := by
  have noQuote : c ≠ '"' := by
    rintro rfl
    cases closes
  have noOpening : Bracket.opened? c = none := by
    unfold Bracket.closed? at closes
    split at closes
    · next same =>
      subst same
      rfl
    · split at closes
      · next same => rcases same with rfl | rfl <;> rfl
      · cases closes
  refine ⟨?_, ?_⟩
  · rintro rfl
    cases closes
  · simp [after, noQuote, noOpening, closes, close]

/-- Escaped text stays at a place wherever the other characters do. -/
theorem scan_escape {p : Place} {special : Char → Bool}
    (other : ∀ c, special c = false → c ≠ '\\' ∧ p.after c = some p) (cs rest : List Char) :
    p.scan (Text.escape special cs ++ rest) = p.scan rest := by
  induction cs with
  | nil => rfl
  | cons c cs ih =>
    rw [Text.escape]
    split
    -- an escaped character says nothing, whichever it is
    · rw [List.cons_append, List.cons_append, scan_escaped, ih]
    · next plain =>
      obtain ⟨unescaped, stays⟩ := other c (by simpa using plain)
      rw [List.cons_append, scan_cons p _ unescaped, stays]
      exact ih

end Place

namespace Balanced

variable {t u : List Char}

/-- Behind balanced text the same is open as before it. -/
theorem scan_append (balanced : Balanced t) (around : List Bracket) (rest : List Char) :
    Place.scan ⟨false, around⟩ (t ++ rest) = Place.scan ⟨false, around⟩ rest :=
  Place.scan_append balanced around rest

theorem append (first : Balanced t) (second : Balanced u) : Balanced (t ++ u) := by
  rw [Balanced, Place.outside, first.scan_append]
  exact second

theorem enclosed {c d : Char} {b : Bracket} (balanced : Balanced t)
    (opens : Bracket.opened? c = some b) (closes : Bracket.closed? d = some b) :
    Balanced (c :: t ++ [d]) := by
  obtain ⟨unescaped, opening⟩ := Place.after_opening opens []
  obtain ⟨unescaped', closing⟩ := Place.after_closing closes []
  rw [Balanced, Place.outside, List.cons_append, Place.scan_cons _ _ unescaped, opening]
  show Place.scan ⟨false, [b]⟩ (t ++ [d]) = _
  rw [balanced.scan_append, Place.scan_cons _ _ unescaped', closing]
  rfl

theorem intercalate {between : List Char} {ts : List (List Char)} (separates : Balanced between)
    (each : ∀ t ∈ ts, Balanced t) : Balanced (List.intercalate between ts) := by
  induction ts with
  | nil => rfl
  | cons t ts ih =>
    have rest := ih fun u member => each u (.tail _ member)
    cases ts with
    | nil => simpa [List.intercalate] using each t (.head _)
    | cons u us =>
      rw [List.intercalate_cons_cons]
      exact ((each t (.head _)).append separates).append rest

end Balanced

/-! ## Leaves and ranges -/

def delimiters : List Char :=
  ['\\', '"', '(', ')', '[', ']', '\x7b', '\x7d']

theorem Place.after_plain {c : Char} (plain : c ∉ delimiters) (p : Place) :
    c ≠ '\\' ∧ p.after c = some p := by
  simp only [delimiters, List.mem_cons, List.not_mem_nil, or_false, not_or] at plain
  obtain ⟨unescaped, quote, opening, closing, square, endSquare, curly, endCurly⟩ := plain
  refine ⟨unescaped, ?_⟩
  simp [after, Bracket.opened?, Bracket.closed?, quote, opening, closing, square, endSquare, curly,
    endCurly]

theorem balanced_escape {special : Char → Bool} (all : delimiters.all special = true)
    (cs : List Char) : Balanced (Text.escape special cs) := by
  have scanned := Place.scan_escape (p := .outside)
    (fun c plain => Place.after_plain (notMem_of_all all plain) .outside) cs []
  rwa [List.append_nil] at scanned

theorem balanced_plain {t : List Char} (each : ∀ c ∈ t, c ∉ delimiters) : Balanced t := by
  induction t with
  | nil => rfl
  | cons c t ih =>
    obtain ⟨unescaped, stays⟩ := Place.after_plain (each c (.head _)) .outside
    rw [Balanced, Place.scan_cons _ _ unescaped, stays]
    exact ih fun d member => each d (.tail _ member)

theorem balanced_quote (cs : List Char) : Balanced (Text.quote cs) := by
  -- inside quotes only quotes and backslashes have a meaning, and both are escaped
  have stays : ∀ c, Text.isQuotedSpecial c = false →
      c ≠ '\\' ∧ Place.after ⟨true, []⟩ c = some ⟨true, []⟩ := by
    intro c plain
    simp only [Text.isQuotedSpecial, Bool.or_eq_false_iff, beq_eq_false_iff_ne] at plain
    exact ⟨plain.2, by simp [Place.after, plain.1]⟩
  show Place.scan ⟨true, []⟩ (Text.escape Text.isQuotedSpecial cs ++ ['"']) = _
  rw [Place.scan_escape stays]
  rfl

theorem Number.balanced (n : Number) : Balanced n.queryText :=
  balanced_plain fun _ member =>
    notMem_of_digit_or_sign (numeralChar_of_mem_queryText member) (by decide)

theorem Moment.balanced (m : Moment) : Balanced m.queryText :=
  balanced_plain fun c member =>
    notMem_of_digit_or_sign (m.digit_or_sign_of_mem_queryText c member) (by decide)

theorem Literal.balanced (l : Literal) : Balanced l.text := by
  cases l with
  | string s => exact balanced_quote s.toList
  | number n => exact n.balanced
  | date m => exact m.balanced
  | glob p => exact balanced_escape (by decide) p.toList
  | spatial p => exact balanced_quote p.text

theorem Bounds.balanced {α : Type} {write : α → List Char} (writes : ∀ a, Balanced (write a))
    (b : Bounds α) : Balanced (b.text write) := by
  have each (bound : Option α) : Balanced (boundText write bound) := by
    cases bound with
    | none => exact (by decide : Balanced wildcard)
    | some a => exact writes a
  have between : Balanced " TO ".toList := by decide
  have inside := ((each b.span.lower?).append between).append (each b.span.upper?)
  have opens : Bracket.opened? (if b.closedLower then '[' else '\x7b') = some .range := by
    cases b.closedLower <;> rfl
  have closes : Bracket.closed? (if b.closedUpper then ']' else '\x7d') = some .range := by
    cases b.closedUpper <;> rfl
  exact inside.enclosed opens closes

theorem Range.balanced (r : Range) : Balanced r.text := by
  cases r with
  | string b =>
    have writes (s : String) : Balanced (Text.quote s.toList) := balanced_quote s.toList
    exact Bounds.balanced writes b
  | number b => exact Bounds.balanced Number.balanced b
  | date b => exact Bounds.balanced Moment.balanced b

/-! ## Trees -/

/-- A field name that opens and closes nothing around the colon behind it. -/
def FieldName.Balanced (f : FieldName) : Prop :=
  QueryTree.Balanced (f.text.toList ++ [':'])

instance (f : FieldName) : Decidable f.Balanced :=
  inferInstanceAs (Decidable (QueryTree.Balanced _))

theorem Connective.balanced (c : Connective) {ts : List (List Char)} (each : ∀ t ∈ ts, Balanced t) :
    Balanced (c.text ts) := by
  have separates : Balanced (' ' :: c.word.toList ++ [' ']) := by
    cases c <;> decide
  exact (Balanced.intercalate separates each).enclosed rfl rfl

theorem Modifier.balanced (m : Modifier) {t : List Char} (below : Balanced t) :
    Balanced (m.text t) := by
  cases m with
  | not =>
    have word : Balanced "NOT ".toList := by decide
    exact (word.append below).enclosed rfl rfl
  | required =>
    have sign : Balanced ['+'] := by decide
    exact sign.append below
  | prohibited =>
    have sign : Balanced ['-'] := by decide
    exact sign.append below

theorem balanced_fieldText {f : FieldName} {t : List Char} (name : f.Balanced)
    (below : Balanced t) : Balanced (fieldText f.text.toList t) := by
  have whole := name.append below
  rwa [List.append_assoc] at whole

theorem balanced_boostText {t boost : List Char} (below : Balanced t) (number : Balanced boost) :
    Balanced (boostText t boost) := by
  have sign : Balanced "^=".toList := by decide
  have whole := ((below.enclosed (c := '(') (d := ')') rfl rfl).append sign).append number
  simpa [boostText] using whole

/-- The text of a tree is balanced if the names of its fields are. -/
theorem Node.balanced_text {n : Node} (names : ∀ f v, Within (.namedTerm f v) n → f.Balanced) :
    Balanced n.text := by
  induction n using Node.induction with
  | literal l => exact l.balanced
  | range r => exact r.balanced
  | term v ih => exact ih fun f w part => names f w (.term part)
  | namedTerm f v ih =>
    exact balanced_fieldText (names f v .self) (ih fun g w part => names g w (.namedTerm part))
  | combine c ns ih =>
    refine c.balanced fun t member => ?_
    rw [texts_eq_map] at member
    obtain ⟨n, operand, rfl⟩ := List.mem_map.1 member
    exact ih n operand fun f w part => names f w (.operand operand part)
  | modify m n ih => exact m.balanced (ih fun f w part => names f w (.modify part))
  | constant n boost ih =>
    exact balanced_boostText (ih fun f w part => names f w (.constant part)) boost.balanced

/-! ## Queries -/

/-- The text of a query is balanced, whatever is in the value that it was made from, if the names of
    the fields in it are: these are written as they are, and a colon behind them.  All other text
    stays in its place. -/
theorem toQuery_balanced {limit : Int} {v : Value} {text : String}
    (accepted : toQuery limit v = .ok (.accepted text))
    (names : ∀ n f w, Node.decode v = .done n → Node.Within (.namedTerm f w) n → f.Balanced) :
    Balanced text.toList := by
  obtain ⟨n, checked, -, rfl⟩ := toQuery_eq_accepted.1 accepted
  obtain ⟨-, read, -⟩ := checkValue_eq_accepted.1 checked
  rw [String.toList_ofList]
  exact Node.balanced_text fun f w part => names n f w read part

/-- A term for text in a field. -/
def Node.textInField (f : FieldName) (text : String) : Node :=
  .namedTerm f (.literal (.string text))

theorem Node.formed_textInField (f : FieldName) (text : String) : (textInField f text).Formed := by
  refine formed_iff.2 ?_
  show 3 ≤ readerLimit
  decide

/-- The same in the form of untrusted values. -/
def textInField (field text : String) : Value :=
  .mapping [("type", .str "namedterm"), ("field", .str field), ("value",
    .mapping [("type", .str "literal"), ("kind", .str "string"), ("value", .str text)])]

theorem textInField_eq_dump (f : FieldName) (text : String) :
    textInField f.text text = (Node.textInField f text).toValue.dump := rfl

/-- A field and a text in it are written one behind the other, whatever they are. -/
theorem toQuery_textInField (f : FieldName) (text : String) :
    toQuery 200 (textInField f.text text) =
      .ok (.accepted (String.ofList (Node.textInField f text).text)) := by
  have deep : ((Node.textInField f text).toValue.nest : Int) ≤ 200 := by
    show ((2 : Nat) : Int) ≤ 200
    decide
  have formed := Node.formed_textInField f text
  refine toQuery_eq_accepted.2 ⟨_, ?_, rfl, rfl⟩
  rw [textInField_eq_dump, validateElement, checkValue_dump formed, checkValue_toValue formed deep]
  rfl

/-- Text with quotes and brackets stays in its place. -/
theorem toQuery_balanced_text :
    Balanced (String.ofList (Node.textInField ⟨"f", by decide⟩ "\") OR (\"").text).toList := by
  refine toQuery_balanced (toQuery_textInField ⟨"f", by decide⟩ _) fun n f w read part => ?_
  rw [textInField_eq_dump, (Node.formed_textInField _ _).decode_dump] at read
  cases read
  cases part with
  | self => decide
  | namedTerm below => cases below

/-- The name of a field does not. -/
theorem toQuery_unbalanced :
    toQuery 200 (textInField "x) OR (y" "lion") = .ok (.accepted "x) OR (y:\"lion\"") ∧
      ¬ Balanced "x) OR (y:\"lion\"".toList := by
  have text : String.ofList (Node.textInField ⟨"x) OR (y", by decide⟩ "lion").text =
      "x) OR (y:\"lion\"" := by decide
  refine ⟨?_, by decide⟩
  rw [toQuery_textInField ⟨"x) OR (y", by decide⟩ "lion", text]

end QueryTree
