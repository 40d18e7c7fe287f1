import QueryTree.Construct
import QueryTree.Proofs.Filters
import QueryTree.Proofs.MomentReading
import QueryTree.Proofs.Numbers.Reading

/-!
# Filters with texts for values

A filter over numbers or dates may give any of its values as the text that the value has in a
query: it is accepted as before, and the text of its tree stays the same.

* `Restated`, `RestatedFields` : values and their texts, in the fields of a filter
* `NumeralForm.restated`, `MomentForm.restated` : what a text is read as
* `Node.Alike`                 : trees that are written alike
* `Demanded.restated`, `FilterForm.restated` : the trees of filters
* `filterTree_restated`        : the adapter
-/

namespace QueryTree

variable {α : Type}

/-! ## Values and their texts -/

/-- A value of a filter, or the text of a number or date. -/
inductive Restated : OrderedKind → Value → Value → Prop where
  | same {kind : OrderedKind} (v : Value) : Restated kind v v
  | number {n : Number} {s : String} :
      (Value.ofNumber n).numberText = .ok s.toList → Restated .number (.ofNumber n) (.str s)
  | date {v : Value} {s : String} :
      v.isDate = true → v.dateText = .ok s.toList → Restated .date v (.str s)

/-- What is given for an operator: a value, or the values of a list or tuple. -/
inductive RestatedGiven (kind : OrderedKind) : Value → Value → Prop where
  | single {v w : Value} : Restated kind v w → RestatedGiven kind v w
  | list {vs ws : List Value} :
      List.Forall₂ (Restated kind) vs ws → RestatedGiven kind (.list vs) (.list ws)
  | tuple {vs ws : List Value} :
      List.Forall₂ (Restated kind) vs ws → RestatedGiven kind (.tuple vs) (.tuple ws)

/-- Fields of the same names with the same values, or texts of them. -/
def RestatedFields (kind : OrderedKind) : List (String × Value) → List (String × Value) → Prop :=
  List.Forall₂ fun f g => f.1 = g.1 ∧ RestatedGiven kind f.2 g.2

theorem Value.text?_ofNumber (n : Number) : (Value.ofNumber n).text? = none := by
  cases n <;> rfl

theorem Value.text?_of_isDate {v : Value} (date : v.isDate = true) : v.text? = none := by
  cases v <;> first | rfl | cases date

/-- Only what has no text by itself is restated. -/
theorem Restated.eq_of_text? {kind : OrderedKind} {v w : Value} (restated : Restated kind v w)
    {s : String} (said : v.text? = some s) : w = v := by
  cases restated with
  | same => rfl
  | number => cases (Value.text?_ofNumber _).symm.trans said
  | date date => cases (Value.text?_of_isDate date).symm.trans said

theorem RestatedFields.lookup {kind : OrderedKind} {fs gs : List (String × Value)}
    (restated : RestatedFields kind fs gs) (key : String) :
    Option.Rel (RestatedGiven kind) (fs.lookup key) (gs.lookup key) := by
  induction restated with
  | nil => exact .none
  | @cons f g fs gs field _ ih =>
    obtain ⟨k, v⟩ := f
    obtain ⟨k', w⟩ := g
    obtain ⟨rfl, given⟩ := field
    rw [List.lookup_cons, List.lookup_cons]
    cases key == k with
    | true => exact .some given
    | false => exact ih

theorem RestatedGiven.values {kind : OrderedKind} {v w : Value} (given : RestatedGiven kind v w)
    {fs gs : List (String × Value)} {key : String} (found : fs.lookup key = some v)
    (found' : gs.lookup key = some w) :
    List.Forall₂ (Restated kind) (givenValues key fs) (givenValues key gs) := by
  unfold givenValues
  rw [found, found']
  cases given with
  | single restated =>
    cases restated with
    | same => exact List.forall₂_same.2 fun x _ => .same x
    | @number n s text =>
      cases n <;> exact .cons (.number text) .nil
    | date date text =>
      cases v <;> first | exact .cons (.date date text) .nil | cases date
  | list all => exact all
  | tuple all => exact all

theorem RestatedFields.values {kind : OrderedKind} {fs gs : List (String × Value)}
    (restated : RestatedFields kind fs gs) (key : String) :
    List.Forall₂ (Restated kind) (givenValues key fs) (givenValues key gs) := by
  have fields := restated.lookup key
  generalize found : fs.lookup key = v? at fields
  generalize found' : gs.lookup key = w? at fields
  cases fields with
  | none =>
    unfold givenValues
    rw [found, found']
    exact .nil
  | some given => exact given.values found found'

/-! ## Reading texts -/

/-- The text of a number is a numeral for a number that is written alike. -/
theorem NumeralForm.restated {v w : Value} {n : Number} (form : NumeralForm v n)
    (restated : Restated .number v w) :
    ∃ m, NumeralForm w m ∧ m.queryText = n.queryText ∧ m.writable = n.writable := by
  cases restated with
  | same => exact ⟨n, form, rfl, rfl⟩
  | @number k s text =>
    have given : k = n := by
      cases form with
      | number form => cases k <;> cases form <;> rfl
      | numeral said => cases (Value.text?_ofNumber k).symm.trans said
    rw [given, Number.numberText_ofNumber] at text
    obtain ⟨writable, said⟩ : n.writable = true ∧ s.toList = n.queryText := by
      unfold written at text
      split at text
      · next writable => exact ⟨writable, (Except.ok.inj text).symm⟩
      · cases text
    obtain ⟨m, read, same, writable'⟩ := Number.read_queryText writable
    refine ⟨m, .numeral rfl ?_, same, writable'.trans writable.symm⟩
    rw [said]
    exact read

/-- The text of a date is one for a moment that is written alike. -/
theorem MomentForm.restated {v w : Value} {m : Moment} (form : MomentForm v m)
    (restated : Restated .date v w) : ∃ u, MomentForm w u ∧ u.queryText = m.queryText := by
  cases restated with
  | same => exact ⟨m, form, rfl⟩
  | @date v s date text =>
    have named : v.moment? = .ok m := by
      cases form with
      | date d => rfl
      | dateTime there => rw [Value.moment?, there]
      | text said => cases (Value.text?_of_isDate date).symm.trans said
    rw [Value.dateText, named] at text
    have said : s.toList = m.queryText := (Except.ok.inj text).symm
    have read := m.read_queryText (List.forall_mem_nil _) (List.forall_mem_nil _)
    rw [List.nil_append, List.append_nil] at read
    refine ⟨m.toMillis, .text rfl ?_, m.queryText_toMillis⟩
    rw [said]
    exact read

/-! ## Trees that are written alike -/

structure Node.Alike (m n : Node) : Prop where
  text : m.text = n.text
  writable : m.writable = n.writable

namespace Node.Alike

theorem refl (n : Node) : n.Alike n :=
  ⟨rfl, rfl⟩

theorem render_eq {m n : Node} (alike : m.Alike n) (formed : m.Formed) (formed' : n.Formed) :
    m.toValue.render = n.toValue.render := by
  rw [formed.render_eq, formed'.render_eq, alike.text, alike.writable]

theorem combine {c : Connective} {ms ns : List Node} (all : List.Forall₂ Node.Alike ms ns) :
    (Node.combine c ms).Alike (.combine c ns) := by
  have parts : Node.texts ms = Node.texts ns ∧ Node.writableList ms = Node.writableList ns := by
    induction all with
    | nil => exact ⟨rfl, rfl⟩
    | cons alike _ ih =>
      simp only [Node.texts, Node.writableList, alike.text, alike.writable, ih, and_self]
  exact ⟨congrArg c.text parts.1, parts.2⟩

/-- Numbers that are written alike are compared with alike. -/
theorem number {a b : Number} (text : a.queryText = b.queryText)
    (writable : a.writable = b.writable) (c : Comparison) :
    (c.member Literal.number Range.number a).Alike (c.member .number .number b) := by
  constructor
  · cases c <;>
      simp only [Comparison.member, Node.text, Literal.text, Range.text, Bounds.text, boundText,
        Span.lower?, Span.upper?, Option.map_some, Option.map_none, text]
  · cases c <;>
      simp only [Comparison.member, Node.writable, Literal.writable, Range.writable, Span.lower?,
        Span.upper?, Option.all_some, Option.all_none, writable]

theorem date {a b : Moment} (text : a.queryText = b.queryText) (c : Comparison) :
    (c.member Literal.date Range.date a).Alike (c.member .date .date b) := by
  constructor
  · cases c <;>
      simp only [Comparison.member, Node.text, Literal.text, Range.text, Bounds.text, boundText,
        Span.lower?, Span.upper?, Option.map_some, Option.map_none, text]
  · cases c <;> rfl

end Node.Alike

/-! ## The trees of filters -/

/-- What is demanded of a value is demanded alike of its text. -/
theorem Demand.restated {kind : OrderedKind} {form : Value → α → Prop} {literal : α → Literal}
    {range : Bounds α → Range}
    (forms : ∀ v w a, Restated kind v w → form v a →
      ∃ b, form w b ∧ ∀ c : Comparison, (c.member literal range a).Alike (c.member literal range b))
    {op : Operator} {v w : Value} {m : Node} (restated : Restated kind v w)
    (demand : Demand form literal range op v m) :
    ∃ n, Demand form literal range op w n ∧ m.Alike n := by
  cases op with
  | compare c =>
    obtain ⟨a, there, rfl⟩ := (demand_compare c v m).1 demand
    obtain ⟨b, there', alike⟩ := forms v w a restated there
    exact ⟨_, (demand_compare c w _).2 ⟨b, there', rfl⟩, alike c⟩
  | pattern =>
    obtain ⟨p, said, -⟩ := (demand_pattern v m).1 demand
    rw [restated.eq_of_text? said]
    exact ⟨m, demand, .refl m⟩

theorem Demanded.restated {kind : OrderedKind} {op : Operator} {v w : Value} {m : Node}
    (restated : Restated kind v w) (demanded : Demanded kind op v m) :
    ∃ n, Demanded kind op w n ∧ m.Alike n := by
  cases kind with
  | string =>
    refine Demand.restated (fun v w a restated there => ?_) restated demanded
    rw [restated.eq_of_text? there]
    exact ⟨a, there, fun c => .refl _⟩
  | number =>
    refine Demand.restated (fun v w a restated there => ?_) restated demanded
    obtain ⟨b, there', text, writable⟩ := there.restated restated
    exact ⟨b, there', .number text.symm writable.symm⟩
  | date =>
    refine Demand.restated (fun v w a restated there => ?_) restated demanded
    obtain ⟨b, there', text⟩ := there.restated restated
    exact ⟨b, there', .date text.symm⟩

theorem Alternatives.restated {kind : OrderedKind} {op : Operator} {vs ws : List Value}
    {part : Option Node} (restated : List.Forall₂ (Restated kind) vs ws)
    (alternatives : Alternatives (Demanded kind op) vs part) :
    ∃ part', Alternatives (Demanded kind op) ws part' ∧ Option.Rel Node.Alike part part' := by
  cases alternatives with
  | none =>
    cases restated
    exact ⟨Option.none, .none, .none⟩
  | some all =>
    have step (v w : Value) (m : Node) (restated : Restated kind v w) :
        Demanded kind op v m → ∃ n, Demanded kind op w n ∧ m.Alike n :=
      Demanded.restated restated
    obtain ⟨ns, all', alike⟩ := forall₂_transfer step all restated
    cases restated
    exact ⟨_, .some all', .some (.combine alike)⟩

/-- The tree of a filter with texts for values is written like that with the values. -/
theorem FilterForm.restated {kind : OrderedKind} {fs gs : List (String × Value)} {n : Node}
    (restated : RestatedFields kind fs gs) (form : FilterForm kind fs n) :
    ∃ m, FilterForm kind gs m ∧ n.Alike m := by
  obtain ⟨parts, families, rfl⟩ := form
  have operators : List.Forall₂ Eq (Operator.all kind) (Operator.all kind) :=
    List.forall₂_same.2 fun _ _ => rfl
  obtain ⟨parts', families', alike⟩ := forall₂_transfer
    (fun op op' part same alternatives => by
      obtain rfl : op = op' := same
      exact Alternatives.restated (restated.values op.name) alternatives)
    families operators
  exact ⟨_, ⟨parts', families', rfl⟩, .combine (forall₂_filterMap alike)⟩

/-! ## The adapter -/

/-- A filter with texts for some of its numbers and dates is accepted like the filter with the
    values, and the trees have one text. Filter objects may be made of the texts too. -/
theorem filterTree_restated {kind : OrderedKind} {fs gs : List (String × Value)} {n : Node}
    (accepted : filterTree kind (.mapping fs) = .ok (.accepted n))
    (restated : RestatedFields kind fs gs) :
    ∃ m, filterTree kind (.mapping gs) = .ok (.accepted m) ∧
      m.toValue.render = n.toValue.render ∧
      (n.writable = true → m.toValue.render = .ok n.text) ∧
      ∃ filter, Model.construct (.filter kind) gs = .ok filter ∧
        filterTree kind filter = .ok (.accepted m) := by
  have given := filterTree_eq_accepted.1 accepted
  obtain ⟨m, form, alike⟩ := given.restated restated
  have same := alike.render_eq given.formed form.formed
  refine ⟨m, filterTree_eq_accepted.2 form, same.symm, fun writable => ?_, ?_⟩
  · rw [← same, given.formed.render_toValue writable]
  · obtain ⟨f, read, rfl⟩ := Decoded.map_eq_done.1 (Filter.decode_tree_iff.2 form)
    refine ⟨f.toValue, ?_, Filter.filterTree_toValue read⟩
    have fields : Filter.ofFields kind gs = .done f := read
    rw [Model.construct, fields]
    rfl

/-- A whole number whose text is not its exact value, a zero with a sign, an integer and a number
    with an exponent. -/
def amountFields : List (String × Value) :=
  [("eq", .list [.float (.finite ⟨false, 2 ^ (52 : Nat), 17, by decide⟩),
      .float (.finite (.zero true)), .int (-5)]),
    ("gt", .float (.finite ⟨false, 7555786372591432, -76, by decide⟩))]

def amountTexts : List (String × Value) :=
  [("eq", .list [.str "590295810358705700000", .str "0", .str "-5"]), ("gt", .str "1e-7")]

theorem restatedFields_amount : RestatedFields .number amountFields amountTexts := by
  have great : (Value.float (.finite ⟨false, 2 ^ (52 : Nat), 17, by decide⟩)).numberText =
      .ok "590295810358705700000".toList := congrArg Except.ok (by decide +kernel)
  have zero : (Value.float (.finite (.zero true))).numberText = .ok "0".toList :=
    congrArg Except.ok (by decide +kernel)
  have negative : (Value.int (-5)).numberText = .ok "-5".toList := by
    rw [Value.numberText, Number.writableInt_of_small (by decide)]
    exact congrArg Except.ok (by decide +kernel)
  have small : (Value.float (.finite ⟨false, 7555786372591432, -76, by decide⟩)).numberText =
      .ok "1e-7".toList := congrArg Except.ok (by decide +kernel)
  exact .cons ⟨rfl, .list (.cons (.number (n := .float _) great)
    (.cons (.number (n := .float _) zero) (.cons (.number (n := .int _) negative) .nil)))⟩
    (.cons ⟨rfl, .single (.number (n := .float _) small)⟩ .nil)

/-- The last microsecond before noon of the 29th of February 2024, an hour ahead of UTC. -/
def noonFields : List (String × Value) :=
  [("glob", .str "2024*"),
    ("lte", .dateTime ⟨⟨738944 * microsPerDay + 43199999999, by decide⟩, some 3600000000⟩)]

def noonTexts : List (String × Value) :=
  [("glob", .str "2024*"), ("lte", .str "2024-02-29T10:59:59.999Z")]

theorem restatedFields_noon : RestatedFields .date noonFields noonTexts := by
  have text : (Value.dateTime ⟨⟨738944 * microsPerDay + 43199999999, by decide⟩,
      some 3600000000⟩).dateText = .ok "2024-02-29T10:59:59.999Z".toList :=
    congrArg Except.ok (by decide +kernel)
  exact .cons ⟨rfl, .single (.same _)⟩ (.cons ⟨rfl, .single (.date rfl text)⟩ .nil)

theorem filterTree_restated_amount_noon :
    (∃ n m, filterTree .number (.mapping amountFields) = .ok (.accepted n) ∧
      RestatedFields .number amountFields amountTexts ∧
      filterTree .number (.mapping amountTexts) = .ok (.accepted m) ∧
      m.toValue.render = n.toValue.render ∧ m.toValue.render =
        .ok "((590295810358705700000 OR 0 OR -5) AND (\x7b1e-7 TO *\x7d))".toList) ∧
    ∃ n m, filterTree .date (.mapping noonFields) = .ok (.accepted n) ∧
      RestatedFields .date noonFields noonTexts ∧
      filterTree .date (.mapping noonTexts) = .ok (.accepted m) ∧
      m.toValue.render = n.toValue.render ∧
      m.toValue.render = .ok "(([* TO 2024-02-29T10:59:59.999Z]) AND (2024*))".toList := by
  constructor
  · obtain ⟨m, accepted, same, text, -⟩ := filterTree_restated rfl restatedFields_amount
    refine ⟨_, m, rfl, restatedFields_amount, accepted, same, ?_⟩
    exact (text (by decide +kernel)).trans (congrArg Except.ok (by decide +kernel))
  · obtain ⟨m, accepted, same, text, -⟩ := filterTree_restated rfl restatedFields_noon
    refine ⟨_, m, rfl, restatedFields_noon, accepted, same, ?_⟩
    exact (text rfl).trans (congrArg Except.ok (by decide +kernel))

end QueryTree
