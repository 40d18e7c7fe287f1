import QueryTree.Proofs.Outcomes

/-!
# Faults of flat filters

A filter means the values that are given for its operators and nothing else: their order among the
keys, unknown keys and the form of a list play no part.  It is refused exactly if one of the values
is not what its operator wants, and then for all such values at once.

* `Objection`, `Operator.objections` : what is wrong with a value of an operator
* `listedFaults`                     : the faults of all values that are given
* `decodeFamily_eq`, `Filter.decode_congr` : a filter is read from its values
* `Filter.decode_faults`             : the faults of a filter, in their order
* `exists_filterForm_iff`            : filters that stand for a tree
* `filterTree_listed`                : the adapter on values
* `filterTree_unlisted`              : values that keep it from naming the others
-/

namespace QueryTree

variable {α β γ : Type}

/-! ## What is wrong with a value -/

/-- A reason why a value is not what is wanted, with the way to the attempt that failed. -/
structure Objection where
  path : Path
  cause : Cause
  deriving DecidableEq, Repr

def Objection.toFault (o : Objection) (v : Value) : Fault :=
  ⟨o.path, o.cause, v⟩

/-- A value that should be text. -/
def textObjections (v : Value) : List Objection :=
  match v.text? with
  | some _ => []
  | none => [⟨[], .notString⟩]

/-- A value that should be a number or a numeral.  Of what is neither, both ways to be a number are
    denied. -/
def numberObjections (v : Value) : List Objection :=
  match v.text? with
  | some s =>
    match Number.read s.toList with
    | .ok _ => []
    | .error .unreadable => [⟨[], .unreadableNumber⟩]
    | .error (.tooManyDigits count) => [⟨[], .tooManyDigits count⟩]
  | none =>
    match v with
    | .int _ | .float (.finite _) => []
    | .float _ => [⟨[], .notFinite⟩]
    | .bool _ => [⟨[], .boolNumber⟩]
    | _ => [⟨[.tag "int"], .notInteger⟩, ⟨[.tag "float"], .notFloat⟩]

/-- A value that should be a date, a reading of a clock or ISO text.  A text that names a moment
    outside the calendar is none to object to. -/
def dateObjections (v : Value) : List Objection :=
  match v.text? with
  | some s => if Moment.read s.toList = .error .unreadable then [⟨[], .unreadableDate⟩] else []
  | none =>
    match v with
    | .date _ | .dateTime _ => []
    | _ => [⟨[], .notDate⟩]

/-- A value to compare with. -/
def OrderedKind.objections : OrderedKind → Value → List Objection
  | .string => textObjections
  | .number => numberObjections
  | .date => dateObjections

def Operator.objections (kind : OrderedKind) : Operator → Value → List Objection
  | .compare _ => kind.objections
  | .pattern => textObjections

/-- The faults of the values given for an operator, each in its place. -/
def Operator.faults (kind : OrderedKind) (op : Operator) (vs : List Value) : List Fault :=
  vs.zipIdx.flatMap fun (v, i) =>
    (op.objections kind v).map fun o => ⟨.field op.name :: .index i :: o.path, o.cause, v⟩

/-- The faults of the values that a filter gives: operator by operator in their fixed order, and
    value by value. -/
def listedFaults (kind : OrderedKind) (fs : List (String × Value)) : List Fault :=
  (Operator.all kind).flatMap fun op => op.faults kind (givenValues op.name fs)

/-! ## Reading values -/

theorem textObjections_spec (v : Value) :
    (decodeString v).faults = (textObjections v).map (·.toFault v) := by
  unfold decodeString textObjections
  cases v.text? <;> rfl

theorem numberObjections_spec (v : Value) :
    (Number.decodeInput v).faults = (numberObjections v).map (·.toFault v) := by
  unfold Number.decodeInput numberObjections
  cases v.text? with
  | some s =>
    dsimp only
    cases Number.read s.toList with
    | ok n => rfl
    | error e => cases e <;> rfl
  | none =>
    cases v with
    | float x => cases x <;> rfl
    | _ => rfl

theorem dateObjections_spec (v : Value) :
    (Moment.decode v).faults = (dateObjections v).map (·.toFault v) := by
  unfold Moment.decode dateObjections
  split
  · rfl
  · next t => cases t.utc? <;> simp [Value.text?, Decoded.faults]
  · next notDay notClock =>
    cases said : v.text? with
    | some s =>
      dsimp only
      cases Moment.read s.toList with
      | ok m => rfl
      | error e => cases e <;> rfl
    | none =>
      cases v with
      | date d => exact absurd rfl (notDay d)
      | dateTime t => exact absurd rfl (notClock t)
      | _ => rfl

/-! ## Reading families -/

section Families

variable {read : Value → Decoded α} {fs gs : List (String × Value)}

/-- An operator is read from the values that are given for it. -/
theorem decodeFamily_eq (read : Value → Decoded α) (key : String) (fs : List (String × Value)) :
    decodeFamily read key fs =
      (decodeSequence 0 read (.list (givenValues key fs))).under (.field key) := by
  rcases decodeFamily_cases read key fs with ⟨given, done⟩ | ⟨v, -, given, family⟩
  · rw [done, given]
    rfl
  · rw [family, given, decodeSequence, items?_listed]
    simp only [decodeSequence, Value.items?, Gathered.atLeast_zero]

theorem decodeFamilies_congr {cs : List Comparison}
    (same : ∀ c ∈ cs, givenValues c.name fs = givenValues c.name gs) :
    decodeFamilies read fs cs = decodeFamilies read gs cs := by
  induction cs with
  | nil => rfl
  | cons c cs ih =>
    have first : decodeFamily read c.name fs = decodeFamily read c.name gs := by
      rw [decodeFamily_eq, decodeFamily_eq, same c (.head _)]
    rw [decodeFamilies, decodeFamilies, first, ih fun d member => same d (.tail _ member)]

/-- The operators of a filter, which may have patterns. -/
def Operator.listed (patterned : Bool) : List Operator :=
  Comparison.all.map .compare ++ if patterned then [.pattern] else []

theorem Families.decode_congr {patterned : Bool}
    (same : ∀ op ∈ Operator.listed patterned, givenValues op.name fs = givenValues op.name gs) :
    Families.decode read patterned fs = Families.decode read patterned gs := by
  have compared : decodeFamilies read fs Comparison.all = decodeFamilies read gs Comparison.all :=
    decodeFamilies_congr fun c member =>
      same (.compare c) (List.mem_append_left _ (List.mem_map_of_mem member))
  rw [decode, decode, compared]
  cases patterned with
  | false => rfl
  | true =>
    have patterns : givenValues patternOperator fs = givenValues patternOperator gs :=
      same .pattern (List.mem_append_right _ (.head _))
    simp only [if_true, decodeFamily_eq, patterns]

section Faults

variable {kind : OrderedKind}
  (reads : ∀ v, (read v).faults = (kind.objections v).map (·.toFault v))

theorem decodeFamily_faults (op : Operator)
    (refuses : ∀ v, (read v).faults = (op.objections kind v).map (·.toFault v))
    (inside : decodeFamily read op.name fs ≠ .outsideCalendar) :
    (decodeFamily read op.name fs).faults = op.faults kind (givenValues op.name fs) := by
  rw [decodeFamily_eq] at inside ⊢
  have within : (gather read 0 (givenValues op.name fs)).outside = false := by
    simpa [decodeSequence, Value.items?, Gathered.atLeast_eq_outside] using inside
  simp only [Decoded.faults_under, decodeSequence, Value.items?, Gathered.atLeast_zero, within,
    Bool.false_eq_true, if_false, Decoded.faults_ofFaults, gather_faults, refuses,
    List.map_flatMap, List.map_map, Operator.faults]
  rfl

include reads

theorem decodeFamilies_faults {cs : List Comparison}
    (inside : decodeFamilies read fs cs ≠ .outsideCalendar) :
    (decodeFamilies read fs cs).faults =
      (cs.map Operator.compare).flatMap fun op => op.faults kind (givenValues op.name fs) := by
  induction cs with
  | nil => rfl
  | cons c cs ih =>
    rw [decodeFamilies] at inside ⊢
    rw [Decoded.faults_combine inside]
    rw [ne_eq, Decoded.combine_eq_outside, not_or] at inside
    have first := decodeFamily_faults (.compare c) reads inside.1
    rw [ih inside.2, List.map_cons, List.flatMap_cons, ← first]
    rfl

theorem Families.decode_faults {patterned : Bool}
    (inside : Families.decode read patterned fs ≠ .outsideCalendar) :
    (Families.decode read patterned fs).faults =
      (Operator.listed patterned).flatMap fun op => op.faults kind (givenValues op.name fs) := by
  rw [decode] at inside ⊢
  rw [Decoded.faults_combine inside]
  rw [ne_eq, Decoded.combine_eq_outside, not_or] at inside
  rw [decodeFamilies_faults reads inside.1, Operator.listed, List.flatMap_append]
  congr 1
  cases patterned with
  | false => rfl
  | true =>
    rw [if_pos rfl, if_pos rfl, List.flatMap_singleton]
    exact decodeFamily_faults .pattern textObjections_spec inside.2

end Faults

end Families

/-! ## Reading filters -/

namespace Filter

variable {kind : OrderedKind} {fs gs : List (String × Value)}

theorem decode_congr
    (same : ∀ op ∈ Operator.all kind, givenValues op.name fs = givenValues op.name gs) :
    decode kind (.mapping fs) = decode kind (.mapping gs) := by
  cases kind with
  | string =>
    have families : Families.decode decodeString true fs = Families.decode decodeString true gs :=
      Families.decode_congr same
    rw [decode, decode, ofFields, ofFields, families]
  | number =>
    have families : Families.decode Number.decodeInput false fs =
        Families.decode Number.decodeInput false gs := Families.decode_congr same
    rw [decode, decode, ofFields, ofFields, families]
  | date =>
    have families : Families.decode Moment.decode true fs = Families.decode Moment.decode true gs :=
      Families.decode_congr same
    rw [decode, decode, ofFields, ofFields, families]

/-- The faults of a filter are those of its values, in their order. -/
theorem decode_faults (inside : decode kind (.mapping fs) ≠ .outsideCalendar) :
    (decode kind (.mapping fs)).faults = listedFaults kind fs := by
  have families {β : Type} {d : Decoded (Families β)} {make : Families β → Filter}
      (made : decode kind (.mapping fs) = d.map make)
      (faults : d ≠ .outsideCalendar → d.faults = listedFaults kind fs) :
      (decode kind (.mapping fs)).faults = listedFaults kind fs := by
    rw [made, ne_eq, Decoded.map_eq_outside] at inside
    rw [made, Decoded.faults_map]
    exact faults inside
  cases kind with
  | string => exact families rfl (Families.decode_faults textObjections_spec)
  | number => exact families rfl (Families.decode_faults numberObjections_spec)
  | date => exact families rfl (Families.decode_faults dateObjections_spec)

end Filter

/-! ## Values of operators -/

theorem exists_alternatives_iff {member : Value → Node → Prop} {vs : List Value} :
    (∃ part, Alternatives member vs part) ↔ ∀ v ∈ vs, ∃ n, member v n := by
  rw [← exists_forall₂_iff]
  cases vs with
  | nil => exact iff_of_true ⟨_, .none⟩ ⟨_, .nil⟩
  | cons v vs =>
    constructor
    · rintro ⟨_, _ | all⟩
      exact ⟨_, all⟩
    · rintro ⟨ms, all⟩
      exact ⟨_, .some all⟩

/-- A filter stands for a tree exactly if every value is one that its operator takes. -/
theorem exists_filterForm_iff {kind : OrderedKind} {fs : List (String × Value)} :
    (∃ n, FilterForm kind fs n) ↔
      ∀ op ∈ Operator.all kind, ∀ v ∈ givenValues op.name fs, ∃ n, Demanded kind op v n := by
  have families :
      (∃ parts, List.Forall₂
        (fun op => Alternatives (Demanded kind op) (givenValues op.name fs)) (Operator.all kind)
        parts) ↔ _ := exists_forall₂_iff
  simp only [exists_alternatives_iff] at families
  rw [← families]
  constructor
  · rintro ⟨_, parts, all, rfl⟩
    exact ⟨parts, all⟩
  · rintro ⟨parts, all⟩
    exact ⟨_, parts, all, rfl⟩

theorem objections_eq_nil_iff {read : Value → Decoded α} {form : Value → α → Prop}
    {objections : Value → List Objection} (reads : ∀ v a, read v = .done a ↔ form v a)
    (refuses : ∀ v, (read v).faults = (objections v).map (·.toFault v)) {v : Value}
    (inside : read v ≠ .outsideCalendar) : objections v = [] ↔ ∃ a, form v a := by
  simp only [← reads, ← Decoded.faults_eq_nil inside, refuses, List.map_eq_nil_iff]

section Demands

variable {form : Value → α → Prop} {literal : α → Literal} {range : Bounds α → Range} {v : Value}

theorem exists_demand_compare {c : Comparison} :
    (∃ n, Demand form literal range (.compare c) v n) ↔ ∃ a, form v a := by
  simp [demand_compare]

theorem exists_demand_pattern :
    (∃ n, Demand form literal range .pattern v n) ↔ ∃ p, v.text? = some p := by
  simp [demand_pattern]

end Demands

theorem textObjections_eq_nil {v : Value} : textObjections v = [] ↔ ∃ s, v.text? = some s :=
  objections_eq_nil_iff (fun _ _ => decodeString_eq_done) textObjections_spec (decodeString_ne_outside v)

/-- There is nothing to object to exactly in the values that an operator takes, unless the value is
    a date outside the calendar. -/
theorem Operator.objections_eq_nil {kind : OrderedKind} {op : Operator} {v : Value}
    (inside : ∀ c, op = .compare c → kind = .date → v.dateInside ≠ false) :
    op.objections kind v = [] ↔ ∃ n, Demanded kind op v n := by
  cases op with
  | pattern =>
    rw [objections, textObjections_eq_nil]
    cases kind <;> simp only [Demanded, exists_demand_pattern]
  | compare c =>
    rw [objections]
    cases kind with
    | string =>
      simp only [Demanded, exists_demand_compare]
      exact textObjections_eq_nil
    | number =>
      simp only [Demanded, exists_demand_compare]
      exact objections_eq_nil_iff (fun _ _ => Number.decodeInput_eq_done) numberObjections_spec
        (Number.decodeInput_ne_outside v)
    | date =>
      simp only [Demanded, exists_demand_compare]
      refine objections_eq_nil_iff (fun _ _ => Moment.decode_eq_done) dateObjections_spec ?_
      rw [ne_eq, Moment.decode_eq_outside]
      exact inside c rfl rfl

/-! ## The adapter -/

theorem filterTree_mapping (kind : OrderedKind) (fs : List (String × Value)) :
    filterTree kind (.mapping fs) = ((Filter.decode kind (.mapping fs)).map Filter.tree).verdict :=
  rfl

/-- Filters that give the same values for every operator have the same outcome.  It is a tree
    exactly if every value is one that its operator takes.  If not, all faults of the values are
    named, in their order, and a value has one exactly if its operator does not take it; but a date
    outside the calendar, or an integer beyond the limit on digits in a value with a fault, keeps
    the faults from being named. -/
theorem filterTree_listed {kind : OrderedKind} {fs gs : List (String × Value)}
    (same : ∀ op ∈ Operator.all kind, givenValues op.name fs = givenValues op.name gs) :
    filterTree kind (.mapping fs) = filterTree kind (.mapping gs) ∧
    ((∃ n, filterTree kind (.mapping fs) = .ok (.accepted n)) ↔
      ∀ op ∈ Operator.all kind, ∀ v ∈ givenValues op.name fs, ∃ n, Demanded kind op v n) ∧
    (Filter.DateOutside kind (.mapping fs) →
      filterTree kind (.mapping fs) = .error .outsideCalendar) ∧
    (¬ Filter.DateOutside kind (.mapping fs) →
      (∀ op ∈ Operator.all kind, ∀ v ∈ givenValues op.name fs,
        op.objections kind v = [] ↔ ∃ n, Demanded kind op v n) ∧
      ∀ f rest, listedFaults kind fs = f :: rest →
        ((∀ g ∈ f :: rest, g.input.writable = true) →
          filterTree kind (.mapping fs) = .ok (.rejected (.malformed f rest))) ∧
        ((∃ g ∈ f :: rest, g.input.writable = false) →
          filterTree kind (.mapping fs) = .error (.oversized none))) := by
  refine ⟨?_, ?_, ?_, ?_⟩
  · rw [filterTree_mapping, filterTree_mapping, Filter.decode_congr same]
  · simp only [filterTree_eq_accepted, exists_filterForm_iff]
  · intro outside
    rw [filterTree_mapping, Filter.decode_eq_outside.2 outside]
    rfl
  · intro inside
    refine ⟨fun op _ v given => ?_, fun f rest listed => ?_⟩
    · refine Operator.objections_eq_nil ?_
      rintro c rfl date left
      exact inside ⟨date, fs, rfl, c, v, given, left⟩
    · have within : Filter.decode kind (.mapping fs) ≠ .outsideCalendar := by
        rwa [ne_eq, Filter.decode_eq_outside]
      have faults := (Filter.decode_faults within).trans listed
      rw [filterTree_mapping]
      cases read : Filter.decode kind (.mapping fs) with
      | done a =>
        rw [read] at faults
        cases faults
      | outsideCalendar => exact absurd read within
      | faulty x xs =>
        rw [read] at faults
        cases faults
        exact ⟨Decoded.verdict_shown, Decoded.verdict_oversized⟩

/-- Two values that are no numbers, among others, beside a pattern, for which there is no operator. -/
def sizeFields : List (String × Value) :=
  [("glob", .str "1*"), ("lt", .str "ten"), ("eq", .list [.int 1, .bool true, .str "25"])]

/-- The same values in another order and another form. -/
def sizeFieldsAgain : List (String × Value) :=
  [("eq", .tuple [.int 1, .bool true, .str "25"]), ("neq", .null), ("lt", .list [.str "ten"])]

/-- Both get the same two messages, and the pattern none. -/
theorem filterTree_listed_sizes :
    (∀ op ∈ Operator.all .number,
      givenValues op.name sizeFields = givenValues op.name sizeFieldsAgain) ∧
    filterTree .number (.mapping sizeFieldsAgain) =
      .ok (.rejected (.malformed ⟨[.field "eq", .index 1], .boolNumber, .bool true⟩
        [⟨[.field "lt", .index 0], .unreadableNumber, .str "ten"⟩])) := by
  have same : ∀ op ∈ Operator.all .number,
      givenValues op.name sizeFields = givenValues op.name sizeFieldsAgain := by
    simp only [Operator.all, Comparison.all, List.map_cons, List.map_nil, List.forall_mem_cons]
    exact ⟨rfl, rfl, rfl, rfl, rfl, rfl, by simp⟩
  obtain ⟨agree, -, -, named⟩ := filterTree_listed same
  have inside : ¬ Filter.DateOutside .number (.mapping sizeFields) := by
    rintro ⟨⟨⟩, -⟩
  have faults : listedFaults .number sizeFields =
      [⟨[.field "eq", .index 1], .boolNumber, .bool true⟩,
        ⟨[.field "lt", .index 0], .unreadableNumber, .str "ten"⟩] := rfl
  refine ⟨same, ?_⟩
  rw [← agree]
  apply ((named inside).2 _ _ faults).1
  simp [Value.writable]

/-- A date outside the calendar, behind a text that is no date. -/
def lateFields : List (String × Value) :=
  [("eq", .list [.str "yesterday", firstMidnight])]

/-- Neither of the two bad dates is named, and a long integer among text is not either. -/
theorem filterTree_unlisted :
    ((∀ n, ¬ Demanded .date (.compare .eq) firstMidnight n) ∧
      listedFaults .date lateFields =
        [⟨[.field "eq", .index 0], .unreadableDate, .str "yesterday"⟩] ∧
      filterTree .date (.mapping lateFields) = .error .outsideCalendar) ∧
    listedFaults .string [("eq", .int (10 ^ digitLimit))] =
      [⟨[.field "eq", .index 0], .notString, .int (10 ^ digitLimit)⟩] ∧
    filterTree .string (.mapping [("eq", .int (10 ^ digitLimit))]) = .error (.oversized none) := by
  have single (n : Int) : listedFaults .string [("eq", .int n)] =
      [⟨[.field "eq", .index 0], .notString, .int n⟩] := rfl
  have outcome (n : Int) : filterTree .string (.mapping [("eq", .int n)]) =
      (Decoded.faulty ⟨[.field "eq", .index 0], .notString, .int n⟩ [] : Decoded Node).verdict := rfl
  refine ⟨⟨?_, rfl, rfl⟩, single _, ?_⟩
  · intro n demanded
    obtain ⟨m, form⟩ := exists_demand_compare.1 ⟨n, demanded⟩
    have read : Moment.decode firstMidnight = .done m := Moment.decode_eq_done.2 form
    have outside : Moment.decode firstMidnight = .outsideCalendar := Moment.decode_eq_outside.2 rfl
    rw [outside] at read
    cases read
  · rw [outcome]
    refine Decoded.verdict_oversized ⟨_, .head _, ?_⟩
    simp [Value.writable, writableInt]

end QueryTree
