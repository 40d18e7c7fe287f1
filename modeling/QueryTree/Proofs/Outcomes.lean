import QueryTree.Proofs.Filters
import QueryTree.Proofs.Writable

/-!
# Answers of the entry points

Every entry point answers every value that a document can hold, however deep it is nested, unless a
date that it reads is outside the calendar or an integer is beyond the limit on digits.

* `Value.IsJson`             : the values that documents hold
* `AnswersUnless`            : an answer or one of the two failures
* `checkValue_answers`, `toQuery_answers` : trees and queries
* `answered_of_guard`, `stopped_of_guard` : trees that passed the guard, and others
* `Filter.decode_eq_outside`, `filterTree_answers` : filters
* `entryPoints_answer`       : all entry points
* `firstMidnight_unanswered` : a date outside the calendar stops them
-/

namespace QueryTree

variable {α β : Type}

/-! ## Documents -/

/-- The values that JSON has: scalars, lists, and mappings. -/
inductive Value.IsJson : Value → Prop where
  | null : IsJson .null
  | bool (b : Bool) : IsJson (.bool b)
  | int (n : Int) : IsJson (.int n)
  | float (x : Float64) : IsJson (.float x)
  | str (s : String) : IsJson (.str s)
  | list {vs : List Value} : (∀ v ∈ vs, IsJson v) → IsJson (.list vs)
  | mapping {fs : List (String × Value)} : (∀ f ∈ fs, IsJson f.2) → IsJson (.mapping fs)

@[simp] theorem Value.isJson_list {vs : List Value} :
    (Value.list vs).IsJson ↔ ∀ v ∈ vs, v.IsJson := by
  constructor
  · rintro (_ | _ | _ | _ | _ | all)
    exact all
  · exact .list

@[simp] theorem Value.isJson_mapping {fs : List (String × Value)} :
    (Value.mapping fs).IsJson ↔ ∀ f ∈ fs, f.2.IsJson := by
  constructor
  · rintro (_ | _ | _ | _ | _ | _ | all)
    exact all
  · exact .mapping

theorem Value.IsJson.complete {v : Value} (json : v.IsJson) : v.complete = true := by
  induction json with
  | list _ ih =>
    refine complete_iff.2 ⟨rfl, ?_⟩
    rintro vs ⟨⟩
    exact ih
  | mapping _ ih =>
    refine complete_iff.2 ⟨rfl, ?_⟩
    rintro vs ⟨⟩
    exact List.forall_mem_map.2 ih
  | _ => rfl

/-! ## Outcomes -/

/-- An operation stops at a date outside the calendar if there is one. If not, it answers, unless an
    integer is beyond the limit on digits. -/
inductive AnswersUnless (outside oversized : Prop) : Except Failure α → Prop where
  | answer (a : α) : ¬ outside → AnswersUnless outside oversized (.ok a)
  | outsideCalendar : outside → AnswersUnless outside oversized (.error .outsideCalendar)
  | oversized : ¬ outside → oversized → AnswersUnless outside oversized (.error (.oversized none))

namespace AnswersUnless

variable {outside oversized : Prop} {e : Except Failure α}

theorem exists_answer (answers : AnswersUnless outside oversized e) (inside : ¬ outside)
    (short : ¬ oversized) : ∃ a, e = .ok a := by
  cases answers with
  | answer a _ => exact ⟨a, rfl⟩
  | outsideCalendar left => exact absurd left inside
  | oversized _ long => exact absurd long short

theorem eq_outsideCalendar (answers : AnswersUnless outside oversized e) (left : outside) :
    e = .error .outsideCalendar := by
  cases answers with
  | answer a inside => exact absurd left inside
  | outsideCalendar _ => rfl
  | oversized inside _ => exact absurd left inside

theorem imp {outside' oversized' : Prop} (answers : AnswersUnless outside oversized e)
    (same : outside ↔ outside') (more : oversized → oversized') :
    AnswersUnless outside' oversized' e := by
  cases answers with
  | answer a inside => exact .answer a (same.not.1 inside)
  | outsideCalendar left => exact .outsideCalendar (same.1 left)
  | oversized inside long => exact .oversized (same.not.1 inside) (more long)

theorem bind {f : α → Except Failure β} (answers : AnswersUnless outside oversized e)
    (rest : ∀ a, e = .ok a → ¬ outside → AnswersUnless outside oversized (f a)) :
    AnswersUnless outside oversized (e >>= f) := by
  cases answers with
  | answer a inside => exact rest a rfl inside
  | outsideCalendar left => exact .outsideCalendar left
  | oversized inside long => exact .oversized inside long

end AnswersUnless

theorem eq_false_of_imp {a b : Bool} (step : a = true → b = true) (fails : b = false) :
    a = false := by
  apply Bool.eq_false_of_not_eq_true
  intro holds
  rw [step holds] at fails
  cases fails

theorem Decoded.verdict_answers {d : Decoded α} {outside oversized : Prop}
    (calendar : d = .outsideCalendar ↔ outside)
    (shown : ∀ f ∈ d.faults, f.input.writable = false → oversized) :
    AnswersUnless outside oversized d.verdict := by
  rw [← calendar]
  cases d with
  | done a => exact .answer _ (by simp)
  | outsideCalendar => exact .outsideCalendar rfl
  | faulty f fs =>
    by_cases all : ∀ g ∈ f :: fs, g.input.writable = true
    · rw [Decoded.verdict_shown all]
      exact .answer _ (by simp)
    · have hidden : ∃ g ∈ f :: fs, g.input.writable = false := by
        simpa only [not_forall, Bool.not_eq_true, exists_prop] using all
      rw [Decoded.verdict_oversized hidden]
      obtain ⟨g, member, unwritable⟩ := hidden
      exact .oversized (by simp) (shown g member unwritable)

/-! ## Trees and queries -/

/-- A date that the grammar of trees wants in a value is outside the calendar. -/
def Value.DateOutside (v : Value) : Prop :=
  ∃ w, DateAt w .full v ∧ w.dateInside = false

theorem Value.not_dateOutside {v : Value} (inside : v.datesInside = true) : ¬ v.DateOutside := by
  rintro ⟨w, there, left⟩
  rw [there.dateInside inside] at left
  cases left

/-- Checking a value with a limit stops at such a date, unless the value is nested deeper. The long
    integer may also be the limit, which is shown then. -/
def CheckAnswers (limit : Int) (v : Value) (outcome : Except Failure α) : Prop :=
  AnswersUnless ((v.nest : Int) ≤ max limit 0 ∧ v.DateOutside)
    (v.writable = false ∨ writableInt limit = false) outcome

/-- The reader and the positions answer whatever passed the guard, or stop for one of the two
    reasons. -/
theorem checkValue_answers_passed {role : Role} {limit : Int} {v : Value}
    (passed : guardDepth limit v = .ok ()) :
    AnswersUnless v.DateOutside (v.writable = false) (checkValue role limit v) := by
  rw [checkValue, passed]
  refine .bind (Decoded.verdict_answers Node.decodeIn_eq_outside fun f member unwritable => ?_)
    fun verdict _ inside => ?_
  · have points := Node.decodeIn_pointsInto .full v f member
    exact eq_false_of_imp points.writable unwritable
  · cases verdict with
    | accepted n => exact .answer _ inside
    | rejected reasons => exact .answer _ inside

theorem checkValue_answers {role : Role} {limit : Int} {v : Value} (complete : v.complete = true) :
    CheckAnswers limit v (checkValue role limit v) := by
  by_cases deep : (v.nest : Int) ≤ max limit 0
  · have passed : guardDepth limit v = .ok () := by rw [guardDepth_eq complete, if_pos deep]
    exact (checkValue_answers_passed passed).imp (and_iff_right deep).symm .inl
  · have inside : ¬ ((v.nest : Int) ≤ max limit 0 ∧ v.DateOutside) := fun both => deep both.1
    rw [checkValue, guardDepth_eq complete, if_neg deep, GuardStop.beyond]
    cases short : writableInt limit with
    | true => exact .answer _ inside
    | false => exact .oversized inside (.inr short)

/-- The text of a tree is another place where a long integer is met. -/
theorem toQuery_answers_of {limit : Int} {v : Value} {outside oversized : Prop}
    (checked : AnswersUnless outside oversized (validateElement limit v))
    (long : v.writable = false → oversized) : AnswersUnless outside oversized (toQuery limit v) := by
  cases outcome : validateElement limit v with
  | error failure =>
    rw [outcome] at checked
    rw [toQuery, outcome]
    exact .bind checked (by rintro a ⟨⟩)
  | ok verdict =>
    have inside : ¬ outside := by
      intro left
      cases outcome.symm.trans (checked.eq_outsideCalendar left)
    cases verdict with
    | rejected reasons =>
      rw [toQuery, outcome]
      exact .answer _ inside
    | accepted n =>
      have read : Node.decode v = .done n := (checkValue_eq_accepted.1 outcome).2.1
      rw [toQuery_eq outcome, Node.Formed.render_eq ⟨v, read⟩]
      cases writable : n.writable with
      | true => exact .answer _ inside
      | false =>
        have form := (Node.decode_eq_done_iff.1 read).1
        exact .oversized inside (long (eq_false_of_imp form.writable writable))

theorem toQuery_answers {limit : Int} {v : Value} (complete : v.complete = true) :
    CheckAnswers limit v (toQuery limit v) :=
  toQuery_answers_of (checkValue_answers complete) .inl

/-! ## The guard and the entry points -/

/-- Every entry point for trees answers. -/
structure Answered (limit : Int) (v : Value) : Prop where
  element : ∃ verdict, validateElement limit v = .ok verdict
  clause : ∃ verdict, validateClause limit v = .ok verdict
  termValue : ∀ (kind : Kind) (name : Value), name.text? = some kind.name →
    ∃ verdict, validateTermValue name limit v = .ok verdict
  query : ∃ verdict, toQuery limit v = .ok verdict

/-- What a value ends with at which the guard stops. -/
def GuardStop.outcome (limit : Int) : GuardStop → Except Failure (Verdict α)
  | .missingField => .error .missingField
  | .tooDeep => .ok (.rejected (.tooDeep limit))
  | .oversizedLimit => .error (.oversized none)

/-- Every entry point for trees ends with what the guard says. -/
structure Stopped (stop : GuardStop) (limit : Int) (v : Value) : Prop where
  element : validateElement limit v = stop.outcome limit
  clause : validateClause limit v = stop.outcome limit
  termValue : ∀ (kind : Kind) (name : Value), name.text? = some kind.name →
    validateTermValue name limit v = stop.outcome limit
  query : toQuery limit v = stop.outcome limit

section Guarded

variable {limit : Int} {v : Value}

/-- Whatever passed the guard is answered, if its dates are inside the calendar and its integers are
    within the limit on digits. -/
theorem answered_of_guard (passed : guardDepth limit v = .ok ()) (inside : ¬ v.DateOutside)
    (writable : v.writable = true) : Answered limit v := by
  have short : ¬ v.writable = false := by simp [writable]
  have checked (role : Role) : ∃ verdict, checkValue role limit v = .ok verdict :=
    (checkValue_answers_passed passed).exists_answer inside short
  refine ⟨checked _, checked _, fun kind name named => ?_, ?_⟩
  · rw [validateTermValue_named named]
    exact checked _
  · exact (toQuery_answers_of (checkValue_answers_passed passed) id).exists_answer inside short

theorem stopped_of_guard {stop : GuardStop} (stopped : guardDepth limit v = .error stop) :
    Stopped stop limit v := by
  have checked (role : Role) : checkValue role limit v = stop.outcome limit := by
    rw [checkValue, stopped]
    cases stop <;> rfl
  refine ⟨checked _, checked _, fun kind name named => ?_, ?_⟩
  · rw [validateTermValue_named named]
    exact checked _
  · rw [toQuery, validateElement, checked]
    cases stop <;> rfl

end Guarded

/-! ## Filters -/

/-- A fault of a filter points into the values of an operator, where a single value counts as a
    list of it. -/
def Fault.PointsIntoGiven (fs : List (String × Value)) (f : Fault) : Prop :=
  ∃ (key : String) (v : Value) (g : Fault),
    fs.lookup key = some v ∧ g.PointsInto (listed v) ∧ f = g.under (.field key)

theorem writable_listed (v : Value) : (listed v).writable = v.writable := by
  cases v <;> simp [listed, Value.writable, Value.writableList]

theorem Fault.PointsIntoGiven.writable {m : Option Model} {fs : List (String × Value)} {f : Fault}
    (points : f.PointsIntoGiven fs) (writable : (Value.record m fs).writable = true) :
    f.input.writable = true := by
  obtain ⟨key, v, g, found, inside, rfl⟩ := points
  refine inside.writable ?_
  rw [writable_listed]
  exact Value.writable_of_lookup writable found

theorem Number.decodeInput_pointsInto (v : Value) : (Number.decodeInput v).PointsInto v := by
  unfold Number.decodeInput
  split
  · exact Number.decode_pointsInto v
  · split
    · exact .done _
    · exact .fault trivial
    · exact .fault trivial

theorem Number.decodeInput_ne_outside (v : Value) : Number.decodeInput v ≠ .outsideCalendar := by
  unfold Number.decodeInput
  split
  · exact Number.decode_ne_outside v
  · split <;> simp

section Families

variable {read : Value → Decoded α} {fs : List (String × Value)}

section Faults

variable (points : ∀ v, (read v).PointsInto v)

include points

theorem decodeFamily_pointsInto {key : String} :
    ∀ f ∈ (decodeFamily read key fs).faults, f.PointsIntoGiven fs := by
  intro f member
  rcases decodeFamily_cases read key fs with ⟨-, done⟩ | ⟨v, found, -, family⟩
  · rw [done] at member
    cases member
  · rw [family, Decoded.faults_under] at member
    obtain ⟨g, inside, rfl⟩ := List.mem_map.1 member
    have items : (decodeSequence 0 read (listed v)).PointsInto (listed v) :=
      decodeSequence_pointsInto fun _ _ w _ => points w
    exact ⟨key, v, g, found, items g inside, rfl⟩

theorem decodeFamilies_pointsInto {cs : List Comparison} :
    ∀ f ∈ (decodeFamilies read fs cs).faults, f.PointsIntoGiven fs := by
  induction cs with
  | nil => rintro f ⟨⟩
  | cons c cs ih =>
    intro f member
    rcases Decoded.mem_faults_combine member with here | later
    · exact decodeFamily_pointsInto points f here
    · exact ih f later

theorem Families.decode_pointsInto {patterned : Bool} :
    ∀ f ∈ (Families.decode read patterned fs).faults, f.PointsIntoGiven fs := by
  intro f member
  rcases Decoded.mem_faults_combine member with compared | others
  · exact decodeFamilies_pointsInto points f compared
  · cases patterned with
    | true => exact decodeFamily_pointsInto decodeString_pointsInto f others
    | false => cases others

end Faults

/-- The calendar is left through one of the values that are given. -/
theorem decodeFamily_eq_outside {key : String} :
    decodeFamily read key fs = .outsideCalendar ↔
      ∃ v ∈ givenValues key fs, read v = .outsideCalendar := by
  rcases decodeFamily_cases read key fs with ⟨given, done⟩ | ⟨v, -, given, family⟩
  · simp [given, done]
  · rw [given, family, Decoded.under_eq_outside, decodeSequence_eq_outside, items?_listed]
    simp only [Option.some.injEq, exists_eq_left']

theorem decodeFamilies_eq_outside {cs : List Comparison} :
    decodeFamilies read fs cs = .outsideCalendar ↔
      ∃ c ∈ cs, ∃ v ∈ givenValues c.name fs, read v = .outsideCalendar := by
  induction cs with
  | nil => simp [decodeFamilies]
  | cons c cs ih =>
    rw [decodeFamilies, Decoded.combine_eq_outside, decodeFamily_eq_outside, ih,
      List.exists_mem_cons_iff]

theorem Families.decode_eq_outside {patterned : Bool} :
    Families.decode read patterned fs = .outsideCalendar ↔
      ∃ c : Comparison, ∃ v ∈ givenValues c.name fs, read v = .outsideCalendar := by
  have text : (if patterned then decodeFamily decodeString patternOperator fs else .done []) ≠
      .outsideCalendar := by
    cases patterned with
    | true => simp [decodeFamily_eq_outside, decodeString_ne_outside]
    | false => simp
  have every (c : Comparison) : c ∈ Comparison.all := by
    cases c <;> decide
  rw [Families.decode, Decoded.combine_eq_outside, or_iff_left text, decodeFamilies_eq_outside]
  simp only [every, true_and]

end Families

namespace Filter

/-- A date outside the calendar is among the values to compare with. -/
def DateOutside (kind : OrderedKind) (v : Value) : Prop :=
  kind = .date ∧ ∃ fs, v = .mapping fs ∧
    ∃ c : Comparison, ∃ w ∈ givenValues c.name fs, w.dateInside = false

theorem decode_pointsInto {kind : OrderedKind} {fs : List (String × Value)} :
    ∀ f ∈ (Filter.decode kind (.mapping fs)).faults, f.PointsIntoGiven fs := by
  cases kind with
  | string =>
    rw [decode, ofFields, Decoded.faults_map]
    exact Families.decode_pointsInto decodeString_pointsInto
  | number =>
    rw [decode, ofFields, Decoded.faults_map]
    exact Families.decode_pointsInto Number.decodeInput_pointsInto
  | date =>
    rw [decode, ofFields, Decoded.faults_map]
    exact Families.decode_pointsInto Moment.decode_pointsInto

theorem decode_eq_outside {kind : OrderedKind} {fs : List (String × Value)} :
    Filter.decode kind (.mapping fs) = .outsideCalendar ↔ DateOutside kind (.mapping fs) := by
  cases kind <;>
    simp [decode, ofFields, DateOutside, Families.decode_eq_outside, decodeString_ne_outside,
      Number.decodeInput_ne_outside, Moment.decode_eq_outside]

theorem decode_verdict_answers (kind : OrderedKind) (v : Value) :
    AnswersUnless (DateOutside kind v) (v.writable = false)
      ((Filter.decode kind v).map tree).verdict := by
  have other {w : Value} (unfit : Filter.decode kind w = .fault (.notInstance (.filter kind)) w)
      (noMapping : ∀ fs, w ≠ .mapping fs) :
      AnswersUnless (DateOutside kind w) (w.writable = false)
        ((Filter.decode kind w).map tree).verdict := by
    rw [unfit]
    apply Decoded.verdict_answers
    · simp [DateOutside, noMapping]
    · intro f member unwritable
      obtain rfl := List.mem_singleton.1 member
      exact unwritable
  cases v with
  | record m fs =>
    cases m with
    | some m => exact other rfl (by rintro fs ⟨⟩)
    | none =>
      apply Decoded.verdict_answers
      · rw [Decoded.map_eq_outside]
        exact decode_eq_outside
      · intro f member
        rw [Decoded.faults_map] at member
        exact eq_false_of_imp (decode_pointsInto f member).writable
  | _ => exact other rfl (by rintro fs ⟨⟩)

end Filter

theorem filterTree_answers {kind : OrderedKind} {v : Value} (json : v.IsJson) :
    AnswersUnless (Filter.DateOutside kind v) (v.writable = false) (filterTree kind v) := by
  cases json <;> exact Filter.decode_verdict_answers kind _

/-! ## Entry points -/

/-- Whatever a document holds and whatever the limit on its nesting is, the entry points stop at a
    date outside the calendar if there is one.  If not, they answer, but for an integer beyond the
    limit on digits. -/
theorem entryPoints_answer {v : Value} (json : v.IsJson) (limit : Int) :
    CheckAnswers limit v (validateElement limit v) ∧
    CheckAnswers limit v (validateClause limit v) ∧
    (∀ kind name, Value.text? name = some (Kind.name kind) →
      CheckAnswers limit v (validateTermValue name limit v)) ∧
    CheckAnswers limit v (toQuery limit v) ∧
    ∀ kind, AnswersUnless (Filter.DateOutside kind v) (v.writable = false) (filterTree kind v) := by
  refine ⟨checkValue_answers json.complete, checkValue_answers json.complete, ?_,
    toQuery_answers json.complete, fun kind => filterTree_answers json⟩
  intro kind name named
  rw [validateTermValue_named named]
  exact checkValue_answers json.complete

/-- A date text that cannot be read, a long integer and the undefined value, in a list. -/
def oddItems : Value :=
  .list [.mapping [("type", .str "literal"), ("kind", .str "date"), ("value", .str "yesterday")],
    .int (10 ^ 100), .float .nan, .list [], .null]

/-- They are answered everywhere. -/
theorem entryPoints_answer_oddItems :
    oddItems.IsJson ∧ (∃ verdict, validateElement 200 oddItems = .ok verdict) ∧
      (∃ verdict, validateClause 200 oddItems = .ok verdict) ∧
      (∃ verdict, validateTermValue (.kind .date) 200 oddItems = .ok verdict) ∧
      (∃ verdict, toQuery 200 oddItems = .ok verdict) ∧
      ∀ kind, ∃ verdict, filterTree kind oddItems = .ok verdict := by
  have json : oddItems.IsJson := by
    simp only [oddItems]
    refine .list ?_
    simp only [List.forall_mem_cons]
    refine ⟨.mapping ?_, .int _, .float _, .list (by simp), .null, by simp⟩
    simp only [List.forall_mem_cons]
    exact ⟨.str _, .str _, .str _, by simp⟩
  obtain ⟨element, clause, termValue, query, filter⟩ := entryPoints_answer json 200
  have inside : ¬ ((oddItems.nest : Int) ≤ max 200 0 ∧ oddItems.DateOutside) := by
    rintro ⟨-, w, there, left⟩
    rw [there.dateInside (by decide)] at left
    cases left
  have writable : oddItems.writable = true := by decide +kernel
  have short : ¬ (oddItems.writable = false ∨ writableInt 200 = false) := by decide +kernel
  refine ⟨json, element.exists_answer inside short, clause.exists_answer inside short,
    (termValue .date _ rfl).exists_answer inside short, query.exists_answer inside short, ?_⟩
  intro kind
  refine (filter kind).exists_answer ?_ (by simp [writable])
  rintro ⟨-, fs, ⟨⟩, -⟩

/-! ## Dates outside the calendar -/

/-- The mapping of a date leaf. -/
def dateLeaf (w : Value) : Value :=
  .mapping [("type", .str "literal"), ("kind", .str "date"), ("value", w)]

theorem dateAt_dateLeaf (w : Value) : DateAt w .full (dateLeaf w) := by
  have tags : CarriesTags (.literal .date)
      [("type", .str "literal"), ("kind", .str "date"), ("value", w)] := by
    constructor
    · rintro tag ⟨⟩
      exact ⟨.str "literal", rfl, rfl⟩
    · rintro tag ⟨⟩
      exact ⟨.str "date", rfl, rfl⟩
  exact .literal ⟨tags, .inl rfl⟩ rfl rfl

/-- The first midnight of the calendar, an hour ahead of UTC. -/
def firstMidnight : Value :=
  .str "0001-01-01T00:00:00+01:00"

/-- Its moment is before the calendar, so a document that holds it gets no answer. -/
theorem firstMidnight_unanswered :
    (dateLeaf firstMidnight).IsJson ∧
      validateElement 200 (dateLeaf firstMidnight) = .error .outsideCalendar ∧
      toQuery 200 (dateLeaf firstMidnight) = .error .outsideCalendar ∧
      filterTree .date (.mapping [("eq", firstMidnight)]) = .error .outsideCalendar := by
  have json : (dateLeaf firstMidnight).IsJson := by
    refine .mapping ?_
    simp only [List.forall_mem_cons]
    exact ⟨.str _, .str _, .str _, by simp⟩
  have outside : ((dateLeaf firstMidnight).nest : Int) ≤ max 200 0 ∧
      (dateLeaf firstMidnight).DateOutside :=
    ⟨by decide, firstMidnight, dateAt_dateLeaf _, rfl⟩
  have checked : CheckAnswers 200 (dateLeaf firstMidnight) (validateElement 200 _) :=
    checkValue_answers json.complete
  have queried : CheckAnswers 200 (dateLeaf firstMidnight) (toQuery 200 _) :=
    toQuery_answers json.complete
  exact ⟨json, checked.eq_outsideCalendar outside, queried.eq_outsideCalendar outside, rfl⟩

end QueryTree
