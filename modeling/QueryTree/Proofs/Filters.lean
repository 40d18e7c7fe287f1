import QueryTree.Filter
import QueryTree.Proofs.Builders
import QueryTree.Proofs.Rendering

/-!
# Trees of flat filters

What tree a flat filter stands for, as a relation between a mapping and a tree that mentions no
reader, and the adapter decides it.  The builders make the same tree of a filter object, and every
entry point accepts it as it is.

* `Operator`, `givenValues`      : the operators of a filter and the values given for them
* `Demand`, `Demanded`           : what an operator demands of one value
* `Alternatives`, `FilterForm`   : the tree of a filter
* `Filter.decode_tree_iff`       : the adapter decides the relation
* `Scalars`, `Families.buildFilter_fields` : the way through the builders
* `FilterForm.termValue`, `FilterForm.nest_le` : the tree as a term value
* `filterTree_correct`           : the adapter from end to end
-/

namespace QueryTree

variable {α β γ : Type}

/-! ## What filters stand for -/

inductive Operator where
  | compare (c : Comparison)
  -- the text is a pattern with wildcards
  | pattern

namespace Operator

def name : Operator → String
  | .compare c => c.name
  | .pattern => patternOperator

/-- The operators of filters over a kind, in their order. -/
def all : OrderedKind → List Operator
  | .string | .date => Comparison.all.map .compare ++ [.pattern]
  | .number => Comparison.all.map .compare

end Operator

/-- The values given under a key: none if there is nothing or the absent value, the items of a list
    or tuple, and else the value itself. -/
def givenValues (key : String) (fs : List (String × Value)) : List Value :=
  match fs.lookup key with
  | none | some .null => []
  | some v => v.items?.getD [v]

/-- What an operator demands of a value: to be the value, not to be it, or to be on one side of it,
    with or without the value itself. -/
inductive Demand (form : Value → α → Prop) (literal : α → Literal) (range : Bounds α → Range) :
    Operator → Value → Node → Prop where
  | eq {v : Value} {a : α} : form v a →
      Demand form literal range (.compare .eq) v (.literal (literal a))
  | neq {v : Value} {a : α} : form v a →
      Demand form literal range (.compare .neq) v (.modify .not (.literal (literal a)))
  | gt {v : Value} {a : α} : form v a →
      Demand form literal range (.compare .gt) v (.range (range ⟨false, false, .above a⟩))
  | lt {v : Value} {a : α} : form v a →
      Demand form literal range (.compare .lt) v (.range (range ⟨false, false, .below a⟩))
  | gte {v : Value} {a : α} : form v a →
      Demand form literal range (.compare .gte) v (.range (range ⟨true, true, .above a⟩))
  | lte {v : Value} {a : α} : form v a →
      Demand form literal range (.compare .lte) v (.range (range ⟨true, true, .below a⟩))
  | pattern {v : Value} {p : String} : v.text? = some p →
      Demand form literal range .pattern v (.literal (.glob p))

/-- A number of a filter may be given as a numeral. -/
inductive NumeralForm (v : Value) (n : Number) : Prop where
  | number : NumberForm v n → NumeralForm v n
  | numeral {s : String} : v.text? = some s → Number.read s.toList = .ok n → NumeralForm v n

def Demanded : OrderedKind → Operator → Value → Node → Prop
  | .string => Demand (fun v s => v.text? = some s) .string .string
  | .number => Demand NumeralForm .number .number
  | .date => Demand MomentForm .date .date

/-- One alternative for each value, in order; nothing without values. -/
inductive Alternatives (member : Value → Node → Prop) : List Value → Option Node → Prop where
  | none : Alternatives member [] none
  | some {v : Value} {vs : List Value} {ms : List Node} :
      List.Forall₂ member (v :: vs) ms → Alternatives member (v :: vs) (some (.combine .or ms))

/-- The tree of a filter: all operators have to hold, in their order, and of the values of an
    operator one; operators without values are left out. -/
def FilterForm (kind : OrderedKind) (fs : List (String × Value)) (n : Node) : Prop :=
  ∃ parts : List (Option Node),
    List.Forall₂ (fun op => Alternatives (Demanded kind op) (givenValues op.name fs))
      (Operator.all kind) parts ∧
    n = .combine .and (parts.filterMap id)

/-! ## Reading filters -/

theorem Number.decodeInput_eq_done {v : Value} {n : Number} :
    Number.decodeInput v = .done n ↔ NumeralForm v n := by
  unfold decodeInput
  cases said : v.text? with
  | none =>
    simp only [Number.decode_eq_done]
    constructor
    · exact .number
    · rintro (form | ⟨text, -⟩)
      · exact form
      · cases said.symm.trans text
  | some s =>
    have noNumber : ¬ NumberForm v n := by
      rintro ⟨⟩ <;> cases said
    cases read : Number.read s.toList with
    | ok m =>
      simp only [read, Decoded.done.injEq]
      constructor
      · rintro rfl
        exact .numeral said read
      · rintro (form | ⟨text, numeral⟩)
        · exact absurd form noNumber
        · cases said.symm.trans text
          cases read.symm.trans numeral
          rfl
    | error e =>
      refine iff_of_false (by cases e <;> simp [read]) ?_
      rintro (form | ⟨text, numeral⟩)
      · exact noNumber form
      · cases said.symm.trans text
        cases read.symm.trans numeral

theorem items?_listed (v : Value) : (listed v).items? = some (v.items?.getD [v]) := by
  cases v <;> rfl

/-- An operator has no values, or the given ones are read as a sequence. -/
theorem decodeFamily_cases (read : Value → Decoded α) (key : String)
    (fs : List (String × Value)) :
    (givenValues key fs = [] ∧ decodeFamily read key fs = .done []) ∨
      ∃ v, fs.lookup key = some v ∧ givenValues key fs = v.items?.getD [v] ∧
        decodeFamily read key fs = (decodeSequence 0 read (listed v)).under (.field key) := by
  unfold decodeFamily givenValues
  cases fs.lookup key with
  | none => exact .inl ⟨rfl, rfl⟩
  | some v =>
    cases v with
    | null => exact .inl ⟨rfl, rfl⟩
    | _ => exact .inr ⟨_, rfl, rfl, rfl⟩

section Reading

variable {read : Value → Decoded α} {form : Value → α → Prop}
  (reads : ∀ v a, read v = .done a ↔ form v a)

include reads

theorem decodeFamily_eq_done {key : String} {fs : List (String × Value)} {as : List α} :
    decodeFamily read key fs = .done as ↔ List.Forall₂ form (givenValues key fs) as := by
  rcases decodeFamily_cases read key fs with ⟨given, done⟩ | ⟨v, -, given, family⟩
  · rw [given, done]
    simp [eq_comm]
  · rw [given, family]
    simp only [Decoded.under_eq_done, decodeSequence_eq_done, items?_listed, reads,
      Option.some.injEq, exists_eq_left', Nat.zero_le, and_true]

theorem decodeFamilies_eq_done {fs : List (String × Value)} {cs : List Comparison}
    {pairs : List (Comparison × List α)} :
    decodeFamilies read fs cs = .done pairs ↔
      List.Forall₂ (fun c pair => pair.1 = c ∧ List.Forall₂ form (givenValues c.name fs) pair.2)
        cs pairs := by
  induction cs generalizing pairs with
  | nil => simp [decodeFamilies, eq_comm]
  | cons c cs ih =>
    rw [decodeFamilies, Decoded.combine_eq_done]
    simp only [decodeFamily_eq_done reads, ih]
    constructor
    · rintro ⟨as, rest, values, others, rfl⟩
      exact .cons ⟨rfl, values⟩ others
    · rintro (_ | ⟨⟨rfl, values⟩, others⟩)
      exact ⟨_, _, values, others, rfl⟩

end Reading

/-- The alternatives for values of a form are those that the tree of a filter has. -/
theorem alternatives_iff {form : Value → α → Prop} {member : Value → Node → Prop} {g : α → Node}
    (members : ∀ v m, member v m ↔ ∃ a, form v a ∧ g a = m) {vs : List Value}
    {part : Option Node} :
    Alternatives member vs part ↔
      ∃ as, List.Forall₂ form vs as ∧ alternatives (as.map g) = part := by
  have image (ms : List Node) : List.Forall₂ member vs ms ↔
      ∃ as, List.Forall₂ form vs as ∧ as.map g = ms :=
    (forall₂_congr_mem fun m _ v => members v m).trans forall₂_image
  constructor
  · rintro (_ | all)
    · exact ⟨[], .nil, rfl⟩
    · obtain ⟨as, forms, rfl⟩ := (image _).1 all
      cases forms
      exact ⟨_, .cons ‹_› ‹_›, rfl⟩
  · rintro ⟨as, forms, rfl⟩
    cases forms with
    | nil => exact .none
    | cons form forms => exact .some ((image _).2 ⟨_, .cons form forms, rfl⟩)

section Demands

variable {form : Value → α → Prop} {literal : α → Literal} {range : Bounds α → Range}

theorem demand_compare (c : Comparison) (v : Value) (m : Node) :
    Demand form literal range (.compare c) v m ↔
      ∃ a, form v a ∧ c.member literal range a = m := by
  constructor
  · rintro (there | there | there | there | there | there) <;> exact ⟨_, there, rfl⟩
  · rintro ⟨a, there, rfl⟩
    cases c with
    | eq => exact .eq there
    | neq => exact .neq there
    | gt => exact .gt there
    | lt => exact .lt there
    | gte => exact .gte there
    | lte => exact .lte there

theorem demand_pattern (v : Value) (m : Node) :
    Demand form literal range .pattern v m ↔ ∃ p, v.text? = some p ∧ .literal (.glob p) = m := by
  constructor
  · rintro ⟨⟩
    exact ⟨_, ‹_›, rfl⟩
  · rintro ⟨p, said, rfl⟩
    exact .pattern said

/-- What a comparison makes of its values. -/
def Comparison.part (literal : α → Literal) (range : Bounds α → Range)
    (pair : Comparison × List α) : Option Node :=
  alternatives (pair.2.map (pair.1.member literal range))

/-- What is made of patterns, if there is an operator for them. -/
def patternParts (patterned : Bool) (patterns : List String) : List (Option Node) :=
  if patterned then [alternatives (patterns.map fun p => .literal (.glob p))] else []

theorem Families.tree_eq {patterned : Bool} {f : Families α}
    (none : patterned = false → f.patterns = []) :
    f.tree literal range = .combine .and ((f.compared.map (Comparison.part literal range) ++
      patternParts patterned f.patterns).filterMap id) := by
  rw [tree, List.filterMap_append, List.filterMap_map]
  congr 2
  cases patterned with
  | true =>
    rw [patternParts, if_pos rfl]
    cases alternatives (f.patterns.map fun p => .literal (.glob p)) <;> rfl
  | false =>
    rw [none rfl]
    rfl

theorem decodePatterns_iff {patterned : Bool} {fs : List (String × Value)}
    {parts : List (Option Node)} :
    List.Forall₂ (fun op => Alternatives (Demand form literal range op) (givenValues op.name fs))
        (if patterned then [.pattern] else []) parts ↔
      ∃ patterns, (if patterned then decodeFamily decodeString patternOperator fs else .done []) =
          .done patterns ∧
        patternParts patterned patterns = parts := by
  cases patterned with
  | false => simp [patternParts, eq_comm]
  | true =>
    have reads {ps : List String} :
        decodeFamily decodeString patternOperator fs = .done ps ↔
          List.Forall₂ (fun v s => v.text? = some s) (givenValues patternOperator fs) ps :=
      decodeFamily_eq_done fun v s => decodeString_eq_done
    have single {part : Option Node} :
        Alternatives (Demand form literal range .pattern) (givenValues patternOperator fs) part ↔
          ∃ ps, List.Forall₂ (fun v s => v.text? = some s) (givenValues patternOperator fs) ps ∧
            alternatives (ps.map fun p => .literal (.glob p)) = part :=
      alternatives_iff demand_pattern
    simp only [if_true, reads, patternParts]
    constructor
    · rintro (_ | ⟨there, ⟨⟩⟩)
      obtain ⟨ps, forms, rfl⟩ := single.1 there
      exact ⟨ps, forms, rfl⟩
    · rintro ⟨ps, forms, rfl⟩
      exact .cons (single.2 ⟨ps, forms, rfl⟩) .nil

variable {read : Value → Decoded α} (reads : ∀ v a, read v = .done a ↔ form v a)

include reads

theorem decodeFamilies_iff {fs : List (String × Value)} {cs : List Comparison}
    {parts : List (Option Node)} :
    List.Forall₂ (fun op => Alternatives (Demand form literal range op) (givenValues op.name fs))
        (cs.map .compare) parts ↔
      ∃ pairs, decodeFamilies read fs cs = .done pairs ∧
        pairs.map (Comparison.part literal range) = parts := by
  simp only [decodeFamilies_eq_done reads]
  rw [← forall₂_image, List.forall₂_map_left_iff]
  refine forall₂_congr_mem fun part _ c => ?_
  rw [alternatives_iff (demand_compare c)]
  constructor
  · rintro ⟨as, forms, rfl⟩
    exact ⟨(c, as), ⟨rfl, forms⟩, rfl⟩
  · rintro ⟨⟨_, as⟩, ⟨rfl, forms⟩, rfl⟩
    exact ⟨as, forms, rfl⟩

/-- The tree of the values that are read is the tree that they stand for. -/
theorem Families.decode_tree_iff {patterned : Bool} {fs : List (String × Value)} {n : Node} :
    (Families.decode read patterned fs).map (Families.tree literal range) = .done n ↔
      ∃ parts : List (Option Node),
        List.Forall₂
          (fun op => Alternatives (Demand form literal range op) (givenValues op.name fs))
          (Comparison.all.map .compare ++ if patterned then [.pattern] else []) parts ∧
        n = .combine .and (parts.filterMap id) := by
  have none {patterns : List String} (unpatterned : patterned = false)
      (others : (if patterned then decodeFamily decodeString patternOperator fs else .done []) =
        .done patterns) : patterns = [] := by
    subst unpatterned
    cases others
    rfl
  rw [Decoded.map_eq_done, Families.decode]
  simp only [Decoded.combine_eq_done, forall₂_append_left, decodeFamilies_iff reads,
    decodePatterns_iff]
  constructor
  · rintro ⟨_, ⟨pairs, patterns, compared, others, rfl⟩, rfl⟩
    exact ⟨_, ⟨_, _, ⟨pairs, compared, rfl⟩, ⟨patterns, others, rfl⟩, rfl⟩,
      tree_eq fun unpatterned => none unpatterned others⟩
  · rintro ⟨_, ⟨_, _, ⟨pairs, compared, rfl⟩, ⟨patterns, others, rfl⟩, rfl⟩, rfl⟩
    exact ⟨_, ⟨pairs, patterns, compared, others, rfl⟩,
      tree_eq fun unpatterned => none unpatterned others⟩

end Demands

/-- The adapter gives exactly the trees of filters. -/
theorem Filter.decode_tree_iff {kind : OrderedKind} {fs : List (String × Value)} {n : Node} :
    (Filter.decode kind (.mapping fs)).map Filter.tree = .done n ↔ FilterForm kind fs n := by
  have through {β : Type} (d : Decoded (Families β)) (make : Families β → Filter) :
      (d.map make).map Filter.tree = d.map fun f => (make f).tree := by
    cases d <;> rfl
  cases kind with
  | string =>
    show ((Families.decode decodeString true fs).map Filter.string).map Filter.tree = _ ↔ _
    rw [through]
    exact Families.decode_tree_iff fun v s => decodeString_eq_done
  | number =>
    show ((Families.decode Number.decodeInput false fs).map Filter.number).map Filter.tree = _ ↔ _
    rw [through]
    exact Families.decode_tree_iff fun v s => Number.decodeInput_eq_done
  | date =>
    show ((Families.decode Moment.decode true fs).map Filter.date).map Filter.tree = _ ↔ _
    rw [through]
    exact Families.decode_tree_iff fun v s => Moment.decode_eq_done

/-! ## Shallow trees -/

theorem Literal.nest_toValue {l : Literal} {kind : OrderedKind} (ordered : l.kind = kind.toKind) :
    l.toValue.nest = 1 := by
  cases l with
  | number n => cases n <;> rfl
  | spatial p => cases kind <;> cases ordered
  | _ => rfl

theorem Range.nest_toValue (r : Range) : r.toValue.nest = 1 := by
  cases r with
  | string b =>
    obtain ⟨_, _, span⟩ := b
    cases span <;> rfl
  | number b =>
    obtain ⟨_, _, span⟩ := b
    rcases span with (_ | _) | (_ | _) | ⟨_ | _, _ | _⟩ <;> rfl
  | date b =>
    obtain ⟨_, _, span⟩ := b
    cases span <;> rfl

/-- The objects of a combination are two containers around those of its operands. -/
theorem Node.nest_combine_le {c : Connective} {ns : List Node} {k : Nat}
    (each : ∀ n ∈ ns, n.toValue.nest ≤ k) : (Node.combine c ns).toValue.nest ≤ k + 2 := by
  have operands : Value.nestList (Node.toValues ns) ≤ k := by
    rw [Value.nestList_le, Node.toValues_eq, List.forall_mem_map]
    exact each
  show max 0 (max (Value.nestList (Node.toValues ns) + 1) 0) + 1 ≤ k + 2
  omega

theorem Node.nest_alternatives_le {ns : List Node} {k : Nat} (each : ∀ n ∈ ns, n.toValue.nest ≤ k) :
    ∀ m ∈ (alternatives ns).toList, m.toValue.nest ≤ k + 2 := by
  intro m member
  cases ns with
  | nil => cases member
  | cons n ns =>
    cases member with
    | head => exact nest_combine_le each
    | tail _ none => cases none

/-- There is room for trees whose objects are not nested too deep. -/
theorem Node.InRoom.of_nest {n : Node} {room : Room}
    (shallow : n.toValue.nest + room.rank ≤ room.left) : n.InRoom room :=
  n.nodeForm_toValue.inRoom shallow

theorem Build.combine_shallow {c : Connective} {ns : List Node}
    (shallow : ∀ n ∈ ns, n.toValue.nest ≤ 4) :
    combine c (ns.map Node.toValue) = .ok (.combine c ns) := by
  refine combine_toValues fun n member => .of_nest ?_
  have small := shallow n member
  cases c <;> simp only [Node.model, Room.constructing, Model.rank?, readerLimit] <;> omega

/-! ## Filters through the builders -/

/-- How leaves and ranges of a kind hold their values. -/
structure Scalars (kind : OrderedKind) (α : Type) where
  literal : α → Literal
  range : Bounds α → Range
  toValue : α → Value
  literal_kind : ∀ a, (literal a).kind = kind.toKind
  literal_content : ∀ a, (literal a).content = toValue a
  range_kind : ∀ b, (range b).kind = kind
  range_fields : ∀ b, (range b).fields = b.fields toValue
  classify : ∀ a, Kind.classify (toValue a) = .ok kind

namespace Scalars

def strings : Scalars .string String where
  literal := .string
  range := .string
  toValue := .str
  literal_kind _ := rfl
  literal_content _ := rfl
  range_kind _ := rfl
  range_fields _ := rfl
  classify _ := rfl

def numbers : Scalars .number Number where
  literal := .number
  range := .number
  toValue := .ofNumber
  literal_kind _ := rfl
  literal_content _ := rfl
  range_kind _ := rfl
  range_fields _ := rfl
  classify n := by cases n <;> rfl

def moments : Scalars .date Moment where
  literal := .date
  range := .date
  toValue := .ofMoment
  literal_kind _ := rfl
  literal_content _ := rfl
  range_kind _ := rfl
  range_fields _ := rfl
  classify _ := rfl

variable {kind : OrderedKind} (s : Scalars kind α)

theorem build_literal (a : α) : Build.literal (s.toValue a) = .ok (.literal (s.literal a)) := by
  rw [← s.literal_content]
  refine Build.literal_content ?_ (s.literal_kind a).symm
  rw [s.literal_content]
  exact s.classify a

theorem build_range (b : Bounds α) :
    Build.range (.bool b.closedLower) (.bool b.closedUpper) (boundValue s.toValue b.span.lower?)
      (boundValue s.toValue b.span.upper?) = .ok (.range (s.range b)) := by
  refine Build.range_bounds (fun a => ?_) (s.range_fields b)
  rw [s.range_kind]
  exact s.classify a

theorem nest_literal (a : α) : (Node.literal (s.literal a)).toValue.nest = 1 :=
  Literal.nest_toValue (s.literal_kind a)

theorem nest_member (c : Comparison) (a : α) :
    (c.member s.literal s.range a).toValue.nest ≤ 2 := by
  cases c with
  | eq => exact (s.nest_literal a).trans_le (by decide)
  | neq =>
    show max 0 (max (s.literal a).toValue.nest 0) + 1 ≤ 2
    rw [Literal.nest_toValue (s.literal_kind a)]
    decide
  | gt | lt | gte | lte => exact (Range.nest_toValue _).trans_le (by decide)

/-- The builders make what an operator demands of a value. -/
theorem build_member (c : Comparison) (a : α) :
    c.build (s.toValue a) = .ok (c.member s.literal s.range a) := by
  cases c with
  | eq => exact s.build_literal a
  | neq =>
    rw [Comparison.build, s.build_literal]
    refine Build.modify_toValue (.of_nest ?_)
    rw [s.nest_literal]
    exact (by decide : 1 + 5 ≤ 254)
  | gt => exact s.build_range ⟨false, false, .above a⟩
  | lt => exact s.build_range ⟨false, false, .below a⟩
  | gte => exact s.build_range ⟨true, true, .above a⟩
  | lte => exact s.build_range ⟨true, true, .below a⟩

end Scalars

theorem mapM_ok {f : α → Except Failure β} {g : α → β} {xs : List α}
    (each : ∀ x, f x = .ok (g x)) : xs.mapM f = .ok (xs.map g) := by
  have pointwise : f = fun x => pure (g x) := funext each
  rw [pointwise, List.mapM_pure]
  rfl

/-- The alternatives for values that are held as a tuple. -/
theorem buildFamily_tuple {key : String} {member : Value → Except Failure Node}
    {fs : List (String × Value)} {toValue : α → Value} {g : α → Node} {as : List α}
    (found : fs.lookup key = some (.tuple (as.map toValue)))
    (builds : ∀ a, member (toValue a) = .ok (g a)) (shallow : ∀ a, (g a).toValue.nest ≤ 2) :
    buildFamily key member fs = .ok ((alternatives (as.map g)).toList.map Node.toValue) := by
  rw [buildFamily, found]
  cases as with
  | nil => rfl
  | cons a as =>
    have members : ((a :: as).map toValue).mapM member = .ok ((a :: as).map g) := by
      rw [List.mapM_map]
      exact mapM_ok builds
    show (do
        let members ← ((a :: as).map toValue).mapM member
        let node ← Build.combine .or (members.map Node.toValue)
        .ok [node.toValue]) = _
    rw [members]
    show (do
        let node ← Build.combine .or (((a :: as).map g).map Node.toValue)
        .ok [node.toValue]) = _
    rw [Build.combine_shallow]
    · rfl
    · intro n member
      obtain ⟨a, -, rfl⟩ := List.mem_map.1 member
      exact (shallow a).trans (by decide)

/-- The families of all comparisons, in their order. -/
def Families.ofValues (valuesOf : Comparison → List α) (patterns : List String) : Families α :=
  ⟨Comparison.all.map fun c => (c, valuesOf c), patterns⟩

section Objects

variable {kind : OrderedKind} (s : Scalars kind α) (valuesOf : Comparison → List α)
  (patterns : List String)

/-- The fields of a filter object. -/
def Families.fields : List (String × Value) :=
  (Model.filter kind).fieldsOf <|
    (ofValues valuesOf patterns).compared.map
        (fun (c, values) => (c.name, .tuple (values.map s.toValue))) ++
      [(patternOperator, .tuple (patterns.map .str))]

theorem Families.lookup_fields (c : Comparison) :
    (fields s valuesOf patterns).lookup c.name = some (.tuple ((valuesOf c).map s.toValue)) := by
  refine lookup_fieldsOf_given ?_ ?_
  · cases kind <;> cases c <;> decide
  · cases c <;> rfl

theorem Families.lookup_patterns (patterned : kind ≠ .number) :
    (fields s valuesOf patterns).lookup patternOperator =
      some (.tuple (patterns.map .str)) := by
  refine lookup_fieldsOf_given ?_ rfl
  cases kind with
  | number => exact absurd rfl patterned
  | _ => decide

theorem Families.build_patterns (none : kind = .number → patterns = []) :
    buildFamily patternOperator Build.globLiteral (fields s valuesOf patterns) =
      .ok ((alternatives (patterns.map fun p => .literal (.glob p))).toList.map Node.toValue) := by
  by_cases number : kind = .number
  · subst number
    rw [none rfl]
    have missing : (fields s valuesOf []).lookup patternOperator = Option.none := by
      unfold fields Model.fieldsOf
      rw [lookup_filterMap_names, if_neg (by decide)]
    rw [buildFamily, missing]
    rfl
  · exact buildFamily_tuple (lookup_patterns s valuesOf patterns number) Build.globLiteral_str
      fun _ => Nat.le_succ 1

/-- The builders make the tree of a filter object. -/
theorem Families.buildFilter_fields (none : kind = .number → patterns = []) :
    buildFilter (fields s valuesOf patterns) =
      .ok ((ofValues valuesOf patterns).tree s.literal s.range) := by
  have compared : (Comparison.all.mapM fun c =>
      buildFamily c.name c.build (fields s valuesOf patterns)) =
        .ok (Comparison.all.map fun c =>
          (alternatives ((valuesOf c).map (c.member s.literal s.range))).toList.map
            Node.toValue) :=
    mapM_ok fun c => buildFamily_tuple (lookup_fields s valuesOf patterns c) (s.build_member c)
      (s.nest_member c)
  rw [buildFilter, compared]
  show (do
      let built ← buildFamily patternOperator Build.globLiteral (fields s valuesOf patterns)
      Build.combine .and (_ ++ built)) = _
  rw [build_patterns s valuesOf patterns none]
  show Build.combine .and _ = _
  rw [← List.flatMap_def, ← List.map_flatMap, ← List.map_append, Build.combine_shallow]
  · rw [tree, ofValues, List.filterMap_map, List.filterMap_eq_flatMap_toList]
    rfl
  · simp only [List.forall_mem_append, List.forall_mem_flatMap]
    refine ⟨fun c _ => Node.nest_alternatives_le (List.forall_mem_map.2 fun a _ => ?_),
      Node.nest_alternatives_le (List.forall_mem_map.2 fun p _ => Nat.le_succ 1)⟩
    exact s.nest_member c a

end Objects

theorem decodeFamilies_eq_map {read : Value → Decoded α} {fs : List (String × Value)}
    {cs : List Comparison} {pairs : List (Comparison × List α)}
    (done : decodeFamilies read fs cs = .done pairs) :
    pairs = cs.map fun c => (c, (decodeFamily read c.name fs).result?.getD []) := by
  induction cs generalizing pairs with
  | nil =>
    cases done
    rfl
  | cons c cs ih =>
    obtain ⟨as, rest, values, others, rfl⟩ := Decoded.combine_eq_done.1 done
    rw [List.map_cons, ← ih others, values]
    rfl

/-- What is read has a family for each comparison, and patterns if there is an operator for them. -/
theorem Families.decode_ofValues {read : Value → Decoded α} {patterned : Bool}
    {fs : List (String × Value)} {f : Families α}
    (done : Families.decode read patterned fs = .done f) :
    ∃ valuesOf patterns, f = ofValues valuesOf patterns ∧ (patterned = false → patterns = []) := by
  obtain ⟨pairs, patterns, compared, others, rfl⟩ := Decoded.combine_eq_done.1 done
  refine ⟨_, patterns, congrArg (Families.mk · patterns) (decodeFamilies_eq_map compared), ?_⟩
  rintro rfl
  cases others
  rfl

/-- A filter that was read has the tree that the builders make of its object. -/
theorem Filter.filterTree_toValue {kind : OrderedKind} {fs : List (String × Value)} {f : Filter}
    (done : Filter.decode kind (.mapping fs) = .done f) :
    filterTree kind f.toValue = .ok (.accepted f.tree) := by
  have through {β : Type} (s : Scalars kind β) (valuesOf : Comparison → List β)
      {patterns : List String}
      (none : kind = .number → patterns = []) :
      filterTree kind (.object (.filter kind) (Families.fields s valuesOf patterns)) =
        .ok (.accepted ((Families.ofValues valuesOf patterns).tree s.literal s.range)) := by
    rw [filterTree, if_pos rfl, Families.buildFilter_fields s valuesOf patterns none]
    rfl
  cases kind with
  | string =>
    obtain ⟨g, read, rfl⟩ := Decoded.map_eq_done.1 done
    obtain ⟨valuesOf, patterns, rfl, -⟩ := Families.decode_ofValues read
    exact through Scalars.strings valuesOf (by rintro ⟨⟩)
  | number =>
    obtain ⟨g, read, rfl⟩ := Decoded.map_eq_done.1 done
    obtain ⟨valuesOf, patterns, rfl, none⟩ := Families.decode_ofValues read
    exact through Scalars.numbers valuesOf fun _ => none rfl
  | date =>
    obtain ⟨g, read, rfl⟩ := Decoded.map_eq_done.1 done
    obtain ⟨valuesOf, patterns, rfl, -⟩ := Families.decode_ofValues read
    exact through Scalars.moments valuesOf (by rintro ⟨⟩)

/-! ## Filters as term values -/

theorem Demanded.termValue {kind : OrderedKind} {op : Operator} {v : Value} {n : Node}
    (known : op ∈ Operator.all kind) (demanded : Demanded kind op v n) :
    TermValue kind.toKind n ∧ n.toValue.nest ≤ 2 := by
  have through {β : Type} {form : Value → β → Prop} (s : Scalars kind β)
      (demand : Demand form s.literal s.range op v n) :
      TermValue kind.toKind n ∧ n.toValue.nest ≤ 2 := by
    have literals (b : β) : TermValue kind.toKind (.literal (s.literal b)) :=
      .literal (s.literal_kind b)
    have ranges (b : Bounds β) : TermValue kind.toKind (.range (s.range b)) :=
      .range (congrArg OrderedKind.toKind (s.range_kind b))
    cases demand with
    | eq => exact ⟨literals _, s.nest_member .eq _⟩
    | neq => exact ⟨.modify (literals _), s.nest_member .neq _⟩
    | gt => exact ⟨ranges _, s.nest_member .gt _⟩
    | lt => exact ⟨ranges _, s.nest_member .lt _⟩
    | gte => exact ⟨ranges _, s.nest_member .gte _⟩
    | lte => exact ⟨ranges _, s.nest_member .lte _⟩
    | pattern =>
      refine ⟨.glob ?_, Nat.le_succ 1⟩
      cases kind with
      | string => exact .inl rfl
      | date => exact .inr (.inl rfl)
      | number => simp [Operator.all] at known
  cases kind with
  | string => exact through Scalars.strings demanded
  | number => exact through Scalars.numbers demanded
  | date => exact through Scalars.moments demanded

namespace FilterForm

variable {kind : OrderedKind} {fs : List (String × Value)} {n : Node}

/-- The operands of the tree of a filter are alternatives, which are what an operator demands. -/
theorem exists_alternatives (form : FilterForm kind fs n) :
    ∃ ns, n = .combine .and ns ∧ ∀ m ∈ ns, ∃ ms, m = .combine .or ms ∧
      ∀ w ∈ ms, TermValue kind.toKind w ∧ w.toValue.nest ≤ 2 := by
  obtain ⟨parts, families, rfl⟩ := form
  refine ⟨_, rfl, fun m member => ?_⟩
  obtain ⟨part, there, same⟩ := List.mem_filterMap.1 member
  cases same
  obtain ⟨op, known, alternatives⟩ := forall₂_exists_left families _ there
  generalize givenValues op.name fs = vs at alternatives
  cases alternatives with
  | some all =>
    refine ⟨_, rfl, fun w inside => ?_⟩
    obtain ⟨v, -, demanded⟩ := forall₂_exists_left all w inside
    exact demanded.termValue known

theorem termValue (form : FilterForm kind fs n) : TermValue kind.toKind n := by
  obtain ⟨ns, rfl, parts⟩ := form.exists_alternatives
  refine .combine fun m member => ?_
  obtain ⟨ms, rfl, demands⟩ := parts m member
  exact .combine fun w inside => (demands w inside).1

theorem nest_le (form : FilterForm kind fs n) : n.toValue.nest ≤ 6 := by
  obtain ⟨ns, rfl, parts⟩ := form.exists_alternatives
  refine Node.nest_combine_le fun m member => ?_
  obtain ⟨ms, rfl, demands⟩ := parts m member
  exact Node.nest_combine_le fun w inside => (demands w inside).2

theorem formed (form : FilterForm kind fs n) : n.Formed := by
  have shallow := form.nest_le
  refine Node.formed_iff.2 (.of_nest ?_)
  simp only [Room.full, readerLimit]
  omega

end FilterForm

/-! ## The adapter -/

/-- The adapter accepts exactly the mappings of filters, as the trees that they stand for. -/
theorem filterTree_eq_accepted {kind : OrderedKind} {fs : List (String × Value)} {n : Node} :
    filterTree kind (.mapping fs) = .ok (.accepted n) ↔ FilterForm kind fs n := by
  rw [← Filter.decode_tree_iff, ← Decoded.verdict_eq_accepted]
  rfl

/-- The tree of a filter has an operand for each operator that has values, in the fixed order, and
    in it a member for each value, in the order in which they are given.  The builders make the same
    tree of the values that were read.  Checked as a term value of the kind or as a query, the tree
    is accepted as it is, and its query is its text. -/
theorem filterTree_correct {kind : OrderedKind} {fs : List (String × Value)} {n : Node}
    (accepted : filterTree kind (.mapping fs) = .ok (.accepted n)) :
    FilterForm kind fs n ∧
    (∃ f, Filter.decode kind (.mapping fs) = .done f ∧
      filterTree kind f.toValue = .ok (.accepted n)) ∧
    ∀ limit : Int, 6 ≤ limit →
      (∀ name, Value.text? name = some kind.name →
        validateTermValue name limit n.toValue = .ok (.accepted n)) ∧
      validateElement limit n.toValue = .ok (.accepted n) ∧
      (n.writable = true → n.toValue.render = .ok n.text ∧
        toQuery limit n.toValue = .ok (.accepted (String.ofList n.text))) := by
  have form := filterTree_eq_accepted.1 accepted
  refine ⟨form, ?_, fun limit enough => ?_⟩
  · obtain ⟨f, read, rfl⟩ := Decoded.map_eq_done.1 (Filter.decode_tree_iff.2 form)
    exact ⟨f, read, Filter.filterTree_toValue read⟩
  · have deep : (n.toValue.nest : Int) ≤ limit := by
      have small := form.nest_le
      omega
    have decided (role : Role) (placed : role.issues n = []) :
        checkValue role limit n.toValue = .ok (.accepted n) := by
      rw [checkValue_toValue form.formed deep, Role.verdict, placed]
    have element : validateElement limit n.toValue = .ok (.accepted n) :=
      decided .element (Node.elementIssues_eq_nil.2 (.inr ⟨_, form.termValue⟩))
    refine ⟨fun name named => ?_, element, fun writable => ?_⟩
    · rw [validateTermValue_named named]
      exact decided (.termValue kind.toKind) (Node.termValueIssues_eq_nil.2 form.termValue)
    · exact ⟨form.formed.render_toValue writable, toQuery_eq_accepted.2 ⟨n, element, writable, rfl⟩⟩

/-- Two values that are no matches and a pattern, beside an absent and an unknown operator. -/
def nameFilter : Value :=
  .mapping [("glob", .str "READ*"), ("gt", .null), ("size", .int 3),
    ("neq", .list [.str "a", .str "b"])]

def Node.nameFilter : Node :=
  .combine .and [
    .combine .or [.modify .not (.literal (.string "a")), .modify .not (.literal (.string "b"))],
    .combine .or [.literal (.glob "READ*")]]

/-- The pattern comes last, and the least limit is enough. -/
theorem filterTree_correct_nameFilter :
    filterTree .string nameFilter = .ok (.accepted .nameFilter) ∧
      validateTermValue (.kind .string) 6 Node.nameFilter.toValue = .ok (.accepted .nameFilter) ∧
      toQuery 6 Node.nameFilter.toValue =
        .ok (.accepted "(((NOT \"a\") OR (NOT \"b\")) AND (READ*))") := by
  have accepted : filterTree .string nameFilter = .ok (.accepted .nameFilter) := rfl
  obtain ⟨-, -, checked⟩ := filterTree_correct accepted
  obtain ⟨termValue, -, written⟩ := checked 6 (by decide)
  refine ⟨accepted, termValue _ rfl, ?_⟩
  rw [(written rfl).2]
  rfl

end QueryTree
