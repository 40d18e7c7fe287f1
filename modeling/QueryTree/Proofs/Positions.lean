import Mathlib.Order.BooleanAlgebra.Set
import QueryTree.Proofs.Nesting
import QueryTree.Validation

/-!
# Clauses and term values

Which trees are clauses and which are term values of a kind, as inductive grammars, and the
positional check decides them.  The kinds that accept a tree are determined by its leaves.

* `TermValue`, `Clause`          : the grammars
* `Node.termValueIssues_eq_nil`, `Node.clauseIssues_eq_nil` : the checks decide them
* `HasLeaf`, `ReachesClause`     : what is reached through operands and modifiers
* `Node.termValue_iff`           : the leaves determine the kinds
* `Node.positions_decided`       : the same of the entry points
-/

namespace QueryTree

/-! ## Grammars -/

/-- Leaves and ranges of one kind, and patterns where the kind has patterns, combined and
    modified. -/
inductive TermValue (kind : Kind) : Node → Prop where
  | literal {l : Literal} : l.kind = kind → TermValue kind (.literal l)
  | glob {pattern : String} :
      kind = .string ∨ kind = .date ∨ kind = .glob → TermValue kind (.literal (.glob pattern))
  | range {r : Range} : r.kind.toKind = kind → TermValue kind (.range r)
  | combine {c : Connective} {ns : List Node} :
      (∀ n ∈ ns, TermValue kind n) → TermValue kind (.combine c ns)
  | modify {m : Modifier} {n : Node} : TermValue kind n → TermValue kind (.modify m n)

/-- Searches for term values, and what is made of clauses; combinations have operands. -/
inductive Clause : Node → Prop where
  | term {kind : Kind} {v : Node} : TermValue kind v → Clause (.term v)
  | namedTerm {kind : Kind} {f : FieldName} {v : Node} :
      TermValue kind v → Clause (.namedTerm f v)
  | constant {n : Node} {boost : Number} : Clause n → Clause (.constant n boost)
  | combine {c : Connective} {ns : List Node} :
      ns ≠ [] → (∀ n ∈ ns, Clause n) → Clause (.combine c ns)
  | modify {m : Modifier} {n : Node} : Clause n → Clause (.modify m n)

namespace Node

variable {kind : Kind}

/-! ## Term values -/

theorem termValue_literal {l : Literal} :
    TermValue kind (.literal l) ↔ l.fits kind = true := by
  constructor
  · intro good
    cases good with
    | literal same => simp [Literal.fits, same]
    | glob capable => rcases capable with rfl | rfl | rfl <;> rfl
  · intro fits
    rcases Bool.or_eq_true_iff.1 fits with same | pattern
    · exact .literal (beq_iff_eq.1 same)
    · obtain ⟨isGlob, capable⟩ := Bool.and_eq_true_iff.1 pattern
      cases l with
      | glob s => exact .glob (by cases kind <;> simp_all [Kind.globCapable])
      | _ => cases isGlob

theorem termValue_range {r : Range} : TermValue kind (.range r) ↔ r.fits kind = true := by
  have capable : r.kind.toKind.rangeCapable = true := by cases r <;> rfl
  constructor
  · rintro (_ | _ | same)
    subst same
    simp [Range.fits, capable]
  · intro fits
    exact .range (beq_iff_eq.1 (Bool.and_eq_true_iff.1 fits).2)

theorem termValueIssuesOf_eq_nil {path : Path} {i : Nat} {ns : List Node}
    (each : ∀ n ∈ ns, ∀ path, n.termValueIssues kind path = [] ↔ TermValue kind n) :
    termValueIssuesOf kind path i ns = [] ↔ ∀ n ∈ ns, TermValue kind n := by
  induction ns generalizing i with
  | nil => simp [termValueIssuesOf]
  | cons n ns ih =>
    rw [termValueIssuesOf, List.append_eq_nil_iff, each n (.head _),
      ih fun m member => each m (.tail _ member), List.forall_mem_cons]

/-- The check finds no issue exactly in term values of the kind. -/
theorem termValueIssues_eq_nil {n : Node} {path : Path} :
    n.termValueIssues kind path = [] ↔ TermValue kind n := by
  induction n using Node.induction generalizing path with
  | literal l =>
    rw [termValue_literal, termValueIssues]
    split <;> simp_all
  | range r =>
    rw [termValue_range, termValueIssues]
    split <;> simp_all
  | combine c ns ih =>
    rw [termValueIssues, termValueIssuesOf_eq_nil fun n member path => ih n member]
    constructor
    · exact .combine
    · rintro (_ | _ | _ | all)
      exact all
  | modify m n ih =>
    rw [termValueIssues, ih]
    constructor
    · exact .modify
    · rintro (_ | _ | _ | _ | good)
      exact good
  | term _ _ | namedTerm _ _ _ | constant _ _ _ =>
    rw [termValueIssues]
    constructor
    · rintro ⟨⟩
    · rintro ⟨⟩

/-- The first success of the five retries counts. -/
theorem anyTermValueIssues_eq_nil {n : Node} {path : Path} :
    n.anyTermValueIssues path = [] ↔ ∃ kind, TermValue kind n := by
  have found : ((Kind.all.map fun kind => n.termValueIssues kind path).any List.isEmpty) = true ↔
      ∃ kind, TermValue kind n := by
    simp only [List.any_map, List.any_eq_true, Function.comp_apply, List.isEmpty_iff,
      termValueIssues_eq_nil]
    exact ⟨fun ⟨kind, _, good⟩ => ⟨kind, good⟩, fun ⟨kind, good⟩ => ⟨kind, kind.mem_all, good⟩⟩
  rw [anyTermValueIssues, ← found]
  split
  · next some => simp [some]
  · next none =>
    refine iff_of_false ?_ none
    intro empty
    -- without issues in sum, the attempt for strings alone has none
    have first : n.termValueIssues .string path = [] := by
      simp only [Kind.all, List.map_cons, List.flatten_cons, List.append_eq_nil_iff] at empty
      exact empty.1
    refine none (List.any_eq_true.2 ⟨[], ?_, rfl⟩)
    exact List.mem_map.2 ⟨.string, Kind.mem_all _, first⟩

/-! ## Clauses -/

theorem clauseIssuesOf_eq_nil {path : Path} {i : Nat} {ns : List Node}
    (each : ∀ n ∈ ns, ∀ path, n.clauseIssues path = [] ↔ Clause n) :
    clauseIssuesOf path i ns = [] ↔ ∀ n ∈ ns, Clause n := by
  induction ns generalizing i with
  | nil => simp [clauseIssuesOf]
  | cons n ns ih =>
    rw [clauseIssuesOf, List.append_eq_nil_iff, each n (.head _),
      ih fun m member => each m (.tail _ member), List.forall_mem_cons]

/-- The check finds no issue exactly in clauses. -/
theorem clauseIssues_eq_nil {n : Node} {path : Path} : n.clauseIssues path = [] ↔ Clause n := by
  induction n using Node.induction generalizing path with
  | literal _ | range _ =>
    rw [clauseIssues]
    constructor
    · rintro ⟨⟩
    · rintro ⟨⟩
  | term v _ =>
    rw [clauseIssues, anyTermValueIssues_eq_nil]
    constructor
    · rintro ⟨kind, good⟩
      exact .term good
    · rintro ⟨good⟩
      exact ⟨_, good⟩
  | namedTerm f v _ =>
    rw [clauseIssues, anyTermValueIssues_eq_nil]
    constructor
    · rintro ⟨kind, good⟩
      exact .namedTerm good
    · rintro (_ | good)
      exact ⟨_, good⟩
  | combine c ns ih =>
    rw [clauseIssues]
    cases ns with
    | nil =>
      constructor
      · rintro ⟨⟩
      · rintro (_ | _ | _ | ⟨filled, -⟩)
        exact absurd rfl filled
    | cons n ns =>
      rw [List.isEmpty_cons, if_neg Bool.false_ne_true,
        clauseIssuesOf_eq_nil fun n member path => ih n member]
      constructor
      · exact .combine (List.cons_ne_nil n ns)
      · rintro (_ | _ | _ | ⟨-, all⟩)
        exact all
  | modify m n ih =>
    rw [clauseIssues, ih]
    constructor
    · exact .modify
    · rintro (_ | _ | _ | _ | good)
      exact good
  | constant n boost ih =>
    rw [clauseIssues, ih]
    constructor
    · exact .constant
    · rintro (_ | _ | good)
      exact good

theorem elementIssues_eq_nil {n : Node} :
    n.elementIssues = [] ↔ Clause n ∨ ∃ kind, TermValue kind n := by
  have clause : n.clauseIssues [] = [] ↔ Clause n := clauseIssues_eq_nil
  have value : n.anyTermValueIssues [] = [] ↔ ∃ kind, TermValue kind n := anyTermValueIssues_eq_nil
  rw [← clause, ← value, elementIssues]
  simp only [Bool.or_eq_true, List.isEmpty_iff]
  split
  · next some => simp [some]
  · next none =>
    simp only [List.append_eq_nil_iff, none, iff_false, not_and]
    exact fun clause _ => none (.inl clause)

end Node

/-! ## Leaves -/

/-- A leaf or range of a kind is reached through operands and modifiers. -/
inductive HasLeaf (kind : Kind) : Node → Prop where
  | literal {l : Literal} : l.kind = kind → HasLeaf kind (.literal l)
  | range {r : Range} : r.kind.toKind = kind → HasLeaf kind (.range r)
  | combine {c : Connective} {ns : List Node} {n : Node} :
      n ∈ ns → HasLeaf kind n → HasLeaf kind (.combine c ns)
  | modify {m : Modifier} {n : Node} : HasLeaf kind n → HasLeaf kind (.modify m n)

/-- A term or a score is reached through operands and modifiers. -/
inductive ReachesClause : Node → Prop where
  | term {v : Node} : ReachesClause (.term v)
  | namedTerm {f : FieldName} {v : Node} : ReachesClause (.namedTerm f v)
  | constant {n : Node} {boost : Number} : ReachesClause (.constant n boost)
  | combine {c : Connective} {ns : List Node} {n : Node} :
      n ∈ ns → ReachesClause n → ReachesClause (.combine c ns)
  | modify {m : Modifier} {n : Node} : ReachesClause n → ReachesClause (.modify m n)

/-- A leaf of one kind may stand in a term value of another. -/
def Kind.admits (kind leaf : Kind) : Prop :=
  leaf = kind ∨ leaf = .glob ∧ (kind = .string ∨ kind = .date ∨ kind = .glob)

/-- A tree is a term value of a kind if nothing but leaves is reached in it, and the kind admits
    each of them. -/
theorem Node.termValue_iff {kind : Kind} {n : Node} :
    TermValue kind n ↔ ¬ ReachesClause n ∧ ∀ leaf, HasLeaf leaf n → kind.admits leaf := by
  induction n using Node.induction with
  | literal l =>
    constructor
    · intro good
      refine ⟨by rintro ⟨⟩, ?_⟩
      rintro leaf ⟨rfl⟩
      cases good with
      | literal same => exact .inl same
      | glob capable => exact .inr ⟨rfl, capable⟩
    · rintro ⟨-, admitted⟩
      rcases admitted _ (.literal rfl) with same | ⟨pattern, capable⟩
      · exact .literal same
      · cases l with
        | glob s => exact .glob capable
        | _ => cases pattern
  | range r =>
    constructor
    · rintro (_ | _ | same)
      refine ⟨by rintro ⟨⟩, ?_⟩
      rintro leaf (_ | rfl)
      exact .inl same
    · rintro ⟨-, admitted⟩
      rcases admitted _ (.range rfl) with same | ⟨pattern, -⟩
      · exact .range same
      · cases r <;> cases pattern
  | combine c ns ih =>
    constructor
    · rintro (_ | _ | _ | all)
      constructor
      · rintro (_ | _ | _ | ⟨member, reached⟩)
        exact ((ih _ member).1 (all _ member)).1 reached
      · rintro leaf (_ | _ | ⟨member, there⟩)
        exact ((ih _ member).1 (all _ member)).2 leaf there
    · rintro ⟨closed, admitted⟩
      refine .combine fun n member => (ih n member).2 ⟨?_, ?_⟩
      · exact fun reached => closed (.combine member reached)
      · exact fun leaf there => admitted leaf (.combine member there)
  | modify m n ih =>
    constructor
    · rintro (_ | _ | _ | _ | good)
      constructor
      · rintro (_ | _ | _ | _ | reached)
        exact (ih.1 good).1 reached
      · rintro leaf (_ | _ | _ | there)
        exact (ih.1 good).2 leaf there
    · rintro ⟨closed, admitted⟩
      refine .modify (ih.2 ⟨?_, ?_⟩)
      · exact fun reached => closed (.modify reached)
      · exact fun leaf there => admitted leaf (.modify there)
  | term v _ =>
    exact iff_of_false (by rintro ⟨⟩) fun alone => alone.1 .term
  | namedTerm f v _ =>
    exact iff_of_false (by rintro ⟨⟩) fun alone => alone.1 .namedTerm
  | constant n boost _ =>
    exact iff_of_false (by rintro ⟨⟩) fun alone => alone.1 .constant

/-! ## Kinds by leaves -/

/-- The kinds of the leaves that are reached. -/
def Node.leafKinds (n : Node) : Set Kind :=
  {leaf | HasLeaf leaf n}

/-- The kinds of which a tree is a term value. -/
def Node.acceptingKinds (n : Node) : Set Kind :=
  {kind | TermValue kind n}

section Kinds

variable {n : Node} (closed : ¬ ReachesClause n)

include closed

theorem mem_acceptingKinds {kind : Kind} :
    kind ∈ n.acceptingKinds ↔ ∀ leaf ∈ n.leafKinds, kind.admits leaf := by
  show TermValue kind n ↔ _
  rw [Node.termValue_iff]
  exact and_iff_right closed

theorem acceptingKinds_of_none (none : n.leafKinds = ∅) : n.acceptingKinds = Set.univ := by
  ext kind
  rw [mem_acceptingKinds closed, none]
  simp

theorem acceptingKinds_of_patterns (patterns : n.leafKinds = {.glob}) :
    n.acceptingKinds = {.string, .date, .glob} := by
  ext kind
  rw [mem_acceptingKinds closed, patterns]
  cases kind <;> simp [Kind.admits]

theorem acceptingKinds_of_kind {kind : Kind} (other : n.leafKinds \ {.glob} = {kind})
    (capable : .glob ∈ n.leafKinds → kind = .string ∨ kind = .date) :
    n.acceptingKinds = {kind} := by
  have there : kind ∈ n.leafKinds \ {.glob} := by rw [other]; rfl
  ext k
  rw [mem_acceptingKinds closed]
  constructor
  · intro all
    rcases all kind there.1 with same | ⟨pattern, -⟩
    · exact same.symm
    · exact absurd pattern there.2
  · rintro rfl leaf member
    by_cases pattern : leaf = .glob
    · subst pattern
      rcases capable member with string | date
      · exact .inr ⟨rfl, .inl string⟩
      · exact .inr ⟨rfl, .inr (.inl date)⟩
    · have inside : leaf ∈ n.leafKinds \ {.glob} := ⟨member, pattern⟩
      rw [other] at inside
      exact .inl inside

theorem acceptingKinds_of_mixed (some : n.leafKinds ≠ ∅) (other : n.leafKinds ≠ {.glob})
    (mixed : ∀ kind, n.leafKinds \ {.glob} = {kind} →
      .glob ∈ n.leafKinds ∧ kind ≠ .string ∧ kind ≠ .date) : n.acceptingKinds = ∅ := by
  rw [Set.eq_empty_iff_forall_notMem]
  intro kind accepting
  rw [mem_acceptingKinds closed] at accepting
  -- a leaf that is no pattern is of the accepting kind
  have same (leaf : Kind) (member : leaf ∈ n.leafKinds \ {.glob}) : leaf = kind := by
    rcases accepting leaf member.1 with same | ⟨pattern, -⟩
    · exact same
    · exact absurd pattern member.2
  have rest : (n.leafKinds \ {.glob}).Nonempty := by
    rw [Set.nonempty_iff_ne_empty, ne_eq, Set.sdiff_eq_empty, Set.subset_singleton_iff_eq]
    exact fun few => few.elim some other
  obtain ⟨leaf, member⟩ := rest
  have single : n.leafKinds \ {.glob} = {kind} := by
    rw [Set.eq_singleton_iff_unique_mem]
    exact ⟨same leaf member ▸ member, same⟩
  obtain ⟨pattern, noString, noDate⟩ := mixed kind single
  rcases accepting .glob pattern with own | ⟨-, string | date | glob⟩
  · exact (same leaf member ▸ member).2 own.symm
  · exact noString string
  · exact noDate date
  · exact (same leaf member ▸ member).2 glob

end Kinds

/-! ## Entry points -/

/-- A verdict accepts the tree if a property holds, and rejects it for some reason otherwise. -/
def Decides (p : Prop) (outcome : Except Failure (Verdict Node)) (n : Node) : Prop :=
  (p → outcome = .ok (.accepted n)) ∧ (¬ p → ∃ reasons, outcome = .ok (.rejected reasons))

/-- The object of a tree passes the guard and is read as the tree; positions are all that is left. -/
theorem checkValue_toValue {role : Role} {limit : Int} {n : Node} (formed : n.Formed)
    (deep : (n.toValue.nest : Int) ≤ limit) :
    checkValue role limit n.toValue = .ok (role.verdict n) := by
  rw [checkValue, Node.guardDepth_toValue deep]
  simp only [formed.decode_toValue, Decoded.verdict]
  rfl

theorem Decoded.verdict_eq_accepted {α : Type} {d : Decoded α} {a : α} :
    d.verdict = .ok (.accepted a) ↔ d = .done a := by
  constructor
  · intro accepted
    unfold Decoded.verdict at accepted
    split at accepted
    · cases accepted
      rfl
    · split at accepted <;> cases accepted
    · cases accepted
  · rintro rfl
    rfl

theorem Role.verdict_eq_accepted {role : Role} {n m : Node} :
    role.verdict n = .accepted m ↔ role.issues n = [] ∧ n = m := by
  unfold Role.verdict
  cases role.issues n <;> simp

/-- What is accepted passed the guard, was read as the tree, and has its parts in place. -/
theorem checkValue_eq_accepted {role : Role} {limit : Int} {v : Value} {n : Node} :
    checkValue role limit v = .ok (.accepted n) ↔
      guardDepth limit v = .ok () ∧ Node.decode v = .done n ∧ role.issues n = [] := by
  unfold checkValue
  cases guardDepth limit v with
  | error e =>
    refine iff_of_false ?_ (by simp)
    cases e <;> simp
  | ok _ =>
    rw [← Decoded.verdict_eq_accepted]
    constructor
    · intro accepted
      cases verdict : (Node.decode v).verdict with
      | error failure =>
        rw [verdict] at accepted
        cases accepted
      | ok outcome =>
        rw [verdict] at accepted
        cases outcome with
        | rejected reasons => cases accepted
        | accepted m =>
          obtain ⟨placed, rfl⟩ := Role.verdict_eq_accepted.1 (Except.ok.inj accepted)
          exact ⟨rfl, rfl, placed⟩
    · rintro ⟨-, read, placed⟩
      rw [read]
      exact congrArg Except.ok (Role.verdict_eq_accepted.2 ⟨placed, rfl⟩)

theorem checkValue_decides {role : Role} {limit : Int} {n : Node} {p : Prop} (formed : n.Formed)
    (deep : (n.toValue.nest : Int) ≤ limit) (checks : role.issues n = [] ↔ p) :
    Decides p (checkValue role limit n.toValue) n := by
  rw [checkValue_toValue formed deep]
  constructor
  · intro holds
    simp only [Role.verdict, checks.2 holds]
  · intro fails
    cases issues : role.issues n with
    | nil => exact absurd (checks.1 issues) fails
    | cons i is => exact ⟨.misplaced i is, by simp only [Role.verdict, issues]⟩

theorem validateTermValue_named {kind : Kind} {name v : Value} {limit : Int}
    (named : name.text? = some kind.name) :
    validateTermValue name limit v = checkValue (.termValue kind) limit v := by
  rw [validateTermValue, Kind.lookup_name named]
  rfl

/-- The entry points decide clauses, term values of a kind, and either; which kinds accept a tree
    is determined by what is reached through its operands and modifiers. -/
theorem Node.positions_decided {n : Node} {limit : Int} (formed : n.Formed)
    (deep : (n.toValue.nest : Int) ≤ limit) :
    Decides (Clause n) (validateClause limit n.toValue) n ∧
    (∀ kind name, Value.text? name = some (Kind.name kind) →
      Decides (TermValue kind n) (validateTermValue name limit n.toValue) n) ∧
    Decides (Clause n ∨ ∃ kind, TermValue kind n) (validateElement limit n.toValue) n ∧
    (ReachesClause n → n.acceptingKinds = ∅) ∧
    (¬ ReachesClause n →
      (n.leafKinds = ∅ → n.acceptingKinds = Set.univ) ∧
      (n.leafKinds = {.glob} → n.acceptingKinds = {.string, .date, .glob}) ∧
      (∀ kind, n.leafKinds \ {.glob} = {kind} →
        (.glob ∉ n.leafKinds ∨ kind = .string ∨ kind = .date) → n.acceptingKinds = {kind}) ∧
      (n.leafKinds ≠ ∅ → n.leafKinds ≠ {.glob} →
        (∀ kind, n.leafKinds \ {.glob} = {kind} →
          ¬ (.glob ∉ n.leafKinds ∨ kind = .string ∨ kind = .date)) → n.acceptingKinds = ∅)) := by
  refine ⟨checkValue_decides formed deep clauseIssues_eq_nil, ?_,
    checkValue_decides formed deep elementIssues_eq_nil, ?_, ?_⟩
  · intro kind name named
    rw [validateTermValue_named named]
    exact checkValue_decides formed deep termValueIssues_eq_nil
  · intro reached
    rw [Set.eq_empty_iff_forall_notMem]
    exact fun kind good => (termValue_iff.1 good).1 reached
  · intro closed
    refine ⟨acceptingKinds_of_none closed, acceptingKinds_of_patterns closed, ?_, ?_⟩
    · intro kind other capable
      exact acceptingKinds_of_kind closed other fun pattern => capable.resolve_left (· pattern)
    · intro some other mixed
      refine acceptingKinds_of_mixed closed some other fun kind single => ?_
      simpa only [not_or, not_not, ne_eq] using mixed kind single

def Node.patternAndText : Node :=
  .combine .and [.literal (.glob "li*"), .literal (.string "lion")]

/-- A pattern beside text is a term value of strings and of nothing else. -/
theorem Node.positions_decided_pattern_and_text :
    validateTermValue (.kind .string) 200 patternAndText.toValue =
        .ok (.accepted patternAndText) ∧
      patternAndText.acceptingKinds = {.string} := by
  have deep : (patternAndText.toValue.nest : Int) ≤ (200 : Int) := by decide
  have formed : patternAndText.Formed := formed_iff.2 (by decide)
  obtain ⟨-, termValue, -, -, kinds⟩ := positions_decided formed deep
  have closed : ¬ ReachesClause patternAndText := by
    unfold patternAndText
    rintro (_ | _ | _ | ⟨member, reached⟩)
    simp only [List.mem_cons, List.not_mem_nil, or_false] at member
    rcases member with rfl | rfl <;> cases reached
  have good : TermValue .string patternAndText := by
    refine .combine fun m member => ?_
    simp only [List.mem_cons, List.not_mem_nil, or_false] at member
    rcases member with rfl | rfl
    · exact .glob (.inl rfl)
    · exact .literal rfl
  refine ⟨(termValue .string _ rfl).1 good, (kinds closed).2.2.1 .string ?_ (.inr (.inl rfl))⟩
  ext leaf
  constructor
  · rintro ⟨_ | _ | ⟨member, there⟩, other⟩
    simp only [List.mem_cons, List.not_mem_nil, or_false] at member
    rcases member with rfl | rfl
    · cases there with
      | literal same => exact absurd same.symm other
    · cases there with
      | literal same => exact same.symm
  · rintro rfl
    exact ⟨.combine (.tail _ (.head _)) (.literal rfl), by decide⟩

end QueryTree
