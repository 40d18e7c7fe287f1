import QueryTree.Proofs.Positions

/-!
# The places of misplaced parts

Each positional check visits the places at which the ways into a tree end, from left to right, and
reports what must not stand there.  So every misplaced part is named, by its own place, and nothing
else is.

* `Path.Before`          : the order of places
* `Node.Reaches`         : what stands at a place
* `Node.ends`            : the places at which the ways end
* `Node.termValueIssues_eq`, `Node.clauseIssues_eq` : the checks visit these places
* `Misfit`, `Refused`    : what is reported at a place
* `Node.issues_in_order` : the issues of a tree
-/

namespace QueryTree

/-! ## The order of places -/

/-- One place stands before another: where their ways part, it lies in an earlier operand. -/
def Path.Before (p q : Path) : Prop :=
  ∃ (front : Path) (i j : Nat) (rest rest' : Path),
    p = front ++ .index i :: rest ∧ q = front ++ .index j :: rest' ∧ i < j

namespace Path.Before

variable {p q : Path}

theorem under (before : Before p q) (front : Path) : Before (front ++ p) (front ++ q) := by
  obtain ⟨shared, i, j, rest, rest', rfl, rfl, less⟩ := before
  exact ⟨front ++ shared, i, j, rest, rest', by simp, by simp, less⟩

theorem ne (before : Before p q) : p ≠ q := by
  obtain ⟨shared, i, j, rest, rest', rfl, rfl, less⟩ := before
  intro same
  have steps := List.append_cancel_left same
  simp only [List.cons.injEq, Step.index.injEq] at steps
  omega

theorem operands {i j : Nat} (less : i < j) (p q : Path) :
    Before (.field "operands" :: .index i :: p) (.field "operands" :: .index j :: q) :=
  ⟨[.field "operands"], i, j, p, q, rfl, rfl, less⟩

end Path.Before

/-! ## The ways into a tree -/

namespace Node

/-- A node is reached along a path through operands and modifiers, and through scores where these
    count. -/
inductive Reaches (scored : Bool) : Node → Path → Node → Prop where
  | here {n : Node} : Reaches scored n [] n
  | operand {c : Connective} {ns : List Node} {i : Nat} {n m : Node} {path : Path} :
      ns[i]? = some n → Reaches scored n path m →
        Reaches scored (.combine c ns) (.field "operands" :: .index i :: path) m
  | rhs {o : Modifier} {n m : Node} {path : Path} :
      Reaches scored n path m → Reaches scored (.modify o n) (.field "rhs" :: path) m
  | lhs {n m : Node} {boost : Number} {path : Path} :
      scored = true → Reaches scored n path m →
        Reaches scored (.constant n boost) (.field "lhs" :: path) m

/-- Whether no way goes on from a node. -/
def isEnd (scored : Bool) : Node → Bool
  | .combine _ ns => ns.isEmpty
  | .modify _ _ => false
  | .constant _ _ => !scored
  | _ => true

/-- Places below a node, seen from above it. -/
def seenFrom (front : Path) (found : List (Path × Node)) : List (Path × Node) :=
  found.map fun q => (front ++ q.1, q.2)

mutual

/-- The places at which the ways into a tree end, from left to right, and what stands there. -/
def ends (scored : Bool) : Node → List (Path × Node)
  | .combine c ns => if ns.isEmpty then [([], .combine c ns)] else endsOf scored 0 ns
  | .modify _ n => seenFrom [.field "rhs"] (ends scored n)
  | .constant n boost =>
    if scored then seenFrom [.field "lhs"] (ends scored n) else [([], .constant n boost)]
  | n => [([], n)]

/-- The ends below operands; the first of them has position `i`. -/
def endsOf (scored : Bool) (i : Nat) : List Node → List (Path × Node)
  | [] => []
  | n :: ns => seenFrom [.field "operands", .index i] (ends scored n) ++ endsOf scored (i + 1) ns

end

variable {scored : Bool} {n m : Node} {path : Path}

theorem mem_seenFrom {front : Path} {found : List (Path × Node)} :
    (path, m) ∈ seenFrom front found ↔ ∃ rest, (rest, m) ∈ found ∧ path = front ++ rest := by
  simp [seenFrom, eq_comm]

theorem pairwise_seenFrom {front : Path} {found : List (Path × Node)}
    (ordered : found.Pairwise fun q r => q.1.Before r.1) :
    (seenFrom front found).Pairwise fun q r => q.1.Before r.1 :=
  List.pairwise_map.2 (ordered.imp fun before => before.under front)

theorem endsOf_eq (i : Nat) (ns : List Node) :
    endsOf scored i ns = (ns.zipIdx i).flatMap fun q =>
      seenFrom [.field "operands", .index q.2] (q.1.ends scored) := by
  induction ns generalizing i with
  | nil => rfl
  | cons n ns ih => rw [endsOf, ih, List.zipIdx_cons, List.flatMap_cons]

theorem mem_of_end (final : n.isEnd scored = true)
    (only : ∀ {path m}, Reaches scored n path m → path = [] ∧ m = n) :
    (path, m) ∈ [([], n)] ↔ Reaches scored n path m ∧ m.isEnd scored = true := by
  simp only [List.mem_singleton, Prod.mk.injEq]
  constructor
  · rintro ⟨rfl, rfl⟩
    exact ⟨.here, final⟩
  · exact fun ⟨reached, _⟩ => only reached

/-- What stands at the ends is what is reached there and leads no further. -/
theorem mem_ends : (path, m) ∈ n.ends scored ↔ Reaches scored n path m ∧ m.isEnd scored = true := by
  induction n using Node.induction generalizing path with
  | literal _ | range _ | term _ _ | namedTerm _ _ _ =>
    refine mem_of_end rfl ?_
    rintro _ _ ⟨⟩
    exact ⟨rfl, rfl⟩
  | combine c ns ih =>
    rw [ends]
    split
    · next empty =>
      refine mem_of_end empty ?_
      rintro _ _ (_ | ⟨found, _⟩)
      · exact ⟨rfl, rfl⟩
      · rw [List.isEmpty_iff.1 empty] at found
        cases found
    · next filled =>
      rw [endsOf_eq, List.mem_flatMap]
      constructor
      · rintro ⟨⟨n, i⟩, member, inside⟩
        obtain ⟨rest, there, rfl⟩ := mem_seenFrom.1 inside
        have found := List.mk_mem_zipIdx_iff_getElem?.1 member
        obtain ⟨reached, final⟩ := (ih n (List.mem_of_getElem? found)).1 there
        exact ⟨.operand found reached, final⟩
      · rintro ⟨_ | ⟨found, reached⟩, final⟩
        · exact absurd final filled
        · have there := (ih _ (List.mem_of_getElem? found)).2 ⟨reached, final⟩
          exact ⟨_, List.mk_mem_zipIdx_iff_getElem?.2 found, mem_seenFrom.2 ⟨_, there, rfl⟩⟩
  | modify o n ih =>
    rw [ends, mem_seenFrom]
    constructor
    · rintro ⟨rest, there, rfl⟩
      obtain ⟨reached, final⟩ := ih.1 there
      exact ⟨.rhs reached, final⟩
    · rintro ⟨_ | _ | reached, final⟩
      · cases final
      · exact ⟨_, ih.2 ⟨reached, final⟩, rfl⟩
  | constant n boost ih =>
    rw [ends]
    split
    · next scores =>
      rw [mem_seenFrom]
      constructor
      · rintro ⟨rest, there, rfl⟩
        obtain ⟨reached, final⟩ := ih.1 there
        exact ⟨.lhs scores reached, final⟩
      · rintro ⟨_ | _ | _ | ⟨-, reached⟩, final⟩
        · simp [isEnd, scores] at final
        · exact ⟨_, ih.2 ⟨reached, final⟩, rfl⟩
    · next plain =>
      refine mem_of_end (by simpa [isEnd] using plain) ?_
      rintro _ _ (_ | _ | _ | ⟨scores, -⟩)
      · exact ⟨rfl, rfl⟩
      · exact absurd scores plain

/-- The ends stand in their order. -/
theorem pairwise_ends (n : Node) : (n.ends scored).Pairwise fun q r => q.1.Before r.1 := by
  induction n using Node.induction with
  | literal _ | range _ | term _ _ | namedTerm _ _ _ => exact List.pairwise_singleton _ _
  | combine c ns ih =>
    rw [ends]
    split
    · exact List.pairwise_singleton _ _
    · rw [endsOf_eq, List.pairwise_flatMap]
      constructor
      · rintro ⟨n, i⟩ member
        have found := List.mk_mem_zipIdx_iff_getElem?.1 member
        exact pairwise_seenFrom (ih n (List.mem_of_getElem? found))
      · have indices : (ns.zipIdx.map Prod.snd).Pairwise (· < ·) := by
          rw [List.zipIdx_map_snd]
          exact List.pairwise_lt_range' _
        refine (List.pairwise_map.1 indices).imp ?_
        rintro ⟨n, i⟩ ⟨m, j⟩ less ⟨p, _⟩ inside ⟨q, _⟩ inside'
        obtain ⟨p, -, rfl⟩ := mem_seenFrom.1 inside
        obtain ⟨q, -, rfl⟩ := mem_seenFrom.1 inside'
        exact .operands less p q
  | modify o n ih =>
    rw [ends]
    exact pairwise_seenFrom ih
  | constant n boost ih =>
    rw [ends]
    split
    · exact pairwise_seenFrom ih
    · exact List.pairwise_singleton _ _

/-! ## The checks visit the ends -/

variable {kind : Kind}

/-- Issues found at the ends below a node are found at the ends of the tree. -/
theorem flatMap_seenFrom {issues : Path → Node → List Issue} (path front : Path)
    (found : List (Path × Node)) :
    (seenFrom front found).flatMap (fun q => issues (path ++ q.1) q.2) =
      found.flatMap fun q => issues (path ++ front ++ q.1) q.2 := by
  simp [seenFrom, List.flatMap_map]

/-- The same for operands. -/
theorem flatMap_endsOf {issues : Path → Node → List Issue} {ns : List Node}
    (each : ∀ n ∈ ns, ∀ path,
      issues path n = (n.ends scored).flatMap fun q => issues (path ++ q.1) q.2) (i : Nat) :
    ((ns.zipIdx i).flatMap fun q => issues (path ++ [.field "operands", .index q.2]) q.1) =
      (endsOf scored i ns).flatMap fun q => issues (path ++ q.1) q.2 := by
  rw [endsOf_eq, List.flatMap_assoc]
  refine List.flatMap_congr fun q member => ?_
  rw [flatMap_seenFrom, each q.1 (List.fst_mem_of_mem_zipIdx member)]

theorem termValueIssuesOf_eq (i : Nat) (ns : List Node) :
    termValueIssuesOf kind path i ns = (ns.zipIdx i).flatMap fun q =>
      q.1.termValueIssues kind (path ++ [.field "operands", .index q.2]) := by
  induction ns generalizing i with
  | nil => rfl
  | cons n ns ih => rw [termValueIssuesOf, ih, List.zipIdx_cons, List.flatMap_cons]

theorem termValueIssues_eq (n : Node) (path : Path) :
    n.termValueIssues kind path =
      (n.ends false).flatMap fun q => q.2.termValueIssues kind (path ++ q.1) := by
  induction n using Node.induction generalizing path with
  | literal _ | range _ | term _ _ | namedTerm _ _ _ | constant _ _ _ => simp [ends]
  | combine c ns ih =>
    rw [ends, termValueIssues, termValueIssuesOf_eq]
    split
    · next empty =>
      rw [List.isEmpty_iff.1 empty]
      rfl
    · exact flatMap_endsOf ih 0
  | modify o n ih => rw [ends, termValueIssues, flatMap_seenFrom, ih]

theorem clauseIssuesOf_eq (i : Nat) (ns : List Node) :
    clauseIssuesOf path i ns = (ns.zipIdx i).flatMap fun q =>
      q.1.clauseIssues (path ++ [.field "operands", .index q.2]) := by
  induction ns generalizing i with
  | nil => rfl
  | cons n ns ih => rw [clauseIssuesOf, ih, List.zipIdx_cons, List.flatMap_cons]

theorem clauseIssues_eq (n : Node) (path : Path) :
    n.clauseIssues path = (n.ends true).flatMap fun q => q.2.clauseIssues (path ++ q.1) := by
  induction n using Node.induction generalizing path with
  | literal _ | range _ | term _ _ | namedTerm _ _ _ => simp [ends]
  | combine c ns ih =>
    rw [ends, clauseIssues]
    split
    · simp [clauseIssues, *]
    · rw [clauseIssuesOf_eq]
      exact flatMap_endsOf ih 0
  | modify o n ih => rw [ends, clauseIssues, flatMap_seenFrom, ih]
  | constant n boost ih => rw [ends, if_pos rfl, clauseIssues, flatMap_seenFrom, ih]

end Node

/-! ## What is reported -/

/-- What must not be reached in a term value of a kind, and what is reported of it. -/
inductive Misfit (kind : Kind) : Node → Misplacement → Prop where
  | literal {l : Literal} :
      ¬ kind.admits l.kind → Misfit kind (.literal l) (.wrongKind kind (.literal l.kind))
  | range {r : Range} :
      ¬ kind.admits r.kind.toKind → Misfit kind (.range r) (.wrongKind kind (.range r.kind))
  | term {v : Node} : Misfit kind (.term v) (.notTermValue kind .term)
  | namedTerm {f : FieldName} {v : Node} :
      Misfit kind (.namedTerm f v) (.notTermValue kind .namedTerm)
  | constant {n : Node} {boost : Number} :
      Misfit kind (.constant n boost) (.notTermValue kind .constant)

/-- What must not stand as a clause, and the issues that are reported of it at a place: for a term
    whose value is a term value of no kind, those of all kinds. -/
inductive Refused (path : Path) : Node → List Issue → Prop where
  | literal {l : Literal} : Refused path (.literal l) [⟨path, .notClause (.literal l.kind)⟩]
  | range {r : Range} : Refused path (.range r) [⟨path, .notClause (.range r.kind)⟩]
  | empty {c : Connective} :
      Refused path (.combine c []) [⟨path ++ [.field "operands"], .emptyOperands c⟩]
  | term {v : Node} : (∀ kind, ¬ TermValue kind v) →
      Refused path (.term v)
        (Kind.all.flatMap fun kind => v.termValueIssues kind (path ++ [.field "value"]))
  | namedTerm {f : FieldName} {v : Node} : (∀ kind, ¬ TermValue kind v) →
      Refused path (.namedTerm f v)
        (Kind.all.flatMap fun kind => v.termValueIssues kind (path ++ [.field "value"]))

namespace Node

variable {m : Node} {path : Path} {kind : Kind} {issue : Issue} {issues : List Issue}

theorem admits_literal {l : Literal} : l.fits kind = true ↔ kind.admits l.kind := by
  rw [← termValue_literal, termValue_iff]
  constructor
  · exact fun good => good.2 _ (.literal rfl)
  · intro admitted
    refine ⟨by rintro ⟨⟩, ?_⟩
    rintro leaf ⟨rfl⟩
    exact admitted

theorem admits_range {r : Range} : r.fits kind = true ↔ kind.admits r.kind.toKind := by
  rw [← termValue_range, termValue_iff]
  constructor
  · exact fun good => good.2 _ (.range rfl)
  · intro admitted
    refine ⟨by rintro ⟨⟩, ?_⟩
    rintro leaf (_ | rfl)
    exact admitted

/-- Where a way ends there is one issue, or none. -/
theorem termValueIssues_of_end (final : m.isEnd false = true) :
    issue ∈ m.termValueIssues kind path ↔ issue.path = path ∧ Misfit kind m issue.cause := by
  obtain ⟨place, cause⟩ := issue
  cases m with
  | literal l =>
    rw [termValueIssues, List.mem_ite_nil_left, List.mem_singleton, Issue.mk.injEq, admits_literal]
    constructor
    · rintro ⟨misfit, rfl, rfl⟩
      exact ⟨rfl, .literal misfit⟩
    · rintro ⟨rfl, ⟨misfit⟩⟩
      exact ⟨misfit, rfl, rfl⟩
  | range r =>
    rw [termValueIssues, List.mem_ite_nil_left, List.mem_singleton, Issue.mk.injEq, admits_range]
    constructor
    · rintro ⟨misfit, rfl, rfl⟩
      exact ⟨rfl, .range misfit⟩
    · rintro ⟨rfl, _ | misfit⟩
      exact ⟨misfit, rfl, rfl⟩
  | combine c ns =>
    rw [List.isEmpty_iff.1 final]
    refine iff_of_false List.not_mem_nil ?_
    rintro ⟨-, ⟨⟩⟩
  | modify o n => cases final
  | term v | namedTerm f v | constant n boost =>
    simp only [termValueIssues, List.mem_singleton, Issue.mk.injEq]
    constructor
    · rintro ⟨rfl, rfl⟩
      exact ⟨rfl, by constructor⟩
    · rintro ⟨rfl, ⟨⟩⟩
      exact ⟨rfl, rfl⟩

theorem pairwise_of_end {R : Issue → Issue → Prop} (final : m.isEnd false = true) :
    (m.termValueIssues kind path).Pairwise R := by
  cases m with
  | literal _ | range _ =>
    rw [termValueIssues]
    split
    · exact .nil
    · exact List.pairwise_singleton R _
  | combine c ns =>
    rw [List.isEmpty_iff.1 final]
    exact .nil
  | modify _ _ => cases final
  | term _ | namedTerm _ _ | constant _ _ => exact List.pairwise_singleton R _

/-- A value that is a term value of no kind has the issues of all kinds. -/
theorem anyTermValueIssues_eq_iff {v : Node} :
    v.anyTermValueIssues path = issues ∧ issues ≠ [] ↔
      (∀ kind, ¬ TermValue kind v) ∧
        (Kind.all.flatMap fun kind => v.termValueIssues kind path) = issues := by
  have attempts (none : ∀ kind, ¬ TermValue kind v) : v.anyTermValueIssues path =
      Kind.all.flatMap fun kind => v.termValueIssues kind path := by
    refine if_neg ?_
    simp only [List.any_map, List.any_eq_true, Function.comp_apply, List.isEmpty_iff,
      termValueIssues_eq_nil]
    exact fun ⟨kind, _, good⟩ => none kind good
  have some : v.anyTermValueIssues path ≠ [] ↔ ∀ kind, ¬ TermValue kind v := by
    rw [Ne, anyTermValueIssues_eq_nil, not_exists]
  constructor
  · rintro ⟨rfl, issues⟩
    have none := some.1 issues
    exact ⟨none, (attempts none).symm⟩
  · rintro ⟨none, rfl⟩
    rw [← attempts none]
    exact ⟨rfl, some.2 none⟩

/-- Where a way through clauses ends stands something with issues, or there are none. -/
theorem clauseIssues_of_end (final : m.isEnd true = true) :
    m.clauseIssues path = issues ∧ issues ≠ [] ↔ Refused path m issues := by
  have always {issue : Issue} : [issue] = issues ∧ issues ≠ [] ↔ issues = [issue] :=
    ⟨fun ⟨same, _⟩ => same.symm, fun same => ⟨same.symm, by simp [same]⟩⟩
  cases m with
  | literal l | range r =>
    rw [clauseIssues, always]
    constructor
    · rintro rfl
      constructor
    · rintro ⟨⟩
      rfl
  | combine c ns =>
    obtain rfl : ns = [] := List.isEmpty_iff.1 final
    rw [clauseIssues, List.isEmpty_nil, if_pos rfl, always]
    constructor
    · rintro rfl
      exact .empty
    · rintro ⟨⟩
      rfl
  | term v =>
    rw [clauseIssues, anyTermValueIssues_eq_iff]
    constructor
    · rintro ⟨none, rfl⟩
      exact .term none
    · intro refused
      cases refused with
      | term none => exact ⟨none, rfl⟩
  | namedTerm f v =>
    rw [clauseIssues, anyTermValueIssues_eq_iff]
    constructor
    · rintro ⟨none, rfl⟩
      exact .namedTerm none
    · intro refused
      cases refused with
      | namedTerm none => exact ⟨none, rfl⟩
  | modify o n | constant n boost => cases final

theorem isEnd_of_misfit {cause : Misplacement} (misfit : Misfit kind m cause) :
    m.isEnd false = true := by
  cases misfit <;> rfl

theorem isEnd_of_refused (refused : Refused path m issues) : m.isEnd true = true := by
  cases refused <;> rfl

variable (n : Node)

/-- What the check for a kind reports is what must not be reached. -/
theorem mem_termValueIssues : issue ∈ n.termValueIssues kind path ↔
    ∃ place m, Reaches false n place m ∧ Misfit kind m issue.cause ∧ issue.path = path ++ place := by
  rw [termValueIssues_eq, List.mem_flatMap]
  constructor
  · rintro ⟨⟨place, m⟩, there, reported⟩
    obtain ⟨reached, final⟩ := mem_ends.1 there
    obtain ⟨located, misfit⟩ := (termValueIssues_of_end final).1 reported
    exact ⟨place, m, reached, misfit, located⟩
  · rintro ⟨place, m, reached, misfit, located⟩
    have final := isEnd_of_misfit misfit
    exact ⟨(place, m), mem_ends.2 ⟨reached, final⟩,
      (termValueIssues_of_end final).2 ⟨located, misfit⟩⟩

/-- It is reported in the order of the places. -/
theorem pairwise_termValueIssues :
    (n.termValueIssues kind path).Pairwise fun a b => a.path.Before b.path := by
  have located {q : Path × Node} (there : q ∈ n.ends false) {issue : Issue}
      (reported : issue ∈ q.2.termValueIssues kind (path ++ q.1)) : issue.path = path ++ q.1 :=
    ((termValueIssues_of_end (mem_ends.1 there).2).1 reported).1
  rw [termValueIssues_eq, List.pairwise_flatMap]
  constructor
  · exact fun q there => pairwise_of_end (mem_ends.1 there).2
  · refine (pairwise_ends n).imp_of_mem ?_
    intro q r there there' before a reported b reported'
    rw [located there reported, located there' reported']
    exact before.under path

/-- The issues of the check for clauses, by the places of what must not stand there. -/
def refusals (path : Path) (n : Node) : List (Path × List Issue) :=
  ((n.ends true).map fun q => (q.1, q.2.clauseIssues (path ++ q.1))).filter fun q => !q.2.isEmpty

theorem mem_refusals {place : Path} :
    (place, issues) ∈ n.refusals path ↔
      ∃ m, Reaches true n place m ∧ Refused (path ++ place) m issues := by
  simp only [refusals, List.mem_filter, List.mem_map, Prod.mk.injEq, Prod.exists,
    Bool.not_eq_true', List.isEmpty_eq_false_iff]
  constructor
  · rintro ⟨⟨place, m, there, rfl, reported⟩, some⟩
    obtain ⟨reached, final⟩ := mem_ends.1 there
    exact ⟨m, reached, (clauseIssues_of_end final).1 ⟨reported, some⟩⟩
  · rintro ⟨m, reached, refused⟩
    have final := isEnd_of_refused refused
    obtain ⟨reported, some⟩ := (clauseIssues_of_end final).2 refused
    exact ⟨⟨place, m, mem_ends.2 ⟨reached, final⟩, rfl, reported⟩, some⟩

theorem pairwise_refusals : (n.refusals path).Pairwise fun a b => a.1.Before b.1 := by
  refine List.Pairwise.filter _ (List.pairwise_map.2 ?_)
  exact pairwise_ends n

theorem clauseIssues_eq_flatMap : n.clauseIssues path = (n.refusals path).flatMap Prod.snd := by
  have skip (found : List (Path × List Issue)) :
      (found.filter fun q => !q.2.isEmpty).flatMap Prod.snd = found.flatMap Prod.snd := by
    induction found with
    | nil => rfl
    | cons q found ih =>
      rw [List.filter_cons]
      split
      · rw [List.flatMap_cons, List.flatMap_cons, ih]
      · next empty =>
        have none : q.2 = [] := by simpa using empty
        rw [List.flatMap_cons, none, ih, List.nil_append]
  rw [clauseIssues_eq, refusals, skip, List.flatMap_map]

/-- The check for a kind names every part of a tree that must not be reached in a term value of the
    kind, once and by its place, from left to right.  The check for clauses does the same for what
    must not stand as a clause, and for a term whose value is a term value of no kind it has the
    issues of all kinds in the order of the registry. -/
theorem issues_in_order (n : Node) (kind : Kind) (path : Path) :
    (∀ issue, issue ∈ n.termValueIssues kind path ↔ ∃ place m,
      Reaches false n place m ∧ Misfit kind m issue.cause ∧ issue.path = path ++ place) ∧
    (n.termValueIssues kind path).Pairwise (fun a b => a.path.Before b.path) ∧
    ((n.termValueIssues kind path).map Issue.path).Nodup ∧
    ∃ groups : List (Path × List Issue),
      (∀ place issues, (place, issues) ∈ groups ↔ ∃ m,
        Reaches true n place m ∧ Refused (path ++ place) m issues) ∧
      groups.Pairwise (fun a b => a.1.Before b.1) ∧
      n.clauseIssues path = groups.flatMap Prod.snd := by
  have ordered : (n.termValueIssues kind path).Pairwise fun a b => a.path.Before b.path :=
    n.pairwise_termValueIssues
  refine ⟨fun issue => n.mem_termValueIssues, ordered, ?_, n.refusals path,
    fun place issues => n.mem_refusals, n.pairwise_refusals, n.clauseIssues_eq_flatMap⟩
  exact List.pairwise_map.2 (ordered.imp Path.Before.ne)

-- A text, a pattern below a modifier and a term are no numbers; the number between them is one.
example :
    ((combine .and [.literal (.string "a"), .literal (.number (.int 1)),
        .modify .not (.combine .or [.literal (.glob "*"), .term (.literal (.string "b"))])]
      ).termValueIssues .number []).map Issue.path =
      [[.field "operands", .index 0],
        [.field "operands", .index 2, .field "rhs", .field "operands", .index 0],
        [.field "operands", .index 2, .field "rhs", .field "operands", .index 1]] := by
  rfl

end Node

end QueryTree
