import QueryTree.Node.Basic
import QueryTree.Report

/-!
# What may stand where

A well-formed tree need not make sense at every place.  A clause searches something:
a term, or clauses combined, modified or scored.  A term value is what a term searches
for: leaves and ranges of one kind, combined or modified, but no further terms.

* `Misplacement`      : why a part must not stand where it stands
* `Issue`             : a misplacement with its place
* `Node.termValueIssues`   : the issues of a tree as a term value of a kind
* `Node.anyTermValueIssues`: the issues of a tree as a term value of any kind
* `Node.clauseIssues`      : the issues of a tree as a clause
* `Node.elementIssues`     : the issues of a tree as a clause or a term value
-/

namespace QueryTree

/-! ## Issues -/

/-- Why a part of a tree must not stand where it stands. -/
inductive Misplacement where
  -- a leaf or range of some kind stands where one of another kind is wanted
  | wrongKind (expected : Kind) (found : Model)
  -- a term or a score stands inside a term value
  | notTermValue (expected : Kind) (found : Model)
  -- a leaf or range stands where a clause is wanted
  | notClause (found : Model)
  -- a combination without operands stands where a clause is wanted
  | emptyOperands (connective : Connective)
  deriving DecidableEq, Repr

structure Issue where
  -- the way from the tree to the place
  path : Path
  cause : Misplacement
  deriving DecidableEq, Repr

/-- How a class of nodes is called: its tag, with its kind in brackets if it has one. -/
def Model.label (m : Model) : String :=
  let tag := m.tag?.getD m.name
  match m.kindTag? with
  | some kind => tag ++ "[" ++ kind ++ "]"
  | none => tag

namespace Misplacement

def code : Misplacement → String
  | .wrongKind _ _ => "kind_mismatch"
  | .notTermValue _ _ => "not_a_term_value"
  | .notClause _ => "not_a_clause"
  | .emptyOperands _ => "empty_operands"

def message : Misplacement → String
  | .wrongKind expected found | .notTermValue expected found =>
    "Expected a " ++ expected.name ++ " term value, got " ++ found.label
  | .notClause found => "Expected a clause, got " ++ found.label
  | .emptyOperands c => "A " ++ c.name ++ " clause needs at least one operand"

/-- The details of a misplacement: what was wanted, and what was found. -/
def details : Misplacement → List (String × Value)
  | .wrongKind expected found =>
    [("branch", .str ("term_value[" ++ expected.name ++ "]")), ("expected", .str expected.name),
      ("actual", .str (found.kindTag?.getD ""))]
  | .notTermValue expected _ =>
    [("branch", .str ("term_value[" ++ expected.name ++ "]")), ("expected", .str expected.name)]
  | .notClause _ | .emptyOperands _ => [("branch", .str "clause")]

end Misplacement

def Issue.toMessage (i : Issue) : Message :=
  ⟨i.cause.code, i.cause.message, i.path, i.cause.details⟩

/-! ## Term values -/

/-- Whether a leaf may stand in a term value of a kind: it is of that kind, or a pattern where the
    kind allows patterns. -/
def Literal.fits (l : Literal) (kind : Kind) : Bool :=
  l.kind == kind || (l.kind == .glob && kind.globCapable)

def Range.fits (r : Range) (kind : Kind) : Bool :=
  kind.rangeCapable && r.kind.toKind == kind

namespace Node

mutual

/-- The issues of a tree as a term value of a kind. -/
def termValueIssues (kind : Kind) (path : Path) : Node → List Issue
  | .literal l => if l.fits kind then [] else [⟨path, .wrongKind kind (.literal l.kind)⟩]
  | .range r => if r.fits kind then [] else [⟨path, .wrongKind kind (.range r.kind)⟩]
  | .combine _ ns => termValueIssuesOf kind path 0 ns
  | .modify _ n => termValueIssues kind (path ++ [.field "rhs"]) n
  | .term _ => [⟨path, .notTermValue kind .term⟩]
  | .namedTerm _ _ => [⟨path, .notTermValue kind .namedTerm⟩]
  | .constant _ _ => [⟨path, .notTermValue kind .constant⟩]

/-- The issues of operands as term values of a kind; the first of them has position `i`. -/
def termValueIssuesOf (kind : Kind) (path : Path) (i : Nat) : List Node → List Issue
  | [] => []
  | n :: ns =>
    termValueIssues kind (path ++ [.field "operands", .index i]) n ++
      termValueIssuesOf kind path (i + 1) ns

end

/-- The issues of a tree as a term value of whichever kind: none if it is one of some kind, else
    those of all kinds in the order of the registry. -/
def anyTermValueIssues (path : Path) (n : Node) : List Issue :=
  let attempts := Kind.all.map fun kind => n.termValueIssues kind path
  if attempts.any List.isEmpty then [] else attempts.flatten

/-! ## Clauses -/

mutual

def clauseIssues (path : Path) : Node → List Issue
  | .term v => anyTermValueIssues (path ++ [.field "value"]) v
  | .namedTerm _ v => anyTermValueIssues (path ++ [.field "value"]) v
  | .constant n _ => clauseIssues (path ++ [.field "lhs"]) n
  | .combine c ns =>
    if ns.isEmpty then [⟨path ++ [.field "operands"], .emptyOperands c⟩]
    else clauseIssuesOf path 0 ns
  | .modify _ n => clauseIssues (path ++ [.field "rhs"]) n
  | .literal l => [⟨path, .notClause (.literal l.kind)⟩]
  | .range r => [⟨path, .notClause (.range r.kind)⟩]

def clauseIssuesOf (path : Path) (i : Nat) : List Node → List Issue
  | [] => []
  | n :: ns =>
    clauseIssues (path ++ [.field "operands", .index i]) n ++ clauseIssuesOf path (i + 1) ns

end

/-! ## Query elements -/

/-- The issues of a tree as a query: none if it is a clause or a term value of some kind, else
    the issues as either. -/
def elementIssues (n : Node) : List Issue :=
  let asClause := n.clauseIssues []
  let asTermValue := n.anyTermValueIssues []
  if asClause.isEmpty || asTermValue.isEmpty then [] else asClause ++ asTermValue

end Node

end QueryTree
