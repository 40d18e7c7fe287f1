import QueryTree.Node.Decode
import QueryTree.Registry
import QueryTree.Value.Nesting
import QueryTree.Verdict

/-!
# Checking untrusted values

A value is checked in three steps, each of which presupposes the one before: its nesting
is bounded, it is read as a tree, and the parts of the tree stand where they may stand.

* `Role`        : what the tree is wanted for
* `checkValue`  : the three steps
* `validateElement`, `validateClause`, `validateTermValue` : the entry points
-/

namespace QueryTree

inductive Role where
  -- a query: a clause or a term value of some kind
  | element
  | clause
  -- a term value of a kind
  | termValue (kind : Kind)
  deriving DecidableEq, Repr

def Role.issues (role : Role) (n : Node) : List Issue :=
  match role with
  | .element => n.elementIssues
  | .clause => n.clauseIssues []
  | .termValue kind => n.termValueIssues kind []

/-- Whether the parts of a tree stand where they may stand. -/
def Role.verdict (role : Role) (n : Node) : Verdict Node :=
  match role.issues n with
  | [] => .accepted n
  | i :: is => .rejected (.misplaced i is)

/-- A value as a tree for a role, with containers nested up to the limit. -/
def checkValue (role : Role) (limit : Int) (v : Value) : Except Failure (Verdict Node) :=
  match guardDepth limit v with
  | .error .missingField => .error .missingField
  | .error .tooDeep => .ok (.rejected (.tooDeep limit))
  | .error .oversizedLimit => .error (.oversized none)
  | .ok () => do
    match ← (Node.decode v).verdict with
    | .accepted n => .ok (role.verdict n)
    | .rejected r => .ok (.rejected r)

def validateElement (limit : Int) (v : Value) : Except Failure (Verdict Node) :=
  checkValue .element limit v

def validateClause (limit : Int) (v : Value) : Except Failure (Verdict Node) :=
  checkValue .clause limit v

/-- A value as a term value of the kind that another value names. -/
def validateTermValue (kind : Value) (limit : Int) (v : Value) : Except Failure (Verdict Node) := do
  checkValue (.termValue (← Kind.lookup kind)) limit v

end QueryTree
