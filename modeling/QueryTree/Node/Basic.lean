import QueryTree.Geometry.Basic
import QueryTree.Moment.Basic

/-!
# Query trees

The nodes of a query.  What a node promises is part of its type: a literal holds a
value of its kind, a range has at least one bound and bounds of one kind, the field
of a named term is not empty.

* `Literal`      : a leaf with a value of one of the five kinds
* `Span`, `Bounds`, `Range` : ranges over an ordered kind
* `Connective`, `Modifier`
* `Node`         : query trees
-/

namespace QueryTree

/-! ## Leaves -/

inductive Literal where
  | string (text : String)
  | number (value : Number)
  | date (moment : Moment)
  -- a pattern in which `*` and `?` are wildcards
  | glob (pattern : String)
  | spatial (predicate : SpatialPredicate)
  deriving Repr

def Literal.kind : Literal → Kind
  | .string _ => .string
  | .number _ => .number
  | .date _ => .date
  | .glob _ => .glob
  | .spatial _ => .spatial

/-! ## Ranges -/

/-- The extent of a range, which has at least one bound. -/
inductive Span (α : Type) where
  -- all values from a lower bound on
  | above (lower : α)
  -- all values up to an upper bound
  | below (upper : α)
  | between (lower upper : α)
  deriving DecidableEq, Repr

namespace Span

variable {α : Type}

def lower? : Span α → Option α
  | .above l => some l
  | .below _ => none
  | .between l _ => some l

def upper? : Span α → Option α
  | .above _ => none
  | .below u => some u
  | .between _ u => some u

/-- The extent with the given bounds; there has to be one. -/
def ofBounds? : Option α → Option α → Option (Span α)
  | none, none => none
  | some l, none => some (.above l)
  | none, some u => some (.below u)
  | some l, some u => some (.between l u)

@[simp] theorem ofBounds?_bounds (s : Span α) : ofBounds? s.lower? s.upper? = some s := by
  cases s <;> rfl

end Span

structure Bounds (α : Type) where
  -- whether the lower bound itself belongs to the range
  closedLower : Bool
  -- whether the upper bound itself belongs to the range
  closedUpper : Bool
  span : Span α
  deriving DecidableEq, Repr

inductive Range where
  | string (bounds : Bounds String)
  | number (bounds : Bounds Number)
  | date (bounds : Bounds Moment)
  deriving DecidableEq, Repr

def Range.kind : Range → OrderedKind
  | .string _ => .string
  | .number _ => .number
  | .date _ => .date

/-! ## Trees -/

/-- How the operands of a combination are joined. -/
inductive Connective where
  | and
  | or
  deriving DecidableEq, Repr, Inhabited

def Connective.name : Connective → String
  | .and => "and"
  | .or => "or"

/-- The word that stands between operands in a query. -/
def Connective.word : Connective → String
  | .and => "AND"
  | .or => "OR"

/-- What a modifier says about the tree below it. -/
inductive Modifier where
  | not
  | required
  -- documents for which it holds are left out
  | prohibited
  deriving DecidableEq, Repr, Inhabited

def Modifier.name : Modifier → String
  | .not => "not"
  | .required => "required"
  | .prohibited => "prohibited"

/-- A field name, which is not empty. -/
structure FieldName where
  text : String
  nonempty : text ≠ ""
  deriving DecidableEq, Repr

inductive Node where
  | literal (value : Literal)
  | range (range : Range)
  -- a value searched in the default field
  | term (value : Node)
  -- a value searched in a field
  | namedTerm (field : FieldName) (value : Node)
  | combine (connective : Connective) (operands : List Node)
  | modify (modifier : Modifier) (rhs : Node)
  -- a tree whose matches all get the same score
  | constant (lhs : Node) (boost : Number)
  deriving Repr

end QueryTree
