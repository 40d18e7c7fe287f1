/-!
# Primitive kinds

The closed set of kinds that a leaf of a query can have, and what each supports.

* `Kind`            : string, number, date, glob, spatial
* `OrderedKind`     : the kinds whose values have an order, hence ranges and filters
* `SpatialOperator` : the predicates that relate a document to a geometry
-/

namespace QueryTree

/-! ## Kinds -/

inductive Kind where
  -- text that is searched as it is
  | string
  | number
  | date
  -- text with wildcards
  | glob
  | spatial
  deriving DecidableEq, Repr, Inhabited

namespace Kind

def all : List Kind := [.string, .number, .date, .glob, .spatial]

def name : Kind → String
  | .string => "string"
  | .number => "number"
  | .date => "date"
  | .glob => "glob"
  | .spatial => "spatial"

def ofName? (s : String) : Option Kind :=
  all.find? (·.name == s)

/-- Whether wildcard patterns stand for values of the kind. -/
def globCapable : Kind → Bool
  | .string | .date | .glob => true
  | .number | .spatial => false

/-- Whether there are ranges over values of the kind. -/
def rangeCapable : Kind → Bool
  | .string | .number | .date => true
  | .glob | .spatial => false

theorem mem_all (k : Kind) : k ∈ all := by cases k <;> decide

theorem ofName?_name (k : Kind) : ofName? k.name = some k := by cases k <;> decide

end Kind

/-! ## Kinds with an order -/

/-- The kinds that have ranges and comparison filters. -/
inductive OrderedKind where
  | string
  | number
  | date
  deriving DecidableEq, Repr, Inhabited

namespace OrderedKind

def all : List OrderedKind := [.string, .number, .date]

def toKind : OrderedKind → Kind
  | .string => .string
  | .number => .number
  | .date => .date

def name (k : OrderedKind) : String := k.toKind.name

def ofKind? : Kind → Option OrderedKind
  | .string => some .string
  | .number => some .number
  | .date => some .date
  | .glob => none
  | .spatial => none

/-- Ranges exist over exactly the ordered kinds. -/
theorem isSome_ofKind? (k : Kind) : (ofKind? k).isSome = k.rangeCapable := by
  cases k <;> rfl

theorem ofKind?_toKind (k : OrderedKind) : ofKind? k.toKind = some k := by cases k <;> rfl

end OrderedKind

/-! ## Spatial operators -/

/-- How a document's geometry has to lie to the geometry of a query. -/
inductive SpatialOperator where
  -- the two share a point
  | intersects
  -- the document lies inside
  | isWithin
  -- the document lies around
  | contains
  -- the two share no point
  | isDisjointTo
  deriving DecidableEq, Repr, Inhabited

namespace SpatialOperator

def all : List SpatialOperator := [.intersects, .isWithin, .contains, .isDisjointTo]

def name : SpatialOperator → String
  | .intersects => "Intersects"
  | .isWithin => "IsWithin"
  | .contains => "Contains"
  | .isDisjointTo => "IsDisjointTo"

def ofName? (s : String) : Option SpatialOperator :=
  all.find? (·.name == s)

theorem mem_all (o : SpatialOperator) : o ∈ all := by cases o <;> decide

theorem ofName?_name (o : SpatialOperator) : ofName? o.name = some o := by cases o <;> decide

end SpatialOperator

end QueryTree
