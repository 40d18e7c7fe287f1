import QueryTree.Kind
import QueryTree.Number.Basic

/-!
# Geometries

Positions, lines, polygons and collections of them.  The least sizes that make a
geometry meaningful are part of the types: a position has two or three
coordinates, a line at least two positions, everything else at least one member.

* `NonEmpty`         : lists with at least one member
* `Position`, `Line`, `Ring`
* `Shape`            : the seven classes of geometry
* `Geometry`         : a geometry of one of the classes
* `SpatialPredicate` : an operator applied to a geometry
-/

namespace QueryTree

structure NonEmpty (α : Type) where
  head : α
  tail : List α
  deriving DecidableEq, Repr

namespace NonEmpty

variable {α : Type}

def toList (xs : NonEmpty α) : List α := xs.head :: xs.tail

def ofList? : List α → Option (NonEmpty α)
  | [] => none
  | x :: xs => some ⟨x, xs⟩

@[simp] theorem ofList?_toList (xs : NonEmpty α) : ofList? xs.toList = some xs := rfl

end NonEmpty

/-! ## Parts -/

/-- A position on the plane or above it. -/
inductive Position where
  | flat (x y : Number)
  | raised (x y z : Number)
  deriving DecidableEq, Repr

namespace Position

def toList : Position → List Number
  | .flat x y => [x, y]
  | .raised x y z => [x, y, z]

def ofList? : List Number → Option Position
  | [x, y] => some (.flat x y)
  | [x, y, z] => some (.raised x y z)
  | _ => none

@[simp] theorem ofList?_toList (p : Position) : ofList? p.toList = some p := by
  cases p <;> rfl

end Position

/-- A line through at least two positions. -/
structure Line where
  first : Position
  second : Position
  rest : List Position
  deriving DecidableEq, Repr

namespace Line

def toList (l : Line) : List Position := l.first :: l.second :: l.rest

def ofList? : List Position → Option Line
  | p :: q :: rest => some ⟨p, q, rest⟩
  | _ => none

@[simp] theorem ofList?_toList (l : Line) : ofList? l.toList = some l := rfl

end Line

/-- The positions along an edge of a polygon. -/
abbrev Ring := NonEmpty Position

/-! ## Geometries -/

inductive Shape where
  | point
  | multiPoint
  | lineString
  | multiLineString
  | polygon
  | multiPolygon
  | collection
  deriving DecidableEq, Repr, Inhabited

namespace Shape

def all : List Shape :=
  [.point, .multiPoint, .lineString, .multiLineString, .polygon, .multiPolygon, .collection]

def name : Shape → String
  | .point => "Point"
  | .multiPoint => "MultiPoint"
  | .lineString => "LineString"
  | .multiLineString => "MultiLineString"
  | .polygon => "Polygon"
  | .multiPolygon => "MultiPolygon"
  | .collection => "GeometryCollection"

def ofName? (s : String) : Option Shape :=
  all.find? (·.name == s)

theorem ofName?_name (s : Shape) : ofName? s.name = some s := by cases s <;> decide

end Shape

inductive Geometry where
  | point (position : Position)
  | multiPoint (positions : NonEmpty Position)
  | lineString (line : Line)
  | multiLineString (lines : NonEmpty Line)
  | polygon (rings : NonEmpty Ring)
  | multiPolygon (polygons : NonEmpty (NonEmpty Ring))
  -- a collection of at least one geometry
  | collection (first : Geometry) (rest : List Geometry)
  deriving Repr

def Geometry.shape : Geometry → Shape
  | .point _ => .point
  | .multiPoint _ => .multiPoint
  | .lineString _ => .lineString
  | .multiLineString _ => .multiLineString
  | .polygon _ => .polygon
  | .multiPolygon _ => .multiPolygon
  | .collection _ _ => .collection

structure SpatialPredicate where
  -- how documents have to lie to the geometry
  op : SpatialOperator
  geom : Geometry
  deriving Repr

end QueryTree
