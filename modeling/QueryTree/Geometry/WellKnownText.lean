import QueryTree.Geometry.Basic

/-!
# Well-known text

The compact textual form of geometries: the name of the class in capitals and the
coordinates in brackets, positions divided by commas and coordinates by blanks.

* `commas`              : texts with commas between them, in brackets
* `Position.wkt`, `Geometry.wkt` : the text of a position, of a geometry
* `Geometry.writable`   : whether all coordinates can be written
-/

namespace QueryTree

def commas (parts : List (List Char)) : List Char :=
  '(' :: List.intercalate [','] parts ++ [')']

def Position.wkt (p : Position) : List Char :=
  List.intercalate [' '] (p.toList.map Number.queryText)

def positionsWkt (ps : List Position) : List Char :=
  commas (ps.map Position.wkt)

/-- Rings in brackets; lines are written in the same way. -/
def ringsWkt (rings : List Ring) : List Char :=
  commas (rings.map fun r => positionsWkt r.toList)

namespace Geometry

mutual

def wkt : Geometry → List Char
  | .point p => "POINT".toList ++ commas [p.wkt]
  | .multiPoint ps => "MULTIPOINT".toList ++ commas (ps.toList.map fun p => commas [p.wkt])
  | .lineString l => "LINESTRING".toList ++ positionsWkt l.toList
  | .multiLineString ls =>
    "MULTILINESTRING".toList ++ commas (ls.toList.map fun l => positionsWkt l.toList)
  | .polygon rs => "POLYGON".toList ++ ringsWkt rs.toList
  | .multiPolygon ps => "MULTIPOLYGON".toList ++ commas (ps.toList.map fun rs => ringsWkt rs.toList)
  | .collection g gs => "GEOMETRYCOLLECTION".toList ++ commas (g.wkt :: wktList gs)

def wktList : List Geometry → List (List Char)
  | [] => []
  | g :: gs => g.wkt :: wktList gs

end

theorem wktList_eq_map (gs : List Geometry) : wktList gs = gs.map wkt := by
  induction gs with
  | nil => rfl
  | cons g gs ih => simp [wktList, ih]

end Geometry

/-! ## What can be written -/

def Position.writable (p : Position) : Bool :=
  p.toList.all Number.writable

namespace Geometry

mutual

def writable : Geometry → Bool
  | .point p => p.writable
  | .multiPoint ps => ps.toList.all Position.writable
  | .lineString l => l.toList.all Position.writable
  | .multiLineString ls => ls.toList.all fun l => l.toList.all Position.writable
  | .polygon rs => rs.toList.all fun r => r.toList.all Position.writable
  | .multiPolygon ps =>
    ps.toList.all fun rs => rs.toList.all fun r => r.toList.all Position.writable
  | .collection g gs => g.writable && writableList gs

def writableList : List Geometry → Bool
  | [] => true
  | g :: gs => g.writable && writableList gs

end

end Geometry

/-- The text of a spatial predicate: the operator's name and the geometry in brackets. -/
def SpatialPredicate.text (p : SpatialPredicate) : List Char :=
  p.op.name.toList ++ commas [p.geom.wkt]

end QueryTree
