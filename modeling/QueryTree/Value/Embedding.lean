import QueryTree.Value.Basic

/-!
# Trees as values

Trees and geometries as the objects that callers hold: an object of the class with
all its fields in order, absent bounds as absent values, sequences as tuples.

* `Geometry.toValue`, `SpatialPredicate.toValue`
* `Literal.toValue`, `Range.toValue`
* `Node.toValue`
-/

namespace QueryTree

/-- An object of a class: its tags and then the given fields, in the order of the class. -/
def Model.object (m : Model) (given : List (String × Value)) : Value :=
  Value.handBuilt m given

/-! ## Geometries -/

def Position.toValue (p : Position) : Value :=
  .tuple (p.toList.map Value.ofNumber)

def positionsValue (ps : List Position) : Value :=
  .tuple (ps.map Position.toValue)

def ringsValue (rs : NonEmpty Ring) : Value :=
  .tuple (rs.toList.map fun r => positionsValue r.toList)

namespace Geometry

mutual

def toValue : Geometry → Value
  | .point p => Model.object (.geometry .point) [("coordinates", p.toValue)]
  | .multiPoint ps => Model.object (.geometry .multiPoint) [("coordinates", positionsValue ps.toList)]
  | .lineString l => Model.object (.geometry .lineString) [("coordinates", positionsValue l.toList)]
  | .multiLineString ls =>
    Model.object (.geometry .multiLineString)
      [("coordinates", .tuple (ls.toList.map fun l => positionsValue l.toList))]
  | .polygon rs => Model.object (.geometry .polygon) [("coordinates", ringsValue rs)]
  | .multiPolygon ps =>
    Model.object (.geometry .multiPolygon) [("coordinates", .tuple (ps.toList.map ringsValue))]
  | .collection g gs =>
    Model.object (.geometry .collection) [("geometries", .tuple (g.toValue :: toValues gs))]

def toValues : List Geometry → List Value
  | [] => []
  | g :: gs => g.toValue :: toValues gs

end

end Geometry

def SpatialPredicate.toValue (p : SpatialPredicate) : Value :=
  Model.object .predicate [("op", .operator p.op), ("geom", p.geom.toValue)]

/-! ## Leaves and ranges -/

def Literal.content : Literal → Value
  | .string s => .str s
  | .number n => .ofNumber n
  | .date m => .ofMoment m
  | .glob s => .str s
  | .spatial p => p.toValue

def Literal.toValue (l : Literal) : Value :=
  Model.object (.literal l.kind) [("value", l.content)]

def boundValue {α : Type} (f : α → Value) (bound : Option α) : Value :=
  (bound.map f).getD .null

def Bounds.toValue {α : Type} (kind : OrderedKind) (f : α → Value) (b : Bounds α) : Value :=
  Model.object (.range kind)
    [("closed_lower", .bool b.closedLower), ("closed_upper", .bool b.closedUpper),
      ("lower", boundValue f b.span.lower?), ("upper", boundValue f b.span.upper?)]

def Range.toValue : Range → Value
  | .string b => b.toValue .string .str
  | .number b => b.toValue .number .ofNumber
  | .date b => b.toValue .date .ofMoment

/-! ## Trees -/

namespace Node

mutual

def toValue : Node → Value
  | .literal l => l.toValue
  | .range r => r.toValue
  | .term v => Model.object .term [("value", v.toValue)]
  | .namedTerm f v => Model.object .namedTerm [("field", .str f.text), ("value", v.toValue)]
  | .combine c ns => Model.object (.combine c) [("operands", .tuple (toValues ns))]
  | .modify m n => Model.object (.modify m) [("rhs", n.toValue)]
  | .constant n boost => Model.object .constant [("lhs", n.toValue), ("rhs", .ofNumber boost)]

def toValues : List Node → List Value
  | [] => []
  | n :: ns => n.toValue :: toValues ns

end

def model : Node → Model
  | .literal l => .literal l.kind
  | .range r => .range r.kind
  | .term _ => .term
  | .namedTerm _ _ => .namedTerm
  | .combine c _ => .combine c
  | .modify m _ => .modify m
  | .constant _ _ => .constant

end Node

end QueryTree
