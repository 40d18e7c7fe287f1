import QueryTree.Filter

/-!
# Constructing objects

Objects of all model classes from named fields, with the checks of the class.

* `Model.construct` : an object of a class
* `assign`          : what assigning to a field of an object does
-/

namespace QueryTree

def Model.construct (m : Model) (fs : List (String × Value)) : Except Failure Value :=
  match m with
  | .predicate => ((SpatialPredicate.ofFields .full (.mapping fs) fs).map (·.toValue)).orFail m.name
  | .geometry shape => ((Geometry.build shape fs).map (·.toValue)).orFail m.name
  | .filter kind => ((Filter.ofFields kind fs).map (·.toValue)).orFail m.name
  | _ => ((Node.build m fs).map (·.toValue)).orFail m.name

/-- Assigning to a field of a value: objects do not change once they are made. -/
def assign (target : Value) (name : String) (new : Value) : Failure :=
  match target with
  | .object m _ => .invalid m.name ⟨[.field name], .frozen, new⟩ []
  | _ => .missingField

end QueryTree
