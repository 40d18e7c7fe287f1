import QueryTree.Node.Basic
import QueryTree.Number.Reader

/-!
# Dynamic values

Values of any type, as they come from callers, files and the command line: the
scalars of JSON and of the calendar, byte strings, sequences, mappings, members of
the enumerations, and objects of the model classes.

* `Model`        : the classes of model objects
* `Float64`      : binary numbers with the infinities and the undefined value
* `Value`        : dynamic values
* `Value.text?`  : the text of a value that counts as a string
* `Value.handBuilt` : an object made from given fields without any check
-/

namespace QueryTree

/-! ## Model classes -/

inductive Model where
  | literal (kind : Kind)
  | range (kind : OrderedKind)
  | term
  | namedTerm
  | combine (connective : Connective)
  | modify (modifier : Modifier)
  | constant
  -- spatial operators applied to a geometry
  | predicate
  | geometry (shape : Shape)
  -- flat comparison filters over an ordered kind
  | filter (kind : OrderedKind)
  deriving DecidableEq, Repr, Inhabited

namespace Model

def name : Model → String
  | .literal .string => "StringLiteral"
  | .literal .number => "NumberLiteral"
  | .literal .date => "DateLiteral"
  | .literal .glob => "GlobLiteral"
  | .literal .spatial => "SpatialLiteral"
  | .range .string => "StringRange"
  | .range .number => "NumberRange"
  | .range .date => "DateRange"
  | .term => "Term"
  | .namedTerm => "NamedTerm"
  | .combine .and => "And"
  | .combine .or => "Or"
  | .modify .not => "Not"
  | .modify .required => "Required"
  | .modify .prohibited => "Prohibited"
  | .constant => "ConstantScore"
  | .predicate => "SpatialPredicate"
  | .geometry s => s.name
  | .filter .string => "SimpleStringFilter"
  | .filter .number => "SimpleNumberFilter"
  | .filter .date => "SimpleDateFilter"

def all : List Model :=
  Kind.all.map .literal ++ OrderedKind.all.map .range ++
    [.term, .namedTerm, .combine .and, .combine .or, .modify .not, .modify .required,
      .modify .prohibited, .constant, .predicate] ++
    Shape.all.map .geometry ++ OrderedKind.all.map .filter

def ofName? (s : String) : Option Model :=
  all.find? (·.name == s)

/-- The tag that the data of a class carries under `type`; predicates and filters carry none. -/
def tag? : Model → Option String
  | .literal _ => some "literal"
  | .range _ => some "range"
  | .term => some "term"
  | .namedTerm => some "namedterm"
  | .combine c => some c.name
  | .modify m => some m.name
  | .constant => some "constant"
  | .predicate => none
  | .geometry s => some s.name
  | .filter _ => none

def kindTag? : Model → Option String
  | .literal k => some k.name
  | .range k => some k.name
  | _ => none

/-- The operators of a filter over a kind, in their fixed order; numbers have no patterns. -/
def filterOperators : OrderedKind → List String
  | .number => ["eq", "neq", "gt", "lt", "gte", "lte"]
  | .string | .date => ["eq", "neq", "gt", "lt", "gte", "lte", "glob"]

def fieldNames : Model → List String
  | .literal _ => ["type", "kind", "value"]
  | .range _ => ["type", "closed_lower", "closed_upper", "kind", "lower", "upper"]
  | .term => ["type", "value"]
  | .namedTerm => ["type", "field", "value"]
  | .combine _ => ["type", "operands"]
  | .modify _ => ["type", "rhs"]
  | .constant => ["type", "lhs", "rhs"]
  | .predicate => ["op", "geom"]
  | .geometry .collection => ["type", "geometries"]
  | .geometry _ => ["type", "coordinates"]
  | .filter k => filterOperators k

/-- The name that a field may also be given by. -/
def otherName? : String → Option String
  | "closed_lower" => some "closedLower"
  | "closed_upper" => some "closedUpper"
  | _ => none

theorem ofName?_name (m : Model) : ofName? m.name = some m := by
  cases m with
  | literal k => cases k <;> decide
  | range k => cases k <;> decide
  | combine c => cases c <;> decide
  | modify c => cases c <;> decide
  | geometry s => cases s <;> decide
  | filter k => cases k <;> decide
  | _ => decide

end Model

/-! ## Values -/

/-- A binary number, an infinity, or the undefined value. -/
inductive Float64 where
  | finite (x : Binary64)
  | infinite (negative : Bool)
  -- the undefined value, which equals nothing
  | nan
  deriving DecidableEq, Repr

/-- The binary number nearest to what a numeral denotes, or the infinity of its sign. -/
def Float64.ofNumeral (n : Numeral) : Float64 :=
  match n.binary? with
  | some x => .finite x
  | none => .infinite n.negative

/-- Data of any type.  Texts are made of characters: a text with half of a surrogate pair by itself
    is not among the values, so that nothing is said about such texts. -/
inductive Value where
  | null
  | bool (b : Bool)
  | int (n : Int)
  | float (x : Float64)
  | str (s : String)
  | bytes (bs : List UInt8)
  | list (items : List Value)
  | tuple (items : List Value)
  -- named fields: a plain mapping, or an object of a model class
  | record (model : Option Model) (fields : List (String × Value))
  | date (day : Day)
  | dateTime (t : DateTime)
  | kind (k : Kind)
  | operator (o : SpatialOperator)
  deriving Repr, Inhabited

namespace Value

@[match_pattern] abbrev mapping (fields : List (String × Value)) : Value := .record none fields

@[match_pattern] abbrev object (m : Model) (fields : List (String × Value)) : Value :=
  .record (some m) fields

/-- The text of a value that counts as a string; the members of the enumerations do. -/
def text? : Value → Option String
  | .str s => some s
  | .kind k => some k.name
  | .operator o => some o.name
  | _ => none

def items? : Value → Option (List Value)
  | .list vs => some vs
  | .tuple vs => some vs
  | _ => none

def ofNumber : Number → Value
  | .int n => .int n
  | .float x => .float (.finite x)

/-- A moment as a value: a reading of a UTC clock. -/
def ofMoment (m : Moment) : Value :=
  .dateTime (DateTime.ofUtc m)

/-! ## Objects without checks -/

/-- The value that a field has when it is not given: the tags of its class, absent bounds and
    empty filter families. -/
def defaultField? (m : Model) (name : String) : Option Value :=
  match name with
  | "type" => m.tag?.map .str
  | "kind" => m.kindTag?.map .str
  | "lower" | "upper" => some .null
  | _ =>
    match m with
    | .filter _ => some (.tuple [])
    | _ => none

/-- An object that holds the given values as they are and the defaults for the rest; fields
    that are neither given nor have a default stay missing, unknown names are dropped. -/
def handBuilt (m : Model) (given : List (String × Value)) : Value :=
  .object m <| m.fieldNames.filterMap fun name =>
    let value := (given.lookup name).or ((Model.otherName? name).bind fun other => given.lookup other)
    (value.or (defaultField? m name)).map (name, ·)

end Value

end QueryTree
