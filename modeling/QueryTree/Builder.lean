import QueryTree.Query

/-!
# Builders

Trees from raw values, part by part.  Each builder checks what it is given, so that what
it returns is a well-formed tree.

* `buildNode`      : a tree of a class from named fields
* `Build.literal`, `Build.range`, … : the builders
* `Builder`        : the builders by name, with their arguments in a list
-/

namespace QueryTree

def buildNode (m : Model) (fs : List (String × Value)) : Except Failure Node :=
  (Node.build m fs).orFail m.name

namespace Build

/-! ## Leaves -/

def literal (v : Value) : Except Failure Node := do
  buildNode (.literal (← Kind.classify v).toKind) [("value", v)]

def globLiteral (v : Value) : Except Failure Node :=
  if v.text?.isSome then buildNode (.literal .glob) [("value", v)]
  else Failure.raise (.patternNotString v)

def geometry (v : Value) : Except Failure Geometry :=
  match Geometry.decode v with
  | .done g => .ok g
  | .faulty f fs => .error (.query (.malformedGeometry (f :: fs)))
  | .outsideCalendar => .error .outsideCalendar

def operator (v : Value) : Except Failure SpatialOperator :=
  match v.text?.bind SpatialOperator.ofName? with
  | some o => .ok o
  | none => Failure.raise (.unknownOperator v)

def spatialLiteral (op geom : Value) : Except Failure Node := do
  let op ← operator op
  let geom ← geometry geom
  .ok (.literal (.spatial ⟨op, geom⟩))

/-! ## Terms -/

def term (v : Value) : Except Failure Node :=
  buildNode .term [("value", v)]

def namedTerm (field v : Value) : Except Failure Node :=
  if field.truthy then buildNode .namedTerm [("field", field), ("value", v)]
  else Failure.raise .emptyField

/-! ## Ranges -/

/-- The kind of a bound; an absent bound has none. -/
def boundKind : Value → Except Failure (Option OrderedKind)
  | .null => .ok none
  | v => (Kind.classify v).map some

/-- A range with bounds of one kind, at least one of which is present. -/
def range (closedLower closedUpper lower upper : Value) : Except Failure Node := do
  let build (kind : OrderedKind) : Except Failure Node :=
    buildNode (.range kind)
      [("closed_lower", closedLower), ("closed_upper", closedUpper), ("lower", lower),
        ("upper", upper)]
  match ← boundKind lower, ← boundKind upper with
  | none, none => Failure.raise .unbounded
  | some k, none => build k
  | none, some k => build k
  | some k, some k' =>
    if k = k' then build k else Failure.raise (.kindsDiffer k.toKind k'.toKind)

def openRange (lower upper : Value) : Except Failure Node :=
  range (.bool false) (.bool false) lower upper

def closedRange (lower upper : Value) : Except Failure Node :=
  range (.bool true) (.bool true) lower upper

/-! ## Composite trees -/

def modify (m : Modifier) (rhs : Value) : Except Failure Node :=
  buildNode (.modify m) [("rhs", rhs)]

def constantScore (lhs boost : Value) : Except Failure Node :=
  if boost.isNumber then buildNode .constant [("lhs", lhs), ("rhs", boost)]
  else Failure.raise (.boostNotNumber boost)

def combine (c : Connective) (operands : List Value) : Except Failure Node :=
  buildNode (.combine c) [("operands", .tuple operands)]

/-- Two or more operands joined in pairs, from the left. -/
def fold (c : Connective) (first second : Value) (rest : List Value) : Except Failure Node := do
  rest.foldlM (fun joined next => combine c [joined.toValue, next]) (← combine c [first, second])

end Build

/-! ## Builders by name -/

inductive Builder where
  | literal
  | globLiteral
  | spatialLiteral
  | spatial (op : SpatialOperator)
  | term
  | namedTerm
  | range
  | openRange
  | closedRange
  | modify (m : Modifier)
  | constantScore
  | combine (c : Connective)
  | fold (c : Connective)
  deriving DecidableEq, Repr

namespace Builder

def all : List Builder :=
  [.literal, .globLiteral, .spatialLiteral, .spatial .intersects, .spatial .isWithin,
    .spatial .contains, .spatial .isDisjointTo, .term, .namedTerm, .range, .openRange,
    .closedRange, .modify .not, .modify .required, .modify .prohibited, .constantScore,
    .combine .and, .combine .or, .fold .and, .fold .or]

def name : Builder → String
  | .literal => "literal"
  | .globLiteral => "glob_literal"
  | .spatialLiteral => "spatial_literal"
  | .spatial .intersects => "intersects"
  | .spatial .isWithin => "is_within"
  | .spatial .contains => "contains"
  | .spatial .isDisjointTo => "is_disjoint_to"
  | .term => "term"
  | .namedTerm => "named_term"
  | .range => "range_"
  | .openRange => "open_range"
  | .closedRange => "closed_range"
  | .modify .not => "not_"
  | .modify .required => "required"
  | .modify .prohibited => "prohibited"
  | .constantScore => "constant_score"
  | .combine .and => "and_"
  | .combine .or => "or_"
  | .fold .and => "fold_and"
  | .fold .or => "fold_or"

def ofName? (s : String) : Option Builder :=
  all.find? (·.name == s)

/-- Calls a builder.  Bounds at the end of the arguments may be left out; any other number of
    arguments than the builder takes is a failure. -/
def call : Builder → List Value → Except Failure Node
  | .literal, [v] => Build.literal v
  | .globLiteral, [v] => Build.globLiteral v
  | .spatialLiteral, [op, geom] => Build.spatialLiteral op geom
  | .spatial op, [geom] => Build.spatialLiteral (.operator op) geom
  | .term, [v] => Build.term v
  | .namedTerm, [field, v] => Build.namedTerm field v
  | .range, [cl, cu] => Build.range cl cu .null .null
  | .range, [cl, cu, lower] => Build.range cl cu lower .null
  | .range, [cl, cu, lower, upper] => Build.range cl cu lower upper
  | .openRange, [] => Build.openRange .null .null
  | .openRange, [lower] => Build.openRange lower .null
  | .openRange, [lower, upper] => Build.openRange lower upper
  | .closedRange, [] => Build.closedRange .null .null
  | .closedRange, [lower] => Build.closedRange lower .null
  | .closedRange, [lower, upper] => Build.closedRange lower upper
  | .modify m, [rhs] => Build.modify m rhs
  | .constantScore, [lhs, boost] => Build.constantScore lhs boost
  | .combine c, operands => Build.combine c operands
  | .fold c, first :: second :: rest => Build.fold c first second rest
  | _, _ => .error .wrongType

theorem ofName?_name (b : Builder) : ofName? b.name = some b := by
  cases b with
  | spatial op => cases op <;> decide
  | modify m => cases m <;> decide
  | combine c => cases c <;> decide
  | fold c => cases c <;> decide
  | _ => decide

end Builder

end QueryTree
