import QueryTree.Failure
import QueryTree.Node.Text

/-!
# The registry of kinds

Kinds by the values that name them, and what belongs to a kind.

* `Kind.lookup`      : the kind that a value names
* `Kind.forRange`    : the same, if there are ranges over the kind
* `Kind.classify`    : the kind of a raw value
* `Kind.accepts`     : whether a value is one of a kind
-/

namespace QueryTree

namespace Value

/-- Whether a value is a number; truth values, infinities and the undefined value are none. -/
def isNumber : Value → Bool
  | .int _ => true
  | .float (.finite _) => true
  | _ => false

def isDate : Value → Bool
  | .date _ | .dateTime _ => true
  | _ => false

def isPredicate : Value → Bool
  | .object .predicate _ => true
  | _ => false

def number? : Value → Option Number
  | .int n => some (.int n)
  | .float (.finite x) => some (.float x)
  | _ => none

end Value

namespace Kind

/-! ## Kinds by name -/

/-- The kind that a value names.  Spatial operators are told apart from other wrong names. -/
def lookup (v : Value) : Except Failure Kind :=
  match v.text? with
  | none => Failure.raise (.unknownKind v)
  | some s =>
    if (SpatialOperator.ofName? s).isSome then Failure.raise (.operatorAsKind v)
    else
      match ofName? s with
      | some k => .ok k
      | none => Failure.raise (.unknownKind v)

/-- The kind that a value names, if there are ranges over it. -/
def forRange (v : Value) : Except Failure OrderedKind := do
  let k ← lookup v
  match OrderedKind.ofKind? k with
  | some o => .ok o
  | none => Failure.raise (.noRanges k)

/-! ## Values of a kind -/

def accepts (k : Kind) (v : Value) : Bool :=
  match k with
  | .string | .glob => v.text?.isSome
  | .number => v.isNumber
  | .date => v.isDate
  | .spatial => v.isPredicate

def classify (v : Value) : Except Failure OrderedKind :=
  if v.text?.isSome then .ok .string
  else if v.isNumber then .ok .number
  else if v.isDate then .ok .date
  else
    match v with
    | .float _ => Failure.raise (.notFinite v)
    | _ => Failure.raise (.notPrimitive v)

end Kind

end QueryTree
