import QueryTree.Report

/-!
# Failures

Why an operation gives no answer at all.  Values that are merely not accepted are
no failures: they are answered by a report.

* `QueryError`  : the errors of this library, each with a stable code
* `Failure`     : these errors and everything else that stops an operation
* `Failure.raise` : an error whose message can be written, or else the limit on digits
-/

namespace QueryTree

/-! ## Errors -/

inductive QueryError where
  -- a literal or bound is no string, number or date
  | notPrimitive (value : Value)
  -- a literal or bound is an infinity or the undefined value
  | notFinite (value : Value)
  | patternNotString (value : Value)
  -- a boost is no finite number
  | boostNotNumber (value : Value)
  | unbounded
  -- the bounds of a range are of different kinds
  | kindsDiffer (lower upper : Kind)
  | unknownKind (value : Value)
  -- a value names no spatial operator
  | unknownOperator (value : Value)
  -- there are no ranges over a kind
  | noRanges (kind : Kind)
  -- there are no filters over a kind
  | noFilters (kind : Kind)
  -- a spatial operator stands where a kind is wanted
  | operatorAsKind (value : Value)
  -- a value that is to be written as a query is no node
  | notNode (value : Value)
  -- a text cannot be read as a value of a kind
  | unreadable (kind : OrderedKind) (text : Value)
  | malformedGeometry (faults : List Fault)
  -- the field of a named term is empty
  | emptyField
  | notAccepted (messages : List Message)
  deriving Repr

namespace QueryError

def code : QueryError → String
  | .notPrimitive _ | .notFinite _ | .patternNotString _ | .boostNotNumber _ => "SQM001"
  | .unbounded => "SQM002"
  | .kindsDiffer _ _ => "SQM003"
  | .unknownKind _ | .unknownOperator _ | .noRanges _ | .noFilters _ => "SQM004"
  | .operatorAsKind _ => "SQM005"
  | .notNode _ => "SQM006"
  | .unreadable _ _ => "SQM007"
  | .malformedGeometry _ => "SQM008"
  | .emptyField => "SQM009"
  | .notAccepted _ => "SQM010"

def geometryDetail (faults : List Fault) : String :=
  "; ".intercalate (faults.map Fault.text)

def message : QueryError → String
  | .notPrimitive v => "Value is not a string, number, or date: " ++ v.shown
  | .notFinite v => "Value is not a finite number: " ++ v.shown
  | .patternNotString v => "Glob pattern must be a string: " ++ v.shown
  | .boostNotNumber v => "Boost must be a finite number: " ++ v.shown
  | .unbounded => "Unbounded range: at least one of lower/upper is required"
  | .kindsDiffer lower upper =>
    "Range bound kinds must match: lower is '" ++ lower.name ++ "', upper is '" ++ upper.name ++ "'"
  | .unknownKind v => "Unsupported primitive kind: " ++ v.shown
  | .unknownOperator v => "Unknown spatial operator: " ++ v.shown
  | .noRanges k => "Ranges are not supported over '" ++ k.name ++ "' values"
  | .noFilters k => "Simple filters are not supported for '" ++ k.name ++ "' values"
  | .operatorAsKind v =>
    "Use the 'spatial' kind instead of the individual spatial operator " ++ v.shown
  | .notNode v => "Unsupported query node " ++ v.typeName ++ ": " ++ v.shown
  | .unreadable k v => "Cannot parse " ++ v.shown ++ " as a " ++ k.name
  | .malformedGeometry faults => "Invalid geometry: " ++ geometryDetail faults
  | .emptyField => "Field name of a named term must not be empty"
  | .notAccepted messages => summary messages

/-- The value that the message of an error shows, if it shows one. -/
def shownValue? : QueryError → Option Value
  | .notPrimitive v | .notFinite v | .patternNotString v | .boostNotNumber v | .unknownKind v
  | .unknownOperator v | .operatorAsKind v | .notNode v => some v
  | _ => none

end QueryError

/-! ## Failures -/

inductive Failure where
  | query (error : QueryError)
  -- the fields given to a constructor have faults; `title` names what was to be built
  | invalid (title : String) (first : Fault) (rest : List Fault)
  -- a date names a moment outside the calendar
  | outsideCalendar
  -- an integer has more digits than the limit; their count is known if it was being read
  | oversized (count : Option Nat)
  -- a value lacks a part that the operation needs, such as a field of a hand-built object
  | missingField
  -- a value is of a type for which the operation has no meaning
  | wrongType
  -- a name is not that of a level of severity
  | unknownLevel (name : String)
  deriving Repr

namespace Failure

/-- The message of a failure, for those that have one text of their own. -/
def message? : Failure → Option String
  | .query e => some e.message
  | .invalid _ _ _ => none
  | .outsideCalendar => some "date value out of range"
  | .oversized (some count) => some (digitLimitText count)
  | .oversized none =>
    some ("Exceeds the limit (" ++ shownNat digitLimit ++ " digits) for integer string conversion; " ++
      "use sys.set_int_max_str_digits() to increase the limit")
  | .missingField => none
  | .wrongType => none
  | .unknownLevel name => some ("Unknown level: " ++ (Value.str name).shown)

/-- Fails with an error; if its message shows an integer beyond the limit on digits, that is the
    failure. -/
def raise {α : Type} (e : QueryError) : Except Failure α :=
  if e.shownValue?.all Value.writable then .error (.query e) else .error (.oversized none)

end Failure

/-- The result of reading the fields of what `title` names; faults and dates outside the calendar
    are failures. -/
def Decoded.orFail {α : Type} (title : String) : Decoded α → Except Failure α
  | .done a => .ok a
  | .faulty f fs => .error (.invalid title f fs)
  | .outsideCalendar => .error .outsideCalendar

end QueryTree
