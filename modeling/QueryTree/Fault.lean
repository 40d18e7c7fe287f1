import QueryTree.Value.Shown

/-!
# Faults

What is wrong with a value that should have been a tree, a geometry or a filter,
and where.  Reading a value does not stop at its first fault.

* `Step`, `Path`, `pathText` : the way from a value to the place of a fault
* `Cause`         : what is wrong at the place
* `Fault`         : a cause at a place, with the value found there
* `Decoded`       : what reading a value gives
* `Decoded.combine`, `Decoded.under` : reading two parts, reading a part in its place
-/

namespace QueryTree

/-! ## Places -/

/-- A step on the way to a place inside a value. -/
inductive Step where
  -- the value was taken for one of several classes; this is the tag of the one chosen
  | tag (name : String)
  -- to the value under a key
  | field (name : String)
  -- to an item of a sequence
  | index (i : Nat)
  deriving DecidableEq, Repr

abbrev Path := List Step

def Step.text : Step → String
  | .tag name => name
  | .field name => name
  | .index i => shownNat i

/-- The text of a path: its steps with dots between them, and a word for the value as a whole. -/
def pathText (path : Path) : String :=
  let joined := ".".intercalate (path.map Step.text)
  if joined = "" then "<root>" else joined

/-! ## Causes -/

inductive Cause where
  -- it is neither a mapping nor an object that has fields
  | notRecord
  -- it does not carry the tag that tells its class
  | tagMissing (key : String)
  -- its tag is none of the expected ones
  | tagUnknown (key tag : String) (expected : List String)
  -- it is neither a mapping nor an object of the class that its tag tells
  | notInstance (model : Model)
  | fieldMissing
  -- it is not the tag of the class that is built
  | wrongTag (expected : String)
  | notString
  | emptyString
  | notBool
  | notSequence
  -- it has too few items after those that could not be read were dropped
  | tooShort (least actual : Nat)
  | tooLong (most actual : Nat)
  | notInteger
  | notFloat
  -- it is a truth value where a number is wanted
  | boolNumber
  -- it is an infinity or the undefined value
  | notFinite
  -- it is neither a date nor text
  | notDate
  -- its text cannot be read as a date
  | unreadableDate
  -- its text cannot be read as a number
  | unreadableNumber
  -- its text is an integer of more digits than the limit
  | tooManyDigits (count : Nat)
  -- it is a range without bounds
  | unbounded
  | unknownOperator
  | frozen
  -- its text cannot be read as an integer
  | unreadableInteger
  -- its text is too long for an integer
  | oversizedInteger
  -- reading it would take more readers one inside the other than the limit
  | tooNested
  deriving DecidableEq, Repr

/-- The text of the limit on digits, for a numeral of `count` digits that is read. -/
def digitLimitText (count : Nat) : String :=
  "Exceeds the limit (" ++ shownNat digitLimit ++
    " digits) for integer string conversion: value has " ++ shownNat count ++
    " digits; use sys.set_int_max_str_digits() to increase the limit"

def shownItems (n : Nat) : String :=
  shownNat n ++ (if n = 1 then " item" else " items")

namespace Cause

def code : Cause → String
  | .notRecord => "model_attributes_type"
  | .tagMissing _ => "union_tag_not_found"
  | .tagUnknown _ _ _ => "union_tag_invalid"
  | .notInstance _ => "model_type"
  | .fieldMissing => "missing"
  | .wrongTag _ => "literal_error"
  | .notString => "string_type"
  | .emptyString => "string_too_short"
  | .notBool => "bool_type"
  | .notSequence => "tuple_type"
  | .tooShort _ _ => "too_short"
  | .tooLong _ _ => "too_long"
  | .notInteger => "int_type"
  | .notFloat => "float_type"
  | .boolNumber => "number_type"
  | .notFinite => "finite_number"
  | .notDate => "date_type"
  | .unreadableDate => "primitive_parse_error"
  | .unreadableNumber => "primitive_parse_error"
  | .tooManyDigits _ => "value_error"
  | .unbounded => "value_error"
  | .unknownOperator => "enum"
  | .frozen => "frozen_instance"
  | .unreadableInteger => "int_parsing"
  | .oversizedInteger => "int_parsing_size"
  | .tooNested => "recursion_loop"

def message (input : Value) : Cause → String
  | .notRecord => "Input should be a valid dictionary or object to extract fields from"
  | .tagMissing key => "Unable to extract tag using discriminator '" ++ key ++ "'"
  | .tagUnknown key tag expected =>
    "Input tag '" ++ tag ++ "' found using '" ++ key ++
      "' does not match any of the expected tags: " ++
      ", ".intercalate (expected.map fun t => "'" ++ t ++ "'")
  | .notInstance m => "Input should be a valid dictionary or instance of " ++ m.name
  | .fieldMissing => "Field required"
  | .wrongTag expected => "Input should be '" ++ expected ++ "'"
  | .notString => "Input should be a valid string"
  | .emptyString => "String should have at least 1 character"
  | .notBool => "Input should be a valid boolean"
  | .notSequence => "Input should be a valid tuple"
  | .tooShort least actual =>
    "Tuple should have at least " ++ shownItems least ++ " after validation, not " ++ shownNat actual
  | .tooLong most actual =>
    "Tuple should have at most " ++ shownItems most ++ " after validation, not " ++ shownNat actual
  | .notInteger => "Input should be a valid integer"
  | .notFloat => "Input should be a valid number"
  | .boolNumber => "Input should be a number, not a boolean"
  | .notFinite => "Input should be a finite number"
  | .notDate => "Input should be a datetime or an ISO-8601 string"
  | .unreadableDate => "Cannot parse " ++ input.shown ++ " as a date"
  | .unreadableNumber => "Cannot parse " ++ input.shown ++ " as a number"
  | .tooManyDigits count => "Value error, " ++ digitLimitText count
  | .unbounded => "Value error, unbounded range: at least one of lower/upper is required"
  | .unknownOperator => "Input should be 'Intersects', 'IsWithin', 'Contains' or 'IsDisjointTo'"
  | .frozen => "Instance is frozen"
  | .unreadableInteger =>
    "Input should be a valid integer, unable to parse string as an integer"
  | .oversizedInteger =>
    "Unable to parse input string as an integer, exceeded maximum size"
  | .tooNested => "Recursion error - cyclic reference detected"

end Cause

/-! ## Faults -/

structure Fault where
  -- the way from the value to the place
  path : Path
  cause : Cause
  -- the value at the place; for a missing field or tag, the value that lacks it
  input : Value
  deriving Repr

namespace Fault

def here (cause : Cause) (input : Value) : Fault := ⟨[], cause, input⟩

def under (s : Step) (f : Fault) : Fault := { f with path := s :: f.path }

def message (f : Fault) : String := f.cause.message f.input

def text (f : Fault) : String := pathText f.path ++ ": " ++ f.message

end Fault

/-! ## Reading -/

inductive Decoded (α : Type) where
  | done (result : α)
  -- the value has faults, in the order in which its parts are read
  | faulty (first : Fault) (rest : List Fault)
  -- a date in the value names a moment outside the calendar; nothing else is said then
  | outsideCalendar
  deriving Repr

namespace Decoded

variable {α β γ : Type}

def fault (cause : Cause) (input : Value) : Decoded α :=
  .faulty (Fault.here cause input) []

/-- A value with the listed faults, or else with a result. -/
def ofFaults (faults : List Fault) (result : α) : Decoded α :=
  match faults with
  | [] => .done result
  | f :: fs => .faulty f fs

def map (f : α → β) : Decoded α → Decoded β
  | .done a => .done (f a)
  | .faulty x xs => .faulty x xs
  | .outsideCalendar => .outsideCalendar

/-- Joins two parts that are both read: the faults of both count. -/
def combine (f : α → β → γ) : Decoded α → Decoded β → Decoded γ
  | .outsideCalendar, _ => .outsideCalendar
  | _, .outsideCalendar => .outsideCalendar
  | .done a, .done b => .done (f a b)
  | .done _, .faulty y ys => .faulty y ys
  | .faulty x xs, .done _ => .faulty x xs
  | .faulty x xs, .faulty y ys => .faulty x (xs ++ y :: ys)

def bind (d : Decoded α) (f : α → Decoded β) : Decoded β :=
  match d with
  | .done a => f a
  | .faulty x xs => .faulty x xs
  | .outsideCalendar => .outsideCalendar

def under (s : Step) : Decoded α → Decoded α
  | .done a => .done a
  | .faulty x xs => .faulty (x.under s) (xs.map (Fault.under s))
  | .outsideCalendar => .outsideCalendar

def faults : Decoded α → List Fault
  | .faulty x xs => x :: xs
  | _ => []

def result? : Decoded α → Option α
  | .done a => some a
  | _ => none

end Decoded

end QueryTree
