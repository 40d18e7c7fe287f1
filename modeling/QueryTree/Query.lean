import QueryTree.Value.Embedding
import QueryTree.Validation

/-!
# Queries

Query text from values: from trees that callers hold as objects, which may have been
made by hand and hold anything, and from untrusted values, which are checked first.

* `Value.numberText`, `Value.dateText`, … : the text of a value as one of a kind
* `Value.literalText` : the text of a value of a named kind
* `Value.render`      : the text of a node object
* `toQuery`           : the text of an untrusted value
-/

namespace QueryTree

namespace Value

/-! ## Leaves -/

/-- The text of a value as a number.  A value that is no number is written as it is shown,
    unless that has the mark of an exponent in it: then the size of the number would count. -/
def numberText : Value → Except Failure (List Char)
  | .int n => if writableInt n then .ok (Text.decimalInt n) else .error (.oversized none)
  | .float (.finite x) => .ok (Layout.query.write x)
  | .bool b => .ok (Value.bool b).shown.toList
  | v =>
    if !v.writable then .error (.oversized none)
    else if v.shown.contains 'e' then .error .wrongType
    else .ok v.shown.toList

/-- The moment that a value names as a date. -/
def moment? : Value → Except Failure Moment
  | .date d => .ok (Moment.ofDay d)
  | .dateTime t =>
    match t.utc? with
    | some m => .ok m
    | none => .error .outsideCalendar
  | _ => .error .wrongType

def dateText (v : Value) : Except Failure (List Char) :=
  v.moment?.map Moment.queryText

/-- Why a value that counts as no text cannot be read: byte strings are of the wrong type for it,
    everything else cannot even be trimmed. -/
def unreadable : Value → Failure
  | .bytes _ => .wrongType
  | _ => .missingField

def readNumber (v : Value) : Except Failure Number :=
  match v.text? with
  | none => .error v.unreadable
  | some s =>
    match Number.read s.toList with
    | .ok n => .ok n
    | .error .unreadable => Failure.raise (.unreadable .number v)
    | .error (.tooManyDigits count) => .error (.oversized (some count))

def readMoment (v : Value) : Except Failure Moment :=
  match v.text? with
  | none => .error v.unreadable
  | some s =>
    match Moment.read s.toList with
    | .ok m => .ok m
    | .error .unreadable => Failure.raise (.unreadable .date v)
    | .error .outsideCalendar => .error .outsideCalendar

def stringText (v : Value) : Except Failure (List Char) :=
  match v.text? with
  | some s => .ok (Text.quote s.toList)
  | none => .error .wrongType

def patternText (v : Value) : Except Failure (List Char) :=
  match v.text? with
  | some s => .ok (Text.escapeGlob s.toList)
  | none => .error .wrongType

def geometryText (v : Value) : Except Failure (List Char) :=
  match Geometry.decode v with
  | .done g => if g.writable then .ok g.wkt else .error (.oversized none)
  | .faulty f fs => .error (.query (.malformedGeometry (f :: fs)))
  | .outsideCalendar => .error .outsideCalendar

/-- What an operator is called: the name of a member of an enumeration, or what an object holds
    as its value. -/
def operatorText : Value → Except Failure (List Char)
  | .operator o => .ok o.name.toList
  | .kind k => .ok k.name.toList
  | .object _ fs =>
    match fs.lookup "value" with
    | some v => if v.writable then .ok v.plain.toList else .error (.oversized none)
    | none => .error .missingField
  | _ => .error .missingField

def spatialText : Value → Except Failure (List Char)
  | .object _ fs =>
    match fs.lookup "op", fs.lookup "geom" with
    | none, _ => .error .missingField
    | some op, none => do
      let _ ← op.operatorText
      .error .missingField
    | some op, some geom => do
      let op ← op.operatorText
      let geom ← geom.geometryText
      .ok (Text.quote (op ++ commas [geom]))
  | _ => .error .missingField

/-- The text of a value as one of a kind. -/
def textOfKind (v : Value) (kind : Kind) : Except Failure (List Char) :=
  match kind with
  | .string => v.stringText
  | .number => v.numberText
  | .date => v.dateText
  | .glob => v.patternText
  | .spatial => v.spatialText

/-- The text of a value of the kind that another value names; an absent value is a wildcard,
    whatever the kind. -/
def literalText (v kind : Value) : Except Failure (List Char) :=
  match v with
  | .null => .ok wildcard
  | v => do v.textOfKind (← Kind.lookup kind)

/-! ## Parts of node objects -/

/-- Whether a value counts as true: it is neither empty nor zero. -/
def truthy : Value → Bool
  | .null => false
  | .bool b => b
  | .int n => n != 0
  | .float (.finite x) => !x.isZero
  | .float _ => true
  | .str s => s != ""
  | .bytes bs => !bs.isEmpty
  | .list vs => !vs.isEmpty
  | .tuple vs => !vs.isEmpty
  | .record none fs => !fs.isEmpty
  | .record (some _) _ | .date _ | .dateTime _ | .kind _ | .operator _ => true

def need (key : String) (fs : List (String × Value)) : Except Failure Value :=
  match fs.lookup key with
  | some v => .ok v
  | none => .error .missingField

def literalFieldsText (fs : List (String × Value)) : Except Failure (List Char) := do
  (← need "value" fs).literalText (← need "kind" fs)

/-- The text of a range object from its fields, which are looked at in the order in which their
    texts stand. -/
def rangeFieldsText (fs : List (String × Value)) : Except Failure (List Char) := do
  let closedLower ← need "closed_lower" fs
  let kind ← need "kind" fs
  let lower ← (← need "lower" fs).literalText kind
  let upper ← (← need "upper" fs).literalText kind
  let closedUpper ← need "closed_upper" fs
  .ok (rangeText closedLower.truthy closedUpper.truthy lower upper)

/-- The items that a value consists of, if it has items at all: text has characters, a byte
    string numbers, a mapping keys, an object its fields with their names. -/
def elements? : Value → Option (List Value)
  | .str s => some (s.toList.map fun c => .str (String.singleton c))
  | .kind k => some (k.name.toList.map fun c => .str (String.singleton c))
  | .operator o => some (o.name.toList.map fun c => .str (String.singleton c))
  | .bytes bs => some (bs.map fun b => .int b.toNat)
  | .list vs => some vs
  | .tuple vs => some vs
  | .record none fs => some (fs.map fun f => .str f.1)
  | .record (some _) fs => some (fs.map fun f => .tuple [.str f.1, f.2])
  | _ => none

/-- Operands that are no sequence of values: the items of nothing else are nodes. -/
def oddOperands (v : Value) : Except Failure (List (List Char)) :=
  match v.elements? with
  | none => .error .wrongType
  | some [] => .ok []
  | some (item :: _) => Failure.raise (.notNode item)

/-- The text of a field name, which is whatever the value says. -/
def fieldNameText (v : Value) : Except Failure (List Char) :=
  if v.writable then .ok v.plain.toList else .error (.oversized none)

/-! ## Node objects -/

/-- A part that is needed; `part` is what writing it gave. -/
def needPart {α : Type} (part : Option (Except Failure α)) : Except Failure α :=
  part.getD (.error .missingField)

mutual

/-- The text of a node object, which may hold anything. -/
def render : Value → Except Failure (List Char)
  | .record (some m) fs =>
    match m with
    | .literal _ => literalFieldsText fs
    | .range _ => rangeFieldsText fs
    | .term => needPart (renderAt "value" fs)
    | .namedTerm => do
      let field ← (← need "field" fs).fieldNameText
      let value ← needPart (renderAt "value" fs)
      .ok (fieldText field value)
    | .combine c => do
      let operands ← needPart (renderOperandsAt fs)
      .ok (c.text operands)
    | .modify modifier => do
      let rhs ← needPart (renderAt "rhs" fs)
      .ok (modifier.text rhs)
    | .constant => do
      let lhs ← needPart (renderAt "lhs" fs)
      let boost ← (← need "rhs" fs).numberText
      .ok (boostText lhs boost)
    | .predicate | .geometry _ | .filter _ => Failure.raise (.notNode (.record (some m) fs))
  | v => Failure.raise (.notNode v)
termination_by structural v => v

def renderAt (key : String) : List (String × Value) → Option (Except Failure (List Char))
  | [] => none
  | (k, v) :: rest => if k = key then some (render v) else renderAt key rest
termination_by structural fs => fs

def renderOperandsAt : List (String × Value) → Option (Except Failure (List (List Char)))
  | [] => none
  | (k, v) :: rest => if k = "operands" then some (renderItems v) else renderOperandsAt rest
termination_by structural fs => fs

def renderItems : Value → Except Failure (List (List Char))
  | .list vs => renderEach vs
  | .tuple vs => renderEach vs
  | v => oddOperands v
termination_by structural v => v

/-- The texts of node objects, up to the first that fails. -/
def renderEach : List Value → Except Failure (List (List Char))
  | [] => .ok []
  | v :: vs => do
    let text ← render v
    let texts ← renderEach vs
    .ok (text :: texts)
termination_by structural vs => vs

end

end Value

/-! ## Untrusted values -/

/-- The query text of an untrusted value: the value is checked as a query element, and the tree
    is written. -/
def toQuery (limit : Int) (v : Value) : Except Failure (Verdict String) := do
  match ← validateElement limit v with
  | .rejected r => .ok (.rejected r)
  | .accepted n =>
    match n.toValue.render with
    | .ok text => .ok (.accepted (String.ofList text))
    | .error (.query (.malformedGeometry faults)) => .ok (.rejected (.badGeometry faults))
    | .error failure => .error failure

end QueryTree
