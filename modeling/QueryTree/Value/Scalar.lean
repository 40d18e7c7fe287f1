import QueryTree.Fault
import QueryTree.Moment.Reader

/-!
# Reading scalars and sequences

The readers for the parts of trees, geometries and filters that hold no further
nodes: text, truth values, numbers, moments, operators, and sequences of anything.

* `String.decode`, `FieldName.decode`, `Bool.decode`, `SpatialOperator.decode`
* `Number.decode`, `Number.decodeInput` : numbers; numbers or numerals
* `Moment.decode`       : moments; dates, readings of a clock, or ISO text
* `decodeOptional`      : an absent value or a value
* `Gathered`, `decodeSequence` : the items of a sequence, each in its place
* `Value.attribute`     : a named part of a value, for values that have any
* `decodeRequired`      : a field that has to be there
-/

namespace QueryTree

open Decoded

/-! ## Scalars -/

/-- Text; the members of the enumerations count as their text. -/
def decodeString (v : Value) : Decoded String :=
  match v.text? with
  | some s => .done s
  | none => fault .notString v

/-- A field name: text with at least one character. -/
def FieldName.decode (v : Value) : Decoded FieldName :=
  match v.text? with
  | some s => if h : s = "" then fault .emptyString v else .done ⟨s, h⟩
  | none => fault .notString v

/-- A truth value; nothing else stands for one. -/
def decodeBool : Value → Decoded Bool
  | .bool b => .done b
  | v => fault .notBool v

/-- A number: an integer or a finite binary number.  A value that is neither gets a fault for
    each of the two attempts. -/
def Number.decode : Value → Decoded Number
  | .int n => .done (.int n)
  | .float (.finite x) => .done (.float x)
  | .float x => fault .notFinite (.float x)
  | .bool b => fault .boolNumber (.bool b)
  | v => .faulty ⟨[.tag "int"], .notInteger, v⟩ [⟨[.tag "float"], .notFloat, v⟩]

/-- A number as forms and query strings give it: a number, or the text of one. -/
def Number.decodeInput (v : Value) : Decoded Number :=
  match v.text? with
  | none => Number.decode v
  | some s =>
    match Number.read s.toList with
    | .ok n => .done n
    | .error .unreadable => fault .unreadableNumber v
    | .error (.tooManyDigits count) => fault (.tooManyDigits count) v

/-- A moment: a date (its midnight), a reading of a clock, or ISO text, all as of UTC. -/
def Moment.decode (v : Value) : Decoded Moment :=
  match v with
  | .date d => .done (Moment.ofDay d)
  | .dateTime t =>
    match t.utc? with
    | some m => .done m
    | none => .outsideCalendar
  | _ =>
    match v.text? with
    | none => fault .notDate v
    | some s =>
      match Moment.read s.toList with
      | .ok m => .done m
      | .error .unreadable => fault .unreadableDate v
      | .error .outsideCalendar => .outsideCalendar

def asciiText? (bs : List UInt8) : Option String :=
  if bs.all (· < 128) then some (String.ofList (bs.map fun b => Char.ofNat b.toNat)) else none

/-- A spatial operator: a member of the enumeration or the name of one, as text or bytes. -/
def SpatialOperator.decode (v : Value) : Decoded SpatialOperator :=
  let name? :=
    match v with
    | .bytes bs => asciiText? bs
    | _ => v.text?
  match name?.bind SpatialOperator.ofName? with
  | some o => .done o
  | none => fault .unknownOperator v

def decodeOptional {α : Type} (read : Value → Decoded α) : Value → Decoded (Option α)
  | .null => .done none
  | v => (read v).map some

/-! ## Sequences -/

/-- What reading the items of a sequence one by one gives: the items that could be read, the
    faults of the others, and whether a date fell outside the calendar. -/
structure Gathered (α : Type) where
  -- whether a date fell outside the calendar
  outside : Bool
  -- the faults of all items, in order
  faults : List Fault
  -- the items that could be read, in order
  items : List α

namespace Gathered

variable {α : Type}

def empty : Gathered α := ⟨false, [], []⟩

/-- Puts the item at a position in front of what the following items give. -/
def cons (i : Nat) (item : Decoded α) (rest : Gathered α) : Gathered α :=
  match item with
  | .done a => { rest with items := a :: rest.items }
  | .faulty x xs => { rest with faults := (x :: xs).map (Fault.under (.index i)) ++ rest.faults }
  | .outsideCalendar => { rest with outside := true }

/-- The whole sequence, of which at least `least` items have to be readable. -/
def atLeast (least : Nat) (input : Value) (g : Gathered α) : Decoded (List α) :=
  if g.outside then .outsideCalendar
  else
    ofFaults
      (g.faults ++
        if g.items.length < least then [Fault.here (.tooShort least g.items.length) input] else [])
      g.items

end Gathered

/-- Reads the items of a sequence, the first of which has position `i`. -/
def gather {α : Type} (read : Value → Decoded α) (i : Nat) : List Value → Gathered α
  | [] => .empty
  | v :: vs => .cons i (read v) (gather read (i + 1) vs)

/-- A sequence with at least `least` readable items. -/
def decodeSequence {α : Type} (least : Nat) (read : Value → Decoded α) (v : Value) :
    Decoded (List α) :=
  match v.items? with
  | some vs => (gather read 0 vs).atLeast least v
  | none => fault .notSequence v

/-! ## Fields -/

inductive Attribute where
  -- the value has no named parts
  | noRecord
  -- the value has no part of that name
  | absent
  -- the part
  | found (v : Value)

def Attribute.ofOption : Option Value → Attribute
  | some v => .found v
  | none => .absent

/-- The part of a name, of values that have named parts by themselves: mappings and objects by
    their fields, members of the enumerations none. -/
def Value.ownAttribute (key : String) : Value → Attribute
  | .record _ fs => .ofOption (fs.lookup key)
  | .kind _ | .operator _ => .absent
  | _ => .noRecord

/-- The part of a name.  A pair of an object or member and a mapping has the parts of both, the
    mapping first. -/
def Value.attribute (key : String) : Value → Attribute
  | .tuple [v, .mapping extra] =>
    match v with
    | .object _ _ | .kind _ | .operator _ =>
      match extra.lookup key with
      | some found => .found found
      | none => v.ownAttribute key
    | _ => .noRecord
  | v => v.ownAttribute key

/-- A field that has to be there; `whole` is the value whose fields are looked at. -/
def decodeRequired {α : Type} (key : String) (read : Value → Decoded α) (whole : Value)
    (fs : List (String × Value)) : Decoded α :=
  match fs.lookup key with
  | some v => (read v).under (.field key)
  | none => .faulty ⟨[.field key], .fieldMissing, whole⟩ []

/-- A field that counts as absent when it is not there. -/
def decodeAbsentable {α : Type} (key : String) (read : Value → Decoded α)
    (fs : List (String × Value)) : Decoded (Option α) :=
  match fs.lookup key with
  | some v => (decodeOptional read v).under (.field key)
  | none => .done none

/-- A tag field as a constructor takes it: it may be left out, but it has to be the class's. -/
def decodeTag (key expected : String) (fs : List (String × Value)) : Decoded Unit :=
  match fs.lookup key with
  | none => .done ()
  | some v =>
    if v.text? = some expected then .done ()
    else (fault (.wrongTag expected) v).under (.field key)

/-- Whether a record may be read as one of a class: plain mappings and objects of the class. -/
def fitsModel (expected : Model) (m : Option Model) : Bool :=
  m = none || m = some expected

end QueryTree
