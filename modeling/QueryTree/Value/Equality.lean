import QueryTree.Value.Basic

/-!
# Equality of values

When two values count as equal: numbers by what they denote, text by its characters, readings
of clocks by the moment, mappings regardless of order, objects by class and fields.

* `Float64.sameValue`, `DateTime.sameMoment` : scalars
* `Value.equal` : all values
-/

namespace QueryTree

/-! ## Scalars -/

/-- The undefined value equals nothing, not even itself. -/
def Float64.sameValue : Float64 → Float64 → Bool
  | .finite x, .finite y => x.units == y.units
  | .infinite a, .infinite b => a == b
  | _, _ => false

/-- Readings with known offsets are equal if they name the same moment; without one, if they read
    the same; a reading of either sort equals none of the other. -/
def DateTime.sameMoment (a b : DateTime) : Bool :=
  match a.offset, b.offset with
  | none, none => a.wall == b.wall
  | some x, some y => (a.wall.micros : Int) - x == (b.wall.micros : Int) - y
  | _, _ => false

namespace Value

/-- What a numeric value denotes: an integer or a binary number.  Truth values denote one and
    zero. -/
def numeric? : Value → Option (Int ⊕ Float64)
  | .bool b => some (.inl (if b then 1 else 0))
  | .int n => some (.inl n)
  | .float x => some (.inr x)
  | _ => none

/-- Numeric equality, exact across integers and binary numbers. -/
def sameNumber : Int ⊕ Float64 → Int ⊕ Float64 → Bool
  | .inl m, .inl n => m == n
  | .inl m, .inr (.finite x) => (Number.int m).sameValue (.float x)
  | .inr (.finite x), .inl n => (Number.float x).sameValue (.int n)
  | .inr x, .inr y => x.sameValue y
  | _, _ => false

def sameScalar (v w : Value) : Bool :=
  match v.numeric?, w.numeric? with
  | some m, some n => sameNumber m n
  | none, none =>
    match v.text?, w.text? with
    | some s, some t => s == t
    | none, none =>
      match v, w with
      | .null, .null => true
      | .bytes a, .bytes b => a == b
      | .date a, .date b => a == b
      | .dateTime a, .dateTime b => a.sameMoment b
      | _, _ => false
    | _, _ => false
  | _, _ => false

/-! ## All values -/

mutual

def equal : Value → Value → Bool
  | .list vs, w =>
    match w with
    | .list ws => equalList vs ws
    | _ => false
  | .tuple vs, w =>
    match w with
    | .tuple ws => equalList vs ws
    | _ => false
  | .record m fs, w =>
    match w with
    | .record m' gs => m == m' && fs.length == gs.length && equalFields fs gs
    | _ => false
  | v, w => sameScalar v w
termination_by structural v => v

def equalList : List Value → List Value → Bool
  | [], ws => ws.isEmpty
  | v :: vs, ws =>
    match ws with
    | [] => false
    | w :: ws => equal v w && equalList vs ws
termination_by structural vs => vs

/-- Whether all named values are equal to those of the same name in another list. -/
def equalFields : List (String × Value) → List (String × Value) → Bool
  | [], _ => true
  | (k, v) :: rest, gs =>
    match gs.lookup k with
    | some w => equal v w && equalFields rest gs
    | none => false
termination_by structural fs => fs

end

end Value

end QueryTree
