import QueryTree.Text.Shown
import QueryTree.Value.Basic

/-!
# Values inside messages

Messages show the value that they are about.

* `Value.shown`    : the exact form, in which text is quoted
* `Value.plain`    : the plain form, in which text stands as it is
* `Value.typeName` : the name of a value's type
* `Value.writable` : whether all integers in a value can be written
-/

namespace QueryTree

/-! ## Scalars -/

/-- A binary number in the format of messages. -/
def Float64.shown : Float64 → String
  | .finite x => String.ofList (Layout.shown.write x)
  | .infinite false => "inf"
  | .infinite true => "-inf"
  | .nan => "nan"

def shownNat (n : Nat) : String :=
  String.ofList (Text.decimal n)

def shownInt (n : Int) : String :=
  String.ofList (Text.decimalInt n)

/-- The name of a kind as a member of its enumeration. -/
def Kind.memberName : Kind → String
  | .string => "STRING"
  | .number => "NUMBER"
  | .date => "DATE"
  | .glob => "GLOB"
  | .spatial => "SPATIAL"

/-- The name of an operator as a member of its enumeration. -/
def SpatialOperator.memberName : SpatialOperator → String
  | .intersects => "INTERSECTS"
  | .isWithin => "IS_WITHIN"
  | .contains => "CONTAINS"
  | .isDisjointTo => "IS_DISJOINT_TO"

namespace CivilDate

/-- The numbers of a date, as they are shown. -/
def shownParts (d : CivilDate) : List String :=
  [shownNat d.year, shownNat d.month, shownNat d.day]

end CivilDate

namespace DateTime

/-- An offset as whole days, seconds of a day and microseconds of a second, the days alone
    carrying the sign; parts that are zero are left out. -/
def shownOffset (offset : Int) : String :=
  let days := offset / microsPerDay
  let micros := offset % microsPerDay
  let part (name : String) (n : Int) : List String :=
    if n = 0 then [] else [name ++ "=" ++ shownInt n]
  "datetime.timezone(datetime.timedelta(" ++
    ", ".intercalate (part "days" days ++ part "seconds" (micros / 1000000) ++
      part "microseconds" (micros % 1000000)) ++ "))"

/-- A reading with its parts; a second or microsecond of zero at the end is left out. -/
def shown (t : DateTime) : String :=
  let c := t.wall.civil
  let late := if c.micro ≠ 0 then [c.second, c.micro] else if c.second ≠ 0 then [c.second] else []
  let zone :=
    match t.offset with
    | none => []
    | some 0 => ["tzinfo=datetime.timezone.utc"]
    | some offset => ["tzinfo=" ++ shownOffset offset]
  "datetime.datetime(" ++
    ", ".intercalate (c.date.shownParts ++ ([c.hour, c.minute] ++ late).map shownNat ++ zone) ++ ")"

/-- An offset as `±HH:MM`, with seconds and microseconds if there are any. -/
def plainOffset (offset : Int) : List Char :=
  let n := offset.natAbs
  let seconds := n / 1000000
  (if offset < 0 then '-' else '+') :: Text.padded 2 (seconds / 3600) ++
    ':' :: Text.padded 2 (seconds / 60 % 60) ++
    (if n % 60000000 = 0 then [] else ':' :: Text.padded 2 (seconds % 60)) ++
    Moment.fractionText (n % 1000000)

/-- A reading as date, blank, time and offset. -/
def plain (t : DateTime) : String :=
  let c := t.wall.civil
  String.ofList <|
    Moment.dateText c.date ++ ' ' :: Moment.clockText c ++ Moment.fractionText c.micro ++
      (t.offset.map plainOffset).getD []

end DateTime

/-! ## Values -/

namespace Value

mutual

def shown : Value → String
  | .null => "None"
  | .bool b => if b then "True" else "False"
  | .int n => shownInt n
  | .float x => x.shown
  | .str s => String.ofList (Text.shownText s.toList)
  | .bytes bs => String.ofList (Text.shownBytes bs)
  | .list vs => "[" ++ ", ".intercalate (shownList vs) ++ "]"
  | .tuple [v] => "(" ++ shown v ++ ",)"
  | .tuple vs => "(" ++ ", ".intercalate (shownList vs) ++ ")"
  | .record none fs => "\x7b" ++ ", ".intercalate (shownEntries fs) ++ "\x7d"
  | .record (some m) fs => m.name ++ "(" ++ ", ".intercalate (shownFields fs) ++ ")"
  | .date d => "datetime.date(" ++ ", ".intercalate d.civil.shownParts ++ ")"
  | .dateTime t => t.shown
  | .kind k => "<PrimitiveKind." ++ k.memberName ++ ": '" ++ k.name ++ "'>"
  | .operator o => "<SpatialOperator." ++ o.memberName ++ ": '" ++ o.name ++ "'>"

def shownList : List Value → List String
  | [] => []
  | v :: vs => v.shown :: shownList vs

def shownEntries : List (String × Value) → List String
  | [] => []
  | (k, v) :: rest => (String.ofList (Text.shownText k.toList) ++ ": " ++ v.shown) :: shownEntries rest

def shownFields : List (String × Value) → List String
  | [] => []
  | (k, v) :: rest => (k ++ "=" ++ v.shown) :: shownFields rest

end

/-- The plain form of a value: text as it is, dates and times as they are read, members of an
    enumeration by their name, objects by their fields. -/
def plain : Value → String
  | .str s => s
  | .date d => String.ofList (Moment.dateText d.civil)
  | .dateTime t => t.plain
  | .kind k => "PrimitiveKind." ++ k.memberName
  | .operator o => "SpatialOperator." ++ o.memberName
  | .record (some _) fs => " ".intercalate (shownFields fs)
  | v => v.shown

def typeName : Value → String
  | .null => "NoneType"
  | .bool _ => "bool"
  | .int _ => "int"
  | .float _ => "float"
  | .str _ => "str"
  | .bytes _ => "bytes"
  | .list _ => "list"
  | .tuple _ => "tuple"
  | .record none _ => "dict"
  | .record (some m) _ => m.name
  | .date _ => "date"
  | .dateTime _ => "datetime"
  | .kind _ => "PrimitiveKind"
  | .operator _ => "SpatialOperator"

/-! ## What can be written -/

mutual

/-- Whether all integers in a value can be written. -/
def writable : Value → Bool
  | .int n => writableInt n
  | .list vs => writableList vs
  | .tuple vs => writableList vs
  | .record _ fs => writableFields fs
  | _ => true

/-- Whether all integers in values can be written. -/
def writableList : List Value → Bool
  | [] => true
  | v :: vs => v.writable && writableList vs

/-- Whether all integers in named values can be written. -/
def writableFields : List (String × Value) → Bool
  | [] => true
  | (_, v) :: rest => v.writable && writableFields rest

end

end Value

end QueryTree
