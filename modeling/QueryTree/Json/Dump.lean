import QueryTree.Value.Embedding

/-!
# Dumps

Values in the shape of JSON: objects become mappings, tuples become lists, dates and members of
the enumerations become text.  Byte strings are left as they are: no part of a tree, a geometry or
a filter holds one.

* `DateTime.dumpText` : the text of a reading of a clock
* `Value.dump`        : the dump of a value
-/

namespace QueryTree

/-- The text of a reading in a dump: date and time, all places of the second, and the offset, for
    which UTC has a letter. -/
def DateTime.dumpText (t : DateTime) : List Char :=
  let c := t.wall.civil
  let zone : List Char :=
    match t.offset with
    | none => []
    | some 0 => ['Z']
    | some offset =>
      let minutes := offset.natAbs / 60000000
      (if offset < 0 then '-' else '+') :: Text.padded 2 (minutes / 60) ++
        ':' :: Text.padded 2 (minutes % 60)
  Moment.dateText c.date ++ 'T' :: Moment.clockText c ++ Moment.fractionText c.micro ++ zone

theorem DateTime.dumpText_ofUtc (m : Moment) : (DateTime.ofUtc m).dumpText = m.dumpText := by
  simp [DateTime.dumpText, DateTime.ofUtc, Moment.dumpText]

namespace Value

mutual

def dump : Value → Value
  | .list vs => .list (dumpList vs)
  | .tuple vs => .list (dumpList vs)
  | .record _ fs => .mapping (dumpFields fs)
  | .date d => .str (String.ofList (Moment.dateText d.civil))
  | .dateTime t => .str (String.ofList t.dumpText)
  | .kind k => .str k.name
  | .operator o => .str o.name
  | v => v

def dumpList : List Value → List Value
  | [] => []
  | v :: vs => v.dump :: dumpList vs

def dumpFields : List (String × Value) → List (String × Value)
  | [] => []
  | (k, v) :: rest => (k, v.dump) :: dumpFields rest

end

end Value

end QueryTree
