import QueryTree.Fault

/-!
# Room for readers

Trees and geometries are read by readers that call one another, one for each class.  The library
that runs them bounds how many of them are at work one inside the other, and takes a value that
needs more for one that holds itself.

A class whose objects may hold objects of the same class has a reader of its own, in which the
readers of the classes that were made before it are used as they are.  Such a reader is counted
once where it is used and once more on its own account, and from there on it is the one that
calls.  All other readers of nodes are counted once; those of predicates and of geometries with
coordinates are part of the reader around them and not counted at all.

* `Model.rank?`       : the place of a class in the order in which these readers are made
* `Model.entries`, `Model.innerRank` : what entering a class costs, and where it leads
* `Room`              : the room that is left for readers
* `Room.full`, `Room.constructing` : the room at the outset
* `Room.enter`, `Room.read` : the room inside a class, and reading in it
-/

namespace QueryTree

/-- How many readers may be at work one inside the other. -/
def readerLimit : Nat := 255

/-! ## Classes -/

namespace Model

/-- The place of a class among those with a reader of its own, in the order in which they were
    made. -/
def rank? : Model → Option Nat
  | .geometry .collection => some 0
  | .term => some 1
  | .namedTerm => some 2
  | .combine .and => some 3
  | .combine .or => some 4
  | .modify .not => some 5
  | .modify .required => some 6
  | .modify .prohibited => some 7
  | .constant => some 8
  | _ => none

/-- How many readers are entered with a class, from inside the reader at a place of the order. -/
def entries (rank : Nat) : Model → Nat
  | .literal _ | .range _ => 1
  | m =>
    match m.rank? with
    | some own => if own < rank then 2 else 1
    | none => 0

/-- The place of the reader at work inside a class, from inside the reader at a place. -/
def innerRank (rank : Nat) (m : Model) : Nat :=
  match m.rank? with
  | some own => min own rank
  | none => rank

end Model

/-! ## Room -/

structure Room where
  -- the place of the reader at work; past all places when there is none
  rank : Nat
  -- how many more readers may be entered
  left : Nat
  deriving DecidableEq, Repr

namespace Room

/-- The room for untrusted values. -/
def full : Room := ⟨9, readerLimit⟩

/-- The room for the fields of an object of a class that is made by its constructor. -/
def constructing (m : Model) : Room :=
  match m.rank? with
  | some own => ⟨own, readerLimit - 1⟩
  | none => full

/-- The room inside a class, if there is any. -/
def enter (room : Room) (m : Model) : Option Room :=
  if m.entries room.rank ≤ room.left then
    some ⟨m.innerRank room.rank, room.left - m.entries room.rank⟩
  else none

/-- Reads a value as one of a class, in the room inside the class.  A value for which there is no
    room is not looked into. -/
def read {α : Type} (room : Room) (m : Model) (whole : Value) (inside : Room → Decoded α) :
    Decoded α :=
  match room.enter m with
  | some inner => inside inner
  | none => .fault .tooNested whole

end Room

end QueryTree
