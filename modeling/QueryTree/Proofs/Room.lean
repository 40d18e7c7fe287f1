import QueryTree.Node.Decode
import QueryTree.Proofs.Decoding
import QueryTree.Proofs.Induction
import QueryTree.Value.Embedding

/-!
# Trees in their room

How many readers are at work one inside the other when a tree is read, as a measure of the tree.  A
tree is in a room if it needs no more readers than the room has left.

* `Room.enter_eq_some`, `Room.read_eq_done`, `Room.read_eq_outside` : laws of reading in a room
* `Geometry.readers`, `Node.readers` : the readers that a geometry, a tree needs
* `Geometry.InRoom`, `Node.InRoom`   : they are in a room
* `Geometry.inRoom_collection`, `Node.inRoom_iff` : a tree is in a room if the parts are inside
* `Node.Buildable`                   : the constructor of the class has room for the parts
-/

namespace QueryTree

variable {α : Type}

/-! ## Laws of rooms -/

namespace Room

theorem enter_eq_some {room inner : Room} {m : Model} :
    room.enter m = some inner ↔ m.entries room.rank ≤ room.left ∧
      inner = ⟨m.innerRank room.rank, room.left - m.entries room.rank⟩ := by
  unfold enter
  split
  · next fits => simp [fits, eq_comm]
  · next full => simp [full]

@[simp] theorem read_eq_done {room : Room} {m : Model} {whole : Value}
    {inside : Room → Decoded α} {a : α} :
    room.read m whole inside = .done a ↔
      ∃ inner, room.enter m = some inner ∧ inside inner = .done a := by
  unfold read
  cases room.enter m <;> simp

/-- What is outside a room is not looked into, and leaves no calendar. -/
@[simp] theorem read_eq_outside {room : Room} {m : Model} {whole : Value}
    {inside : Room → Decoded α} :
    room.read m whole inside = .outsideCalendar ↔
      ∃ inner, room.enter m = some inner ∧ inside inner = .outsideCalendar := by
  unfold read
  cases room.enter m <;> simp

/-- Geometries with coordinates take no room. -/
theorem enter_plain (room : Room) {s : Shape} (plain : s ≠ .collection) :
    room.enter (.geometry s) = some room := by
  cases s with
  | collection => exact absurd rfl plain
  | _ => simp [enter, Model.entries, Model.innerRank, Model.rank?]

end Room

/-! ## Geometries -/

namespace Geometry

mutual

/-- How many readers are at work one inside the other when a geometry is read from inside the
    reader at a place of the order. -/
def readers (rank : Nat) : Geometry → Nat
  | .collection g gs =>
    Model.entries rank (.geometry .collection) +
      max (g.readers (Model.innerRank rank (.geometry .collection)))
        (readersList (Model.innerRank rank (.geometry .collection)) gs)
  | _ => 0

def readersList (rank : Nat) : List Geometry → Nat
  | [] => 0
  | g :: gs => max (g.readers rank) (readersList rank gs)

end

/-- A geometry needs no more readers than a room has left. -/
def InRoom (g : Geometry) (room : Room) : Prop :=
  g.readers room.rank ≤ room.left

instance (g : Geometry) (room : Room) : Decidable (g.InRoom room) :=
  inferInstanceAs (Decidable (_ ≤ _))

theorem readersList_le {rank bound : Nat} {gs : List Geometry} :
    readersList rank gs ≤ bound ↔ ∀ g ∈ gs, g.readers rank ≤ bound := by
  induction gs with
  | nil => simp [readersList]
  | cons g gs ih => rw [readersList, Nat.max_le, ih, List.forall_mem_cons]

theorem inRoom_plain {g : Geometry} (plain : g.shape ≠ .collection) (room : Room) :
    g.InRoom room := by
  cases g with
  | collection g gs => exact absurd rfl plain
  | _ => simp [InRoom, readers]

/-- A collection is in a room if there is room for its members inside. -/
theorem inRoom_collection {g : Geometry} {gs : List Geometry} {room : Room} :
    (Geometry.collection g gs).InRoom room ↔
      ∃ inner, room.enter (.geometry .collection) = some inner ∧ ∀ h ∈ g :: gs, h.InRoom inner := by
  simp only [Room.enter_eq_some, InRoom, readers, List.forall_mem_cons]
  constructor
  · intro fits
    refine ⟨_, ⟨by omega, rfl⟩, ?_, readersList_le.1 ?_⟩
    all_goals dsimp only; omega
  · rintro ⟨_, ⟨room, rfl⟩, first, rest⟩
    have rest := readersList_le.2 rest
    dsimp only at first rest
    omega

end Geometry

/-! ## Trees -/

def Literal.readers (rank : Nat) : Literal → Nat
  | .spatial p => p.geom.readers rank
  | _ => 0

/-- What a leaf holds needs no more readers than a room has left. -/
def Literal.InRoom (l : Literal) (room : Room) : Prop :=
  l.readers room.rank ≤ room.left

instance (l : Literal) (room : Room) : Decidable (l.InRoom room) :=
  inferInstanceAs (Decidable (_ ≤ _))

theorem Literal.inRoom_plain {l : Literal} (plain : l.kind ≠ .spatial) (room : Room) :
    l.InRoom room := by
  cases l with
  | spatial p => exact absurd rfl plain
  | _ => exact Nat.zero_le _

namespace Node

mutual

/-- How many readers are at work one inside the other when a tree is read from inside the reader
    at a place of the order. -/
def readers (rank : Nat) : Node → Nat
  | .literal l => Model.entries rank (.literal l.kind) + l.readers rank
  | .range r => Model.entries rank (.range r.kind)
  | .term v => Model.entries rank .term + v.readers (Model.innerRank rank .term)
  | .namedTerm _ v =>
    Model.entries rank .namedTerm + v.readers (Model.innerRank rank .namedTerm)
  | .combine c ns =>
    Model.entries rank (.combine c) + readersList (Model.innerRank rank (.combine c)) ns
  | .modify m n => Model.entries rank (.modify m) + n.readers (Model.innerRank rank (.modify m))
  | .constant n _ => Model.entries rank .constant + n.readers (Model.innerRank rank .constant)

def readersList (rank : Nat) : List Node → Nat
  | [] => 0
  | n :: ns => max (n.readers rank) (readersList rank ns)

end

/-- A tree needs no more readers than a room has left. -/
def InRoom (n : Node) (room : Room) : Prop :=
  n.readers room.rank ≤ room.left

instance (n : Node) (room : Room) : Decidable (n.InRoom room) :=
  inferInstanceAs (Decidable (_ ≤ _))

/-- The parts of a tree are in a room. -/
def PartsInRoom (room : Room) : Node → Prop
  | .literal l => l.InRoom room
  | .range _ => True
  | .term v | .namedTerm _ v | .modify _ v | .constant v _ => v.InRoom room
  | .combine _ ns => ∀ n ∈ ns, n.InRoom room

instance (n : Node) (room : Room) : Decidable (n.PartsInRoom room) :=
  match n with
  | .literal l => inferInstanceAs (Decidable (l.InRoom room))
  | .range _ => .isTrue trivial
  | .term v | .namedTerm _ v | .modify _ v | .constant v _ =>
    inferInstanceAs (Decidable (v.InRoom room))
  | .combine _ ns => inferInstanceAs (Decidable (∀ n ∈ ns, n.InRoom room))

/-- There is room for the parts of a tree in the constructor of its class. -/
def Buildable (n : Node) : Prop :=
  n.PartsInRoom (.constructing n.model)

instance (n : Node) : Decidable n.Buildable :=
  inferInstanceAs (Decidable (n.PartsInRoom _))

theorem readersList_le {rank bound : Nat} {ns : List Node} :
    readersList rank ns ≤ bound ↔ ∀ n ∈ ns, n.readers rank ≤ bound := by
  induction ns with
  | nil => simp [readersList]
  | cons n ns ih => rw [readersList, Nat.max_le, ih, List.forall_mem_cons]

/-- What a tree needs is what entering its class takes and what its parts need inside. -/
theorem readers_le_iff {n : Node} {rank left : Nat} :
    n.readers rank ≤ left ↔ n.model.entries rank ≤ left ∧
      n.PartsInRoom ⟨n.model.innerRank rank, left - n.model.entries rank⟩ := by
  cases n with
  | literal l =>
    simp only [readers, PartsInRoom, Literal.InRoom, model, Model.innerRank, Model.rank?]
    omega
  | range r => simp [readers, PartsInRoom, model]
  | combine c ns =>
    simp only [readers, PartsInRoom, InRoom, model, ← readersList_le]
    omega
  | _ =>
    simp only [readers, PartsInRoom, InRoom, model]
    omega

/-- A tree is in a room if there is room for its parts inside its class. -/
theorem inRoom_iff {n : Node} {room : Room} :
    n.InRoom room ↔ ∃ inner, room.enter n.model = some inner ∧ n.PartsInRoom inner := by
  unfold InRoom
  simp only [Room.enter_eq_some, readers_le_iff]
  constructor
  · rintro ⟨fits, parts⟩
    exact ⟨_, ⟨fits, rfl⟩, parts⟩
  · rintro ⟨_, ⟨fits, rfl⟩, parts⟩
    exact ⟨fits, parts⟩

theorem PartsInRoom.mono {n : Node} {room inner : Room} (parts : n.PartsInRoom inner)
    (rank : inner.rank = room.rank) (left : inner.left ≤ room.left) : n.PartsInRoom room := by
  obtain ⟨own, less⟩ := inner
  obtain rfl : own = room.rank := rank
  cases n with
  | range r => exact trivial
  | combine c ns => exact fun n member => Nat.le_trans (parts n member) left
  | _ => exact Nat.le_trans parts left

end Node

/-- A constructor has no less room than a class has at the outset. -/
theorem Room.constructing_wide (m : Model) :
    m.innerRank full.rank = (constructing m).rank ∧
      full.left - m.entries full.rank ≤ (constructing m).left := by
  cases m with
  | literal k => cases k <;> decide
  | range k => cases k <;> decide
  | combine c => cases c <;> decide
  | modify m => cases m <;> decide
  | geometry s => cases s <;> decide
  | filter k => cases k <;> decide
  | _ => decide

theorem Node.InRoom.buildable {n : Node} (fits : n.InRoom .full) : n.Buildable := by
  obtain ⟨rank, left⟩ := Room.constructing_wide n.model
  exact (readers_le_iff.1 fits).2.mono rank left

end QueryTree
