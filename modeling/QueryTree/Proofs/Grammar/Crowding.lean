import QueryTree.Proofs.Grammar.Node
import QueryTree.Proofs.Nesting

/-!
# Forms and the room for them

The grammar of trees does not bound how deep a form is nested, but the readers do.  Values whose
containers are nested a little less deep than the limit on readers always have room; a form for
which there is none is refused for that, and not for a fault of its own.

* `Decoded.Crowded`       : a reading that nothing but the lack of room can stop
* `decodeSequence_crowded`, `decodeRequired_crowded` : sequences and fields of such readings
* `Geometry.decodeIn_crowded`, `Node.decodeIn_crowded` : forms are read in this way
* `GeometryForm.inRoom`, `NodeForm.inRoom` : there is room for forms that are not nested too deep
* `GeometryForm.unique`, `NodeForm.unique` : a value is a form of one tree
* `Geometry.exists_tooNested`, `Node.exists_tooNested` : forms without room are refused for that
-/

namespace QueryTree

variable {α β γ : Type}

/-! ## Readings without faults of their own -/

/-- A reading gives a result, or else its first fault is that there is no room. -/
inductive Decoded.Crowded : Decoded α → Prop where
  | done (a : α) : Crowded (.done a)
  | tooNested {f : Fault} {fs : List Fault} : f.cause = .tooNested → Crowded (.faulty f fs)

namespace Decoded.Crowded

variable {d : Decoded α} {e : Decoded β}

theorem of_done {a : α} (done : d = .done a) : d.Crowded := by
  subst done
  exact .done a

theorem map (crowded : d.Crowded) (f : α → β) : (d.map f).Crowded := by
  cases crowded with
  | done a => exact .done (f a)
  | tooNested first => exact .tooNested first

theorem combine (left : d.Crowded) (right : e.Crowded) (f : α → β → γ) :
    (Decoded.combine f d e).Crowded := by
  cases left with
  | done a =>
    cases right with
    | done b => exact .done (f a b)
    | tooNested first => exact .tooNested first
  | tooNested first => cases right <;> exact .tooNested first

theorem bind {f : α → Decoded β} (crowded : d.Crowded) (rest : ∀ a, d = .done a → (f a).Crowded) :
    (d.bind f).Crowded := by
  cases crowded with
  | done a => exact rest a rfl
  | tooNested first => exact .tooNested first

theorem under (crowded : d.Crowded) (s : Step) : (d.under s).Crowded := by
  cases crowded with
  | done a => exact .done a
  | tooNested first => exact .tooNested first

theorem underPath (crowded : d.Crowded) (path : Path) : (d.underPath path).Crowded := by
  induction path with
  | nil => exact crowded
  | cons s path ih => exact ih.under s

/-- Only the lack of room comes before what is read inside a class. -/
theorem read {room : Room} {m : Model} {whole : Value} {inside : Room → Decoded α}
    (crowded : ∀ inner, (inside inner).Crowded) : (room.read m whole inside).Crowded := by
  unfold Room.read
  split
  · exact crowded _
  · exact .tooNested rfl

end Decoded.Crowded

/-- Items without faults of their own are all read, or the first of their faults is that there is no
    room for one of them. -/
theorem gather_crowded {read : Value → Decoded α} {vs : List Value}
    (each : ∀ v ∈ vs, (read v).Crowded) (i : Nat) :
    (∃ xs, (gather read i vs).Whole xs ∧ xs.length = vs.length) ∨
      (gather read i vs).outside = false ∧
        ∃ f fs, (gather read i vs).faults = f :: fs ∧ f.cause = .tooNested := by
  induction vs generalizing i with
  | nil => exact .inl ⟨[], ⟨rfl, rfl, rfl⟩, rfl⟩
  | cons v vs ih =>
    obtain ⟨here, others⟩ := List.forall_mem_cons.1 each
    have rest := ih others (i + 1)
    rw [gather]
    generalize read v = d at here
    cases here with
    | done a =>
      rcases rest with ⟨xs, whole, length⟩ | ⟨inside, first⟩
      · exact .inl ⟨a :: xs, Gathered.whole_cons.2 ⟨a, xs, rfl, whole, rfl⟩, by simp [length]⟩
      · exact .inr ⟨inside, first⟩
    | tooNested cause =>
      refine .inr ⟨?_, _, _, rfl, cause⟩
      rcases rest with ⟨xs, whole, -⟩ | ⟨inside, -⟩
      · exact whole.inside
      · exact inside

theorem atLeast_gather_crowded {read : Value → Decoded α} {least : Nat} {vs : List Value}
    (enough : least ≤ vs.length) (each : ∀ v ∈ vs, (read v).Crowded) (i : Nat) (whole : Value) :
    ((gather read i vs).atLeast least whole).Crowded := by
  rcases gather_crowded each i with ⟨xs, all, length⟩ | ⟨inside, f, fs, first, cause⟩
  · exact .of_done (Gathered.atLeast_eq_done.2 ⟨all, by omega⟩)
  · simp only [Gathered.atLeast, inside, first]
    exact .tooNested cause

theorem decodeSequence_crowded {read : Value → Decoded α} {least : Nat} {v : Value}
    {vs : List Value} (items : v.items? = some vs) (enough : least ≤ vs.length)
    (each : ∀ w ∈ vs, (read w).Crowded) : (decodeSequence least read v).Crowded := by
  unfold decodeSequence
  rw [items]
  exact atLeast_gather_crowded enough each 0 v

theorem decodeRequired_crowded {key : String} {read : Value → Decoded α} {whole v : Value}
    {fs : List (String × Value)} (found : fs.lookup key = some v) (crowded : (read v).Crowded) :
    (decodeRequired key read whole fs).Crowded := by
  unfold decodeRequired
  rw [found]
  exact crowded.under _

/-! ## Geometries -/

theorem Geometry.decodeIn_crowded {v : Value} {g : Geometry} (form : GeometryForm v g)
    (room : Room) : (decodeIn room v).Crowded := by
  induction g using Geometry.induction generalizing v room with
  | plain g plain => exact .of_done (decodeIn_eq_done_iff.2 ⟨form, inRoom_plain plain room⟩)
  | collection g gs ih =>
    cases form with
    | coordinates _ _ form => exact absurd rfl (shape_ne_of_coordinates form)
    | collection tagged found items all =>
      obtain ⟨m, rfl⟩ := tagged.exists_record
      rw [decodeIn_record, shapeOf_record.2 (tagged.type _ rfl)]
      refine Decoded.Crowded.under (.read fun inner => ?_) _
      rw [if_pos tagged.fits]
      refine decodeRequired_crowded found ?_
      rw [decodeMembers_eq]
      have members : ∀ w ∈ _, (decodeIn inner w).Crowded := fun w member => by
        obtain ⟨h, there, form⟩ := forall₂_exists_left all.flip w member
        exact ih h there form inner
      have enough := all.length_eq
      refine .bind (decodeSequence_crowded items (by simp [enough]) members) fun hs read => ?_
      obtain ⟨-, -, -, some⟩ := decodeSequence_eq_done.1 read
      cases hs with
      | nil => cases some
      | cons h hs => exact .done _

theorem SpatialPredicate.decode_crowded {v : Value} {p : SpatialPredicate}
    (form : PredicateForm v p) (room : Room) : (decode room v).Crowded := by
  obtain ⟨fs, tagged, ⟨u, op, operator⟩, w, geom, geometry⟩ := form
  obtain ⟨m, rfl⟩ := tagged.exists_record
  rw [decode, if_pos tagged.fits]
  have read := SpatialOperator.decode_eq_done.2 operator
  exact (decodeRequired_crowded op (.of_done read)).combine
    (decodeRequired_crowded geom (Geometry.decodeIn_crowded geometry room)) _

/-! ## Trees -/

theorem Literal.ofFields_crowded {whole w : Value} {fs : List (String × Value)} {l : Literal}
    (found : fs.lookup "value" = some w) (form : LiteralForm w l) (room : Room) :
    (ofFields room l.kind whole fs).Crowded := by
  cases form with
  | spatial form =>
    exact (decodeRequired_crowded found (SpatialPredicate.decode_crowded form room)).map _
  | string | number | date | glob =>
    exact .of_done (ofFields_eq_done.2 ⟨⟨rfl, w, found, by constructor; assumption⟩, Nat.zero_le _⟩)

namespace Node

theorem operandsOf_crowded {v w : Value} {fs : List (String × Value)} {ws : List Value}
    (found : fs.lookup "operands" = some w) (items : w.items? = some ws) {room : Room}
    (each : ∀ u ∈ ws, (decodeIn room u).Crowded) (plain : Bool) :
    (operandsOf room plain v fs).Crowded := by
  unfold operandsOf chooseOperands requireChild
  rw [decodeOperandsAt_eq, found]
  simp only [Option.map_some, decodeItems_eq]
  exact (decodeSequence_crowded items (Nat.zero_le _) each).under _

theorem operandsOf_sides_crowded {v l r : Value} {fs : List (String × Value)}
    (missing : fs.lookup "operands" = none) (lhs : fs.lookup "lhs" = some l)
    (rhs : fs.lookup "rhs" = some r) {room : Room}
    (each : ∀ u ∈ [l, r], (decodeIn room u).Crowded) :
    (operandsOf room true v fs).Crowded := by
  unfold operandsOf chooseOperands requireChild
  rw [decodeOperandsAt_eq, decodeAt_eq, decodeAt_eq, missing, lhs, rhs]
  have sides := atLeast_gather_crowded (Nat.zero_le _) each 0 v
  exact sides.under _

/-- Of a record with the tags of a class only what is inside the class is left to look at. -/
theorem decodeIn_crowded_of_fields {room : Room} {v : Value} {fs : List (String × Value)}
    {model : Model} (tagged : Tagged model v fs) (node : model.isNode = true)
    (inside : ∀ m inner, v = .record m fs → (ofFields inner model m v fs).Crowded) :
    (decodeIn room v).Crowded := by
  obtain ⟨m, rfl⟩ := tagged.exists_record
  obtain ⟨path, chosen⟩ := exists_classOf (m := m) node tagged.toCarriesTags
  rw [decodeIn_record, chosen]
  refine Decoded.Crowded.underPath (.read fun inner => ?_) path
  rw [if_pos tagged.fits]
  exact inside m inner rfl

/-- A form of a tree is read, or refused for lack of room. -/
theorem decodeIn_crowded {v : Value} {n : Node} (form : NodeForm v n) (room : Room) :
    (decodeIn room v).Crowded := by
  induction n using Node.induction generalizing v room with
  | literal l =>
    cases form with
    | literal tagged found form =>
      exact decodeIn_crowded_of_fields tagged rfl fun _ inner _ =>
        (Literal.ofFields_crowded found form inner).map _
  | range r =>
    cases form with
    | range tagged form =>
      exact decodeIn_crowded_of_fields tagged rfl fun _ _ _ =>
        (Decoded.Crowded.of_done (Range.ofFields_eq_done.2 ⟨rfl, form⟩)).map _
  | term n ih =>
    cases form with
    | term tagged found form =>
      exact decodeIn_crowded_of_fields tagged rfl fun _ inner _ =>
        (decodeRequired_crowded found (ih form inner)).map _
  | namedTerm f n ih =>
    cases form with
    | namedTerm tagged name found form =>
      obtain ⟨u, named, said⟩ := name
      have read := FieldName.decode_eq_done.2 said
      exact decodeIn_crowded_of_fields tagged rfl fun _ inner _ =>
        (decodeRequired_crowded named (.of_done read)).combine
          (decodeRequired_crowded found (ih form inner)) _
  | combine c ns ih =>
    have each {ws : List Value} {ns' : List Node} (all : List.Forall₂ NodeForm ws ns')
        (sub : ∀ n ∈ ns', n ∈ ns) (inner : Room) : ∀ u ∈ ws, (decodeIn inner u).Crowded := by
      intro u member
      obtain ⟨n, there, form⟩ := forall₂_exists_left all.flip u member
      exact ih n (sub n there) form inner
    cases form with
    | operands tagged found items all =>
      exact decodeIn_crowded_of_fields tagged rfl fun m inner _ =>
        (operandsOf_crowded found items (each all (fun _ => id) inner) m.isNone).map _
    -- only plain mappings have sides
    | sides tagged missing lhs rhs left right =>
      refine decodeIn_crowded_of_fields tagged rfl fun m inner same => ?_
      cases same
      have both := each (.cons left (.cons right .nil)) (fun _ => id) inner
      exact (operandsOf_sides_crowded missing lhs rhs both).map _
  | modify modifier n ih =>
    cases form with
    | modify tagged found form =>
      exact decodeIn_crowded_of_fields tagged rfl fun _ inner _ =>
        (decodeRequired_crowded found (ih form inner)).map _
  | constant n boost ih =>
    cases form with
    | constant tagged lhs form rhs number =>
      have read := Number.decode_eq_done.2 number
      exact decodeIn_crowded_of_fields tagged rfl fun _ inner _ =>
        (decodeRequired_crowded lhs (ih form inner)).combine
          (decodeRequired_crowded rhs (.of_done read)) _

end Node

/-! ## Room and nesting -/

/-- Entering a class leads on in the order of readers as far as it costs more than one reader. -/
theorem Model.entries_add_innerRank (m : Model) (rank : Nat) :
    m.entries rank + m.innerRank rank ≤ rank + 1 := by
  have ranked (own : Nat) : (if own < rank then 2 else 1) + min own rank ≤ rank + 1 := by
    split <;> omega
  cases m with
  | literal _ | range _ | predicate | filter _ =>
    simp only [entries, innerRank, rank?]
    omega
  | geometry s =>
    cases s with
    | collection => exact ranked _
    | _ =>
      simp only [entries, innerRank, rank?]
      omega
  | combine c => cases c <;> exact ranked _
  | modify modifier => cases modifier <;> exact ranked _
  | term | namedTerm | constant => exact ranked _

/-- A room that has more readers left than the containers of a value are nested, and some for the
    way down in the order of readers, has a room like it inside a class. -/
theorem Room.exists_enter {room : Room} (m : Model) {nest : Nat}
    (wide : nest + room.rank ≤ room.left) (deep : 0 < nest) :
    ∃ inner, room.enter m = some inner ∧ ∀ below < nest, below + inner.rank ≤ inner.left := by
  have cost := m.entries_add_innerRank room.rank
  refine ⟨_, enter_eq_some.2 ⟨by omega, rfl⟩, fun below lower => ?_⟩
  dsimp only
  omega

theorem Tagged.nest_lt {model : Model} {v w : Value} {fs : List (String × Value)} {key : String}
    (tagged : Tagged model v fs) (found : fs.lookup key = some w) : w.nest < v.nest := by
  obtain ⟨m, rfl⟩ := tagged.exists_record
  exact Value.nest_lt_of_mem rfl (List.mem_map_of_mem (mem_of_lookup found))

theorem Tagged.nest_item_lt {model : Model} {v w u : Value} {fs : List (String × Value)}
    {ws : List Value} {key : String} (tagged : Tagged model v fs)
    (found : fs.lookup key = some w) (items : w.items? = some ws) (member : u ∈ ws) :
    u.nest < v.nest :=
  Nat.lt_trans (Value.nest_lt_of_mem (Geometry.children_of_items items) member)
    (tagged.nest_lt found)

theorem Tagged.nest_pos {model : Model} {v : Value} {fs : List (String × Value)}
    (tagged : Tagged model v fs) : 0 < v.nest := by
  obtain ⟨m, rfl⟩ := tagged.exists_record
  exact Nat.succ_pos _

theorem GeometryForm.inRoom {v : Value} {g : Geometry} {room : Room} (form : GeometryForm v g)
    (wide : v.nest + room.rank ≤ room.left) : g.InRoom room := by
  induction g using Geometry.induction generalizing v room with
  | plain g plain => exact Geometry.inRoom_plain plain room
  | collection g gs ih =>
    cases form with
    | coordinates _ _ form => exact absurd rfl (Geometry.shape_ne_of_coordinates form)
    | collection tagged found items all =>
      obtain ⟨inner, entered, wider⟩ :=
        Room.exists_enter (.geometry .collection) wide tagged.nest_pos
      refine Geometry.inRoom_collection.2 ⟨inner, entered, fun h member => ?_⟩
      obtain ⟨w, there, form⟩ := forall₂_exists_left all h member
      exact ih h member form (wider _ (tagged.nest_item_lt found items there))

theorem LiteralForm.inRoom {v : Value} {l : Literal} {room : Room} (form : LiteralForm v l)
    (wide : v.nest + room.rank ≤ room.left) : l.InRoom room := by
  cases form with
  | string | number | date | glob => exact Nat.zero_le _
  | spatial form =>
    obtain ⟨fs, tagged, -, w, found, geometry⟩ := form
    have below := tagged.nest_lt found
    have fits : w.nest + room.rank ≤ room.left := by omega
    exact geometry.inRoom fits

/-- There is room for every form of a tree whose containers are not nested too deep. -/
theorem NodeForm.inRoom {v : Value} {n : Node} {room : Room} (form : NodeForm v n)
    (wide : v.nest + room.rank ≤ room.left) : n.InRoom room := by
  induction n using Node.induction generalizing v room with
  | literal l =>
    cases form with
    | literal tagged found form =>
      obtain ⟨inner, entered, wider⟩ := Room.exists_enter (.literal l.kind) wide tagged.nest_pos
      exact Node.inRoom_iff.2 ⟨inner, entered, form.inRoom (wider _ (tagged.nest_lt found))⟩
  | range r =>
    cases form with
    | range tagged form =>
      obtain ⟨inner, entered, -⟩ := Room.exists_enter (.range r.kind) wide tagged.nest_pos
      exact Node.inRoom_iff.2 ⟨inner, entered, trivial⟩
  | term n ih =>
    cases form with
    | term tagged found form =>
      obtain ⟨inner, entered, wider⟩ := Room.exists_enter .term wide tagged.nest_pos
      exact Node.inRoom_iff.2 ⟨inner, entered, ih form (wider _ (tagged.nest_lt found))⟩
  | namedTerm f n ih =>
    cases form with
    | namedTerm tagged name found form =>
      obtain ⟨inner, entered, wider⟩ := Room.exists_enter .namedTerm wide tagged.nest_pos
      exact Node.inRoom_iff.2 ⟨inner, entered, ih form (wider _ (tagged.nest_lt found))⟩
  | combine c ns ih =>
    cases form with
    | operands tagged found items all =>
      obtain ⟨inner, entered, wider⟩ := Room.exists_enter (.combine c) wide tagged.nest_pos
      refine Node.inRoom_iff.2 ⟨inner, entered, fun m member => ?_⟩
      obtain ⟨w, there, form⟩ := forall₂_exists_left all m member
      exact ih m member form (wider _ (tagged.nest_item_lt found items there))
    | sides tagged missing lhs rhs left right =>
      obtain ⟨inner, entered, wider⟩ := Room.exists_enter (.combine c) wide tagged.nest_pos
      have first := ih _ (by simp) left (wider _ (tagged.nest_lt lhs))
      have second := ih _ (by simp) right (wider _ (tagged.nest_lt rhs))
      exact Node.inRoom_iff.2 ⟨inner, entered,
        List.forall_mem_cons.2 ⟨first, List.forall_mem_singleton.2 second⟩⟩
  | modify modifier n ih =>
    cases form with
    | modify tagged found form =>
      obtain ⟨inner, entered, wider⟩ := Room.exists_enter (.modify modifier) wide tagged.nest_pos
      exact Node.inRoom_iff.2 ⟨inner, entered, ih form (wider _ (tagged.nest_lt found))⟩
  | constant n boost ih =>
    cases form with
    | constant tagged lhs form rhs number =>
      obtain ⟨inner, entered, wider⟩ := Room.exists_enter .constant wide tagged.nest_pos
      exact Node.inRoom_iff.2 ⟨inner, entered, ih form (wider _ (tagged.nest_lt lhs))⟩

/-! ## Forms without room -/

/-- A value is a form of one geometry: in a room that is wide enough it is read as all of which it is
    a form. -/
theorem GeometryForm.unique {v : Value} {g h : Geometry} (form : GeometryForm v g)
    (form' : GeometryForm v h) : g = h := by
  have fits : g.InRoom ⟨0, v.nest⟩ := form.inRoom (Nat.le_refl _)
  have fits' : h.InRoom ⟨0, v.nest⟩ := form'.inRoom (Nat.le_refl _)
  have read := Geometry.decodeIn_eq_done_iff.2 ⟨form, fits⟩
  have read' := Geometry.decodeIn_eq_done_iff.2 ⟨form', fits'⟩
  exact Decoded.done.inj (read.symm.trans read')

theorem NodeForm.unique {v : Value} {n m : Node} (form : NodeForm v n) (form' : NodeForm v m) :
    n = m := by
  have fits : n.InRoom ⟨0, v.nest⟩ := form.inRoom (Nat.le_refl _)
  have fits' : m.InRoom ⟨0, v.nest⟩ := form'.inRoom (Nat.le_refl _)
  have read := Node.decodeIn_eq_done_iff.2 ⟨form, fits⟩
  have read' := Node.decodeIn_eq_done_iff.2 ⟨form', fits'⟩
  exact Decoded.done.inj (read.symm.trans read')

theorem Decoded.Crowded.exists_tooNested {d : Decoded α} (crowded : d.Crowded)
    (undone : ∀ a, d ≠ .done a) : ∃ f fs, d = .faulty f fs ∧ f.cause = .tooNested := by
  cases crowded with
  | done a => exact absurd rfl (undone a)
  | tooNested first => exact ⟨_, _, rfl, first⟩

/-- A form of a geometry for which there is no room is refused for that. -/
theorem Geometry.exists_tooNested {room : Room} {v : Value} {g : Geometry}
    (form : GeometryForm v g) (outside : ¬ g.InRoom room) :
    ∃ f fs, decodeIn room v = .faulty f fs ∧ f.cause = .tooNested := by
  refine (decodeIn_crowded form room).exists_tooNested fun h done => ?_
  obtain ⟨form', fits⟩ := decodeIn_eq_done_iff.1 done
  exact outside (form.unique form' ▸ fits)

/-- A form of a tree for which there is no room is refused for that. -/
theorem Node.exists_tooNested {room : Room} {v : Value} {n : Node} (form : NodeForm v n)
    (outside : ¬ n.InRoom room) : ∃ f fs, decodeIn room v = .faulty f fs ∧ f.cause = .tooNested := by
  refine (decodeIn_crowded form room).exists_tooNested fun m done => ?_
  obtain ⟨form', fits⟩ := decodeIn_eq_done_iff.1 done
  exact outside (form.unique form' ▸ fits)

end QueryTree
