import QueryTree.Proofs.Grammar.Basic
import QueryTree.Proofs.Room

/-!
# The grammar of geometries

Which values are forms of which geometries, as inductive relations that do not mention the
reader, and the reader decides them, as far as there is room for it.

* `PositionForm`, `LineForm`, `MembersForm`, `CoordinatesForm` : the parts
* `GeometryForm`, `OperatorForm`, `PredicateForm`
* `Geometry.decodeIn_eq_done_iff`, `SpatialPredicate.decode_eq_done_iff` : the readers decide them
* `Geometry.decodeIn_ne_outside` : geometries hold no dates
-/

namespace QueryTree

variable {α : Type}

/-! ## Parts -/

/-- Two or three numbers. -/
def PositionForm (v : Value) (p : Position) : Prop :=
  SequenceForm NumberForm v p.toList

/-- At least two positions. -/
def LineForm (v : Value) (l : Line) : Prop :=
  SequenceForm PositionForm v l.toList

/-- At least one member. -/
def MembersForm (form : Value → α → Prop) (v : Value) (xs : NonEmpty α) : Prop :=
  SequenceForm form v xs.toList

theorem Position.ofList?_eq_some {cs : List Number} {p : Position} :
    Position.ofList? cs = some p ↔ cs = p.toList := by
  constructor
  · intro made
    match cs with
    | [] | [_] | _ :: _ :: _ :: _ :: _ => cases made
    | [x, y] | [x, y, z] => cases made; rfl
  · rintro rfl
    exact Position.ofList?_toList p

theorem Line.ofList?_eq_some {ps : List Position} {l : Line} :
    Line.ofList? ps = some l ↔ ps = l.toList := by
  constructor
  · intro made
    match ps with
    | [] | [_] => cases made
    | p :: q :: rest => cases made; rfl
  · rintro rfl
    exact Line.ofList?_toList l

theorem NonEmpty.ofList?_eq_some {ys : List α} {xs : NonEmpty α} :
    NonEmpty.ofList? ys = some xs ↔ ys = xs.toList := by
  constructor
  · intro made
    match ys with
    | [] => cases made
    | y :: rest => cases made; rfl
  · rintro rfl
    exact NonEmpty.ofList?_toList xs

theorem Position.decode_eq_done {v : Value} {p : Position} :
    Position.decode v = .done p ↔ PositionForm v p := by
  unfold Position.decode PositionForm SequenceForm
  cases v.items? with
  | none => simp
  | some vs =>
    simp only [Option.some.injEq, exists_eq_left']
    constructor
    · intro done
      split at done
      · simp at done
      · obtain ⟨cs, read, made⟩ := Decoded.bind_eq_done.1 done
        have made : Position.ofList? cs = some p := by
          revert made
          cases Position.ofList? cs <;> simp
        obtain rfl := Position.ofList?_eq_some.1 made
        simpa only [Number.decode_eq_done] using (atLeast_gather_eq_done.1 read).1
    · intro all
      have all : List.Forall₂ (fun v x => Number.decode v = .done x) vs p.toList := by
        simpa only [Number.decode_eq_done] using all
      have enough : 2 ≤ p.toList.length := by cases p <;> simp [Position.toList]
      have few : ¬ 3 < p.toList.length := by cases p <;> simp [Position.toList]
      have items : (gather Number.decode 0 vs).items = p.toList := (whole_gather.2 all).items
      rw [items, if_neg few, Decoded.bind_eq_done]
      exact ⟨p.toList, atLeast_gather_eq_done.2 ⟨all, enough⟩, by simp⟩

theorem Position.decode_ne_outside (v : Value) : Position.decode v ≠ .outsideCalendar := by
  unfold Position.decode
  cases v.items? with
  | none => simp
  | some vs =>
    dsimp only
    split
    · simp
    · simp only [ne_eq, Decoded.bind_eq_outside, Gathered.atLeast_eq_outside, gather_outside,
        Number.decode_ne_outside, and_false, exists_false, false_or, not_exists, not_and]
      intro cs _
      split <;> simp

theorem Line.decode_eq_done {v : Value} {l : Line} :
    Line.decode v = .done l ↔ LineForm v l := by
  simp only [Line.decode, Decoded.bind_eq_done, decodeSequence_eq_done, Position.decode_eq_done]
  constructor
  · rintro ⟨ps, ⟨vs, items, all, enough⟩, made⟩
    have made : Line.ofList? ps = some l := by
      revert made
      cases Line.ofList? ps <;> simp
    obtain rfl := Line.ofList?_eq_some.1 made
    exact ⟨vs, items, all⟩
  · rintro ⟨vs, items, all⟩
    exact ⟨l.toList, ⟨vs, items, all, by simp [Line.toList]⟩, by simp⟩

theorem Line.decode_ne_outside (v : Value) : Line.decode v ≠ .outsideCalendar := by
  simp only [Line.decode, ne_eq, Decoded.bind_eq_outside, not_or, not_exists, not_and]
  refine ⟨decodeSequence_ne_outside fun _ _ w _ => Position.decode_ne_outside w, ?_⟩
  intro ps _
  split <;> simp

theorem NonEmpty.decode_eq_done {read : Value → Decoded α} {v : Value} {xs : NonEmpty α} :
    NonEmpty.decode read v = .done xs ↔ MembersForm (fun v x => read v = .done x) v xs := by
  simp only [NonEmpty.decode, Decoded.bind_eq_done, decodeSequence_eq_done]
  constructor
  · rintro ⟨ys, ⟨vs, items, all, enough⟩, made⟩
    have made : NonEmpty.ofList? ys = some xs := by
      revert made
      cases NonEmpty.ofList? ys <;> simp
    obtain rfl := NonEmpty.ofList?_eq_some.1 made
    exact ⟨vs, items, all⟩
  · rintro ⟨vs, items, all⟩
    exact ⟨xs.toList, ⟨vs, items, all, by simp [NonEmpty.toList]⟩, by simp⟩

theorem NonEmpty.decode_ne_outside {read : Value → Decoded α}
    (inside : ∀ v, read v ≠ .outsideCalendar) (v : Value) :
    NonEmpty.decode read v ≠ .outsideCalendar := by
  simp only [NonEmpty.decode, ne_eq, Decoded.bind_eq_outside, not_or, not_exists, not_and]
  refine ⟨decodeSequence_ne_outside fun _ _ w _ => inside w, ?_⟩
  intro xs _
  split <;> simp

/-! ## Geometries -/

/-- The coordinates of a geometry, nested as its class wants; collections have none. -/
inductive CoordinatesForm : Value → Geometry → Prop where
  | point {v : Value} {p : Position} : PositionForm v p → CoordinatesForm v (.point p)
  | multiPoint {v : Value} {ps : NonEmpty Position} :
      MembersForm PositionForm v ps → CoordinatesForm v (.multiPoint ps)
  | lineString {v : Value} {l : Line} : LineForm v l → CoordinatesForm v (.lineString l)
  | multiLineString {v : Value} {ls : NonEmpty Line} :
      MembersForm LineForm v ls → CoordinatesForm v (.multiLineString ls)
  | polygon {v : Value} {rs : NonEmpty Ring} :
      MembersForm (MembersForm PositionForm) v rs → CoordinatesForm v (.polygon rs)
  | multiPolygon {v : Value} {ps : NonEmpty (NonEmpty Ring)} :
      MembersForm (MembersForm (MembersForm PositionForm)) v ps →
        CoordinatesForm v (.multiPolygon ps)

/-- A mapping or geometry object with the tag of its class, and the coordinates or the member
    geometries of that class. -/
inductive GeometryForm : Value → Geometry → Prop where
  | coordinates {v w : Value} {fs : List (String × Value)} {g : Geometry} :
      Tagged (.geometry g.shape) v fs → fs.lookup "coordinates" = some w → CoordinatesForm w g →
        GeometryForm v g
  | collection {v w : Value} {fs : List (String × Value)} {ws : List Value} {g : Geometry}
      {gs : List Geometry} :
      Tagged (.geometry .collection) v fs → fs.lookup "geometries" = some w →
        w.items? = some ws → List.Forall₂ GeometryForm ws (g :: gs) →
          GeometryForm v (.collection g gs)

theorem Shape.ofName?_eq_some {name : String} {s : Shape} :
    Shape.ofName? name = some s ↔ name = s.name :=
  find?_name_eq_some Shape.ofName?_name

/-- The class of a mapping or object is the one that its tag names. -/
theorem shapeOf_record {m : Option Model} {fs : List (String × Value)} {s : Shape} :
    shapeOf (.record m fs) = .ok s ↔ TextAt "type" fs s.name := by
  unfold shapeOf TextAt
  rw [attribute_record]
  cases fs.lookup "type" with
  | none => simp [Attribute.ofOption]
  | some tag =>
    simp only [Attribute.ofOption, Option.some.injEq, exists_eq_left']
    cases named : tag.text? with
    | none => simp
    | some name =>
      simp only [Option.bind_some, Option.some.injEq]
      rw [← Shape.ofName?_eq_some]
      cases Shape.ofName? name <;> simp

namespace Geometry

theorem decodeCollection_eq {room : Room} {whole : Value} {fs : List (String × Value)} :
    decodeCollection room whole fs =
      decodeRequired "geometries" (decodeMembers room) whole fs := by
  induction fs with
  | nil => simp [decodeCollection, decodeRequired]
  | cons f fs ih =>
    obtain ⟨key, v⟩ := f
    by_cases same : key = "geometries"
    · subst same
      simp [decodeCollection, decodeRequired]
    · have other : ("geometries" == key) = false := by simpa using fun e => same e.symm
      simp [decodeCollection, same, ih, decodeRequired, List.lookup_cons, other]

theorem gatherMembers_eq {room : Room} {i : Nat} {vs : List Value} :
    gatherMembers room i vs = gather (decodeIn room) i vs := by
  induction vs generalizing i with
  | nil => simp [gatherMembers, gather]
  | cons v vs ih => simp [gatherMembers, gather, ih]

theorem decodeMembers_eq {room : Room} {v : Value} :
    decodeMembers room v = (decodeSequence 1 (decodeIn room) v).bind (collect v) := by
  cases v <;> simp [decodeMembers, decodeSequence, Value.items?, gatherMembers_eq, Decoded.bind,
    Decoded.fault]

theorem collect_eq_done {v : Value} {gs : List Geometry} {g : Geometry} :
    collect v gs = .done g ↔ ∃ first rest, gs = first :: rest ∧ g = .collection first rest := by
  cases gs with
  | nil => simp [collect]
  | cons first rest => simp [collect, eq_comm]

/-- What the reader does with the fields of a record of a class: its coordinates, or the members of
    a collection. -/
def ofFields (room : Room) (s : Shape) (whole : Value) (fs : List (String × Value)) :
    Decoded Geometry :=
  match ofCoordinates? s with
  | some read => decodeRequired "coordinates" read whole fs
  | none => decodeRequired "geometries" (decodeMembers room) whole fs

theorem decodeIn_record {room : Room} {m : Option Model} {fs : List (String × Value)} :
    decodeIn room (.record m fs) =
      match shapeOf (.record m fs) with
      | .error cause => .fault cause (.record m fs)
      | .ok s =>
        Decoded.under (.tag s.name) <| room.read (.geometry s) (.record m fs) fun inner =>
          if fitsModel (.geometry s) m then ofFields inner s (.record m fs) fs
          else .fault (.notInstance (.geometry s)) (.record m fs) := by
  rw [decodeIn]
  simp only [decodeCollection_eq]
  rfl

theorem decodeIn_record_eq_done {room : Room} {m : Option Model} {fs : List (String × Value)}
    {g : Geometry} :
    decodeIn room (.record m fs) = .done g ↔
      ∃ s inner, TextAt "type" fs s.name ∧ fitsModel (.geometry s) m = true ∧
        room.enter (.geometry s) = some inner ∧ ofFields inner s (.record m fs) fs = .done g := by
  rw [decodeIn_record]
  constructor
  · intro done
    split at done
    · simp at done
    · next s tagged =>
      rw [Decoded.under_eq_done, Room.read_eq_done] at done
      obtain ⟨inner, entered, done⟩ := done
      split at done
      · next fits => exact ⟨s, inner, shapeOf_record.1 tagged, fits, entered, done⟩
      · simp at done
  · rintro ⟨s, inner, tagged, fits, entered, done⟩
    rw [shapeOf_record.2 tagged]
    simp only [fits, if_true, Decoded.under_eq_done]
    exact Room.read_eq_done.2 ⟨inner, entered, done⟩

theorem exists_record_of_decodeIn {room : Room} {v : Value} {g : Geometry}
    (done : decodeIn room v = .done g) : ∃ m fs, v = .record m fs := by
  cases v with
  | record m fs => exact ⟨m, fs, rfl⟩
  | _ =>
    rw [decodeIn] at done
    · split at done <;> simp at done
    · rintro m fs ⟨⟩

/-- The readers of the classes decide their coordinates. -/
theorem ofCoordinates?_eq_done {s : Shape} {read : Value → Decoded Geometry} {v : Value}
    {g : Geometry} (reads : ofCoordinates? s = some read) :
    read v = .done g ↔ g.shape = s ∧ CoordinatesForm v g := by
  constructor
  · intro done
    cases s with
    | collection => cases reads
    | point =>
      cases reads
      obtain ⟨p, part, rfl⟩ := Decoded.map_eq_done.1 done
      exact ⟨rfl, .point (Position.decode_eq_done.1 part)⟩
    | multiPoint =>
      cases reads
      obtain ⟨ps, part, rfl⟩ := Decoded.map_eq_done.1 done
      simp only [NonEmpty.decode_eq_done, Position.decode_eq_done] at part
      exact ⟨rfl, .multiPoint part⟩
    | lineString =>
      cases reads
      obtain ⟨l, part, rfl⟩ := Decoded.map_eq_done.1 done
      exact ⟨rfl, .lineString (Line.decode_eq_done.1 part)⟩
    | multiLineString =>
      cases reads
      obtain ⟨ls, part, rfl⟩ := Decoded.map_eq_done.1 done
      simp only [NonEmpty.decode_eq_done, Line.decode_eq_done] at part
      exact ⟨rfl, .multiLineString part⟩
    | polygon =>
      cases reads
      obtain ⟨rs, part, rfl⟩ := Decoded.map_eq_done.1 done
      simp only [NonEmpty.decode_eq_done, Position.decode_eq_done] at part
      exact ⟨rfl, .polygon part⟩
    | multiPolygon =>
      cases reads
      obtain ⟨ps, part, rfl⟩ := Decoded.map_eq_done.1 done
      simp only [NonEmpty.decode_eq_done, Position.decode_eq_done] at part
      exact ⟨rfl, .multiPolygon part⟩
  · rintro ⟨rfl, form⟩
    cases form <;> cases reads <;>
      simpa [NonEmpty.decode_eq_done, Position.decode_eq_done, Line.decode_eq_done]

theorem ofCoordinates?_ne_outside {s : Shape} {read : Value → Decoded Geometry}
    (reads : ofCoordinates? s = some read) (v : Value) : read v ≠ .outsideCalendar := by
  have positions := NonEmpty.decode_ne_outside Position.decode_ne_outside
  cases s with
  | collection => cases reads
  | point => cases reads; simpa using Position.decode_ne_outside v
  | multiPoint => cases reads; simpa using positions v
  | lineString => cases reads; simpa using Line.decode_ne_outside v
  | multiLineString =>
    cases reads
    simpa using NonEmpty.decode_ne_outside Line.decode_ne_outside v
  | polygon => cases reads; simpa using NonEmpty.decode_ne_outside positions v
  | multiPolygon =>
    cases reads
    simpa using NonEmpty.decode_ne_outside (NonEmpty.decode_ne_outside positions) v

theorem ofCoordinates?_shape {g : Geometry} (plain : g.shape ≠ .collection) :
    ∃ read, ofCoordinates? g.shape = some read := by
  cases g with
  | collection g gs => exact absurd rfl plain
  | _ => exact ⟨_, rfl⟩

theorem shape_ne_of_coordinates {v : Value} {g : Geometry} (form : CoordinatesForm v g) :
    g.shape ≠ .collection := by
  cases form <;> simp [Geometry.shape]

theorem tagged_geometry {m : Option Model} {fs : List (String × Value)} {s : Shape}
    (type : TextAt "type" fs s.name) (fits : fitsModel (.geometry s) m = true) :
    Tagged (.geometry s) (.record m fs) fs := by
  refine ⟨⟨?_, by rintro tag ⟨⟩⟩, fitsModel_iff.1 fits⟩
  rintro tag ⟨⟩
  exact type

/-- A geometry is read from the coordinates of its class, or from members for which there is room
    inside a collection. -/
theorem decodeIn_eq_done {room : Room} {v : Value} {g : Geometry} :
    decodeIn room v = .done g ↔
      ∃ fs, Tagged (.geometry g.shape) v fs ∧
        ((∃ w, fs.lookup "coordinates" = some w ∧ CoordinatesForm w g) ∨
          ∃ inner w ws first rest, room.enter (.geometry .collection) = some inner ∧
            fs.lookup "geometries" = some w ∧ w.items? = some ws ∧ g = .collection first rest ∧
            List.Forall₂ (fun v g => decodeIn inner v = .done g) ws (first :: rest)) := by
  constructor
  · intro done
    obtain ⟨m, fs, rfl⟩ := exists_record_of_decodeIn done
    obtain ⟨s, inner, type, fits, entered, done⟩ := decodeIn_record_eq_done.1 done
    unfold ofFields at done
    cases reads : ofCoordinates? s with
    | some read =>
      rw [reads] at done
      obtain ⟨w, found, done⟩ := decodeRequired_eq_done.1 done
      obtain ⟨rfl, form⟩ := (ofCoordinates?_eq_done reads).1 done
      exact ⟨fs, tagged_geometry type fits, .inl ⟨w, found, form⟩⟩
    | none =>
      rw [reads] at done
      obtain ⟨w, found, done⟩ := decodeRequired_eq_done.1 done
      rw [decodeMembers_eq] at done
      obtain ⟨gs, read, made⟩ := Decoded.bind_eq_done.1 done
      obtain ⟨ws, items, all, -⟩ := decodeSequence_eq_done.1 read
      obtain ⟨first, rest, rfl, rfl⟩ := collect_eq_done.1 made
      have collection : s = .collection := by cases s <;> first | rfl | cases reads
      subst collection
      exact ⟨fs, tagged_geometry type fits,
        .inr ⟨inner, w, ws, first, rest, entered, found, items, rfl, all⟩⟩
  · rintro ⟨fs, tagged, parts⟩
    obtain ⟨m, rfl⟩ := tagged.exists_record
    refine decodeIn_record_eq_done.2 ?_
    rcases parts with ⟨w, found, form⟩ | ⟨inner, w, ws, first, rest, entered, found, items, rfl, all⟩
    · have plain := shape_ne_of_coordinates form
      obtain ⟨read, reads⟩ := ofCoordinates?_shape plain
      refine ⟨g.shape, room, tagged.type _ rfl, tagged.fits, room.enter_plain plain, ?_⟩
      rw [ofFields, reads]
      exact decodeRequired_eq_done.2 ⟨w, found, (ofCoordinates?_eq_done reads).2 ⟨rfl, form⟩⟩
    · refine ⟨.collection, inner, tagged.type _ rfl, tagged.fits, entered, ?_⟩
      refine decodeRequired_eq_done.2 ⟨w, found, ?_⟩
      rw [decodeMembers_eq]
      refine Decoded.bind_eq_done.2 ⟨first :: rest, ?_, collect_eq_done.2 ⟨first, rest, rfl, rfl⟩⟩
      exact decodeSequence_eq_done.2 ⟨ws, items, all, by simp⟩

/-- A geometry is read from exactly its forms, if there is room for it. -/
theorem decodeIn_eq_done_iff {room : Room} {v : Value} {g : Geometry} :
    decodeIn room v = .done g ↔ GeometryForm v g ∧ g.InRoom room := by
  induction g using Geometry.induction generalizing v room with
  | plain g plain =>
    rw [decodeIn_eq_done]
    constructor
    · rintro ⟨fs, tagged, ⟨w, found, form⟩ | ⟨inner, w, ws, first, rest, -, -, -, rfl, -⟩⟩
      · exact ⟨.coordinates tagged found form, inRoom_plain plain room⟩
      · exact absurd rfl plain
    · rintro ⟨⟨tagged, found, form⟩ | -, -⟩
      · exact ⟨_, tagged, .inl ⟨_, found, form⟩⟩
      · exact absurd rfl plain
  | collection g gs ih =>
    have members (inner : Room) (ws : List Value) :
        List.Forall₂ (fun v g => decodeIn inner v = .done g) ws (g :: gs) ↔
          List.Forall₂ GeometryForm ws (g :: gs) ∧ ∀ h ∈ g :: gs, h.InRoom inner := by
      rw [← forall₂_and_mem]
      exact forall₂_congr_mem fun h member w => ih h member
    rw [decodeIn_eq_done, inRoom_collection]
    constructor
    · rintro ⟨fs, tagged, ⟨w, -, form⟩ | ⟨inner, w, ws, first, rest, entered, found, items, same, all⟩⟩
      · exact absurd rfl (shape_ne_of_coordinates form)
      · cases same
        obtain ⟨forms, fit⟩ := (members inner ws).1 all
        exact ⟨.collection tagged found items forms, inner, entered, fit⟩
    · rintro ⟨⟨-, -, form⟩ | ⟨tagged, found, items, all⟩, inner, entered, fit⟩
      · exact absurd rfl (shape_ne_of_coordinates form)
      · exact ⟨_, tagged, .inr ⟨inner, _, _, g, gs, entered, found, items, rfl,
          (members inner _).2 ⟨all, fit⟩⟩⟩

theorem decode_eq_done_iff {v : Value} {g : Geometry} :
    decode v = .done g ↔ GeometryForm v g ∧ g.InRoom .full :=
  decodeIn_eq_done_iff

theorem children_of_items {v : Value} {vs : List Value} (items : v.items? = some vs) :
    v.children? = some vs := by
  cases v <;> cases items <;> rfl

/-- Geometries hold no dates; the members of a collection are one level further down, so the
    induction carries the reader of members along. -/
theorem readers_ne_outside (v : Value) (room : Room) :
    decodeIn room v ≠ .outsideCalendar ∧ decodeMembers room v ≠ .outsideCalendar := by
  induction v using Value.induction generalizing room with
  | step v ih =>
    constructor
    · cases v with
      | record m fs =>
        have members (inner : Room) (w : Value) (found : fs.lookup "geometries" = some w) :
            decodeMembers inner w ≠ .outsideCalendar :=
          (ih _ rfl w (List.mem_map_of_mem (mem_of_lookup found)) inner).2
        rw [decodeIn_record]
        split
        · simp
        · next s _ =>
          rw [ne_eq, Decoded.under_eq_outside, Room.read_eq_outside]
          rintro ⟨inner, -, outside⟩
          split at outside
          · unfold ofFields at outside
            split at outside
            · next read reads =>
              exact decodeRequired_ne_outside (fun w _ => ofCoordinates?_ne_outside reads w) outside
            · exact decodeRequired_ne_outside (members inner) outside
          · simp at outside
      | _ =>
        rw [decodeIn]
        · split <;> simp
        · rintro m fs ⟨⟩
    · simp only [decodeMembers_eq, ne_eq, Decoded.bind_eq_outside, not_or, not_exists, not_and]
      refine ⟨decodeSequence_ne_outside fun vs items w member => ?_, fun gs _ => ?_⟩
      · exact (ih vs (children_of_items items) w member room).1
      · cases gs <;> simp [collect]

theorem decodeIn_ne_outside (room : Room) (v : Value) : decodeIn room v ≠ .outsideCalendar :=
  (readers_ne_outside v room).1

end Geometry

/-! ## Predicates -/

/-- An operator: a member of the enumeration, or the name of one as text or as ASCII bytes. -/
inductive OperatorForm : Value → SpatialOperator → Prop where
  | text {v : Value} {o : SpatialOperator} : v.text? = some o.name → OperatorForm v o
  | bytes {bs : List UInt8} {o : SpatialOperator} :
      asciiText? bs = some o.name → OperatorForm (.bytes bs) o

/-- A mapping or predicate object with an operator and a geometry. -/
def PredicateForm (v : Value) (p : SpatialPredicate) : Prop :=
  ∃ fs, Tagged .predicate v fs ∧ (∃ w, fs.lookup "op" = some w ∧ OperatorForm w p.op) ∧
    ∃ w, fs.lookup "geom" = some w ∧ GeometryForm w p.geom

theorem SpatialOperator.ofName?_eq_some {name : String} {o : SpatialOperator} :
    SpatialOperator.ofName? name = some o ↔ name = o.name :=
  find?_name_eq_some SpatialOperator.ofName?_name

theorem SpatialOperator.decode_eq_done {v : Value} {o : SpatialOperator} :
    SpatialOperator.decode v = .done o ↔ OperatorForm v o := by
  have found (name? : Option String) :
      name? = some o.name ↔ name?.bind SpatialOperator.ofName? = some o := by
    simp [Option.bind_eq_some_iff, SpatialOperator.ofName?_eq_some]
  cases v with
  | bytes bs =>
    have form : OperatorForm (.bytes bs) o ↔ asciiText? bs = some o.name := by
      refine ⟨fun form => ?_, .bytes⟩
      cases form with
      | text named => cases named
      | bytes named => exact named
    rw [form, found]
    unfold SpatialOperator.decode
    dsimp only
    split
    · next read => simp [read]
    · next unread => simp [unread]
  | _ =>
    refine Iff.trans ?_ ⟨OperatorForm.text, fun form => ?_⟩
    · rw [found]
      unfold SpatialOperator.decode
      dsimp only
      split
      · next read => simp [read]
      · next unread => simp [unread]
    · cases form with
      | text named => exact named

theorem SpatialOperator.decode_ne_outside (v : Value) :
    SpatialOperator.decode v ≠ .outsideCalendar := by
  unfold SpatialOperator.decode
  dsimp only
  split <;> simp

namespace SpatialPredicate

theorem ofFields_eq_done {room : Room} {whole : Value} {fs : List (String × Value)}
    {p : SpatialPredicate} :
    ofFields room whole fs = .done p ↔
      ((∃ w, fs.lookup "op" = some w ∧ OperatorForm w p.op) ∧
        ∃ w, fs.lookup "geom" = some w ∧ GeometryForm w p.geom) ∧ p.geom.InRoom room := by
  simp only [ofFields, Decoded.combine_eq_done, decodeRequired_eq_done,
    SpatialOperator.decode_eq_done, Geometry.decodeIn_eq_done_iff]
  constructor
  · rintro ⟨op, geom, hasOp, ⟨w, found, form, fits⟩, rfl⟩
    exact ⟨⟨hasOp, w, found, form⟩, fits⟩
  · rintro ⟨⟨hasOp, w, found, form⟩, fits⟩
    exact ⟨p.op, p.geom, hasOp, ⟨w, found, form, fits⟩, rfl⟩

/-- A predicate is read from exactly its forms, if there is room for the geometry. -/
theorem decode_eq_done_iff {room : Room} {v : Value} {p : SpatialPredicate} :
    decode room v = .done p ↔ PredicateForm v p ∧ p.geom.InRoom room := by
  constructor
  · intro done
    cases v with
    | record m fs =>
      rw [decode] at done
      split at done
      · next fits =>
        have tagged : Tagged .predicate (.record m fs) fs :=
          ⟨⟨by rintro tag ⟨⟩, by rintro tag ⟨⟩⟩, fitsModel_iff.1 fits⟩
        obtain ⟨parts, room⟩ := ofFields_eq_done.1 done
        exact ⟨⟨fs, tagged, parts⟩, room⟩
      · simp at done
    | _ => cases done
  · rintro ⟨⟨fs, tagged, parts⟩, room⟩
    obtain ⟨m, rfl⟩ := tagged.exists_record
    rw [decode, if_pos tagged.fits]
    exact ofFields_eq_done.2 ⟨parts, room⟩

theorem decode_ne_outside (room : Room) (v : Value) : decode room v ≠ .outsideCalendar := by
  cases v with
  | record m fs =>
    rw [decode]
    split
    · simp only [ofFields, ne_eq, Decoded.combine_eq_outside, not_or]
      exact ⟨decodeRequired_ne_outside fun w _ => SpatialOperator.decode_ne_outside w,
        decodeRequired_ne_outside fun w _ => Geometry.decodeIn_ne_outside room w⟩
    · simp
  | _ => simp [decode]

end SpatialPredicate

end QueryTree
