import QueryTree.Proofs.Walks

/-!
# Places of faults

Every fault points at the value that it shows: the way of the fault leads through the value that was
read, and ends there.  Of the texts in a fault all but one are names of classes and fields; an
unknown tag is said as it was found.

* `Cause.SaidOf`        : a cause that a value itself gives
* `Fault.PointsInto`, `Decoded.PointsInto` : a fault, all faults, of what was read
* `Decoded.faults_combine`, `gather_faults` : the faults of parts, in their order
* `decodeSequence_pointsInto`, `decodeRequired_pointsInto`, … : the parts of readers
* `Geometry.decodeIn_pointsInto`, `Node.decodeIn_pointsInto` : geometries and trees
-/

namespace QueryTree

variable {α β γ : Type}

/-! ## Faults -/

/-- A value that is read may itself be the cause: it does not lack a field, and a tag that is
    unknown is one that it carries. -/
def Cause.SaidOf (v : Value) : Cause → Prop
  | .fieldMissing | .wrongTag _ => False
  | .tagMissing key => key ∈ tagKeys
  | .tagUnknown key tag expected =>
    key ∈ tagKeys ∧ (∀ name ∈ expected, name ∈ tagNames) ∧
      ∃ w, v.attribute key = .found w ∧ tag = w.plain
  | _ => True

theorem Cause.SaidOf.ne_missing {v : Value} {cause : Cause} (said : cause.SaidOf v) :
    cause ≠ .fieldMissing := by
  rintro rfl
  exact said

/-- The way of a fault leads to the value that it shows; if a field is missing, to the value that
    lacks it. -/
inductive Fault.PointsInto (v : Value) : Fault → Prop where
  | place {path : Path} {cause : Cause} {w : Value} :
      (∀ s ∈ path, s.Known) → cause.SaidOf w → v.walk path = some w → PointsInto v ⟨path, cause, w⟩
  | missing {path : Path} {key : String} {w : Value} :
      (∀ s ∈ path, s.Known) → key ∈ fieldKeys → v.walk path = some w →
        PointsInto v ⟨path ++ [.field key], .fieldMissing, w⟩

theorem Fault.PointsInto.under {v u : Value} {s : Step} {f : Fault} (known : s.Known)
    (step : v.part? s = some u) (points : f.PointsInto u) : (f.under s).PointsInto v := by
  cases points with
  | place steps said reached =>
    have all := List.forall_mem_cons.2 ⟨known, steps⟩
    exact .place all said ((Value.walk_of_part step _).trans reached)
  | missing steps name reached =>
    have all := List.forall_mem_cons.2 ⟨known, steps⟩
    exact .missing all name ((Value.walk_of_part step _).trans reached)

theorem Fault.pointsInto_here {v : Value} {cause : Cause} (said : cause.SaidOf v) :
    (Fault.here cause v).PointsInto v :=
  .place (by rintro s ⟨⟩) said rfl

/-- All faults that reading gave point into a value. -/
def Decoded.PointsInto (v : Value) (d : Decoded α) : Prop :=
  ∀ f ∈ d.faults, f.PointsInto v

/-! ## Combinators -/

namespace Decoded

variable {d : Decoded α} {e : Decoded β} {x : Fault}

theorem faults_map (d : Decoded α) (f : α → β) : (d.map f).faults = d.faults := by
  cases d <;> rfl

theorem faults_ofFaults (faults : List Fault) (a : α) : (ofFaults faults a).faults = faults := by
  cases faults <;> rfl

theorem faults_under (d : Decoded α) (s : Step) :
    (d.under s).faults = d.faults.map (Fault.under s) := by
  cases d <;> rfl

theorem faults_eq_nil {d : Decoded α} (inside : d ≠ .outsideCalendar) :
    d.faults = [] ↔ ∃ a, d = .done a := by
  cases d with
  | done a => simp [faults]
  | faulty x xs => simp [faults]
  | outsideCalendar => exact absurd rfl inside

theorem faults_combine {f : α → β → γ} {d : Decoded α} {e : Decoded β}
    (inside : combine f d e ≠ .outsideCalendar) : (combine f d e).faults = d.faults ++ e.faults := by
  cases d with
  | outsideCalendar => exact absurd rfl inside
  | done a =>
    cases e with
    | outsideCalendar => exact absurd rfl inside
    | _ => rfl
  | faulty x xs =>
    cases e with
    | done b => simp [combine, faults]
    | faulty y ys => rfl
    | outsideCalendar => exact absurd rfl inside

theorem mem_faults_combine {f : α → β → γ} (member : x ∈ (combine f d e).faults) :
    x ∈ d.faults ∨ x ∈ e.faults := by
  cases d with
  | outsideCalendar => cases member
  | done a =>
    cases e with
    | faulty y ys => exact .inr member
    | _ => cases member
  | faulty y ys =>
    cases e with
    | done b => exact .inl member
    | faulty z zs =>
      have both : x ∈ (y :: ys) ++ (z :: zs) := member
      exact List.mem_append.1 both
    | outsideCalendar => cases member

namespace PointsInto

variable {v u : Value}

theorem done (a : α) : (done a).PointsInto v := by
  rintro f ⟨⟩

theorem fault {cause : Cause} (said : cause.SaidOf v) :
    (fault cause v : Decoded α).PointsInto v := by
  intro f member
  obtain rfl := List.mem_singleton.1 member
  exact Fault.pointsInto_here said

theorem map (points : d.PointsInto v) (f : α → β) : (d.map f).PointsInto v := by
  rw [Decoded.PointsInto, faults_map]
  exact points

theorem combine (first : d.PointsInto v) (second : e.PointsInto v) (f : α → β → γ) :
    (combine f d e).PointsInto v := fun x member =>
  (mem_faults_combine member).elim (first x) (second x)

theorem bind {f : α → Decoded β} (first : d.PointsInto v) (rest : ∀ a, (f a).PointsInto v) :
    (d.bind f).PointsInto v := by
  cases d with
  | done a => exact rest a
  | faulty x xs => exact first
  | outsideCalendar => rintro x ⟨⟩

theorem under {s : Step} (known : s.Known) (points : d.PointsInto u)
    (step : v.part? s = some u) : (d.under s).PointsInto v := by
  intro x member
  rw [faults_under] at member
  obtain ⟨f, there, rfl⟩ := List.mem_map.1 member
  exact (points f there).under known step

/-- That there is no room for a value is said of the value itself. -/
theorem read {room : Room} {m : Model} {inside : Room → Decoded α}
    (points : ∀ inner, (inside inner).PointsInto v) : (room.read m v inside).PointsInto v := by
  unfold Room.read
  split
  · exact points _
  · exact .fault trivial

theorem underTag {name : String} (points : d.PointsInto v) (known : name ∈ tagNames) :
    (d.under (.tag name)).PointsInto v :=
  points.under known (Value.part?_tag known v)

theorem underPath {tags : List String} (points : d.PointsInto v)
    (known : ∀ name ∈ tags, name ∈ tagNames) : (d.underPath (tags.map .tag)).PointsInto v := by
  induction tags with
  | nil => exact points
  | cons name tags ih =>
    exact (ih fun other member => known other (.tail _ member)).underTag (known name (.head _))

end PointsInto

end Decoded

/-! ## Sequences -/

theorem Gathered.pointsInto_atLeast {g : Gathered α} {v : Value}
    (items : ∀ f ∈ g.faults, f.PointsInto v) (least : Nat) : (g.atLeast least v).PointsInto v := by
  unfold atLeast
  split
  · rintro f ⟨⟩
  · intro f member
    rw [Decoded.faults_ofFaults, List.mem_append] at member
    rcases member with inside | short
    · exact items f inside
    · split at short
      · obtain rfl := List.mem_singleton.1 short
        exact Fault.pointsInto_here trivial
      · cases short

/-- Without a least number of items a sequence has the faults of its items. -/
theorem Gathered.atLeast_zero (v : Value) (g : Gathered α) :
    g.atLeast 0 v = if g.outside then .outsideCalendar else .ofFaults g.faults g.items := by
  simp [Gathered.atLeast]

/-- The faults of items are gathered in the order of the items. -/
theorem gather_faults (read : Value → Decoded α) (i : Nat) (vs : List Value) :
    (gather read i vs).faults =
      (vs.zipIdx i).flatMap fun (v, j) => (read v).faults.map (Fault.under (.index j)) := by
  induction vs generalizing i with
  | nil => rfl
  | cons v vs ih =>
    rw [List.zipIdx_cons, List.flatMap_cons, ← ih (i + 1), gather]
    dsimp only
    cases read v <;> rfl

/-- The faults of items point into the sequence. -/
theorem gather_pointsInto {read : Value → Decoded α} {v : Value} {vs : List Value}
    (items : v.items? = some vs) (reads : ∀ u ∈ vs, (read u).PointsInto u) :
    ∀ f ∈ (gather read 0 vs).faults, f.PointsInto v := by
  intro f member
  rw [gather_faults] at member
  obtain ⟨⟨u, i⟩, place, there⟩ := List.mem_flatMap.1 member
  obtain ⟨g, inside, rfl⟩ := List.mem_map.1 there
  have found : vs[i]? = some u := List.mk_mem_zipIdx_iff_getElem?.1 place
  have points := reads u (List.mem_of_getElem? found) g inside
  exact points.under trivial (Value.part?_index items found)

theorem decodeSequence_pointsInto {read : Value → Decoded α} {v : Value} {least : Nat}
    (reads : ∀ vs, v.items? = some vs → ∀ u ∈ vs, (read u).PointsInto u) :
    (decodeSequence least read v).PointsInto v := by
  unfold decodeSequence
  split
  · next vs items =>
    have gathered := gather_pointsInto items (reads vs items)
    exact Gathered.pointsInto_atLeast gathered least
  · exact .fault trivial

/-! ## Fields -/

section Fields

variable {read : Value → Decoded α} {m : Option Model} {fs : List (String × Value)} {key : String}

theorem missing_pointsInto (name : key ∈ fieldKeys) (v : Value) :
    (Decoded.faulty ⟨[.field key], .fieldMissing, v⟩ [] : Decoded α).PointsInto v := by
  intro f member
  obtain rfl := List.mem_singleton.1 member
  have reached : v.walk [] = some v := rfl
  exact .missing (by rintro s ⟨⟩) name reached

/-- A key is a step to the field under it. -/
theorem decodeRequired_pointsInto (name : key ∈ fieldKeys)
    (step : (Value.record m fs).part? (.field key) = fs.lookup key)
    (reads : ∀ u, fs.lookup key = some u → (read u).PointsInto u) :
    (decodeRequired key read (.record m fs) fs).PointsInto (.record m fs) := by
  unfold decodeRequired
  split
  · next u found => exact .under name (reads u found) (step.trans found)
  · exact missing_pointsInto name _

theorem decodeAbsentable_pointsInto (name : key ∈ fieldKeys)
    (step : (Value.record m fs).part? (.field key) = fs.lookup key)
    (reads : ∀ u, fs.lookup key = some u → (read u).PointsInto u) :
    (decodeAbsentable key read fs).PointsInto (.record m fs) := by
  unfold decodeAbsentable
  split
  · next u found =>
    refine .under name ?_ (step.trans found)
    unfold decodeOptional
    split
    · exact .done _
    · exact (reads u found).map _
  · exact .done _

end Fields

/-! ## Scalars -/

theorem decodeString_pointsInto (v : Value) : (decodeString v).PointsInto v := by
  unfold decodeString
  split
  · exact .done _
  · exact .fault trivial

theorem FieldName.decode_pointsInto (v : Value) : (FieldName.decode v).PointsInto v := by
  unfold FieldName.decode
  split
  · split
    · exact .fault trivial
    · exact .done _
  · exact .fault trivial

theorem decodeBool_pointsInto (v : Value) : (decodeBool v).PointsInto v := by
  unfold decodeBool
  split
  · exact .done _
  · exact .fault trivial

theorem Number.decode_pointsInto (v : Value) : (Number.decode v).PointsInto v := by
  unfold Number.decode
  split
  · exact .done _
  · exact .done _
  · exact .fault trivial
  · exact .fault trivial
  · have attempt {name : String} {cause : Cause} (known : name ∈ tagNames) (said : cause.SaidOf v) :
        ((Fault.here cause v).under (.tag name)).PointsInto v :=
      (Fault.pointsInto_here said).under known (Value.part?_tag known v)
    intro f member
    rcases List.mem_pair.1 member with rfl | rfl
    · exact attempt (by decide) trivial
    · exact attempt (by decide) trivial

theorem Moment.decode_pointsInto (v : Value) : (Moment.decode v).PointsInto v := by
  have outside : (Decoded.outsideCalendar : Decoded Moment).PointsInto v := by
    rintro f ⟨⟩
  unfold Moment.decode
  split
  · exact .done _
  · split
    · exact .done _
    · exact outside
  · split
    · exact .fault trivial
    · split
      · exact .done _
      · exact .fault trivial
      · exact outside

theorem SpatialOperator.decode_pointsInto (v : Value) :
    (SpatialOperator.decode v).PointsInto v := by
  unfold SpatialOperator.decode
  dsimp only
  split
  · exact .done _
  · exact .fault trivial

/-! ## Geometries -/

theorem Position.decode_pointsInto (v : Value) : (Position.decode v).PointsInto v := by
  unfold Position.decode
  split
  · exact .fault trivial
  · next vs items =>
    dsimp only
    split
    · exact .fault trivial
    · refine .bind (Gathered.pointsInto_atLeast ?_ 2) fun cs => ?_
      · exact gather_pointsInto items fun w _ => Number.decode_pointsInto w
      · split
        · exact .done _
        · exact .fault trivial

theorem Line.decode_pointsInto (v : Value) : (Line.decode v).PointsInto v := by
  refine .bind (decodeSequence_pointsInto fun _ _ w _ => Position.decode_pointsInto w) fun ps => ?_
  split
  · exact .done _
  · exact .fault trivial

theorem NonEmpty.decode_pointsInto {read : Value → Decoded α}
    (reads : ∀ v, (read v).PointsInto v) (v : Value) : (NonEmpty.decode read v).PointsInto v := by
  refine .bind (decodeSequence_pointsInto fun _ _ w _ => reads w) fun xs => ?_
  split
  · exact .done _
  · exact .fault trivial

/-- What is wrong with the tag of a geometry. -/
theorem shapeOf_error {v : Value} {cause : Cause} (untagged : shapeOf v = .error cause) :
    cause.SaidOf v := by
  unfold shapeOf at untagged
  split at untagged
  · cases untagged
    trivial
  · cases untagged
    exact .head _
  · next tag found =>
    split at untagged
    · cases untagged
    · cases untagged
      exact ⟨.head _, by decide, tag, found, rfl⟩

namespace Geometry

theorem ofCoordinates?_pointsInto {s : Shape} {read : Value → Decoded Geometry}
    (reads : ofCoordinates? s = some read) (v : Value) : (read v).PointsInto v := by
  have positions := NonEmpty.decode_pointsInto Position.decode_pointsInto
  cases s with
  | collection => cases reads
  | point =>
    cases reads
    exact (Position.decode_pointsInto v).map _
  | multiPoint =>
    cases reads
    exact (positions v).map _
  | lineString =>
    cases reads
    exact (Line.decode_pointsInto v).map _
  | multiLineString =>
    cases reads
    exact (NonEmpty.decode_pointsInto Line.decode_pointsInto v).map _
  | polygon =>
    cases reads
    exact (NonEmpty.decode_pointsInto positions v).map _
  | multiPolygon =>
    cases reads
    exact (NonEmpty.decode_pointsInto (NonEmpty.decode_pointsInto positions) v).map _

theorem readers_pointsInto (v : Value) (room : Room) :
    (decodeIn room v).PointsInto v ∧ (decodeMembers room v).PointsInto v := by
  induction v using Value.induction generalizing room with
  | step v ih =>
    constructor
    · cases v with
      | record m fs =>
        have members (inner : Room) (w : Value) (found : fs.lookup "geometries" = some w) :
            (decodeMembers inner w).PointsInto w :=
          (ih _ rfl w (List.mem_map_of_mem (mem_of_lookup found)) inner).2
        rw [decodeIn_record]
        split
        · next cause untagged => exact .fault (shapeOf_error untagged)
        · next shape _ =>
          refine .underTag (.read fun inner => ?_) shape.name_mem_tagNames
          split
          · unfold ofFields
            split
            · next read reads =>
              exact decodeRequired_pointsInto (by decide) (Value.part?_field (by decide)) fun w _ =>
                ofCoordinates?_pointsInto reads w
            · exact decodeRequired_pointsInto (by decide) (Value.part?_field (by decide))
                (members inner)
          · exact .fault trivial
      | _ =>
        rw [decodeIn]
        · split
          · next cause untagged => exact .fault (shapeOf_error untagged)
          · next shape _ =>
            exact .underTag (.read fun _ => .fault trivial) shape.name_mem_tagNames
        · rintro m fs ⟨⟩
    · rw [decodeMembers_eq]
      refine .bind (decodeSequence_pointsInto fun vs items w member => ?_) fun gs => ?_
      · exact (ih vs (children_of_items items) w member room).1
      · cases gs with
        | nil => exact .fault trivial
        | cons g gs => exact .done _

theorem decodeIn_pointsInto (room : Room) (v : Value) : (decodeIn room v).PointsInto v :=
  (readers_pointsInto v room).1

end Geometry

theorem SpatialPredicate.decode_pointsInto (room : Room) (v : Value) :
    (SpatialPredicate.decode room v).PointsInto v := by
  cases v with
  | record m fs =>
    rw [decode]
    split
    · refine .combine ?_ ?_ _
      · exact decodeRequired_pointsInto (by decide) (Value.part?_field (by decide)) fun w _ =>
          SpatialOperator.decode_pointsInto w
      · exact decodeRequired_pointsInto (by decide) (Value.part?_field (by decide)) fun w _ =>
          Geometry.decodeIn_pointsInto room w
    · exact .fault trivial
  | _ => exact .fault trivial

/-! ## Leaves and ranges -/

section Leaves

variable {m : Option Model} {fs : List (String × Value)}

theorem Literal.ofFields_pointsInto (room : Room) (kind : Kind) :
    (Literal.ofFields room kind (.record m fs) fs).PointsInto (.record m fs) := by
  have value {β : Type} {read : Value → Decoded β} (reads : ∀ v, (read v).PointsInto v) :
      (decodeRequired "value" read (.record m fs) fs).PointsInto (.record m fs) :=
    decodeRequired_pointsInto (by decide) (Value.part?_field (by decide)) fun w _ => reads w
  cases kind with
  | string | glob => exact (value decodeString_pointsInto).map _
  | number => exact (value Number.decode_pointsInto).map _
  | date => exact (value Moment.decode_pointsInto).map _
  | spatial => exact (value (SpatialPredicate.decode_pointsInto room)).map _

theorem otherName_free {key name : String} (other : Model.otherName? key = some name) :
    name ∈ fieldKeys ∧ name ∉ reservedNames := by
  unfold Model.otherName? at other
  split at other <;> cases other <;> decide

theorem decodeFlag_pointsInto {key : String} (known : key ∈ fieldKeys)
    (free : key ∉ reservedNames) :
    (decodeFlag key (.record m fs) fs).PointsInto (.record m fs) := by
  unfold decodeFlag
  split
  · next v found =>
    exact .under known (decodeBool_pointsInto v) ((Value.part?_field free).trans found)
  · split
    · next other v given =>
      obtain ⟨name, named, found⟩ := Option.bind_eq_some_iff.1 given
      obtain ⟨w, there, same⟩ := Option.map_eq_some_iff.1 found
      cases same
      obtain ⟨known, free⟩ := otherName_free named
      have step : (Value.record m fs).part? (.field other) = fs.lookup other :=
        Value.part?_field free
      exact .under known (decodeBool_pointsInto v) (step.trans there)
    · exact missing_pointsInto known _

theorem Bounds.ofFields_pointsInto {read : Value → Decoded α}
    (reads : ∀ v, (read v).PointsInto v) :
    (Bounds.ofFields read .right (.record m fs) fs).PointsInto (.record m fs) := by
  have flag {key : String} (name : key ∈ fieldKeys ∧ key ∉ reservedNames) :
      (decodeFlag key (.record m fs) fs).PointsInto (.record m fs) :=
    decodeFlag_pointsInto name.1 name.2
  have bound {key : String} (name : key ∈ fieldKeys ∧ key ∉ reservedNames) :
      (decodeAbsentable key read fs).PointsInto (.record m fs) :=
    decodeAbsentable_pointsInto name.1 (Value.part?_field name.2) fun v _ => reads v
  have closedLower := flag (by decide : "closed_lower" ∈ fieldKeys ∧ _)
  have closedUpper := flag (by decide : "closed_upper" ∈ fieldKeys ∧ _)
  have lower := bound (by decide : "lower" ∈ fieldKeys ∧ _)
  have upper := bound (by decide : "upper" ∈ fieldKeys ∧ _)
  have flags := closedLower.combine closedUpper Prod.mk
  have bounds := lower.combine upper Prod.mk
  unfold Bounds.ofFields
  simp only [Tags.right, Decoded.combine_known]
  refine .bind (flags.combine bounds Prod.mk) ?_
  rintro ⟨flags, bounds⟩
  dsimp only
  split
  · exact .done _
  · exact .fault trivial

theorem Range.ofFields_pointsInto (kind : OrderedKind) :
    (Range.ofFields kind .right (.record m fs) fs).PointsInto (.record m fs) := by
  cases kind with
  | string => exact (Bounds.ofFields_pointsInto decodeString_pointsInto).map _
  | number => exact (Bounds.ofFields_pointsInto Number.decode_pointsInto).map _
  | date => exact (Bounds.ofFields_pointsInto Moment.decode_pointsInto).map _

end Leaves

/-! ## Trees -/

namespace Node

theorem kindOf_error {v : Value} {classes : List Model} {cause : Cause}
    (nodes : ∀ c ∈ classes, c.isNode = true) (untagged : kindOf v classes = .error cause) :
    cause.SaidOf v := by
  have key : "kind" ∈ tagKeys := by decide
  unfold kindOf at untagged
  split at untagged
  · cases untagged
    exact key
  · cases untagged
    exact key
  · next tag found =>
    split at untagged
    · cases untagged
    · cases untagged
      refine ⟨key, fun name expected => ?_, tag, found, rfl⟩
      obtain ⟨model, member, tagged⟩ := List.mem_filterMap.1 expected
      exact Model.tag_mem_tagNames (nodes model member) (.inr tagged)

theorem kindOf_ok {v : Value} {classes : List Model} {kind : String} {model : Model}
    (nodes : ∀ c ∈ classes, c.isNode = true) (chosen : kindOf v classes = .ok (kind, model)) :
    kind ∈ tagNames := by
  unfold kindOf at chosen
  split at chosen
  · cases chosen
  · cases chosen
  · split at chosen
    · next given =>
      cases chosen
      obtain ⟨text, -, found⟩ := Option.bind_eq_some_iff.1 given
      obtain ⟨c, hit, same⟩ := Option.map_eq_some_iff.1 found
      cases same
      have kinded : (model.kindTag? == some kind) = true := by simpa using List.find?_some hit
      have node := nodes model (List.mem_of_find?_eq_some hit)
      exact Model.tag_mem_tagNames node (.inr (beq_iff_eq.1 kinded))
    · cases chosen

/-- The way to the class of a value leads through known tags only. -/
theorem classOf_ok {v : Value} {path : Path} {model : Model}
    (chosen : classOf v = .ok (path, model)) :
    ∃ tags : List String, path = tags.map .tag ∧ ∀ name ∈ tags, name ∈ tagNames := by
  simp only [classOf] at chosen
  split at chosen
  · cases chosen
  · cases chosen
  · split at chosen
    · split at chosen
      · next kinds =>
        cases chosen
        have known := kindOf_ok (by decide) kinds
        exact ⟨["literal", _], rfl, List.forall_mem_cons.2 ⟨by decide, by simpa using known⟩⟩
      · cases chosen
    · split at chosen
      · next kinds =>
        cases chosen
        have known := kindOf_ok (by decide) kinds
        exact ⟨["range", _], rfl, List.forall_mem_cons.2 ⟨by decide, by simpa using known⟩⟩
      · cases chosen
    · split at chosen
      · next name _ given =>
        cases chosen
        obtain ⟨text, -, found⟩ := Option.bind_eq_some_iff.1 given
        obtain ⟨c, hit, same⟩ := Option.map_eq_some_iff.1 found
        cases same
        have tagged : (model.tag? == some name) = true := by simpa using List.find?_some hit
        have node := (singleTagged_spec model (List.mem_of_find?_eq_some hit)).1
        have known := Model.tag_mem_tagNames node (.inl (beq_iff_eq.1 tagged))
        exact ⟨[name], rfl, by simpa using known⟩
      · cases chosen

theorem classOf_error {v : Value} {path : Path} {cause : Cause}
    (untagged : classOf v = .error (path, cause)) :
    cause.SaidOf v ∧
      ∃ tags : List String, path = tags.map .tag ∧ ∀ name ∈ tags, name ∈ tagNames := by
  have here : ∃ tags : List String, [] = tags.map Step.tag ∧ ∀ name ∈ tags, name ∈ tagNames :=
    ⟨[], rfl, by simp⟩
  have key : "type" ∈ tagKeys := by decide
  simp only [classOf] at untagged
  split at untagged
  · cases untagged
    exact ⟨trivial, here⟩
  · cases untagged
    exact ⟨key, here⟩
  · next tag found =>
    split at untagged
    · split at untagged
      · cases untagged
      · next kinds =>
        cases untagged
        exact ⟨kindOf_error (by decide) kinds, ["literal"], rfl, by decide⟩
    · split at untagged
      · cases untagged
      · next kinds =>
        cases untagged
        exact ⟨kindOf_error (by decide) kinds, ["range"], rfl, by decide⟩
    · split at untagged
      · cases untagged
      · cases untagged
        have said : (Cause.tagUnknown "type" tag.plain nodeTags).SaidOf v :=
          ⟨key, fun name node => List.mem_append_left _ (by simp [node]), tag, found, rfl⟩
        exact ⟨said, here⟩

section Fields

variable {m : Option Model} {fs : List (String × Value)}

theorem operandsOf_pointsInto {room : Room} {c : Connective} (tags : CarriesTags (.combine c) fs)
    (items : ∀ v, fs.lookup "operands" = some v → (decodeItems room v).PointsInto v)
    (sides : ∀ key v, fs.lookup key = some v → (decodeIn room v).PointsInto v) :
    (operandsOf room m.isNone (.record m fs) fs).PointsInto (.record m fs) := by
  unfold operandsOf
  rw [decodeOperandsAt_eq, decodeAt_eq, decodeAt_eq]
  have name : "operands" ∈ fieldKeys := by decide
  unfold chooseOperands requireChild
  cases operands : fs.lookup "operands" with
  | some w => exact .under name (items w operands) (Value.part?_operands operands)
  | none =>
    cases lhs : fs.lookup "lhs" with
    | none => simpa using missing_pointsInto name _
    | some l =>
      cases rhs : fs.lookup "rhs" with
      | none => simpa using missing_pointsInto name _
      | some r =>
        cases m with
        | some model => simpa using missing_pointsInto name _
        | none =>
          -- no item is wanted, so the faults of the two sides are those of a list of them
          have gathered : ∀ f ∈ (gather (decodeIn room) 0 [l, r]).faults,
              f.PointsInto (.list [l, r]) := by
            refine gather_pointsInto rfl fun v member => ?_
            rcases List.mem_pair.1 member with rfl | rfl
            · exact sides "lhs" v lhs
            · exact sides "rhs" v rhs
          have listed : (Gathered.atLeast 0 (.list [l, r])
              (gather (decodeIn room) 0 [l, r])).PointsInto (.list [l, r]) :=
            Gathered.pointsInto_atLeast gathered 0
          have combination : Value.combines fs = true := Value.combines_of_tag (tags.type _ rfl)
          exact .under name listed (Value.part?_sides combination operands lhs rhs)

theorem ofFields_pointsInto {room : Room} {model : Model} (tags : CarriesTags model fs)
    (children : ∀ key v, fs.lookup key = some v →
      (decodeIn room v).PointsInto v ∧ (decodeItems room v).PointsInto v) :
    (ofFields room model m (.record m fs) fs).PointsInto (.record m fs) := by
  have child {key : String} (known : key ∈ fieldKeys)
      (step : (Value.record m fs).part? (.field key) = fs.lookup key) :
      (decodeRequired key (decodeIn room) (.record m fs) fs).PointsInto (.record m fs) :=
    decodeRequired_pointsInto known step fun v found => (children key v found).1
  have value := child (by decide : "value" ∈ fieldKeys) (Value.part?_field (by decide))
  -- the sides of what is no combination are fields like others
  have side {name key : String} (type : TextAt "type" fs name)
      (other : ∀ c : Connective, name ≠ c.name) (noTag : key ∉ tagNames) :
      (Value.record m fs).part? (.field key) = fs.lookup key :=
    Value.part?_field_of_tag (Value.not_combines_of_tag type other) noTag
  cases model with
  | literal kind => exact (Literal.ofFields_pointsInto room kind).map _
  | range kind => exact (Range.ofFields_pointsInto kind).map _
  | term => exact value.map _
  | modify modifier =>
    have single (c : Connective) : modifier.name ≠ c.name := by
      cases modifier <;> cases c <;> decide
    exact (child (by decide) (side (tags.type _ rfl) single (by decide))).map _
  | namedTerm =>
    refine .combine ?_ value _
    exact decodeRequired_pointsInto (by decide) (Value.part?_field (by decide)) fun v _ =>
      FieldName.decode_pointsInto v
  | combine c =>
    refine .map (operandsOf_pointsInto tags ?_ ?_) _
    · exact fun v found => (children _ v found).2
    · exact fun key v found => (children key v found).1
  | constant =>
    have scored (c : Connective) : "constant" ≠ c.name := by
      cases c <;> decide
    have lhs := child (by decide : "lhs" ∈ fieldKeys) (side (tags.type _ rfl) scored (by decide))
    have rhs : (decodeRequired "rhs" Number.decode (.record m fs) fs).PointsInto (.record m fs) :=
      decodeRequired_pointsInto (by decide) (side (tags.type _ rfl) scored (by decide)) fun v _ =>
        Number.decode_pointsInto v
    exact lhs.combine rhs _
  | predicate | geometry _ | filter _ => exact .fault trivial

end Fields

theorem readers_pointsInto (v : Value) (room : Room) :
    (decodeIn room v).PointsInto v ∧ (decodeItems room v).PointsInto v := by
  induction v using Value.induction generalizing room with
  | step v ih =>
    constructor
    · cases v with
      | record m fs =>
        rw [decodeIn_record]
        split
        · next path cause untagged =>
          obtain ⟨said, tags, rfl, known⟩ := classOf_error untagged
          exact .underPath (.fault said) known
        · next path model chosen =>
          obtain ⟨tags, rfl, known⟩ := classOf_ok chosen
          refine .underPath (.read fun inner => ?_) known
          split
          · refine ofFields_pointsInto (carriesTags_of_classOf chosen).2 fun key w found => ?_
            exact ih _ rfl w (List.mem_map_of_mem (mem_of_lookup found)) inner
          · exact .fault trivial
      | _ =>
        rw [decodeIn]
        · split
          · next path cause untagged =>
            obtain ⟨said, tags, rfl, known⟩ := classOf_error untagged
            exact .underPath (.fault said) known
          · next path model chosen =>
            obtain ⟨tags, rfl, known⟩ := classOf_ok chosen
            exact .underPath (.read fun _ => .fault trivial) known
        · rintro m fs ⟨⟩
    · rw [decodeItems_eq]
      refine decodeSequence_pointsInto fun vs items w member => ?_
      exact (ih vs (Geometry.children_of_items items) w member room).1

/-- Every fault of a tree points at the value that it shows. -/
theorem decodeIn_pointsInto (room : Room) (v : Value) : (decodeIn room v).PointsInto v :=
  (readers_pointsInto v room).1

theorem points_of_faulty {v : Value} {f : Fault} {fs : List Fault}
    (faulty : decode v = .faulty f fs) : ∀ g ∈ f :: fs, g.PointsInto v := by
  have points : (decode v).PointsInto v := decodeIn_pointsInto .full v
  rwa [faulty] at points

end Node

end QueryTree
