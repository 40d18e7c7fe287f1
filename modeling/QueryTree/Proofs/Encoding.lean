import QueryTree.Proofs.Calendar
import QueryTree.Proofs.Grammar.Node
import QueryTree.Registry
import QueryTree.Value.Embedding

/-!
# Encodings of trees

A tree as the object that callers hold is a form of that tree, and it stays one under every
encoding that keeps the shape of values: records keep their fields, sequences their items, and
scalars what they say.

* `Model.fieldsOf`, `lookup_fieldsOf` : the fields of an object
* `Faithful`             : an encoding that keeps the grammar
* `nodeForm_encoded`     : an encoded tree is a form of the tree
* `Geometry.Formed`, `Node.Formed` : what is read from some value
* `Node.decodeIn_toValue` : a tree is read back from its object, if there is room for it
-/

namespace QueryTree

variable {α : Type}

/-! ## Fields of objects -/

/-- The fields of an object of a class from given values. -/
def Model.fieldsOf (m : Model) (given : List (String × Value)) : List (String × Value) :=
  m.fieldNames.filterMap fun name =>
    let value := (given.lookup name).or ((Model.otherName? name).bind fun other => given.lookup other)
    (value.or (Value.defaultField? m name)).map (name, ·)

theorem Model.object_eq (m : Model) (given : List (String × Value)) :
    m.object given = .object m (m.fieldsOf given) := rfl

theorem lookup_filterMap_names {f : String → Option Value} {names : List String} {key : String} :
    (names.filterMap fun name => (f name).map (name, ·)).lookup key =
      if key ∈ names then f key else none := by
  induction names with
  | nil => rfl
  | cons name names ih =>
    by_cases same : key = name
    · subst same
      cases found : f key with
      | some v => simp [found]
      | none => simp [found, ih]
    · have other : (key == name) = false := beq_false_of_ne same
      cases found : f name with
      | some v => simp [found, ih, same, List.lookup_cons, other]
      | none => simp [found, ih, same]

/-- A field of an object is what was given under its name, else under its other name, else the
    default. -/
theorem lookup_fieldsOf {m : Model} {given : List (String × Value)} {key : String}
    (named : key ∈ m.fieldNames) :
    (m.fieldsOf given).lookup key =
      ((given.lookup key).or ((Model.otherName? key).bind fun other => given.lookup other)).or
        (Value.defaultField? m key) := by
  unfold Model.fieldsOf
  rw [lookup_filterMap_names, if_pos named]

theorem lookup_fieldsOf_given {m : Model} {given : List (String × Value)}
    {key : String} {v : Value} (named : key ∈ m.fieldNames)
    (found : given.lookup key = some v) :
    (m.fieldsOf given).lookup key = some v := by
  simp [lookup_fieldsOf named, found]

/-- An object holds the tags of its class as text, if it was given none itself. -/
theorem lookup_fieldsOf_tag {m : Model} {given : List (String × Value)}
    (noType : given.lookup "type" = none) (noKind : given.lookup "kind" = none) :
    (∀ tag, m.tag? = some tag → (m.fieldsOf given).lookup "type" = some (.str tag)) ∧
      ∀ tag, m.kindTag? = some tag → (m.fieldsOf given).lookup "kind" = some (.str tag) := by
  constructor
  · intro tag own
    have named : "type" ∈ m.fieldNames := by
      cases m with
      | geometry s => cases s <;> simp [Model.fieldNames]
      | predicate | filter _ => cases own
      | _ => simp [Model.fieldNames]
    simp [lookup_fieldsOf named, noType, Model.otherName?, Value.defaultField?, own]
  · intro tag own
    have named : "kind" ∈ m.fieldNames := by
      cases m with
      | literal _ | range _ => simp [Model.fieldNames]
      | _ => cases own
    simp [lookup_fieldsOf named, noKind, Model.otherName?, Value.defaultField?, own]

theorem Geometry.toValues_eq (gs : List Geometry) : toValues gs = gs.map toValue := by
  induction gs with
  | nil => rfl
  | cons g gs ih => rw [toValues, ih, List.map_cons]

theorem Node.toValues_eq (ns : List Node) : toValues ns = ns.map toValue := by
  induction ns with
  | nil => rfl
  | cons n ns ih => rw [toValues, ih, List.map_cons]

/-- A kind is named by its name, as text or as a member of the enumeration. -/
theorem Kind.lookup_name {kind : Kind} {name : Value} (named : name.text? = some kind.name) :
    Kind.lookup name = .ok kind := by
  have noOperator : (SpatialOperator.ofName? kind.name).isSome = false := by
    cases kind <;> decide
  rw [Kind.lookup, named]
  simp only [noOperator, Kind.ofName?_name]
  rfl

/-! ## Faithful encodings -/

/-- Applies an encoding to every field. -/
def encodeFields (e : Value → Value) (fs : List (String × Value)) : List (String × Value) :=
  fs.map fun f => (f.1, e f.2)

theorem lookup_encodeFields {e : Value → Value} {fs : List (String × Value)} {key : String} :
    (encodeFields e fs).lookup key = (fs.lookup key).map e := by
  induction fs with
  | nil => rfl
  | cons f fs ih =>
    obtain ⟨k, v⟩ := f
    by_cases same : key = k
    · subst same
      simp [encodeFields]
    · have other : (key == k) = false := beq_false_of_ne same
      simpa [encodeFields, List.lookup_cons, other] using ih

/-- A given field of an encoded object holds the encoding of what was given. -/
theorem lookup_encoded {e : Value → Value} {m : Model} {given : List (String × Value)}
    {key : String} {v : Value} (named : key ∈ m.fieldNames)
    (found : given.lookup key = some v) :
    (encodeFields e (m.fieldsOf given)).lookup key = some (e v) := by
  rw [lookup_encodeFields, lookup_fieldsOf_given named found]
  rfl

/-- An encoding that keeps the grammar: objects stay objects or become mappings of the encoded
    fields, tuples stay sequences of the encoded items, scalars keep what they say. -/
structure Faithful (e : Value → Value) : Prop where
  object : ∀ m fs, e (.object m fs) = .mapping (encodeFields e fs) ∨
    e (.object m fs) = .object m (encodeFields e fs)
  tuple : ∀ vs, (e (.tuple vs)).items? = some (vs.map e)
  null : e .null = .null
  bool : ∀ b, e (.bool b) = .bool b
  number : ∀ n, e (.ofNumber n) = .ofNumber n
  text : ∀ s, (e (.str s)).text? = some s
  operator : ∀ o : SpatialOperator, (e (.operator o)).text? = some o.name
  moment : ∀ m, MomentForm (e (.ofMoment m)) m

section Encoded

variable {e : Value → Value} (faithful : Faithful e)

include faithful

/-- An encoded object is tagged as its class. -/
theorem tagged_encoded {m : Model} {given : List (String × Value)}
    (noType : given.lookup "type" = none) (noKind : given.lookup "kind" = none) :
    Tagged m (e (m.object given)) (encodeFields e (m.fieldsOf given)) := by
  obtain ⟨type, kind⟩ := lookup_fieldsOf_tag (m := m) noType noKind
  have carries : CarriesTags m (encodeFields e (m.fieldsOf given)) := by
    constructor
    · intro tag own
      exact ⟨e (.str tag), by simp [lookup_encodeFields, type tag own], faithful.text tag⟩
    · intro tag own
      exact ⟨e (.str tag), by simp [lookup_encodeFields, kind tag own], faithful.text tag⟩
  exact ⟨carries, faithful.object m _⟩

/-! ## Encoded geometries -/

theorem sequenceForm_encoded {α : Type} {form : Value → α → Prop} {toValue : α → Value}
    {xs : List α} (each : ∀ x ∈ xs, form (e (toValue x)) x) :
    SequenceForm form (e (.tuple (xs.map toValue))) xs := by
  refine ⟨_, faithful.tuple _, ?_⟩
  rw [List.map_map]
  exact forall₂_map_same each

theorem numberForm_encoded (n : Number) : NumberForm (e (.ofNumber n)) n := by
  rw [faithful.number]
  exact .ofNumber n

theorem positionForm_encoded (p : Position) : PositionForm (e p.toValue) p :=
  sequenceForm_encoded faithful fun n _ => numberForm_encoded faithful n

theorem positionsForm_encoded (ps : List Position) :
    SequenceForm PositionForm (e (positionsValue ps)) ps :=
  sequenceForm_encoded faithful fun p _ => positionForm_encoded faithful p

theorem ringsForm_encoded (rs : NonEmpty Ring) :
    MembersForm (MembersForm PositionForm) (e (ringsValue rs)) rs :=
  sequenceForm_encoded faithful fun r _ => positionsForm_encoded faithful r.toList

theorem geometryForm_coordinates {g : Geometry} {w : Value} (plain : g.shape ≠ .collection)
    (form : CoordinatesForm (e w) g) :
    GeometryForm (e (Model.object (.geometry g.shape) [("coordinates", w)])) g := by
  have named : "coordinates" ∈ (Model.geometry g.shape).fieldNames := by
    revert plain
    cases g.shape <;> simp [Model.fieldNames]
  exact .coordinates (tagged_encoded faithful rfl rfl) (lookup_encoded named rfl) form

theorem geometryForm_encoded (g : Geometry) : GeometryForm (e g.toValue) g := by
  induction g using Geometry.induction with
  | plain g plain =>
    cases g with
    | point p =>
      rw [Geometry.toValue]
      exact geometryForm_coordinates faithful plain (.point (positionForm_encoded faithful p))
    | multiPoint ps =>
      rw [Geometry.toValue]
      exact geometryForm_coordinates faithful plain
        (.multiPoint (positionsForm_encoded faithful ps.toList))
    | lineString l =>
      rw [Geometry.toValue]
      exact geometryForm_coordinates faithful plain
        (.lineString (positionsForm_encoded faithful l.toList))
    | multiLineString ls =>
      rw [Geometry.toValue]
      exact geometryForm_coordinates faithful plain (.multiLineString
        (sequenceForm_encoded faithful fun l _ => positionsForm_encoded faithful l.toList))
    | polygon rs =>
      rw [Geometry.toValue]
      exact geometryForm_coordinates faithful plain (.polygon (ringsForm_encoded faithful rs))
    | multiPolygon ps =>
      rw [Geometry.toValue]
      exact geometryForm_coordinates faithful plain (.multiPolygon
        (sequenceForm_encoded faithful fun rs _ => ringsForm_encoded faithful rs))
    | collection g gs => exact absurd rfl plain
  | collection g gs ih =>
    obtain ⟨ws, items, all⟩ := sequenceForm_encoded faithful ih
    rw [Geometry.toValue, Geometry.toValues_eq]
    exact .collection (tagged_encoded faithful rfl rfl)
      (lookup_encoded (by decide) rfl) items all

theorem predicateForm_encoded (p : SpatialPredicate) : PredicateForm (e p.toValue) p := by
  refine ⟨_, tagged_encoded faithful rfl rfl, ?_, ?_⟩
  · exact ⟨_, lookup_encoded (by decide) rfl, .text (faithful.operator p.op)⟩
  · exact ⟨_, lookup_encoded (by decide) rfl, geometryForm_encoded faithful p.geom⟩

/-! ## Encoded trees -/

theorem literalForm_encoded (l : Literal) : LiteralForm (e l.content) l := by
  cases l with
  | string s => exact .string (faithful.text s)
  | number n => exact .number (numberForm_encoded faithful n)
  | date m => exact .date (faithful.moment m)
  | glob s => exact .glob (faithful.text s)
  | spatial p => exact .spatial (predicateForm_encoded faithful p)

theorem boundAt_encoded {α : Type} {form : Value → α → Prop} {toValue : α → Value} {key : String}
    {m : Model} {given : List (String × Value)} {a? : Option α} (named : key ∈ m.fieldNames)
    (found : given.lookup key = some (boundValue toValue a?)) (each : ∀ a, form (e (toValue a)) a) :
    BoundAt form key (encodeFields e (m.fieldsOf given)) a? := by
  have there := lookup_encoded (e := e) named found
  cases a? with
  | none => exact .null (by rw [there]; exact congrArg some faithful.null)
  | some a => exact .given there (each a)

theorem flagAt_encoded {key : String} {m : Model} {given : List (String × Value)} {b : Bool}
    (named : key ∈ m.fieldNames) (found : given.lookup key = some (.bool b)) :
    FlagAt key (encodeFields e (m.fieldsOf given)) b := by
  have there := lookup_encoded (e := e) named found
  rw [faithful.bool] at there
  exact .own there

theorem boundsForm_encoded {α : Type} (form : Value → α → Prop) {toValue : α → Value}
    (each : ∀ a, form (e (toValue a)) a) (kind : OrderedKind) (b : Bounds α) :
    ∃ fs, Tagged (.range kind) (e (b.toValue kind toValue)) fs ∧ BoundsForm form fs b := by
  refine ⟨_, tagged_encoded faithful rfl rfl, ?_, ?_, ?_, ?_⟩
  · exact flagAt_encoded faithful (by simp [Model.fieldNames]) rfl
  · exact flagAt_encoded faithful (by simp [Model.fieldNames]) rfl
  · exact boundAt_encoded faithful (by simp [Model.fieldNames]) rfl each
  · exact boundAt_encoded faithful (by simp [Model.fieldNames]) rfl each

/-- An encoded tree is a form of the tree. -/
theorem nodeForm_encoded (n : Node) : NodeForm (e n.toValue) n := by
  induction n using Node.induction with
  | literal l =>
    exact .literal (tagged_encoded faithful rfl rfl)
      (lookup_encoded (by simp [Model.fieldNames]) rfl) (literalForm_encoded faithful l)
  | range r =>
    cases r with
    | string b =>
      obtain ⟨fs, tagged, form⟩ := boundsForm_encoded faithful
        (fun v s => v.text? = some s) faithful.text .string b
      exact .range tagged (.string form)
    | number b =>
      obtain ⟨fs, tagged, form⟩ :=
        boundsForm_encoded faithful NumberForm (numberForm_encoded faithful) .number b
      exact .range tagged (.number form)
    | date b =>
      obtain ⟨fs, tagged, form⟩ :=
        boundsForm_encoded faithful MomentForm faithful.moment .date b
      exact .range tagged (.date form)
  | term n ih =>
    exact .term (tagged_encoded faithful rfl rfl) (lookup_encoded (by decide) rfl) ih
  | namedTerm f n ih =>
    have name : TextAt "field" (encodeFields e
        (Model.fieldsOf .namedTerm [("field", .str f.text), ("value", n.toValue)])) f.text :=
      ⟨_, lookup_encoded (by decide) rfl, faithful.text _⟩
    exact .namedTerm (tagged_encoded faithful rfl rfl) name (lookup_encoded (by decide) rfl) ih
  | combine c ns ih =>
    obtain ⟨ws, items, all⟩ := sequenceForm_encoded faithful ih
    rw [Node.toValue, Node.toValues_eq]
    exact .operands (tagged_encoded faithful rfl rfl)
      (lookup_encoded (by simp [Model.fieldNames]) rfl) items all
  | modify m n ih =>
    exact .modify (tagged_encoded faithful rfl rfl)
      (lookup_encoded (by simp [Model.fieldNames]) rfl) ih
  | constant n b ih =>
    exact .constant (tagged_encoded faithful rfl rfl) (lookup_encoded (by decide) rfl) ih
      (lookup_encoded (by decide) rfl) (numberForm_encoded faithful b)

end Encoded

/-! ## Trees themselves -/

theorem faithful_id : Faithful id where
  object _ fs := .inr (by simp [encodeFields])
  tuple _ := by simp [Value.items?]
  null := rfl
  bool _ := rfl
  number _ := rfl
  text _ := rfl
  operator _ := rfl
  moment m := .dateTime (DateTime.utc?_ofUtc m)

theorem Node.nodeForm_toValue (n : Node) : NodeForm n.toValue n :=
  nodeForm_encoded faithful_id n

/-! ## Well-formed trees -/

/-- A geometry is well formed if it is read from some value. -/
def Geometry.Formed (g : Geometry) : Prop :=
  ∃ v, decode v = .done g

/-- The geometries that are read are those for which there is room. -/
theorem Geometry.formed_iff {g : Geometry} : g.Formed ↔ g.InRoom .full := by
  constructor
  · rintro ⟨v, done⟩
    exact (decode_eq_done_iff.1 done).2
  · intro fits
    exact ⟨g.toValue, decode_eq_done_iff.2 ⟨geometryForm_encoded faithful_id g, fits⟩⟩

theorem Geometry.Formed.decode_toValue {g : Geometry} (formed : g.Formed) :
    decode g.toValue = .done g :=
  decode_eq_done_iff.2 ⟨geometryForm_encoded faithful_id g, formed_iff.1 formed⟩

/-- A tree is read back from its object, if there is room for it. -/
theorem Node.decodeIn_toValue {n : Node} {room : Room} (fits : n.InRoom room) :
    decodeIn room n.toValue = .done n :=
  decodeIn_eq_done_iff.2 ⟨n.nodeForm_toValue, fits⟩

/-- A tree is well formed if it is read from some value. -/
def Node.Formed (n : Node) : Prop :=
  ∃ v, decode v = .done n

/-- The trees that are read are those for which there is room. -/
theorem Node.formed_iff {n : Node} : n.Formed ↔ n.InRoom .full := by
  constructor
  · rintro ⟨v, done⟩
    exact (decode_eq_done_iff.1 done).2
  · intro fits
    exact ⟨n.toValue, decodeIn_toValue fits⟩

theorem Node.Formed.decode_toValue {n : Node} (formed : n.Formed) : decode n.toValue = .done n :=
  decodeIn_toValue (formed_iff.1 formed)

end QueryTree
