import QueryTree.Proofs.Encoding

/-!
# Objects of trees

A property of values that scalars have, and that passes from parts to tuples and objects, holds of
the object of every tree.

* `mem_fieldsOf_iff`        : the fields of an object
* `Hereditary`              : properties that pass from the parts to the whole
* `Hereditary.geometry`, `Hereditary.node` : they hold of geometries and trees
-/

namespace QueryTree

variable {α : Type} {P : Value → Prop}

/-! ## Fields of objects -/

theorem mem_fieldsOf_iff {m : Model} {given : List (String × Value)} {key : String} {v : Value} :
    (key, v) ∈ m.fieldsOf given ↔ key ∈ m.fieldNames ∧ (m.fieldsOf given).lookup key = some v := by
  constructor
  · intro member
    obtain ⟨name, named, made⟩ := List.mem_filterMap.1 member
    obtain ⟨w, found, same⟩ := Option.map_eq_some_iff.1 made
    cases same
    exact ⟨named, (lookup_fieldsOf named).trans found⟩
  · rintro ⟨-, found⟩
    exact mem_of_lookup found

/-- A field of an object was given, or is the default. -/
theorem mem_fieldsOf {m : Model} {given : List (String × Value)} {key : String} {v : Value}
    (member : (key, v) ∈ m.fieldsOf given) :
    (∃ name, (name, v) ∈ given) ∨ Value.defaultField? m key = some v := by
  obtain ⟨named, found⟩ := mem_fieldsOf_iff.1 member
  rw [lookup_fieldsOf named] at found
  rcases Option.or_eq_some_iff.1 found with found | ⟨-, default⟩
  · rcases Option.or_eq_some_iff.1 found with own | ⟨-, other⟩
    · exact .inl ⟨key, mem_of_lookup own⟩
    · obtain ⟨name, -, there⟩ := Option.bind_eq_some_iff.1 other
      exact .inl ⟨name, mem_of_lookup there⟩
  · exact .inr default

/-! ## Hereditary properties -/

/-- Scalars have the property, and tuples and objects have it if what they hold has it. -/
structure Hereditary (P : Value → Prop) : Prop where
  -- the undefined number stands in no tree
  scalar : ∀ {v : Value}, v.children? = none → v ≠ .float .nan → P v
  tuple : ∀ {vs : List Value}, (∀ v ∈ vs, P v) → P (.tuple vs)
  -- objects have all fields of their class, and each of them once
  object : ∀ {m : Model} {fs : List (String × Value)},
    (∀ name ∈ m.fieldNames, (fs.lookup name).isSome = true) →
    (∀ key v, (key, v) ∈ fs → fs.lookup key = some v ∧ P v) → P (.object m fs)

namespace Hereditary

variable (passes : Hereditary P)

include passes

theorem defaultField {m : Model} {name : String} {v : Value}
    (found : Value.defaultField? m name = some v) : P v := by
  have empty : P (.tuple []) := passes.tuple fun _ member => nomatch member
  unfold Value.defaultField? at found
  split at found
  · obtain ⟨tag, -, rfl⟩ := Option.map_eq_some_iff.1 found
    exact passes.scalar rfl (by rintro ⟨⟩)
  · obtain ⟨tag, -, rfl⟩ := Option.map_eq_some_iff.1 found
    exact passes.scalar rfl (by rintro ⟨⟩)
  · cases found
    exact passes.scalar rfl (by rintro ⟨⟩)
  · cases found
    exact passes.scalar rfl (by rintro ⟨⟩)
  · split at found
    · cases found
      exact empty
    · cases found

/-- An object has the property if each of its fields is given or has a default, and what is given
    has the property. -/
theorem made {m : Model} {given : List (String × Value)}
    (all : ∀ name ∈ m.fieldNames,
      (given.lookup name).isSome = true ∨ (Value.defaultField? m name).isSome = true)
    (each : ∀ f ∈ given, P f.2) : P (m.object given) := by
  rw [Model.object_eq]
  refine passes.object (fun name named => ?_) fun key v member => ?_
  · rw [lookup_fieldsOf named, Option.isSome_or, Option.isSome_or]
    rcases all name named with own | default
    · simp [own]
    · simp [default]
  · refine ⟨(mem_fieldsOf_iff.1 member).2, ?_⟩
    rcases mem_fieldsOf member with ⟨name, there⟩ | default
    · exact each (name, v) there
    · exact passes.defaultField default

theorem tuple_map {toValue : α → Value} {xs : List α} (each : ∀ x ∈ xs, P (toValue x)) :
    P (.tuple (xs.map toValue)) :=
  passes.tuple (List.forall_mem_map.2 each)

theorem number (n : Number) : P (.ofNumber n) := by
  cases n with
  | int n => exact passes.scalar rfl (by rintro ⟨⟩)
  | float x => exact passes.scalar rfl (by rintro ⟨⟩)

theorem position (p : Position) : P p.toValue :=
  passes.tuple_map fun n _ => passes.number n

theorem positions (ps : List Position) : P (positionsValue ps) :=
  passes.tuple_map fun p _ => passes.position p

theorem rings (rs : NonEmpty Ring) : P (ringsValue rs) :=
  passes.tuple_map fun r _ => passes.positions r.toList

theorem geometry (g : Geometry) : P g.toValue := by
  induction g using Geometry.induction with
  | plain g plain =>
    have place {s : Shape} {w : Value} (known : s ≠ .collection) (has : P w) :
        P (Model.object (.geometry s) [("coordinates", w)]) := by
      refine passes.made ?_ (by simpa using has)
      cases s with
      | collection => exact absurd rfl known
      | _ => simp [Model.fieldNames, Value.defaultField?, Model.tag?]
    cases g with
    | point p => exact place (by decide) (passes.position p)
    | multiPoint ps => exact place (by decide) (passes.positions ps.toList)
    | lineString l => exact place (by decide) (passes.positions l.toList)
    | multiLineString ls =>
      exact place (by decide) (passes.tuple_map fun l _ => passes.positions l.toList)
    | polygon rs => exact place (by decide) (passes.rings rs)
    | multiPolygon ps => exact place (by decide) (passes.tuple_map fun rs _ => passes.rings rs)
    | collection g gs => exact absurd rfl plain
  | collection g gs ih =>
    rw [Geometry.toValue, Geometry.toValues_eq]
    refine passes.made (by simp [Model.fieldNames, Value.defaultField?, Model.tag?]) ?_
    simpa using passes.tuple_map ih

theorem content (l : Literal) : P l.content := by
  cases l with
  | number n => exact passes.number n
  | spatial p =>
    have op : P (.operator p.op) := passes.scalar rfl (by rintro ⟨⟩)
    refine passes.made (by simp [Model.fieldNames]) ?_
    simpa using ⟨op, passes.geometry p.geom⟩
  | _ => exact passes.scalar rfl (by rintro ⟨⟩)

theorem bounds {toValue : α → Value} (each : ∀ a, P (toValue a)) (kind : OrderedKind)
    (b : Bounds α) : P (b.toValue kind toValue) := by
  have bound (a? : Option α) : P (boundValue toValue a?) := by
    cases a? with
    | none => exact passes.scalar rfl (by rintro ⟨⟩)
    | some a => exact each a
  have flag (closed : Bool) : P (.bool closed) := passes.scalar rfl (by rintro ⟨⟩)
  refine passes.made ?_ ?_
  · simp [Model.fieldNames, Value.defaultField?, Model.tag?, Model.kindTag?]
  · simpa using ⟨flag _, flag _, bound _, bound _⟩

theorem range (r : Range) : P r.toValue := by
  cases r with
  | string b =>
    have text (s : String) : P (.str s) := passes.scalar rfl (by rintro ⟨⟩)
    exact passes.bounds text .string b
  | number b => exact passes.bounds passes.number .number b
  | date b =>
    have moment (m : Moment) : P (.ofMoment m) := passes.scalar rfl (by rintro ⟨⟩)
    exact passes.bounds moment .date b

/-- The object of a tree has every property that passes from the parts to the whole. -/
theorem node (n : Node) : P n.toValue := by
  induction n using Node.induction with
  | literal l =>
    refine passes.made ?_ (by simpa using passes.content l)
    simp [Model.fieldNames, Value.defaultField?, Model.tag?, Model.kindTag?]
  | range r => exact passes.range r
  | term n ih =>
    refine passes.made ?_ (by simpa using ih)
    simp [Model.fieldNames, Value.defaultField?, Model.tag?]
  | namedTerm f n ih =>
    have name : P (.str f.text) := passes.scalar rfl (by rintro ⟨⟩)
    refine passes.made ?_ (by simpa using ⟨name, ih⟩)
    simp [Model.fieldNames, Value.defaultField?, Model.tag?]
  | combine c ns ih =>
    rw [Node.toValue, Node.toValues_eq]
    refine passes.made ?_ (by simpa using passes.tuple_map ih)
    simp [Model.fieldNames, Value.defaultField?, Model.tag?]
  | modify m n ih =>
    refine passes.made ?_ (by simpa using ih)
    simp [Model.fieldNames, Value.defaultField?, Model.tag?]
  | constant n boost ih =>
    refine passes.made ?_ (by simpa using ⟨ih, passes.number boost⟩)
    simp [Model.fieldNames, Value.defaultField?, Model.tag?]

end Hereditary

end QueryTree
