import QueryTree.Node.Text
import QueryTree.Proofs.Faults

/-!
# Integers within the limit

A value without an integer beyond the limit on digits holds none in any of its parts: neither in the
values that its faults show nor in the tree that is read from it.

* `Value.writable_of_mem`, `Value.writable_of_walk` : values inside a value
* `Fault.PointsInto.writable`                  : faults
* `GeometryForm.writable`, `NodeForm.writable` : geometries and trees
-/

namespace QueryTree

variable {α : Type}

/-! ## Values -/

namespace Value

theorem writableList_eq (vs : List Value) : writableList vs = vs.all writable := by
  induction vs with
  | nil => rfl
  | cons v vs ih => simp [writableList, ih]

theorem writableFields_eq (fs : List (String × Value)) :
    writableFields fs = (fs.map (·.2)).all writable := by
  induction fs with
  | nil => rfl
  | cons f fs ih => simp [writableFields, ih]

/-- What a container holds can be written, if the container can. -/
theorem writable_of_mem {v w : Value} {vs : List Value} (writable : v.writable = true)
    (held : v.children? = some vs) (member : w ∈ vs) : w.writable = true := by
  cases v with
  | list items | tuple items =>
    cases held
    rw [Value.writable, writableList_eq] at writable
    exact List.all_eq_true.1 writable w member
  | record m fs =>
    cases held
    rw [Value.writable, writableFields_eq] at writable
    exact List.all_eq_true.1 writable w member
  | _ => cases held

theorem writable_of_lookup {m : Option Model} {fs : List (String × Value)} {key : String}
    {v : Value} (writable : (record m fs).writable = true) (found : fs.lookup key = some v) :
    v.writable = true :=
  writable_of_mem writable rfl (List.mem_map_of_mem (mem_of_lookup found))

theorem writable_of_walk {v w : Value} {path : Path} (reached : v.walk path = some w)
    (writable : v.writable = true) : w.writable = true := by
  refine walk_induction (fun _ _ held whole _ => writable_of_mem whole held) ?_ reached writable
  intro l r left right
  simp [Value.writable, writableList, left, right]

end Value

theorem Tagged.writable_of_lookup {model : Model} {v w : Value} {fs : List (String × Value)}
    {key : String} (tagged : Tagged model v fs) (found : fs.lookup key = some w)
    (writable : v.writable = true) : w.writable = true := by
  obtain ⟨m, rfl⟩ := tagged.exists_record
  exact Value.writable_of_lookup writable found

theorem Fault.PointsInto.writable {v : Value} {f : Fault} (points : f.PointsInto v)
    (writable : v.writable = true) : f.input.writable = true := by
  cases points with
  | place _ _ reached => exact Value.writable_of_walk reached writable
  | missing _ _ reached => exact Value.writable_of_walk reached writable

/-! ## Geometries -/

theorem NumberForm.writable {v : Value} {n : Number} (form : NumberForm v n)
    (writable : v.writable = true) : n.writable = true := by
  cases form with
  | int n => exact writable
  | float x => rfl

/-- What holds of the forms of items that can be written holds of all items. -/
theorem SequenceForm.all {form : Value → α → Prop} {p : α → Bool}
    (each : ∀ v a, form v a → v.writable = true → p a = true) {v : Value} {xs : List α}
    (forms : SequenceForm form v xs) (writable : v.writable = true) : xs.all p = true := by
  obtain ⟨vs, items, all⟩ := forms
  rw [List.all_eq_true]
  intro x member
  obtain ⟨w, there, form⟩ := forall₂_exists_left all x member
  have held := Geometry.children_of_items items
  exact each w x form (Value.writable_of_mem writable held there)

theorem Position.writable_of_form (v : Value) (p : Position) (form : PositionForm v p) :
    v.writable = true → p.writable = true := by
  have numbers : SequenceForm NumberForm v p.toList := form
  exact numbers.all fun w n number => number.writable

theorem positions_writable (v : Value) (ps : NonEmpty Position)
    (form : MembersForm PositionForm v ps) : v.writable = true → ps.toList.all Position.writable = true :=
  form.all Position.writable_of_form

theorem Line.writable_of_form (v : Value) (l : Line) (form : LineForm v l) :
    v.writable = true → l.toList.all Position.writable = true :=
  form.all Position.writable_of_form

theorem CoordinatesForm.writable {v : Value} {g : Geometry} (form : CoordinatesForm v g)
    (writable : v.writable = true) : g.writable = true := by
  cases form with
  | point form => exact Position.writable_of_form _ _ form writable
  | multiPoint form => exact positions_writable _ _ form writable
  | lineString form => exact Line.writable_of_form _ _ form writable
  | multiLineString form => exact form.all Line.writable_of_form writable
  | polygon form => exact form.all positions_writable writable
  | multiPolygon form =>
    exact form.all (fun _ _ rings => rings.all positions_writable) writable

theorem Geometry.writableList_eq (gs : List Geometry) : writableList gs = gs.all writable := by
  induction gs with
  | nil => rfl
  | cons g gs ih => simp [writableList, ih]

theorem GeometryForm.writable {v : Value} {g : Geometry} (form : GeometryForm v g)
    (writable : v.writable = true) : g.writable = true := by
  induction g using Geometry.induction generalizing v with
  | plain g plain =>
    cases form with
    | coordinates tagged found form =>
      exact form.writable (tagged.writable_of_lookup found writable)
    | collection => exact absurd rfl plain
  | collection g gs ih =>
    cases form with
    | coordinates _ _ form => exact absurd rfl (Geometry.shape_ne_of_coordinates form)
    | collection tagged found items all =>
      have members : SequenceForm (fun w h => h ∈ g :: gs ∧ GeometryForm w h) _ (g :: gs) :=
        ⟨_, items, forall₂_imp_mem (fun h member w form => ⟨member, form⟩) all⟩
      have written : (g :: gs).all Geometry.writable = true :=
        members.all (fun w h there => ih h there.1 there.2)
          (tagged.writable_of_lookup found writable)
      simpa [Geometry.writable, Geometry.writableList_eq] using written

/-! ## Trees -/

theorem LiteralForm.writable {v : Value} {l : Literal} (form : LiteralForm v l)
    (writable : v.writable = true) : l.writable = true := by
  cases form with
  | string _ | date _ | glob _ => rfl
  | number form => exact form.writable writable
  | spatial form =>
    obtain ⟨fs, tagged, -, w, found, form⟩ := form
    exact form.writable (tagged.writable_of_lookup found writable)

theorem RangeForm.writable {model : Model} {v : Value} {fs : List (String × Value)} {r : Range}
    (form : RangeForm fs r) (tagged : Tagged model v fs) (writable : v.writable = true) :
    r.writable = true := by
  have bound {key : String} {a? : Option Number} (there : BoundAt NumberForm key fs a?) :
      a?.all Number.writable = true := by
    cases there with
    | missing _ | null _ => rfl
    | given found form => exact form.writable (tagged.writable_of_lookup found writable)
  cases form with
  | string _ | date _ => rfl
  | number form => simp [Range.writable, bound form.lower, bound form.upper]

theorem Node.writableList_eq (ns : List Node) : writableList ns = ns.all writable := by
  induction ns with
  | nil => rfl
  | cons n ns ih => simp [writableList, ih]

/-- A tree that is read from a value without long integers can be written. -/
theorem NodeForm.writable {v : Value} {n : Node} (form : NodeForm v n)
    (writable : v.writable = true) : n.writable = true := by
  induction n using Node.induction generalizing v with
  | literal l =>
    cases form with
    | literal tagged found form =>
      exact form.writable (tagged.writable_of_lookup found writable)
  | range r =>
    cases form with
    | range tagged form => exact form.writable tagged writable
  | term n ih =>
    cases form with
    | term tagged found form =>
      exact ih form (tagged.writable_of_lookup found writable)
  | namedTerm f n ih =>
    cases form with
    | namedTerm tagged _ found form =>
      exact ih form (tagged.writable_of_lookup found writable)
  | combine c ns ih =>
    rw [Node.writable, Node.writableList_eq]
    cases form with
    | operands tagged found items all =>
      have members : SequenceForm (fun w n => n ∈ ns ∧ NodeForm w n) _ ns :=
        ⟨_, items, forall₂_imp_mem (fun n member w form => ⟨member, form⟩) all⟩
      exact members.all (fun w n there => ih n there.1 there.2)
        (tagged.writable_of_lookup found writable)
    | sides tagged _ lhs rhs left right =>
      have first := ih _ (by simp) left (tagged.writable_of_lookup lhs writable)
      have second := ih _ (by simp) right (tagged.writable_of_lookup rhs writable)
      simp [first, second]
  | modify modifier n ih =>
    cases form with
    | modify tagged found form =>
      exact ih form (tagged.writable_of_lookup found writable)
  | constant n boost ih =>
    cases form with
    | constant tagged lhs form rhs number =>
      have inner := ih form (tagged.writable_of_lookup lhs writable)
      have factor := number.writable (tagged.writable_of_lookup rhs writable)
      simp [Node.writable, inner, factor]

end QueryTree
