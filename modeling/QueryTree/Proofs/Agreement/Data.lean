import QueryTree.Proofs.Agreement.Combinators
import QueryTree.Proofs.Writable

/-!
# Data that is read alike

Where a scalar is wanted, the readers look at no record and no item of a list; where coordinates
are wanted, they look at the items of lists but at no record.  Values that are equal but for what
stands in such records are read alike.

* `lookup_eq_of_perm`, `lookup_related` : fields in another order, fields of the same names
* `Value.SameData`          : values that the readers of scalars and coordinates cannot tell apart
* `decodeString_agrees`, …, `Geometry.ofCoordinates?_agrees` : these readers
* `Attribute.Agrees`, `SameChoice` : tags, and the classes that they choose
* `shapeOf_agrees`, `Node.classOf_agrees` : values with such tags are taken for the same class
-/

namespace QueryTree

variable {α β ε : Type}

/-! ## Parts that may be absent -/

theorem optionRel_imp {R S : α → β → Prop} {a? : Option α} {b? : Option β}
    (step : ∀ a b, R a b → S a b) (related : Option.Rel R a? b?) : Option.Rel S a? b? := by
  cases related with
  | some related => exact .some (step _ _ related)
  | none => exact .none

theorem optionRel_refl {R : α → α → Prop} (refl : ∀ a, R a a) (a? : Option α) :
    Option.Rel R a? a? := by
  cases a? with
  | some a => exact .some (refl a)
  | none => exact .none

theorem optionRel_isNone {R : α → β → Prop} {a? : Option α} {b? : Option β}
    (related : Option.Rel R a? b?) : a?.isNone = b?.isNone := by
  cases related <;> rfl

theorem optionRel_of_isNone {R : α → β → Prop} {a? : Option α} {b? : Option β}
    (both : a?.isNone = b?.isNone) (each : ∀ a b, a? = some a → b? = some b → R a b) :
    Option.Rel R a? b? := by
  cases a? with
  | none =>
    cases b? with
    | none => exact .none
    | some b => cases both
  | some a =>
    cases b? with
    | none => cases both
    | some b => exact .some (each a b rfl rfl)

/-! ## Fields -/

theorem lookup_eq_of_perm {fs gs : List (String × Value)} (perm : fs.Perm gs)
    (distinct : (fs.map Prod.fst).Nodup) (key : String) : fs.lookup key = gs.lookup key := by
  induction perm with
  | nil => rfl
  | cons f _ ih => rw [List.lookup_cons, List.lookup_cons, ih (List.nodup_cons.1 distinct).2]
  | swap f g rest =>
    obtain ⟨k, v⟩ := f
    obtain ⟨l, w⟩ := g
    have other : l ≠ k := by
      rintro rfl
      exact (List.nodup_cons.1 distinct).1 (.head _)
    simp only [List.lookup_cons]
    cases first : key == l with
    | false => rfl
    | true =>
      have second : (key == k) = false := by
        rw [beq_iff_eq.1 first]
        exact beq_false_of_ne other
      rw [second]
  | trans perm _ ih ih' => rw [ih distinct, ih' ((perm.map _).nodup_iff.1 distinct)]

/-- Fields of the same names, in the same order, with related values. -/
theorem lookup_related {R : Value → Value → Prop} {fs gs : List (String × Value)}
    (names : fs.map Prod.fst = gs.map Prod.fst)
    (values : List.Forall₂ R (fs.map Prod.snd) (gs.map Prod.snd)) (key : String) :
    Option.Rel R (fs.lookup key) (gs.lookup key) := by
  induction fs generalizing gs with
  | nil =>
    cases gs with
    | nil => exact .none
    | cons g gs => cases names
  | cons f fs ih =>
    cases gs with
    | nil => cases names
    | cons g gs =>
      obtain ⟨k, v⟩ := f
      obtain ⟨l, w⟩ := g
      obtain rfl : k = l := (List.cons.inj names).1
      obtain ⟨related, values⟩ := List.forall₂_cons.1 values
      simp only [List.lookup_cons]
      split
      · exact .some related
      · exact ih (List.cons.inj names).2 values

/-! ## Data -/

namespace Value

inductive SameData : Value → Value → Prop where
  | same (v : Value) : SameData v v
  | list {vs ws : List Value} : List.Forall₂ SameData vs ws → SameData (.list vs) (.list ws)
  | tuple {vs ws : List Value} : List.Forall₂ SameData vs ws → SameData (.tuple vs) (.tuple ws)
  -- nothing of a record is read as data, but it may be shown
  | record {m m' : Option Model} {fs gs : List (String × Value)} :
      (record m fs).writable = (record m' gs).writable → SameData (.record m fs) (.record m' gs)

theorem all_writable_eq {vs ws : List Value}
    (each : List.Forall₂ (fun v w => v.writable = w.writable) vs ws) :
    writableList vs = writableList ws := by
  induction each with
  | nil => rfl
  | cons same _ ih => rw [writableList, writableList, same, ih]

namespace SameData

variable {v w : Value}

theorem writable_eq (same : v.SameData w) : v.writable = w.writable := by
  induction w using Value.induction generalizing v with
  | step w ih =>
    cases same with
    | same => rfl
    | list all =>
      have each := forall₂_imp_mem (fun w member v same => ih _ rfl w member same) all
      rw [writable, writable, all_writable_eq each]
    | tuple all =>
      have each := forall₂_imp_mem (fun w member v same => ih _ rfl w member same) all
      rw [writable, writable, all_writable_eq each]
    | record shown => exact shown

theorem text?_eq (same : v.SameData w) : v.text? = w.text? := by
  cases same <;> rfl

theorem items (same : v.SameData w) : Option.Rel (List.Forall₂ SameData) v.items? w.items? := by
  cases same with
  | same => exact optionRel_refl (fun vs => List.forall₂_same.2 fun v _ => .same v) _
  | list all | tuple all => exact .some all
  | record => exact .none

end SameData

end Value

/-! ## Scalars -/

section Scalars

variable {v w : Value} (same : v.SameData w)

include same

theorem decodeString_agrees : (decodeString v).Agrees (decodeString w) := by
  have shown := same.writable_eq
  cases same with
  | same => exact .refl _
  | list | tuple | record => exact .fault rfl shown

theorem FieldName.decode_agrees : (FieldName.decode v).Agrees (FieldName.decode w) := by
  have shown := same.writable_eq
  cases same with
  | same => exact .refl _
  | list | tuple | record => exact .fault rfl shown

theorem decodeBool_agrees : (decodeBool v).Agrees (decodeBool w) := by
  have shown := same.writable_eq
  cases same with
  | same => exact .refl _
  | list | tuple | record => exact .fault rfl shown

theorem Number.decode_agrees : (Number.decode v).Agrees (Number.decode w) := by
  have shown := same.writable_eq
  cases same with
  | same => exact .refl _
  | list | tuple | record => exact .faulty ⟨rfl, rfl, shown⟩ (.cons ⟨rfl, rfl, shown⟩ .nil)

theorem Moment.decode_agrees : (Moment.decode v).Agrees (Moment.decode w) := by
  have shown := same.writable_eq
  cases same with
  | same => exact .refl _
  | list | tuple | record => exact .fault rfl shown

theorem SpatialOperator.decode_agrees :
    (SpatialOperator.decode v).Agrees (SpatialOperator.decode w) := by
  have shown := same.writable_eq
  cases same with
  | same => exact .refl _
  | list | tuple | record => exact .fault rfl shown

theorem decodeOptional_agrees {read : Value → Decoded α}
    (reads : ∀ v w, v.SameData w → (read v).Agrees (read w)) :
    (decodeOptional read v).Agrees (decodeOptional read w) := by
  have agrees := reads v w same
  cases same with
  | same => exact .refl _
  | list | tuple | record => exact agrees.map some

end Scalars

/-! ## Coordinates -/

section Coordinates

variable {v w : Value}

theorem decodeData_agrees {read : Value → Decoded α} (least : Nat)
    (reads : ∀ v w, v.SameData w → (read v).Agrees (read w)) (same : v.SameData w) :
    (decodeSequence least read v).Agrees (decodeSequence least read w) :=
  decodeSequence_agrees least (optionRel_imp (fun _ _ all => all.imp reads) same.items)
    same.writable_eq

theorem Position.decode_agrees (same : v.SameData w) :
    (Position.decode v).Agrees (Position.decode w) := by
  have shown := same.writable_eq
  have items := same.items
  unfold Position.decode
  generalize v.items? = vs, w.items? = ws at items
  cases items with
  | none => exact .fault rfl shown
  | some all =>
    have gathered := gather_agrees (all.imp fun _ _ => Number.decode_agrees) 0
    dsimp only
    rw [gathered.items]
    split
    · exact .fault rfl shown
    · refine (gathered.atLeast shown 2).bind fun cs => ?_
      split
      · exact .done _
      · exact .fault rfl shown

theorem Line.decode_agrees (same : v.SameData w) : (Line.decode v).Agrees (Line.decode w) := by
  have positions := decodeData_agrees 2 (fun _ _ => Position.decode_agrees) same
  refine positions.bind fun ps => ?_
  split
  · exact .done _
  · exact .fault rfl same.writable_eq

theorem NonEmpty.decode_agrees {read : Value → Decoded α}
    (reads : ∀ v w, v.SameData w → (read v).Agrees (read w)) (same : v.SameData w) :
    (NonEmpty.decode read v).Agrees (NonEmpty.decode read w) := by
  refine (decodeData_agrees 1 reads same).bind fun xs => ?_
  split
  · exact .done _
  · exact .fault rfl same.writable_eq

theorem Geometry.ofCoordinates?_agrees {s : Shape} {read : Value → Decoded Geometry}
    (reads : ofCoordinates? s = some read) (same : v.SameData w) : (read v).Agrees (read w) := by
  have positions (v w : Value) := NonEmpty.decode_agrees (v := v) (w := w) fun _ _ =>
    Position.decode_agrees
  have lines (v w : Value) := NonEmpty.decode_agrees (v := v) (w := w) fun _ _ => Line.decode_agrees
  have polygons (v w : Value) := NonEmpty.decode_agrees (v := v) (w := w) positions
  cases s with
  | collection => cases reads
  | point =>
    cases reads
    exact (Position.decode_agrees same).map _
  | multiPoint =>
    cases reads
    exact (positions v w same).map _
  | lineString =>
    cases reads
    exact (Line.decode_agrees same).map _
  | multiLineString =>
    cases reads
    exact (lines v w same).map _
  | polygon =>
    cases reads
    exact (polygons v w same).map _
  | multiPolygon =>
    cases reads
    exact (NonEmpty.decode_agrees polygons same).map _

end Coordinates

/-! ## Tags -/

/-- Two values both lack a part of a name, or their parts are read alike as data. -/
inductive Attribute.Agrees : Attribute → Attribute → Prop where
  | noRecord : Agrees .noRecord .noRecord
  | absent : Agrees .absent .absent
  | found {v w : Value} : v.SameData w → Agrees (.found v) (.found w)

theorem Attribute.Agrees.refl (a : Attribute) : a.Agrees a := by
  cases a with
  | noRecord => exact .noRecord
  | absent => exact .absent
  | found v => exact .found (.same v)

theorem Attribute.Agrees.ofOption {v? w? : Option Value}
    (same : Option.Rel Value.SameData v? w?) :
    (Attribute.ofOption v?).Agrees (Attribute.ofOption w?) := by
  cases same with
  | none => exact .absent
  | some same => exact .found same

/-- The same class is chosen, or none for related reasons. -/
inductive SameChoice (reason : ε → ε → Prop) : Except ε α → Except ε α → Prop where
  | ok (a : α) : SameChoice reason (.ok a) (.ok a)
  | error {e e' : ε} : reason e e' → SameChoice reason (.error e) (.error e')

def SameCode (c c' : Cause) : Prop :=
  c.code = c'.code

/-- The same tags lead to both causes, and these have the same code. -/
inductive SamePlace : Path × Cause → Path × Cause → Prop where
  | after (path : Path) {c c' : Cause} : SameCode c c' → SamePlace (path, c) (path, c')

/-- A class by its second tag, with the step of the first one before that of the second. -/
def nestedClass (tag : String) :
    Except Cause (String × Model) → Except (Path × Cause) (Path × Model)
  | .ok (kind, model) => .ok ([.tag tag, .tag kind], model)
  | .error cause => .error ([.tag tag], cause)

section Tags

variable {v w : Value}

theorem shapeOf_agrees (type : (v.attribute "type").Agrees (w.attribute "type")) :
    SameChoice SameCode (shapeOf v) (shapeOf w) := by
  unfold shapeOf
  generalize v.attribute "type" = a, w.attribute "type" = b at type
  cases type with
  | noRecord | absent => exact .error rfl
  | found same =>
    dsimp only
    rw [same.text?_eq]
    split
    · exact .ok _
    · exact .error rfl

theorem kindOf_agrees (classes : List Model)
    (kind : (v.attribute "kind").Agrees (w.attribute "kind")) :
    SameChoice SameCode (kindOf v classes) (kindOf w classes) := by
  unfold kindOf
  generalize v.attribute "kind" = a, w.attribute "kind" = b at kind
  cases kind with
  | noRecord | absent => exact .error rfl
  | found same =>
    dsimp only
    rw [same.text?_eq]
    split
    · exact .ok _
    · exact .error rfl

/-- The second tag is looked at only if the first one is that of leaves or ranges. -/
theorem Node.classOf_agrees (type : (v.attribute "type").Agrees (w.attribute "type"))
    (kind : ∀ tag, v.attribute "type" = .found tag →
      tag.text? = some "literal" ∨ tag.text? = some "range" →
        (v.attribute "kind").Agrees (w.attribute "kind")) :
    SameChoice SamePlace (classOf v) (classOf w) := by
  have nested (tag : String) {c d : Except Cause (String × Model)}
      (same : SameChoice SameCode c d) :
      SameChoice SamePlace (nestedClass tag c) (nestedClass tag d) := by
    cases same with
    | ok chosen => exact .ok _
    | error code => exact .error (.after _ code)
  unfold classOf
  generalize v.attribute "type" = a, w.attribute "type" = b at type kind
  cases type with
  | noRecord | absent => exact .error (.after _ rfl)
  | found same =>
    dsimp only
    rw [← same.text?_eq]
    split
    · next named => exact nested _ (kindOf_agrees _ (kind _ rfl (.inl named)))
    · next named => exact nested _ (kindOf_agrees _ (kind _ rfl (.inr named)))
    · split
      · exact .ok _
      · exact .error (.after _ rfl)

end Tags

end QueryTree
