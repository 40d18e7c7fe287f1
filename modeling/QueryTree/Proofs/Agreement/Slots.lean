import QueryTree.Proofs.Agreement.Data

/-!
# Parts that are read alike

A class looks at the fields that it names and at nothing else, and reads each of them in one way.
Records whose fields are read alike are read alike.

* `Slot`, `Slot.Agrees`         : the ways to read a part, and parts that are read alike
* `Model.reads`, `Model.Agrees` : the fields that a class looks at
* `Literal.ofFields_agrees`, …, `Node.ofFields_agrees` : the fields of each class
* `Node.decodeIn_record_agrees`, `Geometry.decodeIn_record_agrees`, … : records
* `Node.decodeIn_other_agrees`, …, `Geometry.decodeMembers_agrees` : sequences and scalars
-/

namespace QueryTree

variable {α : Type}

/-! ## Slots -/

/-- What a part of a value is read as. -/
inductive Slot where
  -- a scalar, a tag, or coordinates
  | data
  | node
  -- the operands of a combination
  | nodes
  | predicate
  | geometry
  -- the members of a collection
  | geometries
  deriving DecidableEq, Repr

def Slot.Agrees (room : Room) : Slot → Value → Value → Prop
  | .data, v, w => v.SameData w
  | .node, v, w => (Node.decodeIn room v).Agrees (Node.decodeIn room w)
  | .nodes, v, w => (Node.decodeItems room v).Agrees (Node.decodeItems room w)
  | .predicate, v, w => (SpatialPredicate.decode room v).Agrees (SpatialPredicate.decode room w)
  | .geometry, v, w => (Geometry.decodeIn room v).Agrees (Geometry.decodeIn room w)
  | .geometries, v, w => (Geometry.decodeMembers room v).Agrees (Geometry.decodeMembers room w)

theorem Slot.Agrees.refl (room : Room) (s : Slot) (v : Value) : s.Agrees room v v := by
  cases s with
  | data => exact .same v
  | node | nodes | predicate | geometry | geometries => exact Decoded.Agrees.refl _

/-! ## Fields -/

namespace Model

/-- The fields that a class looks at, with what they are read as.  Flags of ranges have two names,
    and operands may be given as two sides. -/
def reads : Model → List (String × Slot)
  | .literal .spatial => [("type", .data), ("kind", .data), ("value", .predicate)]
  | .literal _ => [("type", .data), ("kind", .data), ("value", .data)]
  | .range _ =>
    [("type", .data), ("kind", .data), ("closed_lower", .data), ("closedLower", .data),
      ("closed_upper", .data), ("closedUpper", .data), ("lower", .data), ("upper", .data)]
  | .term => [("type", .data), ("value", .node)]
  | .namedTerm => [("type", .data), ("field", .data), ("value", .node)]
  | .combine _ => [("type", .data), ("operands", .nodes), ("lhs", .node), ("rhs", .node)]
  | .modify _ => [("type", .data), ("rhs", .node)]
  | .constant => [("type", .data), ("lhs", .node), ("rhs", .data)]
  | .predicate => [("op", .data), ("geom", .geometry)]
  | .geometry .collection => [("type", .data), ("geometries", .geometries)]
  | .geometry _ => [("type", .data), ("coordinates", .data)]
  | .filter _ => []

/-- Every field that the class looks at is read alike in a room, or is in neither. -/
def Agrees (room : Room) (model : Model) (fs gs : List (String × Value)) : Prop :=
  ∀ key slot, (key, slot) ∈ model.reads →
    Option.Rel (slot.Agrees room) (fs.lookup key) (gs.lookup key)

end Model

section Fields

variable {room : Room} {v w : Value} {fs gs : List (String × Value)}

theorem Literal.ofFields_agrees {kind : Kind} (agree : (Model.literal kind).Agrees room fs gs)
    (shown : v.writable = w.writable) :
    (ofFields room kind v fs).Agrees (ofFields room kind w gs) := by
  cases kind with
  | string | glob =>
    have value := agree "value" .data (by simp [Model.reads])
    have text := optionRel_imp (fun _ _ same => decodeString_agrees same) value
    exact (decodeRequired_agrees text shown).map _
  | number =>
    have value := agree "value" .data (by simp [Model.reads])
    have number := optionRel_imp (fun _ _ same => Number.decode_agrees same) value
    exact (decodeRequired_agrees number shown).map _
  | date =>
    have value := agree "value" .data (by simp [Model.reads])
    have date := optionRel_imp (fun _ _ same => Moment.decode_agrees same) value
    exact (decodeRequired_agrees date shown).map _
  | spatial =>
    have value := agree "value" .predicate (by simp [Model.reads])
    exact (decodeRequired_agrees value shown).map _

theorem decodeFlag_agrees {key : String}
    (own : Option.Rel Value.SameData (fs.lookup key) (gs.lookup key))
    (other : ∀ name, Model.otherName? key = some name →
      Option.Rel Value.SameData (fs.lookup name) (gs.lookup name))
    (shown : v.writable = w.writable) :
    (decodeFlag key v fs).Agrees (decodeFlag key w gs) := by
  unfold decodeFlag
  generalize fs.lookup key = v?, gs.lookup key = w? at own
  cases own with
  | some same => exact (decodeBool_agrees same).under _
  | none =>
    cases named : Model.otherName? key with
    | none => exact .missing shown
    | some name =>
      simp only [Option.bind_some]
      have other := other name named
      generalize fs.lookup name = v?, gs.lookup name = w? at other
      cases other with
      | some same => exact (decodeBool_agrees same).under _
      | none => exact .missing shown

theorem Bounds.ofFields_agrees {read : Value → Decoded α} {kind : OrderedKind}
    (reads : ∀ v w, v.SameData w → (read v).Agrees (read w)) (tags : Tags)
    (agree : (Model.range kind).Agrees room fs gs) (shown : v.writable = w.writable) :
    (ofFields read tags v fs).Agrees (ofFields read tags w gs) := by
  have lowerFlag : (decodeFlag "closed_lower" v fs).Agrees (decodeFlag "closed_lower" w gs) := by
    refine decodeFlag_agrees (agree _ .data (by simp [Model.reads])) ?_ shown
    rintro name ⟨⟩
    exact agree _ .data (by simp [Model.reads])
  have upperFlag : (decodeFlag "closed_upper" v fs).Agrees (decodeFlag "closed_upper" w gs) := by
    refine decodeFlag_agrees (agree _ .data (by simp [Model.reads])) ?_ shown
    rintro name ⟨⟩
    exact agree _ .data (by simp [Model.reads])
  have bound (key : String) (known : (key, Slot.data) ∈ (Model.range kind).reads) :
      (decodeAbsentable key read fs).Agrees (decodeAbsentable key read gs) := by
    refine decodeAbsentable_agrees (optionRel_imp ?_ (agree key .data known))
    exact fun _ _ same => decodeOptional_agrees same reads
  have flags := (Decoded.Agrees.refl tags.type).combine (lowerFlag.combine upperFlag Prod.mk)
    fun _ flags => flags
  have bounds := (bound "lower" (by simp [Model.reads])).combine
    (bound "upper" (by simp [Model.reads])) Prod.mk
  have kinded := (Decoded.Agrees.refl tags.kind).combine bounds fun _ b => b
  refine (flags.combine kinded Prod.mk).bind ?_
  rintro ⟨flags, lower, upper⟩
  dsimp only
  split
  · exact .done _
  · exact .fault rfl shown

theorem Range.ofFields_agrees {kind : OrderedKind} {tags : Tags}
    (agree : (Model.range kind).Agrees room fs gs) (shown : v.writable = w.writable) :
    (ofFields kind tags v fs).Agrees (ofFields kind tags w gs) := by
  cases kind with
  | string => exact (Bounds.ofFields_agrees (fun _ _ => decodeString_agrees) tags agree shown).map _
  | number =>
    exact (Bounds.ofFields_agrees (fun _ _ => Number.decode_agrees) tags agree shown).map _
  | date => exact (Bounds.ofFields_agrees (fun _ _ => Moment.decode_agrees) tags agree shown).map _

theorem requireChild_agrees {key : String} {c d : Option (Decoded α)}
    (child : Option.Rel Decoded.Agrees c d) (shown : v.writable = w.writable) :
    (requireChild key v c).Agrees (requireChild key w d) := by
  cases child with
  | some agrees => exact agrees.under _
  | none => exact .missing shown

theorem chooseOperands_agrees {plain : Bool} {os ps : Option (Decoded (List α))}
    {l l' r r' : Option (Decoded α)} (operands : Option.Rel Decoded.Agrees os ps)
    (lhs : Option.Rel Decoded.Agrees l l') (rhs : Option.Rel Decoded.Agrees r r')
    (shown : v.writable = w.writable) :
    (chooseOperands plain v os l r).Agrees (chooseOperands plain w ps l' r') := by
  refine requireChild_agrees ?_ shown
  cases operands with
  | some agrees => exact .some agrees
  | none =>
    cases plain with
    | false => exact .none
    | true =>
      cases lhs with
      | none => exact .none
      | some left =>
        cases rhs with
        | none => exact .none
        | some right =>
          have none : (Gathered.empty (α := α)).Agrees .empty := ⟨rfl, .nil, rfl⟩
          exact .some ((Gathered.Agrees.cons 0 left (.cons 1 right none)).atLeast shown 0)

theorem decodeChild_agrees {read : Value → Decoded α} {v? w? : Option Value}
    (reads : Option.Rel (fun v w => (read v).Agrees (read w)) v? w?) :
    Option.Rel Decoded.Agrees (v?.map read) (w?.map read) := by
  cases reads with
  | some agrees => exact .some agrees
  | none => exact .none

namespace Node

theorem ofFields_agrees {model : Model} {m : Option Model} (agree : model.Agrees room fs gs)
    (shown : v.writable = w.writable) :
    (ofFields room model m v fs).Agrees (ofFields room model m w gs) := by
  cases model with
  | literal kind => exact (Literal.ofFields_agrees agree shown).map _
  | range kind => exact (Range.ofFields_agrees agree shown).map _
  | term => exact (decodeRequired_agrees (agree "value" .node (by simp [Model.reads])) shown).map _
  | namedTerm =>
    have field := agree "field" .data (by simp [Model.reads])
    have name := optionRel_imp (fun _ _ same => FieldName.decode_agrees same) field
    have value := agree "value" .node (by simp [Model.reads])
    exact (decodeRequired_agrees name shown).combine (decodeRequired_agrees value shown) _
  | combine c =>
    have operands := agree "operands" .nodes (by simp [Model.reads])
    have lhs := agree "lhs" .node (by simp [Model.reads])
    have rhs := agree "rhs" .node (by simp [Model.reads])
    unfold ofFields
    simp only [operandsOf, decodeOperandsAt_eq, decodeAt_eq]
    exact (chooseOperands_agrees (decodeChild_agrees operands) (decodeChild_agrees lhs)
      (decodeChild_agrees rhs) shown).map _
  | modify modifier =>
    exact (decodeRequired_agrees (agree "rhs" .node (by simp [Model.reads])) shown).map _
  | constant =>
    have boost := agree "rhs" .data (by simp [Model.reads])
    have number := optionRel_imp (fun _ _ same => Number.decode_agrees same) boost
    have lhs := agree "lhs" .node (by simp [Model.reads])
    exact (decodeRequired_agrees lhs shown).combine (decodeRequired_agrees number shown) _
  | predicate | geometry _ | filter _ => exact .fault rfl shown

end Node

end Fields

/-! ## Records -/

section Records

variable {room : Room} {m : Option Model} {fs gs : List (String × Value)}
  (shown : (Value.record m fs).writable = (Value.record m gs).writable)

include shown

/-- Records whose tags name the same class are read alike if the fields of that class are. -/
theorem Node.decodeIn_record_agrees
    (type : Option.Rel Value.SameData (fs.lookup "type") (gs.lookup "type"))
    (kind : ∀ tag, fs.lookup "type" = some tag →
      tag.text? = some "literal" ∨ tag.text? = some "range" →
        Option.Rel Value.SameData (fs.lookup "kind") (gs.lookup "kind"))
    (fields : ∀ model inner, model.isNode = true → CarriesTags model fs →
      model.Agrees inner fs gs) :
    (decodeIn room (.record m fs)).Agrees (decodeIn room (.record m gs)) := by
  have chosen : SameChoice SamePlace (classOf (.record m fs)) (classOf (.record m gs)) := by
    refine classOf_agrees ?_ ?_
    · exact .ofOption type
    · intro tag found named
      have there : fs.lookup "type" = some tag := by
        rw [attribute_record] at found
        cases own : fs.lookup "type" with
        | none => simp [own, Attribute.ofOption] at found
        | some v => simpa [own, Attribute.ofOption] using found
      exact .ofOption (kind tag there named)
  rw [decodeIn_record, decodeIn_record]
  have tags {path : Path} {model : Model} (named : classOf (.record m fs) = .ok (path, model)) :=
    carriesTags_of_classOf named
  generalize classOf (.record m fs) = c, classOf (.record m gs) = d at chosen tags
  cases chosen with
  | error same =>
    cases same with
    | after path code => exact (Decoded.Agrees.fault code shown).underPath path
  | ok found =>
    obtain ⟨path, model⟩ := found
    obtain ⟨node, carried⟩ := tags rfl
    refine Decoded.Agrees.underPath (.read (fun inner => ?_) shown) path
    split
    · exact ofFields_agrees (fields model inner node carried) shown
    · exact .fault rfl shown

theorem Geometry.decodeIn_record_agrees
    (type : Option.Rel Value.SameData (fs.lookup "type") (gs.lookup "type"))
    (fields : ∀ (s : Shape) (inner : Room), CarriesTags (.geometry s) fs →
      (Model.geometry s).Agrees inner fs gs) :
    (decodeIn room (.record m fs)).Agrees (decodeIn room (.record m gs)) := by
  have chosen : SameChoice SameCode (shapeOf (.record m fs)) (shapeOf (.record m gs)) :=
    shapeOf_agrees (.ofOption type)
  rw [decodeIn_record, decodeIn_record]
  have tag (s : Shape) : shapeOf (.record m fs) = .ok s ↔ TextAt "type" fs s.name := shapeOf_record
  generalize shapeOf (.record m fs) = c, shapeOf (.record m gs) = d at chosen tag
  cases chosen with
  | error code => exact .fault code shown
  | ok s =>
    have carried : CarriesTags (.geometry s) fs := by
      refine ⟨?_, by rintro tag ⟨⟩⟩
      rintro name ⟨⟩
      exact (tag s).1 rfl
    refine Decoded.Agrees.under (.read (fun inner => ?_) shown) _
    have agree := fields s inner carried
    split
    · unfold ofFields
      cases plain : ofCoordinates? s with
      | some read =>
        have coordinates : ("coordinates", Slot.data) ∈ (Model.geometry s).reads := by
          cases s with
          | collection => cases plain
          | _ => simp [Model.reads]
        have reads := optionRel_imp (fun _ _ => ofCoordinates?_agrees plain) (agree _ _ coordinates)
        exact decodeRequired_agrees reads shown
      | none =>
        have collection : s = .collection := by
          cases s <;> first | rfl | cases plain
        subst collection
        exact decodeRequired_agrees (agree _ .geometries (by simp [Model.reads])) shown
    · exact .fault rfl shown

theorem SpatialPredicate.decode_record_agrees (fields : Model.predicate.Agrees room fs gs) :
    (decode room (.record m fs)).Agrees (decode room (.record m gs)) := by
  have op := fields "op" .data (by simp [Model.reads])
  have operator := optionRel_imp (fun _ _ same => SpatialOperator.decode_agrees same) op
  have geometry := fields "geom" .geometry (by simp [Model.reads])
  rw [decode, decode]
  split
  · exact (decodeRequired_agrees operator shown).combine (decodeRequired_agrees geometry shown) _
  · exact .fault rfl shown

end Records

/-! ## Sequences and scalars -/

section Others

variable {room : Room} {v w : Value}

theorem Node.decodeIn_other (other : ∀ m fs, v ≠ .record m fs) :
    decodeIn room v =
      match classOf v with
      | .error (path, cause) => (Decoded.fault cause v).underPath path
      | .ok (path, model) =>
        Decoded.underPath path <|
          room.read model v fun _ => Decoded.fault (.notInstance model) v := by
  cases v with
  | record m fs => exact absurd rfl (other m fs)
  | _ => rfl

theorem Geometry.decodeIn_other (other : ∀ m fs, v ≠ .record m fs) :
    decodeIn room v =
      match shapeOf v with
      | .error cause => Decoded.fault cause v
      | .ok shape =>
        Decoded.under (.tag shape.name) <|
          room.read (.geometry shape) v fun _ => Decoded.fault (.notInstance (.geometry shape)) v := by
  cases v with
  | record m fs => exact absurd rfl (other m fs)
  | _ => rfl

section Tags

variable (left : ∀ m fs, v ≠ .record m fs) (right : ∀ m fs, w ≠ .record m fs)
  (type : (v.attribute "type").Agrees (w.attribute "type")) (shown : v.writable = w.writable)

include left right type shown

theorem Node.decodeIn_other_agrees (kind : (v.attribute "kind").Agrees (w.attribute "kind")) :
    (decodeIn room v).Agrees (decodeIn room w) := by
  have chosen : SameChoice SamePlace (classOf v) (classOf w) :=
    classOf_agrees type fun _ _ _ => kind
  rw [decodeIn_other left, decodeIn_other right]
  generalize classOf v = c, classOf w = d at chosen
  cases chosen with
  | error same =>
    cases same with
    | after path code => exact (Decoded.Agrees.fault code shown).underPath path
  | ok found => exact Decoded.Agrees.underPath (.read (fun _ => .fault rfl shown) shown) found.1

theorem Geometry.decodeIn_other_agrees : (decodeIn room v).Agrees (decodeIn room w) := by
  have chosen : SameChoice SameCode (shapeOf v) (shapeOf w) := shapeOf_agrees type
  rw [decodeIn_other left, decodeIn_other right]
  generalize shapeOf v = c, shapeOf w = d at chosen
  cases chosen with
  | error code => exact .fault code shown
  | ok shape => exact Decoded.Agrees.under (.read (fun _ => .fault rfl shown) shown) _

end Tags

theorem SpatialPredicate.decode_other_agrees (left : ∀ m fs, v ≠ .record m fs)
    (right : ∀ m fs, w ≠ .record m fs) (shown : v.writable = w.writable) :
    (decode room v).Agrees (decode room w) := by
  have fault {u : Value} (other : ∀ m fs, u ≠ .record m fs) :
      decode room u = .fault (.notInstance .predicate) u := by
    cases u with
    | record m fs => exact absurd rfl (other m fs)
    | _ => rfl
  rw [fault left, fault right]
  exact .fault rfl shown

theorem Node.decodeItems_agrees
    (items : Option.Rel (List.Forall₂ (Slot.Agrees room .node)) v.items? w.items?)
    (shown : v.writable = w.writable) : (decodeItems room v).Agrees (decodeItems room w) := by
  rw [decodeItems_eq, decodeItems_eq]
  exact decodeSequence_agrees 0 items shown

theorem Geometry.decodeMembers_agrees
    (items : Option.Rel (List.Forall₂ (Slot.Agrees room .geometry)) v.items? w.items?)
    (shown : v.writable = w.writable) :
    (decodeMembers room v).Agrees (decodeMembers room w) := by
  rw [decodeMembers_eq, decodeMembers_eq]
  refine (decodeSequence_agrees 1 items shown).bind fun gs => ?_
  cases gs with
  | nil => exact .fault rfl shown
  | cons g gs => exact .done _

end Others

end QueryTree
