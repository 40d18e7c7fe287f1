import QueryTree.Proofs.Agreement.Verdicts
import QueryTree.Proofs.Outcomes

/-!
# Keys that are not read

What a mapping is read as depends on the fields that its class looks at, and on nothing else: not on
their order and not on any other key, at whatever level.

* `Slot.LooksAt`         : the fields that are looked at in a mapping
* `Value.SameReads`      : documents with the same fields, as far as they are looked at
* `SameReads.reordered`, `SameReads.extended` : fields in another order, one more key
* `SameReads.agrees`     : such documents are read alike
* `SameReads.unread_keys_ignored` : they get the same answers
-/

namespace QueryTree

/-! ## What is looked at -/

namespace Slot

/-- Whether a record is wanted in a slot, and a sequence is not. -/
def mapped : Slot → Bool
  | .node | .predicate | .geometry => true
  | .data | .nodes | .geometries => false

/-- Whether the records of a class are wanted in a slot. -/
def admits : Slot → Model → Bool
  | .node, model => model.isNode
  | .predicate, model => model == .predicate
  | .geometry, .geometry _ => true
  | _, _ => false

/-- The fields that are looked at in a mapping with the given fields that stands in a slot. -/
inductive LooksAt : Slot → List (String × Value) → List (String × Slot) → Prop where
  -- those of the class that the tags name
  | fields {s : Slot} {fs : List (String × Value)} {model : Model} :
      s.admits model = true → CarriesTags model fs → LooksAt s fs model.reads
  -- the tags alone, if they name no class that is wanted
  | tags {s : Slot} {fs : List (String × Value)} :
      s.mapped = true → (∀ model, s.admits model = true → ¬ CarriesTags model fs) →
        LooksAt s fs [("type", .data), ("kind", .data)]
  -- if the first one is not that of leaves or ranges, there is no second one
  | tag {s : Slot} {fs : List (String × Value)} :
      s.mapped = true → (∀ model, s.admits model = true → ¬ CarriesTags model fs) →
        ¬ TextAt "type" fs "literal" → ¬ TextAt "type" fs "range" →
          LooksAt s fs [("type", .data)]
  -- nothing, where no mapping is wanted
  | nothing {s : Slot} {fs : List (String × Value)} : s.mapped = false → LooksAt s fs []

theorem exists_looksAt (s : Slot) (fs : List (String × Value)) : ∃ rs, s.LooksAt fs rs := by
  cases mapped : s.mapped with
  | false => exact ⟨_, .nothing mapped⟩
  | true =>
    by_cases named : ∃ model, s.admits model = true ∧ CarriesTags model fs
    · obtain ⟨model, admitted, carried⟩ := named
      exact ⟨_, .fields admitted carried⟩
    · refine ⟨_, .tags mapped fun model admitted carried => ?_⟩
      exact named ⟨model, admitted, carried⟩

end Slot

namespace Value

/-- Two documents that stand in a slot have the same fields, as far as they are looked at: in any
    order, and with any other keys. -/
inductive SameReads : Slot → Value → Value → Prop where
  | same (s : Slot) (v : Value) : SameReads s v v
  | data {vs ws : List Value} :
      List.Forall₂ (SameReads .data) vs ws → SameReads .data (.list vs) (.list ws)
  | nodes {vs ws : List Value} :
      List.Forall₂ (SameReads .node) vs ws → SameReads .nodes (.list vs) (.list ws)
  | geometries {vs ws : List Value} :
      List.Forall₂ (SameReads .geometry) vs ws → SameReads .geometries (.list vs) (.list ws)
  -- a list is not looked into where a mapping is wanted
  | list {s : Slot} {vs ws : List Value} : s.mapped = true → SameReads s (.list vs) (.list ws)
  | mapping {s : Slot} {fs gs : List (String × Value)} {rs : List (String × Slot)} :
      s.LooksAt fs rs →
        (∀ r ∈ rs, (fs.lookup r.1).isNone = (gs.lookup r.1).isNone) →
          (∀ r ∈ rs, ∀ v w, fs.lookup r.1 = some v → gs.lookup r.1 = some w →
            SameReads r.2 v w) →
            SameReads s (.mapping fs) (.mapping gs)

namespace SameReads

variable {s : Slot} {room : Room} {v w : Value} {fs gs : List (String × Value)}
  {rs : List (String × Slot)}

/-- The fields may be the same, as far as they are looked at. -/
theorem ofLookup (looks : s.LooksAt fs rs) (equal : ∀ r ∈ rs, fs.lookup r.1 = gs.lookup r.1) :
    SameReads s (.mapping fs) (.mapping gs) := by
  refine .mapping looks (fun r read => by rw [equal r read]) fun r read v w left right => ?_
  rw [equal r read, right] at left
  cases left
  exact .same r.2 _

theorem reordered (perm : fs.Perm gs) (distinct : (fs.map Prod.fst).Nodup) :
    SameReads s (.mapping fs) (.mapping gs) := by
  obtain ⟨rs, looks⟩ := s.exists_looksAt fs
  exact ofLookup looks fun r _ => lookup_eq_of_perm perm distinct r.1

theorem extended (looks : s.LooksAt fs rs) {key : String} (unread : ∀ r ∈ rs, r.1 ≠ key)
    (v : Value) : SameReads s (.mapping fs) (.mapping ((key, v) :: fs)) := by
  refine ofLookup looks fun r read => ?_
  rw [List.lookup_cons, beq_false_of_ne (unread r read)]

/-- They may differ under one key, as far as it is looked at what stands there. -/
theorem underKey (key : String) {slot : Slot} (looks : s.LooksAt fs rs)
    (slots : ∀ r ∈ rs, r.1 = key → r.2 = slot) (left : fs.lookup key = some v)
    (right : gs.lookup key = some w) (part : SameReads slot v w)
    (others : ∀ r ∈ rs, r.1 ≠ key → fs.lookup r.1 = gs.lookup r.1) :
    SameReads s (.mapping fs) (.mapping gs) := by
  refine .mapping looks (fun r read => ?_) fun r read t u found found' => ?_
  · by_cases here : r.1 = key
    · rw [here, left, right]
      rfl
    · rw [others r read here]
  · by_cases here : r.1 = key
    · rw [here] at found found'
      cases left.symm.trans found
      cases right.symm.trans found'
      rw [slots r read here]
      exact part
    · rw [others r read here, found'] at found
      cases found
      exact .same r.2 _

/-! ## Reading -/

/-- Tags name at most one class that is wanted in a slot. -/
theorem class_unique {model other : Model} (admitted : s.admits model = true)
    (admitted' : s.admits other = true) (carried : CarriesTags model fs)
    (carried' : CarriesTags other fs) : other = model := by
  cases s with
  | node =>
    obtain ⟨path, chosen⟩ := Node.exists_classOf (m := none) admitted carried
    obtain ⟨path', chosen'⟩ := Node.exists_classOf (m := none) admitted' carried'
    cases chosen.symm.trans chosen'
    rfl
  | predicate =>
    rw [beq_iff_eq.1 admitted, beq_iff_eq.1 admitted']
  | geometry =>
    cases model with
    | geometry shape =>
      cases other with
      | geometry shape' =>
        have named := shapeOf_record (m := none).2 (carried.type _ rfl)
        have named' := shapeOf_record (m := none).2 (carried'.type _ rfl)
        cases named.symm.trans named'
        rfl
      | _ => cases admitted'
    | _ => cases admitted
  | data | nodes | geometries => cases admitted

theorem carriesTags_predicate : CarriesTags .predicate fs := by
  constructor
  · rintro tag ⟨⟩
  · rintro tag ⟨⟩

/-- Where a tag tells the class, the tag is looked at. -/
theorem type_mem_reads {model : Model} {tag : String} (tagged : model.tag? = some tag) :
    ("type", Slot.data) ∈ model.reads := by
  cases model with
  | literal kind => cases kind <;> exact .head _
  | geometry shape => cases shape <;> exact .head _
  | predicate | filter _ => cases tagged
  | _ => exact .head _

/-- The classes of leaves and ranges have a second tag. -/
theorem kind_mem_reads {model : Model} {tag : String} (tagged : model.tag? = some tag)
    (leaf : tag = "literal" ∨ tag = "range") : ("kind", Slot.data) ∈ model.reads := by
  cases model with
  | literal kind => cases kind <;> exact .tail _ (.head _)
  | range kind => exact .tail _ (.head _)
  | combine c => cases c <;> cases tagged <;> revert leaf <;> decide
  | modify m => cases m <;> cases tagged <;> revert leaf <;> decide
  | geometry s => cases s <;> cases tagged <;> revert leaf <;> decide
  | predicate | filter _ => cases tagged
  | term | namedTerm | constant =>
    cases tagged
    revert leaf
    decide

section Mappings

variable (shown : (Value.mapping fs).writable = (Value.mapping gs).writable)

include shown

/-- What is said of a mapping whose tags name no class depends on the tags alone. -/
theorem unnamed_agrees (mapped : s.mapped = true)
    (nameless : ∀ model, s.admits model = true → ¬ CarriesTags model fs)
    (type : Option.Rel SameData (fs.lookup "type") (gs.lookup "type"))
    (kind : ∀ tag, fs.lookup "type" = some tag →
      tag.text? = some "literal" ∨ tag.text? = some "range" →
        Option.Rel SameData (fs.lookup "kind") (gs.lookup "kind")) :
    s.Agrees room (.mapping fs) (.mapping gs) := by
  cases s with
  | node =>
    exact Node.decodeIn_record_agrees shown type kind fun model _ node carried =>
      absurd carried (nameless model node)
  | predicate => exact absurd carriesTags_predicate (nameless .predicate rfl)
  | geometry =>
    exact Geometry.decodeIn_record_agrees shown type fun shape _ carried =>
      absurd carried (nameless (.geometry shape) rfl)
  | data | nodes | geometries => cases mapped

/-- What is read of a mapping whose tags name a class depends on the fields of the class. -/
theorem named_agrees {model : Model} (admitted : s.admits model = true)
    (carried : CarriesTags model fs) (parts : ∀ inner, model.Agrees inner fs gs) :
    s.Agrees room (.mapping fs) (.mapping gs) := by
  have agree (other : Model) (inner : Room) (wanted : s.admits other = true)
      (carries : CarriesTags other fs) : other.Agrees inner fs gs := by
    obtain rfl := class_unique admitted wanted carried carries
    exact parts inner
  cases s with
  | node =>
    obtain ⟨tag, tagged⟩ : ∃ tag, model.tag? = some tag := by
      cases model with
      | predicate | geometry _ | filter _ => cases admitted
      | _ => exact ⟨_, rfl⟩
    have type := parts room _ .data (type_mem_reads tagged)
    refine Node.decodeIn_record_agrees shown type ?_ agree
    intro v found leaf
    obtain ⟨w, there, named⟩ := carried.type tag tagged
    cases there.symm.trans found
    rw [named, Option.some.injEq, Option.some.injEq] at leaf
    exact parts room _ .data (kind_mem_reads tagged leaf)
  | predicate =>
    have fields := agree .predicate room rfl carriesTags_predicate
    exact SpatialPredicate.decode_record_agrees shown fields
  | geometry =>
    refine Geometry.decodeIn_record_agrees shown ?_ fun shape inner =>
      agree (.geometry shape) inner rfl
    cases model with
    | geometry shape => exact parts room _ .data (type_mem_reads rfl)
    | _ => cases admitted
  | data | nodes | geometries => cases admitted

/-- Mappings are read alike if what is looked at in them is. -/
theorem mapping_agrees (looks : s.LooksAt fs rs)
    (parts : ∀ inner key slot, (key, slot) ∈ rs →
      Option.Rel (slot.Agrees inner) (fs.lookup key) (gs.lookup key)) :
    s.Agrees room (.mapping fs) (.mapping gs) := by
  cases looks with
  | fields admitted carried => exact named_agrees shown admitted carried parts
  | tags mapped nameless =>
    exact unnamed_agrees shown mapped nameless (parts room _ .data (by simp))
      fun _ _ _ => parts room _ .data (by simp)
  | tag mapped nameless noLeaf noRange =>
    refine unnamed_agrees shown mapped nameless (parts room _ .data (by simp)) ?_
    rintro tag found (named | named)
    · exact absurd ⟨tag, found, named⟩ noLeaf
    · exact absurd ⟨tag, found, named⟩ noRange
  | nothing mapped =>
    cases s with
    | data => exact .record shown
    | nodes => exact Node.decodeItems_agrees .none shown
    | geometries => exact Geometry.decodeMembers_agrees .none shown
    | node | predicate | geometry => cases mapped

end Mappings

theorem list_agrees {vs ws : List Value} (mapped : s.mapped = true)
    (shown : (Value.list vs).writable = (Value.list ws).writable) :
    s.Agrees room (.list vs) (.list ws) := by
  have noRecord (us : List Value) (m : Option Model) (fs : List (String × Value)) :
      Value.list us ≠ .record m fs := by
    rintro ⟨⟩
  cases s with
  | node =>
    exact Node.decodeIn_other_agrees (noRecord vs) (noRecord ws) .noRecord shown .noRecord
  | predicate => exact SpatialPredicate.decode_other_agrees (noRecord vs) (noRecord ws) shown
  | geometry => exact Geometry.decodeIn_other_agrees (noRecord vs) (noRecord ws) .noRecord shown
  | data | nodes | geometries => cases mapped

/-- Documents with the same fields are read alike, at every level and in every room. -/
theorem agrees (same : SameReads s v w) (short : v.writable = true) (short' : w.writable = true) :
    s.Agrees room v w := by
  induction w using Value.induction generalizing s v room with
  | step w ih =>
    have shown : v.writable = w.writable := short.trans short'.symm
    have items {i : Slot} {vs ws : List Value} (held : v.children? = some vs)
        (held' : w.children? = some ws) (all : List.Forall₂ (SameReads i) vs ws) :
        List.Forall₂ (i.Agrees room) vs ws := by
      have each := (List.forall₂_and_left vs ws).2
        ⟨fun u member => writable_of_mem short held member, all⟩
      exact forall₂_imp_mem (fun u member t both =>
        ih ws held' u member both.2 both.1 (writable_of_mem short' held' member)) each
    cases same with
    | same => exact .refl room s w
    | data all => exact .list (items rfl rfl all)
    | nodes all => exact Node.decodeItems_agrees (.some (items rfl rfl all)) shown
    | geometries all => exact Geometry.decodeMembers_agrees (.some (items rfl rfl all)) shown
    | list mapped => exact list_agrees mapped shown
    | mapping looks present each =>
      refine mapping_agrees shown looks fun inner key slot read => ?_
      refine optionRel_of_isNone (present _ read) fun t u left right => ?_
      have inside := List.mem_map_of_mem (f := Prod.snd) (mem_of_lookup right)
      exact ih _ rfl u inside (each _ read t u left right) (writable_of_lookup short left)
        (writable_of_lookup short' right)

/-! ## Answers -/

/-- Documents with the same fields get the same answers: neither the order of keys nor a key that
    the class of its mapping does not look at makes a difference, whatever its value is.  If no date
    is outside the calendar, these are answers indeed. -/
theorem unread_keys_ignored {limit : Int} (same : SameReads .node v w) (json : v.IsJson)
    (json' : w.IsJson) (short : v.writable = true) (short' : w.writable = true)
    (deep : (v.nest : Int) ≤ limit) (deep' : (w.nest : Int) ≤ limit) :
    SameOutcomes limit v w ∧
      (¬ v.DateOutside → Answered limit v ∧ ¬ w.DateOutside ∧ Answered limit w) := by
  have passed : guardDepth limit v = .ok () := by
    rw [guardDepth_eq json.complete, if_pos (by omega)]
  have passed' : guardDepth limit w = .ok () := by
    rw [guardDepth_eq json'.complete, if_pos (by omega)]
  have read : (Node.decode v).Agrees (Node.decode w) := same.agrees short short'
  refine ⟨sameOutcomes_of_agrees (passed.trans passed'.symm) read, fun inside => ?_⟩
  have inside' : ¬ w.DateOutside := by
    rw [DateOutside, ← Node.decodeIn_eq_outside] at inside ⊢
    exact read.outside.not.1 inside
  exact ⟨answered_of_guard passed inside short, inside', answered_of_guard passed' inside' short'⟩

end SameReads

end Value

/-! ## A document with keys that are not read -/

/-- The mapping of a spatial leaf over a point. -/
def plainPoint : Value :=
  .mapping [("type", .str "literal"), ("kind", .str "spatial"),
    ("value", .mapping [("op", .str "Intersects"),
      ("geom", .mapping [("type", .str "Point"), ("coordinates", .list [.int 1, .int 2])])])]

/-- The same in another order, with keys of other classes at every level. -/
def notedPoint : Value :=
  .mapping [("field", .null),
    ("value", .mapping [("type", .str "term"),
      ("geom", .mapping [("geometries", .bool true), ("coordinates", .list [.int 1, .int 2]),
        ("type", .str "Point")]),
      ("op", .str "Intersects")]),
    ("operands", .list [.int 1]), ("kind", .str "spatial"), ("type", .str "literal")]

theorem plainPoint_sameReads : plainPoint.SameReads .node notedPoint := by
  have geometry : Value.SameReads .geometry
      (.mapping [("type", .str "Point"), ("coordinates", .list [.int 1, .int 2])])
      (.mapping [("geometries", .bool true), ("coordinates", .list [.int 1, .int 2]),
        ("type", .str "Point")]) := by
    have carried : CarriesTags (.geometry .point)
        [("type", .str "Point"), ("coordinates", .list [.int 1, .int 2])] := by
      refine ⟨?_, by rintro tag ⟨⟩⟩
      rintro tag ⟨⟩
      exact ⟨.str "Point", rfl, rfl⟩
    exact .ofLookup (.fields rfl carried) (by simp [Model.reads, List.lookup_cons])
  have predicate : Value.SameReads .predicate (.mapping [("op", .str "Intersects"), ("geom", _)])
      (.mapping [("type", .str "term"), ("geom", _), ("op", .str "Intersects")]) :=
    .underKey "geom" (.fields rfl Value.SameReads.carriesTags_predicate) (by simp [Model.reads]) rfl
      rfl geometry (by simp [Model.reads, List.lookup_cons])
  have carried (w : Value) : CarriesTags (.literal .spatial)
      [("type", .str "literal"), ("kind", .str "spatial"), ("value", w)] := by
    constructor
    · rintro tag ⟨⟩
      exact ⟨.str "literal", rfl, rfl⟩
    · rintro tag ⟨⟩
      exact ⟨.str "spatial", rfl, rfl⟩
  exact .underKey "value" (.fields rfl (carried _)) (by simp [Model.reads]) rfl rfl predicate
    (by simp [Model.reads, List.lookup_cons])

/-- Both get the same answers. -/
theorem plainPoint_answered :
    plainPoint.SameReads .node notedPoint ∧ SameOutcomes 200 plainPoint notedPoint ∧
      Answered 200 plainPoint ∧ Answered 200 notedPoint := by
  have json : plainPoint.IsJson := by
    simp [plainPoint, Value.IsJson.str, Value.IsJson.int]
  have json' : notedPoint.IsJson := by
    simp [notedPoint, Value.IsJson.str, Value.IsJson.int, Value.IsJson.bool, Value.IsJson.null]
  have inside : ¬ plainPoint.DateOutside := Value.not_dateOutside (by decide)
  obtain ⟨outcomes, answers⟩ := plainPoint_sameReads.unread_keys_ignored json json'
    (by decide +kernel) (by decide +kernel) (by decide : _ ≤ (200 : Int)) (by decide)
  exact ⟨plainPoint_sameReads, outcomes, (answers inside).1, (answers inside).2.2⟩

end QueryTree
