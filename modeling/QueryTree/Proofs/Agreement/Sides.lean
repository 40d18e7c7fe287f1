import QueryTree.Proofs.Agreement.Verdicts
import QueryTree.Proofs.Limits

/-!
# Two operands as two sides

A combination of two operands may be written with a sequence of them or with a left and a right hand
side.  Both forms get the same answers, wherever they stand and whatever the operands are, except
where the nesting is just within the limit: the sequence is one container more.

* `Value.AsSides`            : a value in which sequences of two operands became two sides
* `AsSides.nest_le`, `AsSides.complete_eq`, `AsSides.writable_eq` : what does not grow or change
* `AsSides.agrees`           : both are read alike, in every slot
* `AsSides.sameOutcomes`     : the answers
* `pairAsOperands_refused`   : a limit that tells them apart
-/

namespace QueryTree

namespace Value

/-! ## Fields in another order -/

theorem writable_of_perm {m : Option Model} {fs gs : List (String × Value)} (perm : fs.Perm gs) :
    (record m fs).writable = (record m gs).writable := by
  rw [writable, writable, writableFields_eq, writableFields_eq]
  exact (perm.map _).all_eq

theorem complete_of_perm {fs gs : List (String × Value)} (perm : fs.Perm gs) :
    (mapping fs).complete = (mapping gs).complete := by
  rw [Bool.eq_iff_iff, complete_iff, complete_iff]
  simp [lacksField, children?, perm.mem_iff]

theorem nest_of_perm {m : Option Model} {fs gs : List (String × Value)} (perm : fs.Perm gs) :
    (record m fs).nest = (record m gs).nest := by
  have bound (k : Nat) : nestFields fs ≤ k ↔ nestFields gs ≤ k := by
    simp only [nestFields_eq, nestList_le, (perm.map _).mem_iff]
  rw [nest, nest, Nat.le_antisymm ((bound _).2 (Nat.le_refl _)) ((bound _).1 (Nat.le_refl _))]

/-! ## The two forms -/

/-- The second value is the first one, in which some mappings that hold a tag of a combination and a
    sequence of two operands hold the operands as two sides instead. -/
inductive AsSides : Value → Value → Prop where
  | same (v : Value) : AsSides v v
  | list {vs ws : List Value} : List.Forall₂ AsSides vs ws → AsSides (.list vs) (.list ws)
  | tuple {vs ws : List Value} : List.Forall₂ AsSides vs ws → AsSides (.tuple vs) (.tuple ws)
  | record {m : Option Model} {fs gs : List (String × Value)} :
      fs.map Prod.fst = gs.map Prod.fst →
        List.Forall₂ AsSides (fs.map Prod.snd) (gs.map Prod.snd) →
          AsSides (.record m fs) (.record m gs)
  | sides {fs gs : List (String × Value)} {c : Connective} {x y x' y' : Value} :
      fs.Perm [("type", .str c.name), ("operands", .list [x, y])] →
        gs.Perm [("type", .str c.name), ("lhs", x'), ("rhs", y')] →
          AsSides x x' → AsSides y y' → AsSides (.mapping fs) (.mapping gs)

namespace AsSides

/-- Induction on the rules; the items of sequences and the values of records are treated alike. -/
@[elab_as_elim]
theorem rules {motive : Value → Value → Prop} {v w : Value} (related : AsSides v w)
    (same : ∀ v, motive v v)
    (list : ∀ vs ws, List.Forall₂ AsSides vs ws → List.Forall₂ motive vs ws →
      motive (.list vs) (.list ws))
    (tuple : ∀ vs ws, List.Forall₂ AsSides vs ws → List.Forall₂ motive vs ws →
      motive (.tuple vs) (.tuple ws))
    (record : ∀ m fs gs, fs.map Prod.fst = gs.map Prod.fst →
      List.Forall₂ AsSides (fs.map Prod.snd) (gs.map Prod.snd) →
        List.Forall₂ motive (fs.map Prod.snd) (gs.map Prod.snd) →
          motive (.record m fs) (.record m gs))
    (sides : ∀ fs gs (c : Connective) x y x' y',
      fs.Perm [("type", .str c.name), ("operands", .list [x, y])] →
        gs.Perm [("type", .str c.name), ("lhs", x'), ("rhs", y')] → AsSides x x' → AsSides y y' →
          motive x x' → motive y y' → motive (.mapping fs) (.mapping gs)) :
    motive v w := by
  induction w using Value.induction generalizing v with
  | step w ih =>
    have items {vs ws : List Value} (held : w.children? = some ws)
        (all : List.Forall₂ AsSides vs ws) : List.Forall₂ motive vs ws :=
      forall₂_imp_mem (fun u member v related => ih ws held u member related) all
    cases related with
    | same => exact same w
    | list all => exact list _ _ all (items rfl all)
    | tuple all => exact tuple _ _ all (items rfl all)
    | record names all => exact record _ _ _ names all (items rfl all)
    | @sides fs gs c x y x' y' operands hands left right =>
      have lhs : x' ∈ gs.map Prod.snd := (hands.map _).mem_iff.2 (by simp)
      have rhs : y' ∈ gs.map Prod.snd := (hands.map _).mem_iff.2 (by simp)
      exact sides _ _ c x y x' y' operands hands left right (ih _ rfl _ lhs left)
        (ih _ rfl _ rhs right)

variable {v w : Value}

/-! ## What does not grow or change -/

theorem writable_eq (related : v.AsSides w) : v.writable = w.writable := by
  refine rules related ?same ?list ?tuple ?record ?sides
  case same => exact fun v => rfl
  case list | tuple =>
    intro vs ws _ ih
    rw [writable, writable, all_writable_eq ih]
  case record =>
    intro m fs gs _ _ ih
    rw [writable, writable, writableFields_eq, writableFields_eq, ← writableList_eq,
      ← writableList_eq, all_writable_eq ih]
  case sides =>
    intro fs gs c x y x' y' operands hands _ _ left right
    rw [writable_of_perm operands, writable_of_perm hands]
    simp [writable, writableFields, writableList, left, right]

theorem complete_eq (related : v.AsSides w) : v.complete = w.complete := by
  have items {vs ws : List Value}
      (each : List.Forall₂ (fun v w => v.complete = w.complete) vs ws) :
      completeList vs = completeList ws := by
    induction each with
    | nil => rfl
    | cons same _ ih => rw [completeList, completeList, same, ih]
  refine rules related ?same ?list ?tuple ?record ?sides
  case same => exact fun v => rfl
  case list | tuple =>
    intro vs ws _ ih
    rw [complete, complete, items ih]
  case record =>
    intro m fs gs names all ih
    have lacks : (Value.record m fs).lacksField = (Value.record m gs).lacksField := by
      cases m with
      | none => rfl
      | some m =>
        have there (name : String) : (fs.lookup name).isNone = (gs.lookup name).isNone :=
          optionRel_isNone (lookup_related names all name)
        simp only [lacksField, there]
    cases m with
    | none => rw [complete, complete, completeFields_eq, completeFields_eq, items ih]
    | some m => rw [complete, complete, lacks, completeFields_eq, completeFields_eq, items ih]
  case sides =>
    intro fs gs c x y x' y' operands hands _ _ left right
    rw [complete_of_perm operands, complete_of_perm hands]
    simp [complete, completeFields, completeList, left, right]

/-- A sequence that became two sides is one container less. -/
theorem nest_le (related : v.AsSides w) : w.nest ≤ v.nest := by
  have items {vs ws : List Value} (each : List.Forall₂ (fun v w => w.nest ≤ v.nest) vs ws) :
      nestList ws ≤ nestList vs := by
    induction each with
    | nil => exact Nat.le_refl _
    | cons here _ ih => exact max_le_max here ih
  refine rules related ?same ?list ?tuple ?record ?sides
  case same => exact fun v => Nat.le_refl _
  case list | tuple => exact fun vs ws _ ih => Nat.succ_le_succ (items ih)
  case record =>
    intro m fs gs _ _ ih
    rw [nest, nest, nestFields_eq, nestFields_eq]
    exact Nat.succ_le_succ (items ih)
  case sides =>
    intro fs gs c x y x' y' operands hands _ _ left right
    rw [nest_of_perm operands, nest_of_perm hands]
    simp only [nest, nestFields, nestList]
    omega

/-! ## Tags -/

theorem sameData (related : v.AsSides w) : v.SameData w := by
  refine rules related ?same ?list ?tuple ?record ?sides
  case same => exact .same
  case list => exact fun vs ws _ ih => .list ih
  case tuple => exact fun vs ws _ ih => .tuple ih
  case record => exact fun m fs gs names all _ => .record (writable_eq (.record names all))
  case sides =>
    intro fs gs c x y x' y' operands hands left right _ _
    exact .record (writable_eq (.sides operands hands left right))

/-- The tags of nodes; no operand stands under one. -/
def IsTag (key : String) : Prop :=
  key = "type" ∨ key = "kind"

theorem lookup_sides {fs gs : List (String × Value)} {c : Connective} {x y x' y' : Value}
    (operands : fs.Perm [("type", .str c.name), ("operands", .list [x, y])])
    (hands : gs.Perm [("type", .str c.name), ("lhs", x'), ("rhs", y')]) (key : String) :
    fs.lookup key = [("type", .str c.name), ("operands", .list [x, y])].lookup key ∧
      gs.lookup key = [("type", .str c.name), ("lhs", x'), ("rhs", y')].lookup key := by
  refine ⟨lookup_eq_of_perm operands ?_ key, lookup_eq_of_perm hands ?_ key⟩
  · rw [(operands.map Prod.fst).nodup_iff]
    simp
  · rw [(hands.map Prod.fst).nodup_iff]
    simp

theorem tags {m : Option Model} {fs gs : List (String × Value)} {key : String} (tag : IsTag key)
    (related : (Value.record m fs).AsSides (.record m gs)) :
    Option.Rel SameData (fs.lookup key) (gs.lookup key) := by
  cases related with
  | same => exact optionRel_refl SameData.same _
  | record names all => exact lookup_related names (all.imp fun _ _ => sameData) key
  | sides operands hands =>
    rw [(lookup_sides operands hands key).1, (lookup_sides operands hands key).2]
    rcases tag with rfl | rfl
    · exact .some (.same _)
    · exact .none

theorem ownAttribute_agrees {key : String} (tag : IsTag key) (related : v.AsSides w) :
    (v.ownAttribute key).Agrees (w.ownAttribute key) := by
  cases related with
  | same => exact .refl _
  | list | tuple => exact .noRecord
  | record names all => exact .ofOption (tags (m := none) tag (.record names all))
  | sides operands hands left right => exact .ofOption (tags tag (.sides operands hands left right))

/-- What stands in front of the mapping in a pair that has parts: an object or a member. -/
inductive Leads : Value → Prop where
  | object (m : Model) (fs : List (String × Value)) : Leads (.object m fs)
  | kind (k : Kind) : Leads (.kind k)
  | operator (o : SpatialOperator) : Leads (.operator o)

theorem Leads.attribute_pair {key : String} (leads : Leads v) (extra : List (String × Value)) :
    (Value.tuple [v, .mapping extra]).attribute key =
      (extra.lookup key).elim (v.ownAttribute key) .found := by
  cases leads <;> rw [Value.attribute] <;> cases extra.lookup key <;> rfl

/-- A pair of an object or member and a mapping has the tags of both. -/
theorem pair_agrees {key : String} {a b a' b' : Value} (tag : IsTag key) (first : a.AsSides a')
    (second : b.AsSides b') :
    ((Value.tuple [a, b]).attribute key).Agrees ((Value.tuple [a', b']).attribute key) := by
  have own := ownAttribute_agrees tag first
  have both {fs gs : List (String × Value)}
      (extra : Option.Rel SameData (fs.lookup key) (gs.lookup key)) :
      ((Value.tuple [a, .mapping fs]).attribute key).Agrees
        ((Value.tuple [a', .mapping gs]).attribute key) := by
    have found (left : Leads a) (right : Leads a') :
        ((Value.tuple [a, .mapping fs]).attribute key).Agrees
          ((Value.tuple [a', .mapping gs]).attribute key) := by
      rw [left.attribute_pair, right.attribute_pair]
      generalize fs.lookup key = v?, gs.lookup key = w? at extra
      cases extra with
      | some same => exact .found same
      | none => exact own
    cases first with
    | same =>
      cases a with
      | record m hs =>
        cases m with
        | none => exact .noRecord
        | some m => exact found (.object m hs) (.object m hs)
      | kind k => exact found (.kind k) (.kind k)
      | operator o => exact found (.operator o) (.operator o)
      | _ => exact .noRecord
    | list | tuple | sides => exact .noRecord
    | @record m =>
      cases m with
      | none => exact .noRecord
      | some m => exact found (.object m _) (.object m _)
  cases second with
  | same =>
    cases b with
    | record m fs =>
      cases m with
      | none => exact both (optionRel_refl SameData.same _)
      | some m => exact .noRecord
    | _ => exact .noRecord
  | list | tuple => exact .noRecord
  | @record m fs gs names all =>
    cases m with
    | none => exact both (tags (m := none) tag (.record names all))
    | some m => exact .noRecord
  | sides operands hands left right => exact both (tags tag (.sides operands hands left right))

/-- Tuples of three or more have no tags. -/
theorem attribute_long {key : String} {a b c : Value} {rest : List Value} :
    (Value.tuple (a :: b :: c :: rest)).attribute key = .noRecord := by
  cases b with
  | record m fs => cases m <;> rfl
  | _ => rfl

theorem attribute_agrees {key : String} (tag : IsTag key) (related : v.AsSides w) :
    (v.attribute key).Agrees (w.attribute key) := by
  cases related with
  | same => exact .refl _
  | list => exact .noRecord
  | tuple all =>
    cases all with
    | nil => exact .noRecord
    | cons first rest =>
      cases rest with
      | nil => exact .noRecord
      | cons second others =>
        cases others with
        | nil => exact pair_agrees tag first second
        | cons =>
          rw [attribute_long, attribute_long]
          exact .noRecord
  | record names all => exact .ofOption (tags (m := none) tag (.record names all))
  | sides operands hands left right => exact .ofOption (tags tag (.sides operands hands left right))

/-! ## Reading -/

theorem name_ne_shape (c : Connective) (s : Shape) : c.name ≠ s.name := by
  cases c <;> cases s <;> decide

theorem classOf_combine {m : Option Model} {fs : List (String × Value)} {c : Connective}
    (type : fs.lookup "type" = some (.str c.name)) :
    Node.classOf (.record m fs) = .ok ([.tag c.name], .combine c) := by
  unfold Node.classOf
  rw [attribute_record, type]
  cases c <;> rfl

/-- Two operands are read like two sides. -/
theorem decodeIn_sides_agrees {room : Room} {fs gs : List (String × Value)} {c : Connective}
    {x y x' y' : Value}
    (operands : fs.Perm [("type", .str c.name), ("operands", .list [x, y])])
    (hands : gs.Perm [("type", .str c.name), ("lhs", x'), ("rhs", y')])
    (shown : (mapping fs).writable = (mapping gs).writable)
    (left : ∀ inner, (Node.decodeIn inner x).Agrees (Node.decodeIn inner x'))
    (right : ∀ inner, (Node.decodeIn inner y).Agrees (Node.decodeIn inner y')) :
    (Node.decodeIn room (.mapping fs)).Agrees (Node.decodeIn room (.mapping gs)) := by
  have held (key : String) := (lookup_sides operands hands key).1
  have given (key : String) := (lookup_sides operands hands key).2
  have listed : (Value.list [x, y]).writable = (mapping gs).writable := by
    rw [← shown, writable_of_perm operands]
    simp [writable, writableFields]
  have chosen (inner : Room) : (Node.operandsOf inner true (.mapping fs) fs).Agrees
      (Node.operandsOf inner true (.mapping gs) gs) := by
    have items : (gather (Node.decodeIn inner) 0 [x, y]).Agrees
        (gather (Node.decodeIn inner) 0 [x', y']) :=
      gather_agrees (.cons (left inner) (.cons (right inner) .nil)) 0
    simp only [Node.operandsOf, Node.decodeOperandsAt_eq, Node.decodeAt_eq, held, given]
    exact (items.atLeast listed 0).under _
  rw [Node.decodeIn_record, Node.decodeIn_record, classOf_combine (held "type"),
    classOf_combine (given "type")]
  exact Decoded.Agrees.underPath (.read (fun inner => (chosen inner).map _) shown) _

section Slots

variable (related : v.AsSides w)

include related

theorem sequence_agrees {vs ws : List Value} (left : v.items? = some vs)
    (right : w.items? = some ws)
    (each : List.Forall₂ (fun v w => ∀ (s : Slot) room, s.Agrees room v w) vs ws) (s : Slot)
    (room : Room) : s.Agrees room v w := by
  have shown := related.writable_eq
  have type := attribute_agrees (.inl rfl) related
  have noRecord {u : Value} {us : List Value} (held : u.items? = some us) (m : Option Model)
      (fs : List (String × Value)) : u ≠ .record m fs := by
    rintro rfl
    cases held
  have items (i : Slot) : Option.Rel (List.Forall₂ (i.Agrees room)) v.items? w.items? := by
    rw [left, right]
    exact .some (each.imp fun _ _ agree => agree i room)
  cases s with
  | data => exact related.sameData
  | node =>
    exact Node.decodeIn_other_agrees (noRecord left) (noRecord right) type shown
      (attribute_agrees (.inr rfl) related)
  | nodes => exact Node.decodeItems_agrees (items .node) shown
  | predicate =>
    exact SpatialPredicate.decode_other_agrees (noRecord left) (noRecord right) shown
  | geometry => exact Geometry.decodeIn_other_agrees (noRecord left) (noRecord right) type shown
  | geometries => exact Geometry.decodeMembers_agrees (items .geometry) shown

end Slots

/-- A value is read in every slot, and every room, like the one in which its operands became
    sides. -/
theorem agrees (related : v.AsSides w) (s : Slot) (room : Room) : s.Agrees room v w := by
  refine rules (motive := fun v w => ∀ (s : Slot) room, s.Agrees room v w) related ?same ?list
    ?tuple ?record ?sides s room
  case same => exact fun v s room => .refl room s v
  case list => exact fun vs ws all ih => (list all).sequence_agrees rfl rfl ih
  case tuple => exact fun vs ws all ih => (tuple all).sequence_agrees rfl rfl ih
  case record =>
    intro m fs gs names all ih s room
    have related : (Value.record m fs).AsSides (.record m gs) := .record names all
    have shown := related.writable_eq
    have fields (model : Model) (inner : Room) : model.Agrees inner fs gs := fun key slot _ =>
      optionRel_imp (fun _ _ agree => agree slot inner) (lookup_related names ih key)
    cases s with
    | data => exact related.sameData
    | node =>
      exact Node.decodeIn_record_agrees shown (tags (.inl rfl) related)
        (fun _ _ _ => tags (.inr rfl) related) fun model inner _ _ => fields model inner
    | nodes => exact Node.decodeItems_agrees .none shown
    | predicate => exact SpatialPredicate.decode_record_agrees shown (fields .predicate room)
    | geometry =>
      exact Geometry.decodeIn_record_agrees shown (tags (.inl rfl) related) fun s inner _ =>
        fields _ inner
    | geometries => exact Geometry.decodeMembers_agrees .none shown
  case sides =>
    intro fs gs c x y x' y' operands hands left right first second s room
    have related : (mapping fs).AsSides (.mapping gs) := .sides operands hands left right
    have shown := related.writable_eq
    have held (key : String) := (lookup_sides operands hands key).1
    have given (key : String) := (lookup_sides operands hands key).2
    cases s with
    | data => exact related.sameData
    | node => exact decodeIn_sides_agrees operands hands shown (first .node) (second .node)
    | nodes => exact Node.decodeItems_agrees .none shown
    | predicate =>
      -- neither form holds a field of a predicate
      refine SpatialPredicate.decode_record_agrees shown fun key slot read => ?_
      rw [held, given]
      simp only [Model.reads, List.mem_cons, Prod.mk.injEq, List.not_mem_nil, or_false] at read
      rcases read with ⟨rfl, -⟩ | ⟨rfl, -⟩ <;> exact .none
    | geometry =>
      -- nor the tag of a geometry
      refine Geometry.decodeIn_record_agrees shown (tags (.inl rfl) related) fun s _ carried => ?_
      obtain ⟨tag, type, named⟩ := carried.type _ rfl
      rw [held] at type
      cases type
      exact absurd (Option.some.inj named) (name_ne_shape c s)
    | geometries => exact Geometry.decodeMembers_agrees .none shown

end AsSides

end Value

/-! ## Answers -/

/-- Operands as a sequence of two and as two sides get the same answers, if both forms are within
    the limit or both are beyond it; beyond it, as long as no object lacks a field.  In between the
    form with the sequence is refused, and the form with the sides is answered as with any limit
    that it is within. -/
theorem Value.AsSides.sameOutcomes {v w : Value} (related : v.AsSides w) (limit : Int) :
    ((v.nest : Int) ≤ max limit 0 → SameOutcomes limit v w) ∧
    (v.complete = true → max limit 0 < w.nest → SameOutcomes limit v w) ∧
    (v.complete = true → max limit 0 < v.nest → (w.nest : Int) ≤ max limit 0 →
      Stopped (.beyond limit) limit v ∧
        ∀ higher : Int, (v.nest : Int) ≤ max higher 0 →
          SameLimits limit higher w ∧ SameOutcomes higher v w) := by
  have smaller := related.nest_le
  have read : (Node.decode v).Agrees (Node.decode w) := related.agrees .node .full
  have within (limit : Int) (shallow : (v.nest : Int) ≤ max limit 0) : SameOutcomes limit v w := by
    refine sameOutcomes_of_agrees ?_ read
    rw [guardDepth_shallow shallow, guardDepth_shallow (by omega), related.complete_eq]
  refine ⟨within limit, fun complete deep => ?_, fun complete deep shallow => ⟨?_, ?_⟩⟩
  · refine sameOutcomes_of_agrees ?_ read
    rw [guardDepth_eq complete, guardDepth_eq (related.complete_eq ▸ complete),
      if_neg (by omega), if_neg (by omega)]
  · apply stopped_of_guard
    rw [guardDepth_eq complete, if_neg (by omega)]
  · intro higher bound
    have whole : w.complete = true := related.complete_eq ▸ complete
    refine ⟨sameLimits_of_guard ?_ ?_, within higher bound⟩
    · rw [guardDepth_eq whole, if_pos shallow]
    · rw [guardDepth_eq whole, if_pos (by omega)]

/-! ## A limit in between -/

/-- The mapping of a text leaf. -/
def textLeaf (s : String) : Value :=
  .mapping [("type", .str "literal"), ("kind", .str "string"), ("value", .str s)]

def pairAsOperands : Value :=
  .mapping [("type", .str "and"), ("operands", .list [textLeaf "x", textLeaf "y"])]

def pairAsSides : Value :=
  .mapping [("type", .str "and"), ("lhs", textLeaf "x"), ("rhs", textLeaf "y")]

theorem pair_asSides : pairAsOperands.AsSides pairAsSides :=
  .sides (c := .and) (.refl _) (.refl _) (.same _) (.same _)

/-- With room for both or for neither, they get the same answers; in between, one is refused. -/
theorem pair_sameOutcomes :
    pairAsOperands.AsSides pairAsSides ∧ SameOutcomes 200 pairAsOperands pairAsSides ∧
      SameOutcomes 1 pairAsOperands pairAsSides ∧ Stopped .tooDeep 2 pairAsOperands ∧
        SameLimits 2 200 pairAsSides := by
  obtain ⟨within, -⟩ := pair_asSides.sameOutcomes 200
  obtain ⟨-, beyond, -⟩ := pair_asSides.sameOutcomes 1
  obtain ⟨-, -, between⟩ := pair_asSides.sameOutcomes 2
  obtain ⟨stopped, higher⟩ := between (by decide) (by decide) (by decide)
  rw [GuardStop.beyond_eq_tooDeep.2 (by decide +kernel)] at stopped
  exact ⟨pair_asSides, within (by decide), beyond (by decide) (by decide), stopped,
    (higher 200 (by decide)).1⟩

/-- With room for the sides alone, they do not. -/
theorem pairAsOperands_refused :
    pairAsOperands.AsSides pairAsSides ∧
      validateElement 2 pairAsOperands = .ok (.rejected (.tooDeep 2)) ∧
      validateElement 2 pairAsSides =
        .ok (.accepted (.combine .and [.literal (.string "x"), .literal (.string "y")])) := by
  refine ⟨pair_asSides, ?_, ?_⟩
  · have deep : guardDepth 2 pairAsOperands = .error (.beyond 2) := guardDepth_eq (by decide)
    rw [GuardStop.beyond_eq_tooDeep.2 (by decide +kernel)] at deep
    exact (stopped_of_guard deep).element
  · refine checkValue_eq_accepted.2 ⟨guardDepth_eq (by decide), ?_, rfl⟩
    rw [pairAsSides, Node.decode, Node.decodeIn_record]
    rfl

end QueryTree
