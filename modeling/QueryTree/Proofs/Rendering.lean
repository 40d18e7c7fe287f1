import QueryTree.Proofs.Grammar.Decision
import QueryTree.Proofs.Positions
import QueryTree.Query

/-!
# Rendering trees

Rendering the object of a tree gives the text of the tree. The limit on digits is all that can stop
it: no part of a tree reaches a branch for strange values.

* `written`                  : a text, unless it has an integer beyond the limit
* `Value.literalText_named`  : values beside the name of their kind
* `Literal.render_eq`, `Range.render_eq` : leaves and ranges
* `Node.Formed.leaf`         : there is room for the geometries in a tree that was read
* `Node.Formed.render_eq`, `Node.Formed.render_toValue` : trees, and trees without long integers
* `Node.text_of_render`      : any tree, if it is rendered
* `toQuery_eq`, `toQuery_eq_accepted` : the query of a value is the text of its tree
* `Node.render_total`        : which branches rendering takes
-/

namespace QueryTree

variable {α β γ : Type}

/-! ## Texts that can be written -/

/-- A text, unless an integer in it is beyond the limit on digits. -/
def written (writable : Bool) (text : α) : Except Failure α :=
  if writable then .ok text else .error (.oversized none)

theorem written_map (a : Bool) (x : α) (f : α → β) :
    (written a x >>= fun s => .ok (f s)) = written a (f x) := by
  cases a <;> rfl

theorem written_both (a b : Bool) (x : α) (y : β) (f : α → β → γ) :
    (written a x >>= fun s => written b y >>= fun t => .ok (f s t)) = written (a && b) (f x y) := by
  cases a <;> cases b <;> rfl

/-- Two steps end well when both do. -/
theorem bind_eq_ok {ε : Type} {x : Except ε α} {f : α → Except ε β} {b : β} :
    (x >>= f) = .ok b ↔ ∃ a, x = .ok a ∧ f a = .ok b := by
  cases x with
  | error e => exact iff_of_false nofun nofun
  | ok a =>
    constructor
    · exact fun rest => ⟨a, rfl, rest⟩
    · rintro ⟨_, ⟨⟩, rest⟩
      exact rest

/-! ## Leaves and ranges -/

theorem Number.numberText_ofNumber (n : Number) :
    (Value.ofNumber n).numberText = written n.writable n.queryText := by
  cases n <;> rfl

theorem Moment.dateText_ofMoment (m : Moment) : (Value.ofMoment m).dateText = .ok m.queryText := by
  rw [Value.ofMoment, Value.dateText, Value.moment?, DateTime.utc?_ofUtc]
  rfl

/-- A geometry is read before it is written. -/
theorem Value.geometryText_decode {v : Value} {g : Geometry} (done : Geometry.decode v = .done g) :
    v.geometryText = written g.writable g.wkt := by
  simp only [geometryText, done]
  rfl

/-- The geometry of a predicate is read once more before it is written. -/
theorem SpatialPredicate.spatialText_toValue {p : SpatialPredicate} (formed : p.geom.Formed) :
    p.toValue.spatialText = written p.geom.writable (Text.quote p.text) := by
  have object : p.toValue =
      .object .predicate [("op", .operator p.op), ("geom", p.geom.toValue)] := rfl
  have op : [("op", Value.operator p.op), ("geom", p.geom.toValue)].lookup "op" =
      some (.operator p.op) := rfl
  have geom : [("op", Value.operator p.op), ("geom", p.geom.toValue)].lookup "geom" =
      some p.geom.toValue := rfl
  rw [object, Value.spatialText]
  simp only [op, geom, Value.geometryText_decode formed.decode_toValue, Value.operatorText]
  exact written_map _ _ fun wkt => Text.quote (p.op.name.toList ++ commas [wkt])

/-- A value that is there is written as one of the kind that is named beside it. -/
theorem Value.literalText_named {v name : Value} {kind : Kind} (present : v ≠ .null)
    (named : name.text? = some kind.name) : v.literalText name = v.textOfKind kind := by
  have found := Kind.lookup_name named
  cases v with
  | null => exact absurd rfl present
  | _ =>
    rw [literalText, found]
    · rfl
    · rintro ⟨⟩

theorem Literal.textOfKind_content {l : Literal} (fits : l.InRoom .full) :
    l.content.textOfKind l.kind = written l.writable l.text := by
  cases l with
  | string _ | glob _ => rfl
  | number n => exact n.numberText_ofNumber
  | date m => exact m.dateText_ofMoment
  | spatial p => exact SpatialPredicate.spatialText_toValue (Geometry.formed_iff.2 fits)

theorem Value.ofNumber_ne_null (n : Number) : Value.ofNumber n ≠ .null := by
  cases n <;> simp [ofNumber]

theorem Literal.content_ne_null (l : Literal) : l.content ≠ .null := by
  cases l with
  | number n => exact Value.ofNumber_ne_null n
  | _ => simp [content, Value.ofMoment, SpatialPredicate.toValue, Model.object, Value.handBuilt]

theorem Literal.render_eq {l : Literal} (fits : l.InRoom .full) :
    l.toValue.render = written l.writable l.text := by
  show l.content.literalText (.str l.kind.name) = _
  rw [Value.literalText_named l.content_ne_null rfl, textOfKind_content fits]

/-- A leaf is only written if there is room for what it holds. -/
theorem Literal.inRoom_of_render {l : Literal} {text : List Char}
    (rendered : l.toValue.render = .ok text) : l.InRoom .full := by
  cases l with
  | spatial p =>
    replace rendered : (do
        let wkt ← p.geom.toValue.geometryText
        .ok (Text.quote (p.op.name.toList ++ commas [wkt]))) = .ok text := rendered
    obtain ⟨wkt, read, -⟩ := bind_eq_ok.1 rendered
    unfold Value.geometryText at read
    cases done : Geometry.decode p.geom.toValue with
    | done g =>
      obtain ⟨form, fits⟩ := Geometry.decode_eq_done_iff.1 done
      rwa [form.unique (geometryForm_encoded faithful_id p.geom)] at fits
    | faulty f fs =>
      rw [done] at read
      cases read
    | outsideCalendar =>
      rw [done] at read
      cases read
  | _ => exact Nat.zero_le _

/-- The values of the bounds that a range has. -/
def Bounds.present (toValue : α → Value) (b : Bounds α) : List Value :=
  (b.span.lower?.toList ++ b.span.upper?.toList).map toValue

def Range.present : Range → List Value
  | .string b => b.present .str
  | .number b => b.present .ofNumber
  | .date b => b.present .ofMoment

section Bounds

variable {toValue : α → Value} {write : α → List Char} (kind : OrderedKind) (writable : α → Bool)
  (there : ∀ a, toValue a ≠ .null)
  (writes : ∀ a, (toValue a).textOfKind kind.toKind = written (writable a) (write a))

include there writes

/-- A bound is written as a value of the kind of the range, or as a wildcard. -/
theorem literalText_boundValue (bound : Option α) :
    (boundValue toValue bound).literalText (.str kind.name) =
      written (bound.all writable) (boundText write bound) := by
  cases bound with
  | none => rfl
  | some a =>
    have named : (Value.str kind.name).text? = some kind.toKind.name := rfl
    show (toValue a).literalText _ = written (writable a) (write a)
    rw [Value.literalText_named (there a) named, writes a]

theorem Bounds.render_eq (b : Bounds α) :
    (b.toValue kind toValue).render =
      written (b.span.lower?.all writable && b.span.upper?.all writable) (b.text write) := by
  show (do
      let lower ← (boundValue toValue b.span.lower?).literalText (.str kind.name)
      let upper ← (boundValue toValue b.span.upper?).literalText (.str kind.name)
      .ok (rangeText b.closedLower b.closedUpper lower upper)) = _
  rw [literalText_boundValue kind writable there writes,
    literalText_boundValue kind writable there writes]
  exact written_both _ _ _ _ (rangeText b.closedLower b.closedUpper)

end Bounds

theorem Value.ofMoment_ne_null (m : Moment) : Value.ofMoment m ≠ .null := by
  simp [ofMoment]

theorem Range.render_eq (r : Range) : r.toValue.render = written r.writable r.text := by
  cases r with
  | string b =>
    have writes (s : String) : (Value.str s).textOfKind .string =
        written true (Text.quote s.toList) := rfl
    have rendered := Bounds.render_eq .string (fun _ => true) (by simp) writes b
    simpa [toValue, text, writable] using rendered
  | number b =>
    have writes (n : Number) : (Value.ofNumber n).textOfKind .number =
        written n.writable n.queryText := n.numberText_ofNumber
    exact Bounds.render_eq .number Number.writable Value.ofNumber_ne_null writes b
  | date b =>
    have writes (m : Moment) : (Value.ofMoment m).textOfKind .date =
        written true m.queryText := m.dateText_ofMoment
    have rendered := Bounds.render_eq .date (fun _ => true) Value.ofMoment_ne_null writes b
    simpa [toValue, text, writable] using rendered

/-! ## Leaves of trees -/

/-- Inside a class of nodes there is less room than outside, but a place for collections to call
    from. -/
theorem Room.enter_isNode {room inner : Room} {m : Model} (node : m.isNode = true)
    (placed : 0 < room.rank) (entered : room.enter m = some inner) :
    0 < inner.rank ∧ inner.left ≤ room.left := by
  obtain ⟨-, rfl⟩ := enter_eq_some.1 entered
  refine ⟨?_, Nat.sub_le _ _⟩
  cases m with
  | combine c => cases c <;> simpa [Model.innerRank, Model.rank?]
  | modify m => cases m <;> simpa [Model.innerRank, Model.rank?]
  | predicate | geometry _ | filter _ => cases node
  | _ => simpa [Model.innerRank, Model.rank?]

/-- Geometries are read alike inside all classes of nodes. -/
theorem Geometry.readers_of_pos {rank rank' : Nat} (g : Geometry) (placed : 0 < rank)
    (placed' : 0 < rank') : g.readers rank = g.readers rank' := by
  cases g with
  | collection g gs =>
    simp [readers, Model.entries, Model.innerRank, Model.rank?, placed, placed']
  | _ => rfl

/-- What a leaf holds is in a room if it is in the room inside a class of nodes. -/
theorem Literal.inRoom_outside {l : Literal} {n : Node} {room inner : Room} (placed : 0 < room.rank)
    (entered : room.enter n.model = some inner) (fits : 0 < inner.rank → l.InRoom inner) :
    l.InRoom room := by
  obtain ⟨placed', less⟩ := Room.enter_isNode n.isNode_model placed entered
  have fits := fits placed'
  cases l with
  | spatial p =>
    have same := p.geom.readers_of_pos placed' placed
    simp only [InRoom, readers] at fits ⊢
    omega
  | _ => exact Nat.zero_le _

/-- What a leaf of a tree holds is in the room of the tree. -/
theorem Node.InRoom.leaf {l : Literal} {n : Node} {room : Room} (placed : 0 < room.rank)
    (within : Within (.literal l) n) (fits : n.InRoom room) : l.InRoom room := by
  induction within generalizing room with
  | self =>
    obtain ⟨inner, entered, part⟩ := inRoom_iff.1 fits
    exact Literal.inRoom_outside placed entered fun _ => part
  | operand member _ ih =>
    obtain ⟨inner, entered, parts⟩ := inRoom_iff.1 fits
    exact Literal.inRoom_outside placed entered fun placed' => ih placed' (parts _ member)
  | term _ ih | namedTerm _ ih | modify _ ih | constant _ ih =>
    obtain ⟨inner, entered, part⟩ := inRoom_iff.1 fits
    exact Literal.inRoom_outside placed entered fun placed' => ih placed' part

theorem Node.Formed.leaf {l : Literal} {n : Node} (formed : n.Formed)
    (within : Within (.literal l) n) : l.InRoom .full :=
  InRoom.leaf (by decide) within (formed_iff.1 formed)

/-! ## Trees -/

namespace Node

theorem renderEach_eq {ns : List Node}
    (each : ∀ n ∈ ns, n.toValue.render = written n.writable n.text) :
    Value.renderEach (toValues ns) = written (writableList ns) (texts ns) := by
  induction ns with
  | nil => rfl
  | cons n ns ih =>
    rw [toValues, Value.renderEach, each n (.head _), ih fun m member => each m (.tail _ member)]
    exact written_both _ _ _ _ List.cons

/-- The object of a tree is written as the tree, unless an integer in it is too long.  Only the
    leaves are read again, so that is all that the induction has to know of the room. -/
theorem render_of_leaves {n : Node} (leaves : ∀ l, Within (.literal l) n → l.InRoom .full) :
    n.toValue.render = written n.writable n.text := by
  induction n using Node.induction with
  | literal l => exact Literal.render_eq (leaves l .self)
  | range r => exact r.render_eq
  | term v ih =>
    show v.toValue.render = written v.writable v.text
    exact ih fun l within => leaves l (.term within)
  | namedTerm f v ih =>
    show (do let value ← v.toValue.render; .ok (fieldText f.text.toList value)) = _
    rw [ih fun l within => leaves l (.namedTerm within)]
    exact written_map _ _ (fieldText f.text.toList)
  | combine c ns ih =>
    show (do let operands ← Value.renderEach (toValues ns); .ok (c.text operands)) = _
    rw [renderEach_eq fun n member => ih n member fun l within => leaves l (.operand member within)]
    exact written_map _ _ c.text
  | modify m n ih =>
    show (do let rhs ← n.toValue.render; .ok (m.text rhs)) = _
    rw [ih fun l within => leaves l (.modify within)]
    exact written_map _ _ m.text
  | constant n boost ih =>
    show (do
        let lhs ← n.toValue.render
        let boost ← (Value.ofNumber boost).numberText
        .ok (boostText lhs boost)) = _
    rw [ih fun l within => leaves l (.constant within), boost.numberText_ofNumber]
    exact written_both _ _ _ _ boostText

theorem Formed.render_eq {n : Node} (formed : n.Formed) :
    n.toValue.render = written n.writable n.text :=
  render_of_leaves fun _ => formed.leaf

theorem Formed.render_toValue {n : Node} (formed : n.Formed) (writable : n.writable = true) :
    n.toValue.render = .ok n.text := by
  rw [formed.render_eq, writable]
  rfl

/-- Texts of trees are made one by one. -/
theorem exists_render_of_mem {n : Node} {ns : List Node} {texts : List (List Char)}
    (each : Value.renderEach (toValues ns) = .ok texts) (member : n ∈ ns) :
    ∃ text, n.toValue.render = .ok text := by
  induction ns generalizing texts with
  | nil => cases member
  | cons m ns ih =>
    obtain ⟨text, first, each⟩ := bind_eq_ok.1 each
    obtain ⟨_, rest, -⟩ := bind_eq_ok.1 each
    cases member with
    | head => exact ⟨text, first⟩
    | tail _ member => exact ih rest member

/-- A part of what is written is written by itself. -/
theorem exists_render_of_within {m n : Node} {text : List Char} (within : Within m n)
    (rendered : n.toValue.render = .ok text) : ∃ t, m.toValue.render = .ok t := by
  induction within generalizing text with
  | self => exact ⟨text, rendered⟩
  | term _ ih => exact ih rendered
  | @namedTerm f v _ ih =>
    replace rendered : (do let value ← v.toValue.render; .ok (fieldText f.text.toList value)) =
        .ok text := rendered
    obtain ⟨t, part, -⟩ := bind_eq_ok.1 rendered
    exact ih part
  | modify _ ih | constant _ ih =>
    obtain ⟨t, part, -⟩ := bind_eq_ok.1 rendered
    exact ih part
  | operand member _ ih =>
    obtain ⟨texts, each, -⟩ := bind_eq_ok.1 rendered
    obtain ⟨t, part⟩ := exists_render_of_mem each member
    exact ih part

/-- If a tree is written at all, it is as its text: its geometries were read again. -/
theorem text_of_render {n : Node} {text : List Char} (rendered : n.toValue.render = .ok text) :
    text = n.text := by
  have leaves (l : Literal) (within : Within (.literal l) n) : l.InRoom .full := by
    obtain ⟨t, part⟩ := exists_render_of_within within rendered
    exact Literal.inRoom_of_render part
  rw [render_of_leaves leaves, written] at rendered
  split at rendered
  · cases rendered
    rfl
  · cases rendered

theorem exists_object (n : Node) : ∃ fs, n.toValue = .object n.model fs := by
  cases n with
  | range r => cases r <;> exact ⟨_, rfl⟩
  | _ => exact ⟨_, rfl⟩

end Node

theorem Range.present_ne_null {r : Range} {v : Value} (member : v ∈ r.present) : v ≠ .null := by
  cases r with
  | string b =>
    obtain ⟨s, -, rfl⟩ := List.mem_map.1 member
    simp
  | number b =>
    obtain ⟨n, -, rfl⟩ := List.mem_map.1 member
    exact Value.ofNumber_ne_null n
  | date b =>
    obtain ⟨m, -, rfl⟩ := List.mem_map.1 member
    exact Value.ofMoment_ne_null m

/-! ## Queries -/

/-- What is accepted was read. -/
theorem formed_of_accepted {role : Role} {limit : Int} {v : Value} {n : Node}
    (accepted : checkValue role limit v = .ok (.accepted n)) : n.Formed :=
  ⟨v, (checkValue_eq_accepted.1 accepted).2.1⟩

/-- The query of a value is the text of the tree that it is accepted as. -/
theorem toQuery_eq {limit : Int} {v : Value} {n : Node}
    (accepted : validateElement limit v = .ok (.accepted n)) :
    toQuery limit v = n.toValue.render.map fun text => .accepted (String.ofList text) := by
  simp only [toQuery, accepted, (formed_of_accepted accepted).render_eq, bind, Except.bind]
  cases n.writable <;> rfl

/-- A query text is the text of a tree that was accepted and can be written. -/
theorem toQuery_eq_accepted {limit : Int} {v : Value} {text : String} :
    toQuery limit v = .ok (.accepted text) ↔
      ∃ n, validateElement limit v = .ok (.accepted n) ∧ n.writable = true ∧
        text = String.ofList n.text := by
  constructor
  · intro written
    cases checked : validateElement limit v with
    | error failure =>
      rw [toQuery, checked] at written
      cases written
    | ok verdict =>
      cases verdict with
      | rejected reasons =>
        rw [toQuery, checked] at written
        cases written
      | accepted n =>
        rw [toQuery_eq checked, (formed_of_accepted checked).render_eq] at written
        cases writable : n.writable with
        | false =>
          rw [writable] at written
          cases written
        | true =>
          rw [writable] at written
          cases written
          exact ⟨n, rfl, writable, rfl⟩
  · rintro ⟨n, checked, writable, rfl⟩
    rw [toQuery_eq checked, (formed_of_accepted checked).render_toValue writable]
    rfl

/-- Rendering a tree gives its text, unless an integer in it is beyond the limit on digits; there is
    no other outcome. Every part of the tree is an object of a class of nodes, the kinds of its
    leaves and ranges are found in the registry, its geometries are read once more without a fault,
    and a value or bound that is there is not taken for an absent one. What is accepted as the tree
    is answered by the same text. -/
theorem Node.render_total {n : Node} (formed : n.Formed) :
    n.toValue.render = (if n.writable then .ok n.text else .error (.oversized none)) ∧
    (∀ m, Within m n → m.model.isNode = true ∧ ∃ fs, m.toValue = .object m.model fs) ∧
    (∀ l, Within (.literal l) n →
      Kind.lookup (.str l.kind.name) = .ok l.kind ∧ l.content ≠ .null) ∧
    (∀ p, Within (.literal (.spatial p)) n → Geometry.decode p.geom.toValue = .done p.geom) ∧
    (∀ r, Within (.range r) n →
      Kind.lookup (.str r.kind.name) = .ok r.kind.toKind ∧ ∀ v ∈ r.present, v ≠ .null) ∧
    ∀ limit v, validateElement limit v = .ok (.accepted n) →
      toQuery limit v = n.toValue.render.map fun text => .accepted (String.ofList text) := by
  refine ⟨formed.render_eq, fun m _ => ⟨m.isNode_model, m.exists_object⟩, ?_, ?_, ?_, ?_⟩
  · intro l _
    exact ⟨Kind.lookup_name rfl, l.content_ne_null⟩
  · intro p within
    exact Geometry.Formed.decode_toValue (Geometry.formed_iff.2 (formed.leaf within))
  · intro r _
    exact ⟨Kind.lookup_name rfl, fun v => Range.present_ne_null⟩
  · intro limit v accepted
    exact toQuery_eq accepted

/-- Values of `n` above three, or documents around the origin. -/
def Node.aboveOrAround : Node :=
  .combine .or [
    .namedTerm ⟨"n", by decide⟩ (.range (.number ⟨false, false, .above (.int 3)⟩)),
    .term (.literal (.spatial ⟨.contains, .point (.flat (.int 0) (.int 0))⟩))]

/-- Its bound, its geometry and the names of its kinds are written, and so is the query. -/
theorem Node.render_total_aboveOrAround :
    aboveOrAround.toValue.render = .ok aboveOrAround.text ∧
      Kind.lookup (.str "number") = .ok .number ∧
      Kind.lookup (.str "spatial") = .ok .spatial ∧
      Geometry.decode (Geometry.point (.flat (.int 0) (.int 0))).toValue =
        .done (.point (.flat (.int 0) (.int 0))) ∧
      toQuery 200 aboveOrAround.toValue =
        .ok (.accepted (String.ofList aboveOrAround.text)) := by
  have formed : aboveOrAround.Formed := formed_iff.2 (by decide)
  obtain ⟨rendered, -, literals, geometries, ranges, queries⟩ := render_total formed
  have spatial : Within (.literal (.spatial ⟨.contains, .point (.flat (.int 0) (.int 0))⟩))
      aboveOrAround := .operand (.tail _ (.head _)) (.term .self)
  have range : Within (.range (.number ⟨false, false, .above (.int 3)⟩)) aboveOrAround :=
    .operand (.head _) (.namedTerm .self)
  have writable : aboveOrAround.writable = true := by decide +kernel
  have accepted : validateElement 200 aboveOrAround.toValue = .ok (.accepted aboveOrAround) := by
    have deep : (aboveOrAround.toValue.nest : Int) ≤ 200 := by decide
    rw [validateElement, checkValue_toValue formed deep]
    rfl
  have text : aboveOrAround.toValue.render = .ok aboveOrAround.text := by
    rw [rendered, if_pos writable]
  refine ⟨text, (ranges _ range).1, (literals _ spatial).1, geometries _ spatial, ?_⟩
  rw [queries 200 _ accepted, text]
  rfl

end QueryTree
