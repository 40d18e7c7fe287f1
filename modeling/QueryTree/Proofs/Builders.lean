import QueryTree.Builder
import QueryTree.Proofs.Encoding

/-!
# Builders and constructors

The constructor of a class gives back a tree from its fields, and so do the builders that call it
with the parts of a tree.

* `Node.fields`        : what the constructor of a tree is given
* `Node.build_eq`      : constructors read fields as the reader of trees does
* `buildNode_fields`   : constructors
* `Build.literal_content`, `Build.range_bounds`, `Build.modify_toValue`, `Build.combine_toValues` :
  builders
-/

namespace QueryTree

variable {α : Type}

/-! ## Constructors -/

def Bounds.fields (toValue : α → Value) (b : Bounds α) : List (String × Value) :=
  [("closed_lower", .bool b.closedLower), ("closed_upper", .bool b.closedUpper),
    ("lower", boundValue toValue b.span.lower?), ("upper", boundValue toValue b.span.upper?)]

def Range.fields : Range → List (String × Value)
  | .string b => b.fields .str
  | .number b => b.fields .ofNumber
  | .date b => b.fields .ofMoment

/-- The fields of a tree that are not tags. -/
def Node.fields : Node → List (String × Value)
  | .literal l => [("value", l.content)]
  | .range r => r.fields
  | .term v => [("value", v.toValue)]
  | .namedTerm f v => [("field", .str f.text), ("value", v.toValue)]
  | .combine _ ns => [("operands", .tuple (toValues ns))]
  | .modify _ n => [("rhs", n.toValue)]
  | .constant n boost => [("lhs", n.toValue), ("rhs", .ofNumber boost)]

theorem decodeTag_missing {key expected : String} {fs : List (String × Value)}
    (missing : fs.lookup key = none) : decodeTag key expected fs = .done () := by
  rw [decodeTag, missing]

/-- Constructors that are given no tags read their fields as the reader of trees does. -/
theorem Node.build_eq {model : Model} {fs : List (String × Value)}
    (noType : fs.lookup "type" = none) (noKind : fs.lookup "kind" = none) :
    Node.build model fs =
      Node.ofFields (.constructing model) model none (.mapping fs) fs := by
  have type (tag : String) : decodeTag "type" tag fs = .done () := decodeTag_missing noType
  have kind (tag : String) : decodeTag "kind" tag fs = .done () := decodeTag_missing noKind
  cases model with
  | literal k =>
    have literals : Node.build (.literal k) fs = Decoded.combine (fun _ n => n) (.done ())
        (Decoded.combine (fun _ l => .literal l) (.done ())
          (Literal.ofFields (.constructing (.literal k)) k (.mapping fs) fs)) := by
      simp [build, type, kind, Model.tag?, Model.kindTag?]
    rw [literals, Decoded.combine_known, ofFields]
    cases Literal.ofFields (.constructing (.literal k)) k (.mapping fs) fs <;> rfl
  | _ => simp [build, ofFields, operandsOf, type, kind, Model.tag?, Model.kindTag?, Tags.right]

theorem boundsForm_fields {form : Value → α → Prop} {toValue : α → Value}
    (each : ∀ a, form (toValue a) a) (b : Bounds α) : BoundsForm form (b.fields toValue) b := by
  have bound {key : String} {a? : Option α}
      (found : (b.fields toValue).lookup key = some (boundValue toValue a?)) :
      BoundAt form key (b.fields toValue) a? := by
    cases a? with
    | none => exact .null found
    | some a => exact .given found (each a)
  exact ⟨.own rfl, .own rfl, bound rfl, bound rfl⟩

theorem rangeForm_fields (r : Range) : RangeForm r.fields r := by
  cases r with
  | string b =>
    have strings (s : String) : (Value.str s).text? = some s := rfl
    exact .string (boundsForm_fields strings b)
  | number b => exact .number (boundsForm_fields NumberForm.ofNumber b)
  | date b =>
    exact .date (boundsForm_fields (fun m => .dateTime (DateTime.utc?_ofUtc m)) b)

/-- The fields of a tree are read as its parts, if there is room for these. -/
theorem Node.ofFields_fields {n : Node} {room : Room} (fits : n.PartsInRoom room) (whole : Value) :
    Node.ofFields room n.model none whole n.fields = .done n := by
  cases n with
  | literal l =>
    refine Decoded.map_eq_done.2 ⟨l, Literal.ofFields_eq_done.2 ⟨⟨rfl, _, rfl, ?_⟩, fits⟩, rfl⟩
    exact literalForm_encoded faithful_id l
  | range r =>
    exact Decoded.map_eq_done.2 ⟨r, Range.ofFields_eq_done.2 ⟨rfl, rangeForm_fields r⟩, rfl⟩
  | term v =>
    exact Decoded.map_eq_done.2 ⟨v, decodeRequired_eq_done.2 ⟨_, rfl, decodeIn_toValue fits⟩, rfl⟩
  | namedTerm f v =>
    refine Decoded.combine_eq_done.2 ⟨f, v, ?_, ?_, rfl⟩
    · exact decodeRequired_eq_done.2 ⟨_, rfl, FieldName.decode_eq_done.2 rfl⟩
    · exact decodeRequired_eq_done.2 ⟨_, rfl, decodeIn_toValue fits⟩
  | combine c ns =>
    refine Decoded.map_eq_done.2 ⟨ns, operandsOf_eq_done.2 (.inl ⟨_, _, rfl, rfl, ?_⟩), rfl⟩
    rw [toValues_eq]
    exact forall₂_map_same fun n member => decodeIn_toValue (fits n member)
  | modify m n =>
    exact Decoded.map_eq_done.2 ⟨n, decodeRequired_eq_done.2 ⟨_, rfl, decodeIn_toValue fits⟩, rfl⟩
  | constant n boost =>
    refine Decoded.combine_eq_done.2 ⟨n, boost, ?_, ?_, rfl⟩
    · exact decodeRequired_eq_done.2 ⟨_, rfl, decodeIn_toValue fits⟩
    · exact decodeRequired_eq_done.2 ⟨_, rfl, Number.decode_eq_done.2 (.ofNumber boost)⟩

/-- A tree is constructed from its fields, if its constructor has room for the parts. -/
theorem buildNode_fields {n : Node} (fits : n.Buildable) : buildNode n.model n.fields = .ok n := by
  have untagged : n.fields.lookup "type" = none ∧ n.fields.lookup "kind" = none := by
    cases n with
    | range r => cases r <;> exact ⟨rfl, rfl⟩
    | _ => exact ⟨rfl, rfl⟩
  rw [buildNode, Node.build_eq untagged.1 untagged.2, Node.ofFields_fields fits]
  rfl

/-! ## Builders -/

namespace Build

theorem literal_content {l : Literal} {kind : OrderedKind}
    (classified : Kind.classify l.content = .ok kind) (same : kind.toKind = l.kind) :
    literal l.content = .ok (.literal l) := by
  rw [literal, classified]
  show buildNode (.literal kind.toKind) _ = _
  rw [same]
  have plain : l.kind ≠ .spatial := by
    rw [← same]
    cases kind <;> exact nofun
  exact buildNode_fields (n := .literal l) (Literal.inRoom_plain plain _)

theorem globLiteral_str (pattern : String) :
    globLiteral (.str pattern) = .ok (.literal (.glob pattern)) :=
  buildNode_fields (n := .literal (.glob pattern)) (Literal.inRoom_plain (by simp [Literal.kind]) _)

theorem boundKind_boundValue {toValue : α → Value} {kind : OrderedKind}
    (classified : ∀ a, Kind.classify (toValue a) = .ok kind) (bound : Option α) :
    boundKind (boundValue toValue bound) = .ok (bound.map fun _ => kind) := by
  cases bound with
  | none => rfl
  | some a =>
    have present : toValue a ≠ .null := by
      intro null
      have failed := classified a
      rw [null] at failed
      cases failed
    show boundKind (toValue a) = _
    rw [boundKind, classified a]
    · rfl
    · exact present

/-- A range is built from its bounds, the kind of which is found out. -/
theorem range_bounds {toValue : α → Value} {r : Range} {b : Bounds α}
    (classified : ∀ a, Kind.classify (toValue a) = .ok r.kind) (fields : r.fields = b.fields toValue) :
    range (.bool b.closedLower) (.bool b.closedUpper) (boundValue toValue b.span.lower?)
      (boundValue toValue b.span.upper?) = .ok (.range r) := by
  have built : buildNode (.range r.kind) (b.fields toValue) = .ok (.range r) := by
    rw [← fields]
    exact buildNode_fields (n := .range r) trivial
  rw [range, boundKind_boundValue classified, boundKind_boundValue classified]
  obtain ⟨closedLower, closedUpper, span⟩ := b
  cases span with
  | above l => exact built
  | below u => exact built
  | between l u =>
    show (if r.kind = r.kind then _ else _) = _
    rw [if_pos rfl]
    exact built

theorem modify_toValue {m : Modifier} {n : Node} (fits : (Node.modify m n).Buildable) :
    modify m n.toValue = .ok (.modify m n) :=
  buildNode_fields fits

theorem combine_toValues {c : Connective} {ns : List Node} (fits : (Node.combine c ns).Buildable) :
    combine c (ns.map Node.toValue) = .ok (.combine c ns) := by
  rw [← Node.toValues_eq]
  exact buildNode_fields fits

end Build

end QueryTree
