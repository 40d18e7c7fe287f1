import QueryTree.Geometry.Decode

/-!
# Reading query trees

Query trees from mappings with tags and from node objects.  The tag `type` tells the
class of a node; literals and ranges carry a second tag, `kind`.

* `Node.classOf`      : the class that a value says it is of
* `Literal.ofFields`, `Range.ofFields` : leaves and ranges from their fields
* `Node.decodeIn`     : a tree, in the room that is left for readers
* `Node.decode`       : a tree
* `Node.build`        : a tree of a given class from its fields
-/

namespace QueryTree

open Decoded

/-! ## Leaves -/

def Literal.ofFields (room : Room) (kind : Kind) (whole : Value) (fs : List (String × Value)) :
    Decoded Literal :=
  match kind with
  | .string => (decodeRequired "value" decodeString whole fs).map .string
  | .number => (decodeRequired "value" Number.decode whole fs).map .number
  | .date => (decodeRequired "value" Moment.decode whole fs).map .date
  | .glob => (decodeRequired "value" decodeString whole fs).map .glob
  | .spatial => (decodeRequired "value" (SpatialPredicate.decode room) whole fs).map .spatial

/-! ## Ranges -/

/-- A flag of a range under its name or, if it is not there, under its other name. -/
def decodeFlag (key : String) (whole : Value) (fs : List (String × Value)) : Decoded Bool :=
  match fs.lookup key with
  | some v => (decodeBool v).under (.field key)
  | none =>
    match (Model.otherName? key).bind fun other => (fs.lookup other).map (other, ·) with
    | some (other, v) => (decodeBool v).under (.field other)
    | none => .faulty ⟨[.field key], .fieldMissing, whole⟩ []

structure Tags where
  type : Decoded Unit
  kind : Decoded Unit

def Tags.right : Tags := ⟨.done (), .done ()⟩

/-- A range from its fields: the tag of the class, the flags, the tag of the kind, the bounds.
    That a bound is lacking is only said if nothing else is wrong. -/
def Bounds.ofFields {α : Type} (read : Value → Decoded α) (tags : Tags) (whole : Value)
    (fs : List (String × Value)) : Decoded (Bounds α) :=
  let flags := combine Prod.mk (decodeFlag "closed_lower" whole fs) (decodeFlag "closed_upper" whole fs)
  let bounds := combine Prod.mk (decodeAbsentable "lower" read fs) (decodeAbsentable "upper" read fs)
  let tagged := combine (fun _ flags => flags) tags.type flags
  (combine Prod.mk tagged (combine (fun _ b => b) tags.kind bounds)).bind fun (flags, bounds) =>
    match Span.ofBounds? bounds.1 bounds.2 with
    | some span => .done ⟨flags.1, flags.2, span⟩
    | none => fault .unbounded whole

def Range.ofFields (kind : OrderedKind) (tags : Tags) (whole : Value)
    (fs : List (String × Value)) : Decoded Range :=
  match kind with
  | .string => (Bounds.ofFields decodeString tags whole fs).map .string
  | .number => (Bounds.ofFields Number.decode tags whole fs).map .number
  | .date => (Bounds.ofFields Moment.decode tags whole fs).map .date

/-! ## Classes -/

/-- The classes of nodes that one tag tells by itself, in their order of declaration. -/
def singleTagged : List Model :=
  [.term, .namedTerm, .combine .and, .combine .or, .modify .not, .modify .required,
    .modify .prohibited, .constant]

/-- The tags of nodes, in the order of their declaration. -/
def nodeTags : List String :=
  ["literal", "range"] ++ singleTagged.filterMap Model.tag?

/-- The class of a leaf or range by its second tag, with the step that the tag makes. -/
def kindOf (v : Value) (classes : List Model) : Except Cause (String × Model) :=
  match v.attribute "kind" with
  | .noRecord | .absent => .error (.tagMissing "kind")
  | .found tag =>
    match tag.text?.bind fun t => (classes.find? (·.kindTag? == some t)).map (t, ·) with
    | some found => .ok found
    | none => .error (.tagUnknown "kind" tag.plain (classes.filterMap Model.kindTag?))

/-- The class that a value says it is of, by its tags, with the steps that the tags make; or
    what is wrong with the tags. -/
def Node.classOf (v : Value) : Except (Path × Cause) (Path × Model) :=
  let nested (tag : String) (classes : List Model) : Except (Path × Cause) (Path × Model) :=
    match kindOf v classes with
    | .ok (kind, model) => .ok ([.tag tag, .tag kind], model)
    | .error cause => .error ([.tag tag], cause)
  match v.attribute "type" with
  | .noRecord => .error ([], .notRecord)
  | .absent => .error ([], .tagMissing "type")
  | .found tag =>
    match tag.text? with
    | some "literal" => nested "literal" (Kind.all.map .literal)
    | some "range" => nested "range" (OrderedKind.all.map .range)
    | text =>
      match text.bind fun t => (singleTagged.find? (·.tag? == some t)).map (t, ·) with
      | some (t, model) => .ok ([.tag t], model)
      | none => .error ([], .tagUnknown "type" tag.plain nodeTags)

/-! ## Trees -/

/-- What reading a part gives, as seen from the whole that a path leads into. -/
def Decoded.underPath {α : Type} (path : Path) (d : Decoded α) : Decoded α :=
  path.foldr under d

/-- A child that has to be there; `child` is what reading it gave. -/
def requireChild {α : Type} (key : String) (whole : Value) (child : Option (Decoded α)) : Decoded α :=
  match child with
  | some d => d.under (.field key)
  | none => .faulty ⟨[.field key], .fieldMissing, whole⟩ []

/-- The operands of a combination.  Plain mappings may give two operands as left and right hand
    side instead of a sequence. -/
def chooseOperands {α : Type} (plain : Bool) (whole : Value) (operands : Option (Decoded (List α)))
    (lhs rhs : Option (Decoded α)) : Decoded (List α) :=
  requireChild "operands" whole <|
    match operands, plain, lhs, rhs with
    | some d, _, _, _ => some d
    | none, true, some l, some r =>
      some ((Gathered.cons 0 l (Gathered.cons 1 r Gathered.empty)).atLeast 0 whole)
    | none, _, _, _ => none

namespace Node

mutual

/-- A tree: a mapping or node object with the tags of a class and what that class wants. -/
def decodeIn (room : Room) : Value → Decoded Node
  | .record m fs =>
    let whole := Value.record m fs
    match classOf whole with
    | .error (path, cause) => (fault cause whole).underPath path
    | .ok (path, model) =>
      Decoded.underPath path <| room.read model whole fun inner =>
        if fitsModel model m then
          match model with
          | .literal kind => (Literal.ofFields inner kind whole fs).map .literal
          | .range kind => (Range.ofFields kind .right whole fs).map .range
          | .term => (requireChild "value" whole (decodeAt inner "value" fs)).map .term
          | .namedTerm =>
            Decoded.combine .namedTerm (decodeRequired "field" FieldName.decode whole fs)
              (requireChild "value" whole (decodeAt inner "value" fs))
          | .combine c =>
            (chooseOperands m.isNone whole (decodeOperandsAt inner fs) (decodeAt inner "lhs" fs)
              (decodeAt inner "rhs" fs)).map (.combine c)
          | .modify modifier =>
            (requireChild "rhs" whole (decodeAt inner "rhs" fs)).map (.modify modifier)
          | .constant =>
            Decoded.combine .constant (requireChild "lhs" whole (decodeAt inner "lhs" fs))
              (decodeRequired "rhs" Number.decode whole fs)
          | .predicate | .geometry _ | .filter _ => fault (.notInstance model) whole
        else fault (.notInstance model) whole
  | v =>
    match classOf v with
    | .error (path, cause) => (fault cause v).underPath path
    | .ok (path, model) =>
      Decoded.underPath path <| room.read model v fun _ => fault (.notInstance model) v
termination_by structural v => v

def decodeAt (room : Room) (key : String) : List (String × Value) → Option (Decoded Node)
  | [] => none
  | (k, v) :: rest => if k = key then some (decodeIn room v) else decodeAt room key rest
termination_by structural fs => fs

/-- The sequence of operands among the fields of a combination, if it is there. -/
def decodeOperandsAt (room : Room) : List (String × Value) → Option (Decoded (List Node))
  | [] => none
  | (k, v) :: rest =>
    if k = "operands" then some (decodeItems room v) else decodeOperandsAt room rest
termination_by structural fs => fs

def decodeItems (room : Room) : Value → Decoded (List Node)
  | .list vs => (gatherItems room 0 vs).atLeast 0 (.list vs)
  | .tuple vs => (gatherItems room 0 vs).atLeast 0 (.tuple vs)
  | v => fault .notSequence v
termination_by structural v => v

def gatherItems (room : Room) (i : Nat) : List Value → Gathered Node
  | [] => .empty
  | v :: vs => .cons i (decodeIn room v) (gatherItems room (i + 1) vs)
termination_by structural vs => vs

end

def decode (v : Value) : Decoded Node :=
  decodeIn .full v

/-! ## Constructors -/

/-- A tree of a class from the fields given to its constructor.  Tags may be left out, children
    are read like any others; no tree is of a class that is no node. -/
def build (model : Model) (fs : List (String × Value)) : Decoded Node :=
  let whole := Value.mapping fs
  let room := Room.constructing model
  let typeTag : Decoded Unit :=
    match model.tag? with
    | some tag => decodeTag "type" tag fs
    | none => .done ()
  let kindTag : Decoded Unit :=
    match model.kindTag? with
    | some tag => decodeTag "kind" tag fs
    | none => .done ()
  let tagged (d : Decoded Node) : Decoded Node := Decoded.combine (fun _ n => n) typeTag d
  let child (key : String) : Decoded Node := decodeRequired key (decodeIn room) whole fs
  match model with
  | .literal kind =>
    tagged (Decoded.combine (fun _ l => .literal l) kindTag (Literal.ofFields room kind whole fs))
  | .range kind => (Range.ofFields kind ⟨typeTag, kindTag⟩ whole fs).map .range
  | .term => tagged ((child "value").map .term)
  | .namedTerm =>
    tagged (Decoded.combine .namedTerm (decodeRequired "field" FieldName.decode whole fs)
      (child "value"))
  | .combine c =>
    tagged ((chooseOperands true whole (decodeOperandsAt room fs) (decodeAt room "lhs" fs)
      (decodeAt room "rhs" fs)).map (.combine c))
  | .modify modifier => tagged ((child "rhs").map (.modify modifier))
  | .constant =>
    tagged (Decoded.combine .constant (child "lhs") (decodeRequired "rhs" Number.decode whole fs))
  | .predicate | .geometry _ | .filter _ => fault (.notInstance model) whole

end Node

end QueryTree
