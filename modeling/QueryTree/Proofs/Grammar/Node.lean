import QueryTree.Node.Decode
import QueryTree.Proofs.Grammar.Geometry
import QueryTree.Value.Embedding

/-!
# The grammar of query trees

Which values are forms of which query trees, as an inductive relation with one rule for each class
of nodes, and the reader decides it, as far as there is room for the tree.

* `LiteralForm`, `FlagAt`, `BoundAt`, `BoundsForm`, `RangeForm` : leaves and ranges
* `NodeForm`                : query trees
* `Node.carriesTags_of_classOf`, `Node.exists_classOf` : the class of a record is the one that its
  tags name
* `Node.decodeIn_eq_done_iff` : a tree is read from exactly its forms, if there is room for it
-/

namespace QueryTree

variable {α : Type}

/-! ## Leaves and ranges -/

/-- What a leaf holds: a value of its kind. -/
inductive LiteralForm : Value → Literal → Prop where
  | string {v : Value} {s : String} : v.text? = some s → LiteralForm v (.string s)
  | number {v : Value} {n : Number} : NumberForm v n → LiteralForm v (.number n)
  | date {v : Value} {m : Moment} : MomentForm v m → LiteralForm v (.date m)
  | glob {v : Value} {s : String} : v.text? = some s → LiteralForm v (.glob s)
  | spatial {v : Value} {p : SpatialPredicate} : PredicateForm v p → LiteralForm v (.spatial p)

/-- A truth value under a key, or under the other name of the key if the key is not there. -/
inductive FlagAt (key : String) (fs : List (String × Value)) (b : Bool) : Prop where
  | own : fs.lookup key = some (.bool b) → FlagAt key fs b
  | other {name : String} : fs.lookup key = none → Model.otherName? key = some name →
      fs.lookup name = some (.bool b) → FlagAt key fs b

/-- A bound under a key; a missing key and the absent value stand for no bound. -/
inductive BoundAt (form : Value → α → Prop) (key : String) (fs : List (String × Value)) :
    Option α → Prop where
  | missing : fs.lookup key = none → BoundAt form key fs none
  | null : fs.lookup key = some .null → BoundAt form key fs none
  | given {v : Value} {a : α} : fs.lookup key = some v → form v a → BoundAt form key fs (some a)

/-- Two flags, and bounds of one kind, of which there is at least one. -/
structure BoundsForm (form : Value → α → Prop) (fs : List (String × Value)) (b : Bounds α) :
    Prop where
  closedLower : FlagAt "closed_lower" fs b.closedLower
  closedUpper : FlagAt "closed_upper" fs b.closedUpper
  lower : BoundAt form "lower" fs b.span.lower?
  upper : BoundAt form "upper" fs b.span.upper?

/-- The fields of a range of each kind. -/
inductive RangeForm (fs : List (String × Value)) : Range → Prop where
  | string {b : Bounds String} :
      BoundsForm (fun v s => v.text? = some s) fs b → RangeForm fs (.string b)
  | number {b : Bounds Number} : BoundsForm NumberForm fs b → RangeForm fs (.number b)
  | date {b : Bounds Moment} : BoundsForm MomentForm fs b → RangeForm fs (.date b)

/-! ## Trees -/

/-- The grammar of query trees: mappings, or objects of the class, with the tags of a class and
    the fields that it wants. -/
inductive NodeForm : Value → Node → Prop where
  | literal {v w : Value} {fs : List (String × Value)} {l : Literal} :
      Tagged (.literal l.kind) v fs → fs.lookup "value" = some w → LiteralForm w l →
        NodeForm v (.literal l)
  | range {v : Value} {fs : List (String × Value)} {r : Range} :
      Tagged (.range r.kind) v fs → RangeForm fs r → NodeForm v (.range r)
  | term {v w : Value} {fs : List (String × Value)} {n : Node} :
      Tagged .term v fs → fs.lookup "value" = some w → NodeForm w n → NodeForm v (.term n)
  | namedTerm {v w : Value} {fs : List (String × Value)} {f : FieldName} {n : Node} :
      Tagged .namedTerm v fs → TextAt "field" fs f.text → fs.lookup "value" = some w →
        NodeForm w n → NodeForm v (.namedTerm f n)
  | operands {v w : Value} {fs : List (String × Value)} {ws : List Value} {c : Connective}
      {ns : List Node} :
      Tagged (.combine c) v fs → fs.lookup "operands" = some w → w.items? = some ws →
        List.Forall₂ NodeForm ws ns → NodeForm v (.combine c ns)
  | sides {fs : List (String × Value)} {l r : Value} {c : Connective} {n m : Node} :
      Tagged (.combine c) (.mapping fs) fs → fs.lookup "operands" = none →
        fs.lookup "lhs" = some l → fs.lookup "rhs" = some r → NodeForm l n → NodeForm r m →
          NodeForm (.mapping fs) (.combine c [n, m])
  | modify {v w : Value} {fs : List (String × Value)} {m : Modifier} {n : Node} :
      Tagged (.modify m) v fs → fs.lookup "rhs" = some w → NodeForm w n → NodeForm v (.modify m n)
  | constant {v l r : Value} {fs : List (String × Value)} {n : Node} {boost : Number} :
      Tagged .constant v fs → fs.lookup "lhs" = some l → NodeForm l n →
        fs.lookup "rhs" = some r → NumberForm r boost → NodeForm v (.constant n boost)

/-! ## Reading leaves and ranges -/

theorem Literal.ofFields_eq_done {room : Room} {kind : Kind} {whole : Value}
    {fs : List (String × Value)} {l : Literal} :
    Literal.ofFields room kind whole fs = .done l ↔
      (l.kind = kind ∧ ∃ w, fs.lookup "value" = some w ∧ LiteralForm w l) ∧ l.InRoom room := by
  constructor
  · intro done
    cases kind with
    | string =>
      obtain ⟨s, part, rfl⟩ := Decoded.map_eq_done.1 done
      obtain ⟨w, found, read⟩ := decodeRequired_eq_done.1 part
      exact ⟨⟨rfl, w, found, .string (decodeString_eq_done.1 read)⟩, Nat.zero_le _⟩
    | number =>
      obtain ⟨n, part, rfl⟩ := Decoded.map_eq_done.1 done
      obtain ⟨w, found, read⟩ := decodeRequired_eq_done.1 part
      exact ⟨⟨rfl, w, found, .number (Number.decode_eq_done.1 read)⟩, Nat.zero_le _⟩
    | date =>
      obtain ⟨m, part, rfl⟩ := Decoded.map_eq_done.1 done
      obtain ⟨w, found, read⟩ := decodeRequired_eq_done.1 part
      exact ⟨⟨rfl, w, found, .date (Moment.decode_eq_done.1 read)⟩, Nat.zero_le _⟩
    | glob =>
      obtain ⟨s, part, rfl⟩ := Decoded.map_eq_done.1 done
      obtain ⟨w, found, read⟩ := decodeRequired_eq_done.1 part
      exact ⟨⟨rfl, w, found, .glob (decodeString_eq_done.1 read)⟩, Nat.zero_le _⟩
    | spatial =>
      obtain ⟨p, part, rfl⟩ := Decoded.map_eq_done.1 done
      obtain ⟨w, found, read⟩ := decodeRequired_eq_done.1 part
      obtain ⟨form, fits⟩ := SpatialPredicate.decode_eq_done_iff.1 read
      exact ⟨⟨rfl, w, found, .spatial form⟩, fits⟩
  · rintro ⟨⟨rfl, w, found, form⟩, fits⟩
    cases form with
    | string said | glob said =>
      exact Decoded.map_eq_done.2
        ⟨_, decodeRequired_eq_done.2 ⟨w, found, decodeString_eq_done.2 said⟩, rfl⟩
    | number form =>
      exact Decoded.map_eq_done.2
        ⟨_, decodeRequired_eq_done.2 ⟨w, found, Number.decode_eq_done.2 form⟩, rfl⟩
    | date form =>
      exact Decoded.map_eq_done.2
        ⟨_, decodeRequired_eq_done.2 ⟨w, found, Moment.decode_eq_done.2 form⟩, rfl⟩
    | spatial form =>
      have read := SpatialPredicate.decode_eq_done_iff.2 ⟨form, fits⟩
      exact Decoded.map_eq_done.2 ⟨_, decodeRequired_eq_done.2 ⟨w, found, read⟩, rfl⟩

theorem decodeFlag_eq_done {key : String} {whole : Value} {fs : List (String × Value)} {b : Bool} :
    decodeFlag key whole fs = .done b ↔ FlagAt key fs b := by
  unfold decodeFlag
  cases own : fs.lookup key with
  | some v =>
    simp only [Decoded.under_eq_done, decodeBool_eq_done]
    constructor
    · rintro rfl
      exact .own own
    · rintro (found | ⟨missing, -, -⟩)
      · simpa [own] using found
      · simp [own] at missing
  | none =>
    cases named : Model.otherName? key with
    | none =>
      simp only [Option.bind_none]
      constructor
      · rintro ⟨⟩
      · rintro (found | ⟨-, other, -⟩)
        · simp [own] at found
        · simp [named] at other
    | some name =>
      simp only [Option.bind_some]
      cases given : fs.lookup name with
      | none =>
        simp only [Option.map_none]
        constructor
        · rintro ⟨⟩
        · rintro (found | ⟨-, other, found⟩)
          · simp [own] at found
          · cases named.symm.trans other
            cases given.symm.trans found
      | some v =>
        simp only [Option.map_some, Decoded.under_eq_done, decodeBool_eq_done]
        constructor
        · rintro rfl
          exact .other own named given
        · rintro (found | ⟨-, other, found⟩)
          · simp [own] at found
          · cases named.symm.trans other
            cases given.symm.trans found
            rfl

/-- A reader of bounds that reads exactly the forms, of which the absent value is none, decides
    bounds. -/
theorem decodeAbsentable_eq_done_iff {read : Value → Decoded α} {form : Value → α → Prop}
    (reads : ∀ v a, read v = .done a ↔ form v a) (present : ∀ a, ¬ form .null a) {key : String}
    {fs : List (String × Value)} {a? : Option α} :
    decodeAbsentable key read fs = .done a? ↔ BoundAt form key fs a? := by
  rw [decodeAbsentable_eq_done, decodeOptional_eq_done]
  constructor
  · rintro (⟨null, rfl⟩ | ⟨given, a, done, rfl⟩)
    · cases found : fs.lookup key with
      | none => exact .missing found
      | some v =>
        rw [found] at null
        exact .null (by rw [found, ← null]; rfl)
    · cases found : fs.lookup key with
      | none => simp [found] at given
      | some v =>
        rw [found] at done
        exact .given found ((reads v a).1 done)
  · rintro (missing | null | ⟨found, form⟩)
    · exact .inl ⟨by simp [missing], rfl⟩
    · exact .inl ⟨by simp [null], rfl⟩
    · refine .inr ⟨?_, _, by simpa [found] using (reads _ _).2 form, rfl⟩
      rintro null
      simp only [found, Option.getD_some] at null
      subst null
      exact present _ form

theorem Span.ofBounds?_eq_some {lower upper : Option α} {s : Span α} :
    Span.ofBounds? lower upper = some s ↔ s.lower? = lower ∧ s.upper? = upper := by
  constructor
  · intro made
    cases lower <;> cases upper <;> cases made <;> exact ⟨rfl, rfl⟩
  · rintro ⟨rfl, rfl⟩
    exact Span.ofBounds?_bounds s

theorem Bounds.ofFields_eq_done {read : Value → Decoded α} {form : Value → α → Prop}
    (reads : ∀ v a, read v = .done a ↔ form v a) (present : ∀ a, ¬ form .null a) {whole : Value}
    {fs : List (String × Value)} {b : Bounds α} :
    Bounds.ofFields read .right whole fs = .done b ↔ BoundsForm form fs b := by
  simp only [Bounds.ofFields, Tags.right, Decoded.combine_known, Decoded.bind_eq_done,
    Decoded.combine_eq_done, decodeFlag_eq_done, decodeAbsentable_eq_done_iff reads present]
  constructor
  · rintro ⟨_, ⟨_, _, ⟨cl, cu, hcl, hcu, rfl⟩, ⟨lo, up, hlo, hup, rfl⟩, rfl⟩, made⟩
    dsimp only at made
    cases extent : Span.ofBounds? lo up with
    | none => simp [extent] at made
    | some span =>
      simp only [extent, Decoded.done.injEq] at made
      subst made
      obtain ⟨rfl, rfl⟩ := Span.ofBounds?_eq_some.1 extent
      exact ⟨hcl, hcu, hlo, hup⟩
  · rintro ⟨hcl, hcu, hlo, hup⟩
    refine ⟨_, ⟨_, _, ⟨_, _, hcl, hcu, rfl⟩, ⟨_, _, hlo, hup, rfl⟩, rfl⟩, ?_⟩
    simp

theorem not_text_null (s : String) : ¬ Value.null.text? = some s :=
  nofun

theorem not_numberForm_null (n : Number) : ¬ NumberForm .null n :=
  nofun

theorem not_momentForm_null (m : Moment) : ¬ MomentForm .null m := by
  rintro (_ | _ | ⟨said, -⟩)
  cases said

theorem Range.ofFields_eq_done {kind : OrderedKind} {whole : Value} {fs : List (String × Value)}
    {r : Range} :
    Range.ofFields kind .right whole fs = .done r ↔ r.kind = kind ∧ RangeForm fs r := by
  have strings (b : Bounds String) :
      Bounds.ofFields decodeString .right whole fs = .done b ↔
        BoundsForm (fun v s => v.text? = some s) fs b := by
    apply Bounds.ofFields_eq_done (fun _ _ => decodeString_eq_done)
    exact not_text_null
  have numbers (b : Bounds Number) :
      Bounds.ofFields Number.decode .right whole fs = .done b ↔ BoundsForm NumberForm fs b := by
    apply Bounds.ofFields_eq_done (fun _ _ => Number.decode_eq_done)
    exact not_numberForm_null
  have moments (b : Bounds Moment) :
      Bounds.ofFields Moment.decode .right whole fs = .done b ↔ BoundsForm MomentForm fs b := by
    apply Bounds.ofFields_eq_done (fun _ _ => Moment.decode_eq_done)
    exact not_momentForm_null
  constructor
  · intro done
    cases kind with
    | string =>
      obtain ⟨b, part, rfl⟩ := Decoded.map_eq_done.1 done
      exact ⟨rfl, .string ((strings b).1 part)⟩
    | number =>
      obtain ⟨b, part, rfl⟩ := Decoded.map_eq_done.1 done
      exact ⟨rfl, .number ((numbers b).1 part)⟩
    | date =>
      obtain ⟨b, part, rfl⟩ := Decoded.map_eq_done.1 done
      exact ⟨rfl, .date ((moments b).1 part)⟩
  · rintro ⟨rfl, form⟩
    cases form with
    | string form => exact Decoded.map_eq_done.2 ⟨_, (strings _).2 form, rfl⟩
    | number form => exact Decoded.map_eq_done.2 ⟨_, (numbers _).2 form, rfl⟩
    | date form => exact Decoded.map_eq_done.2 ⟨_, (moments _).2 form, rfl⟩

/-! ## Classes -/

def Model.isNode : Model → Bool
  | .predicate | .geometry _ | .filter _ => false
  | _ => true

theorem kindOf_record {m : Option Model} {fs : List (String × Value)} {classes : List Model}
    {kind : String} {model : Model} :
    kindOf (.record m fs) classes = .ok (kind, model) ↔
      TextAt "kind" fs kind ∧ classes.find? (·.kindTag? == some kind) = some model := by
  unfold kindOf TextAt
  rw [attribute_record]
  cases fs.lookup "kind" with
  | none => simp [Attribute.ofOption]
  | some tag =>
    simp only [Attribute.ofOption, Option.some.injEq, exists_eq_left']
    cases tag.text? with
    | none => simp
    | some text =>
      simp only [Option.bind_some, Option.some.injEq]
      cases found : classes.find? (·.kindTag? == some text) with
      | none =>
        simp only [Option.map_none, reduceCtorEq, false_iff, not_and]
        rintro rfl
        simp [found]
      | some other =>
        simp only [Option.map_some, Except.ok.injEq, Prod.mk.injEq]
        constructor
        · rintro ⟨rfl, rfl⟩
          exact ⟨rfl, found⟩
        · rintro ⟨rfl, same⟩
          cases found.symm.trans same
          exact ⟨rfl, rfl⟩

/-- Leaves and ranges share a first tag; the second one chooses among them. -/
theorem carriesTags_of_kindOf {m : Option Model} {fs : List (String × Value)} {tag kind : String}
    {classes : List Model} {model : Model} (type : TextAt "type" fs tag)
    (uniform : ∀ c ∈ classes, c.isNode = true ∧ c.tag? = some tag)
    (chosen : kindOf (.record m fs) classes = .ok (kind, model)) :
    model.isNode = true ∧ CarriesTags model fs := by
  obtain ⟨kindText, found⟩ := kindOf_record.1 chosen
  obtain ⟨node, typed⟩ := uniform model (List.mem_of_find?_eq_some found)
  have kinded : (model.kindTag? == some kind) = true := by simpa using List.find?_some found
  rw [beq_iff_eq] at kinded
  refine ⟨node, ?_, ?_⟩
  · intro t own
    cases typed.symm.trans own
    exact type
  · intro t own
    cases kinded.symm.trans own
    exact kindText

theorem singleTagged_spec :
    ∀ c ∈ singleTagged, c.isNode = true ∧ c.kindTag? = none ∧ c.tag? ≠ none ∧
      c.tag? ≠ some "literal" ∧ c.tag? ≠ some "range" ∧
        singleTagged.find? (·.tag? == c.tag?) = some c := by
  decide

namespace Node

/-- The class that is chosen is a class of nodes whose tags the record carries. -/
theorem carriesTags_of_classOf {m : Option Model} {fs : List (String × Value)} {path : Path}
    {model : Model} (chosen : classOf (.record m fs) = .ok (path, model)) :
    model.isNode = true ∧ CarriesTags model fs := by
  unfold classOf at chosen
  rw [attribute_record] at chosen
  cases type : fs.lookup "type" with
  | none => simp [type, Attribute.ofOption] at chosen
  | some tag =>
    simp only [type, Attribute.ofOption] at chosen
    split at chosen
    · next named =>
      split at chosen
      · next kinds =>
        cases chosen
        exact carriesTags_of_kindOf ⟨tag, type, named⟩ (by decide) kinds
      · cases chosen
    · next named =>
      split at chosen
      · next kinds =>
        cases chosen
        exact carriesTags_of_kindOf ⟨tag, type, named⟩ (by decide) kinds
      · cases chosen
    · cases named : tag.text? with
      | none => simp [named] at chosen
      | some text =>
        simp only [named, Option.bind_some] at chosen
        cases found : singleTagged.find? (·.tag? == some text) with
        | none => simp [found] at chosen
        | some single =>
          simp only [found, Option.map_some, Except.ok.injEq, Prod.mk.injEq] at chosen
          obtain ⟨-, rfl⟩ := chosen
          have tagged : (single.tag? == some text) = true := by
            simpa using List.find?_some found
          rw [beq_iff_eq] at tagged
          obtain ⟨node, unkinded, -⟩ := singleTagged_spec single (List.mem_of_find?_eq_some found)
          refine ⟨node, ?_, ?_⟩
          · intro t own
            cases tagged.symm.trans own
            exact ⟨tag, type, named⟩
          · intro t own
            cases unkinded.symm.trans own

/-- A record that carries the tags of a class of nodes is taken for one of that class. -/
theorem exists_classOf {m : Option Model} {fs : List (String × Value)} {model : Model}
    (node : model.isNode = true) (tags : CarriesTags model fs) :
    ∃ path, classOf (.record m fs) = .ok (path, model) := by
  have single (tagged : model ∈ singleTagged) :
      ∃ path, classOf (.record m fs) = .ok (path, model) := by
    obtain ⟨-, -, typed, noLiteral, noRange, found⟩ := singleTagged_spec model tagged
    obtain ⟨name, typed⟩ := Option.ne_none_iff_exists'.1 typed
    obtain ⟨tag, type, named⟩ := tags.type name typed
    rw [typed] at noLiteral noRange found
    rw [← named] at noLiteral noRange
    refine ⟨[.tag name], ?_⟩
    unfold classOf
    rw [attribute_record, type]
    -- the tag is neither of those that want a second one
    simp only [Attribute.ofOption]
    simp [named, found]
  cases model with
  | literal kind =>
    obtain ⟨tag, type, named⟩ := tags.type _ rfl
    have chosen : kindOf (.record m fs) (Kind.all.map .literal) =
        .ok (kind.name, .literal kind) :=
      kindOf_record.2 ⟨tags.kind _ rfl, by cases kind <;> decide⟩
    refine ⟨[.tag "literal", .tag kind.name], ?_⟩
    unfold classOf
    rw [attribute_record, type]
    simp only [Attribute.ofOption, named, chosen]
  | range kind =>
    obtain ⟨tag, type, named⟩ := tags.type _ rfl
    have chosen : kindOf (.record m fs) (OrderedKind.all.map .range) =
        .ok (kind.name, .range kind) :=
      kindOf_record.2 ⟨tags.kind _ rfl, by cases kind <;> decide⟩
    refine ⟨[.tag "range", .tag kind.name], ?_⟩
    unfold classOf
    rw [attribute_record, type]
    simp only [Attribute.ofOption, named, chosen]
  | combine c => cases c <;> exact single (by decide)
  | modify modifier => cases modifier <;> exact single (by decide)
  | term | namedTerm | constant => exact single (by decide)
  | predicate | geometry _ | filter _ => cases node

/-! ## Reading trees -/

theorem decodeAt_eq {room : Room} {key : String} {fs : List (String × Value)} :
    decodeAt room key fs = (fs.lookup key).map (decodeIn room) := by
  induction fs with
  | nil => simp [decodeAt]
  | cons f fs ih =>
    obtain ⟨k, v⟩ := f
    by_cases same : k = key
    · subst same
      simp [decodeAt]
    · have other : (key == k) = false := by simpa using fun e => same e.symm
      simp [decodeAt, same, ih, List.lookup_cons, other]

theorem decodeOperandsAt_eq {room : Room} {fs : List (String × Value)} :
    decodeOperandsAt room fs = (fs.lookup "operands").map (decodeItems room) := by
  induction fs with
  | nil => simp [decodeOperandsAt]
  | cons f fs ih =>
    obtain ⟨k, v⟩ := f
    by_cases same : k = "operands"
    · subst same
      simp [decodeOperandsAt]
    · have other : ("operands" == k) = false := by simpa using fun e => same e.symm
      simp [decodeOperandsAt, same, ih, List.lookup_cons, other]

theorem gatherItems_eq {room : Room} {i : Nat} {vs : List Value} :
    gatherItems room i vs = gather (decodeIn room) i vs := by
  induction vs generalizing i with
  | nil => simp [gatherItems, gather]
  | cons v vs ih => simp [gatherItems, gather, ih]

theorem decodeItems_eq {room : Room} {v : Value} :
    decodeItems room v = decodeSequence 0 (decodeIn room) v := by
  cases v <;> simp [decodeItems, decodeSequence, Value.items?, gatherItems_eq]

theorem requireChild_eq {room : Room} {key : String} {whole : Value}
    {fs : List (String × Value)} :
    requireChild key whole (decodeAt room key fs) = decodeRequired key (decodeIn room) whole fs := by
  unfold requireChild decodeRequired
  rw [decodeAt_eq]
  cases fs.lookup key <;> rfl

/-- What the sides or the sequence of operands of a combination give in a room. -/
def operandsOf (room : Room) (plain : Bool) (whole : Value) (fs : List (String × Value)) :
    Decoded (List Node) :=
  chooseOperands plain whole (decodeOperandsAt room fs) (decodeAt room "lhs" fs)
    (decodeAt room "rhs" fs)

/-- Two sides are read like a sequence of two. -/
theorem gather_sides {room : Room} {l r : Value} :
    Gathered.cons 0 (decodeIn room l) (.cons 1 (decodeIn room r) .empty) =
      gather (decodeIn room) 0 [l, r] := rfl

/-- Operands are read from a sequence, or, for plain mappings without one, from two sides. -/
theorem operandsOf_eq_done {room : Room} {plain : Bool} {whole : Value}
    {fs : List (String × Value)} {ns : List Node} :
    operandsOf room plain whole fs = .done ns ↔
      (∃ w ws, fs.lookup "operands" = some w ∧ w.items? = some ws ∧
        List.Forall₂ (fun v n => decodeIn room v = .done n) ws ns) ∨
      (plain = true ∧ fs.lookup "operands" = none ∧ ∃ l r n m, fs.lookup "lhs" = some l ∧
        fs.lookup "rhs" = some r ∧ decodeIn room l = .done n ∧ decodeIn room r = .done m ∧
          ns = [n, m]) := by
  unfold operandsOf
  rw [decodeOperandsAt_eq, decodeAt_eq, decodeAt_eq]
  unfold chooseOperands requireChild
  cases operands : fs.lookup "operands" with
  | some w =>
    simp [decodeItems_eq, decodeSequence_eq_done]
  | none =>
    cases lhs : fs.lookup "lhs" with
    | none => simp
    | some l =>
      cases rhs : fs.lookup "rhs" with
      | none => simp
      | some r =>
        cases plain with
        | false => simp
        | true =>
          have sides : (Gathered.cons 0 (decodeIn room l)
              (.cons 1 (decodeIn room r) .empty)).atLeast 0 whole = .done ns ↔
              ∃ n m, decodeIn room l = .done n ∧ decodeIn room r = .done m ∧ ns = [n, m] := by
            rw [gather_sides, atLeast_gather_eq_done]
            constructor
            · rintro ⟨_ | ⟨left, _ | ⟨right, ⟨⟩⟩⟩, -⟩
              exact ⟨_, _, left, right, rfl⟩
            · rintro ⟨n, m, left, right, rfl⟩
              exact ⟨.cons left (.cons right .nil), by simp⟩
          simpa using sides

/-- What the reader does with the fields of a record of a class, in the room inside the class. -/
def ofFields (room : Room) (model : Model) (m : Option Model) (whole : Value)
    (fs : List (String × Value)) : Decoded Node :=
  match model with
  | .literal kind => (Literal.ofFields room kind whole fs).map .literal
  | .range kind => (Range.ofFields kind .right whole fs).map .range
  | .term => (decodeRequired "value" (decodeIn room) whole fs).map .term
  | .namedTerm =>
    Decoded.combine .namedTerm (decodeRequired "field" FieldName.decode whole fs)
      (decodeRequired "value" (decodeIn room) whole fs)
  | .combine c => (operandsOf room m.isNone whole fs).map (.combine c)
  | .modify modifier => (decodeRequired "rhs" (decodeIn room) whole fs).map (.modify modifier)
  | .constant =>
    Decoded.combine .constant (decodeRequired "lhs" (decodeIn room) whole fs)
      (decodeRequired "rhs" Number.decode whole fs)
  | .predicate | .geometry _ | .filter _ => Decoded.fault (.notInstance model) whole

theorem decodeIn_record {room : Room} {m : Option Model} {fs : List (String × Value)} :
    decodeIn room (.record m fs) =
      match classOf (.record m fs) with
      | .error (path, cause) => (Decoded.fault cause (.record m fs)).underPath path
      | .ok (path, model) =>
        Decoded.underPath path <| room.read model (.record m fs) fun inner =>
          if fitsModel model m then ofFields inner model m (.record m fs) fs
          else Decoded.fault (.notInstance model) (.record m fs) := by
  rw [decodeIn]
  simp only [requireChild_eq]
  rfl

theorem underPath_eq_done {path : Path} {d : Decoded α} {a : α} :
    d.underPath path = .done a ↔ d = .done a := by
  induction path with
  | nil => rfl
  | cons s path ih =>
    rw [← ih]
    exact Decoded.under_eq_done

theorem isNode_model (n : Node) : n.model.isNode = true := by
  cases n <;> rfl

/-- A result of reading fields is of the class that they were read for. -/
theorem model_eq_of_ofFields {room : Room} {model : Model} {m : Option Model} {whole : Value}
    {fs : List (String × Value)} {n : Node} (done : ofFields room model m whole fs = .done n) :
    model = n.model := by
  cases model with
  | literal kind =>
    obtain ⟨l, part, rfl⟩ := Decoded.map_eq_done.1 done
    obtain ⟨⟨rfl, -⟩, -⟩ := Literal.ofFields_eq_done.1 part
    rfl
  | range kind =>
    obtain ⟨r, part, rfl⟩ := Decoded.map_eq_done.1 done
    obtain ⟨rfl, -⟩ := Range.ofFields_eq_done.1 part
    rfl
  | term | combine _ | modify _ =>
    obtain ⟨_, -, rfl⟩ := Decoded.map_eq_done.1 done
    rfl
  | namedTerm | constant =>
    obtain ⟨_, _, -, -, rfl⟩ := Decoded.combine_eq_done.1 done
    rfl
  | predicate | geometry _ | filter _ => cases done

/-- A tree is read from records that carry the tags of its class, by their fields, if there is room
    inside the class. -/
theorem decodeIn_eq_done {room : Room} {v : Value} {n : Node} :
    decodeIn room v = .done n ↔
      ∃ m fs inner, v = .record m fs ∧ Tagged n.model v fs ∧ room.enter n.model = some inner ∧
        ofFields inner n.model m v fs = .done n := by
  constructor
  · intro done
    cases v with
    | record m fs =>
      rw [decodeIn_record] at done
      split at done
      · rw [underPath_eq_done] at done
        simp at done
      · next path model chosen =>
        rw [underPath_eq_done, Room.read_eq_done] at done
        obtain ⟨inner, entered, done⟩ := done
        split at done
        · next fits =>
          obtain rfl := model_eq_of_ofFields done
          have tags := (carriesTags_of_classOf chosen).2
          exact ⟨m, fs, inner, rfl, ⟨tags, fitsModel_iff.1 fits⟩, entered, done⟩
        · simp at done
    | _ =>
      rw [decodeIn] at done
      · split at done
        · rw [underPath_eq_done] at done
          simp at done
        · rw [underPath_eq_done] at done
          simp at done
      · rintro m fs ⟨⟩
  · rintro ⟨m, fs, inner, rfl, tagged, entered, done⟩
    obtain ⟨path, chosen⟩ := exists_classOf (m := m) n.isNode_model tagged.toCarriesTags
    rw [decodeIn_record, chosen]
    simp only [tagged.fits, if_true]
    rw [underPath_eq_done]
    exact Room.read_eq_done.2 ⟨inner, entered, done⟩

/-- The fields of a record with the right tags settle what it is read as. -/
theorem decodeIn_of_fields {room inner : Room} {v : Value} {fs : List (String × Value)} {n : Node}
    (tagged : Tagged n.model v fs) (entered : room.enter n.model = some inner)
    (done : ∀ m, ofFields inner n.model m v fs = .done n) : decodeIn room v = .done n := by
  obtain ⟨m, rfl⟩ := tagged.exists_record
  exact decodeIn_eq_done.2 ⟨m, fs, inner, rfl, tagged, entered, done m⟩

/-! ## The grammar and the reader -/

/-- What is read is a form, and its tree is in the room. -/
theorem nodeForm_of_decodeIn {room : Room} {v : Value} {n : Node}
    (done : decodeIn room v = .done n) : NodeForm v n ∧ n.InRoom room := by
  induction n using Node.induction generalizing v room with
  | literal l =>
    obtain ⟨m, fs, inner, rfl, tagged, entered, done⟩ := decodeIn_eq_done.1 done
    obtain ⟨_, part, same⟩ := Decoded.map_eq_done.1 done
    cases same
    obtain ⟨⟨-, w, found, form⟩, fits⟩ := Literal.ofFields_eq_done.1 part
    exact ⟨.literal tagged found form, inRoom_iff.2 ⟨inner, entered, fits⟩⟩
  | range r =>
    obtain ⟨m, fs, inner, rfl, tagged, entered, done⟩ := decodeIn_eq_done.1 done
    obtain ⟨_, part, same⟩ := Decoded.map_eq_done.1 done
    cases same
    exact ⟨.range tagged (Range.ofFields_eq_done.1 part).2,
      inRoom_iff.2 ⟨inner, entered, trivial⟩⟩
  | term n ih =>
    obtain ⟨m, fs, inner, rfl, tagged, entered, done⟩ := decodeIn_eq_done.1 done
    obtain ⟨_, part, same⟩ := Decoded.map_eq_done.1 done
    cases same
    obtain ⟨w, found, read⟩ := decodeRequired_eq_done.1 part
    obtain ⟨form, fits⟩ := ih read
    exact ⟨.term tagged found form, inRoom_iff.2 ⟨inner, entered, fits⟩⟩
  | namedTerm f n ih =>
    obtain ⟨m, fs, inner, rfl, tagged, entered, done⟩ := decodeIn_eq_done.1 done
    obtain ⟨_, _, name, part, same⟩ := Decoded.combine_eq_done.1 done
    cases same
    obtain ⟨u, named, said⟩ := decodeRequired_eq_done.1 name
    obtain ⟨w, found, read⟩ := decodeRequired_eq_done.1 part
    obtain ⟨form, fits⟩ := ih read
    exact ⟨.namedTerm tagged ⟨u, named, FieldName.decode_eq_done.1 said⟩ found form,
      inRoom_iff.2 ⟨inner, entered, fits⟩⟩
  | combine c ns ih =>
    obtain ⟨m, fs, inner, rfl, tagged, entered, done⟩ := decodeIn_eq_done.1 done
    obtain ⟨_, part, same⟩ := Decoded.map_eq_done.1 done
    cases same
    rcases operandsOf_eq_done.1 part with
      ⟨w, ws, found, items, all⟩ | ⟨plain, missing, l, r, n, k, lhs, rhs, left, right, rfl⟩
    · obtain ⟨forms, fit⟩ := forall₂_and_mem.1 (forall₂_imp_mem (fun n member w => ih n member) all)
      exact ⟨.operands tagged found items forms, inRoom_iff.2 ⟨inner, entered, fit⟩⟩
    · obtain rfl := Option.isNone_iff_eq_none.1 plain
      obtain ⟨first, fits⟩ := ih n (by simp) left
      obtain ⟨second, fits'⟩ := ih k (by simp) right
      exact ⟨.sides tagged missing lhs rhs first second,
        inRoom_iff.2 ⟨inner, entered,
          List.forall_mem_cons.2 ⟨fits, List.forall_mem_singleton.2 fits'⟩⟩⟩
  | modify modifier n ih =>
    obtain ⟨m, fs, inner, rfl, tagged, entered, done⟩ := decodeIn_eq_done.1 done
    obtain ⟨_, part, same⟩ := Decoded.map_eq_done.1 done
    cases same
    obtain ⟨w, found, read⟩ := decodeRequired_eq_done.1 part
    obtain ⟨form, fits⟩ := ih read
    exact ⟨.modify tagged found form, inRoom_iff.2 ⟨inner, entered, fits⟩⟩
  | constant n boost ih =>
    obtain ⟨m, fs, inner, rfl, tagged, entered, done⟩ := decodeIn_eq_done.1 done
    obtain ⟨_, _, left, right, same⟩ := Decoded.combine_eq_done.1 done
    cases same
    obtain ⟨l, lhs, read⟩ := decodeRequired_eq_done.1 left
    obtain ⟨r, rhs, number⟩ := decodeRequired_eq_done.1 right
    obtain ⟨form, fits⟩ := ih read
    exact ⟨.constant tagged lhs form rhs (Number.decode_eq_done.1 number),
      inRoom_iff.2 ⟨inner, entered, fits⟩⟩

/-- Every form of a tree is read as it, if there is room.  The induction is on the tree: a form of
    it is of the one rule for its class, or of one of the two for operands. -/
theorem decodeIn_of_nodeForm {room : Room} {v : Value} {n : Node} (form : NodeForm v n)
    (fits : n.InRoom room) : decodeIn room v = .done n := by
  induction n using Node.induction generalizing v room with
  | literal l =>
    obtain ⟨inner, entered, parts⟩ := inRoom_iff.1 fits
    cases form with
    | literal tagged found form =>
      exact decodeIn_of_fields tagged entered fun m =>
        Decoded.map_eq_done.2 ⟨l, Literal.ofFields_eq_done.2 ⟨⟨rfl, _, found, form⟩, parts⟩, rfl⟩
  | range r =>
    obtain ⟨inner, entered, parts⟩ := inRoom_iff.1 fits
    cases form with
    | range tagged form =>
      exact decodeIn_of_fields tagged entered fun m =>
        Decoded.map_eq_done.2 ⟨r, Range.ofFields_eq_done.2 ⟨rfl, form⟩, rfl⟩
  | term n ih =>
    obtain ⟨inner, entered, parts⟩ := inRoom_iff.1 fits
    cases form with
    | term tagged found form =>
      exact decodeIn_of_fields tagged entered fun m =>
        Decoded.map_eq_done.2 ⟨n, decodeRequired_eq_done.2 ⟨_, found, ih form parts⟩, rfl⟩
  | namedTerm f n ih =>
    obtain ⟨inner, entered, parts⟩ := inRoom_iff.1 fits
    cases form with
    | namedTerm tagged name found form =>
      obtain ⟨u, named, said⟩ := name
      exact decodeIn_of_fields tagged entered fun m => Decoded.combine_eq_done.2
        ⟨f, n, decodeRequired_eq_done.2 ⟨u, named, FieldName.decode_eq_done.2 said⟩,
          decodeRequired_eq_done.2 ⟨_, found, ih form parts⟩, rfl⟩
  | combine c ns ih =>
    obtain ⟨inner, entered, parts⟩ := inRoom_iff.1 fits
    have each (m : Node) (member : m ∈ ns) {w : Value} (form : NodeForm w m) :
        decodeIn inner w = .done m := ih m member form (parts m member)
    cases form with
    | operands tagged found items all =>
      have read := forall₂_imp_mem (fun m member w => each m member) all
      exact decodeIn_of_fields tagged entered fun m => Decoded.map_eq_done.2
        ⟨ns, operandsOf_eq_done.2 (.inl ⟨_, _, found, items, read⟩), rfl⟩
    -- only plain mappings have sides
    | sides tagged missing lhs rhs left right =>
      have first := each _ (by simp) left
      have second := each _ (by simp) right
      exact decodeIn_eq_done.2 ⟨none, _, inner, rfl, tagged, entered, Decoded.map_eq_done.2 ⟨_,
        operandsOf_eq_done.2
          (.inr ⟨rfl, missing, _, _, _, _, lhs, rhs, first, second, rfl⟩), rfl⟩⟩
  | modify modifier n ih =>
    obtain ⟨inner, entered, parts⟩ := inRoom_iff.1 fits
    cases form with
    | modify tagged found form =>
      exact decodeIn_of_fields tagged entered fun m =>
        Decoded.map_eq_done.2 ⟨n, decodeRequired_eq_done.2 ⟨_, found, ih form parts⟩, rfl⟩
  | constant n boost ih =>
    obtain ⟨inner, entered, parts⟩ := inRoom_iff.1 fits
    cases form with
    | constant tagged lhs form rhs number =>
      exact decodeIn_of_fields tagged entered fun m => Decoded.combine_eq_done.2
        ⟨n, boost, decodeRequired_eq_done.2 ⟨_, lhs, ih form parts⟩,
          decodeRequired_eq_done.2 ⟨_, rhs, Number.decode_eq_done.2 number⟩, rfl⟩

/-- A tree is read from exactly its forms, if there is room for it. -/
theorem decodeIn_eq_done_iff {room : Room} {v : Value} {n : Node} :
    decodeIn room v = .done n ↔ NodeForm v n ∧ n.InRoom room :=
  ⟨nodeForm_of_decodeIn, fun ⟨form, fits⟩ => decodeIn_of_nodeForm form fits⟩

theorem decode_eq_done_iff {v : Value} {n : Node} :
    decode v = .done n ↔ NodeForm v n ∧ n.InRoom .full :=
  decodeIn_eq_done_iff

end Node

end QueryTree
