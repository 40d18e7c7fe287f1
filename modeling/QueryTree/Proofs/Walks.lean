import QueryTree.Proofs.Grammar.Node

/-!
# Walks into values

The way of a fault is a list of names and numbers.  A name that is the tag of a class stays at a
value, every other name leads to a field, and a number to an item.  Two sides of a combination count
as its operands.

* `tagNames`            : the names that stay
* `Step.Known`          : the steps that some class has
* `Value.operandsForm`  : a combination whose two sides are operands
* `Value.part?`         : one step
* `Value.walk`          : the steps of a path
* `Value.part?_field`, `Value.part?_operands`, … : steps to parts
* `Value.walk_induction` : what holds of all that is reached
-/

namespace QueryTree

/-! ## Names -/

/-- The tags of nodes, of kinds, of geometries, and of the two attempts at a number. -/
def tagNames : List String :=
  nodeTags ++ Kind.all.map Kind.name ++ Shape.all.map Shape.name ++ ["int", "float"]

def sideKeys : List String :=
  ["lhs", "rhs"]

/-- The names of which a step may not lead to the field. -/
def reservedNames : List String :=
  "operands" :: sideKeys ++ tagNames

/-- The keys under which tags stand. -/
def tagKeys : List String :=
  ["type", "kind"]

/-- The names that fields are read by: those of the classes, and other names of the same fields. -/
def fieldKeys : List String :=
  let names := Model.all.flatMap Model.fieldNames
  names ++ names.filterMap Model.otherName?

/-- A step by a tag, a field or a number; no step is named by a value that is read. -/
def Step.Known : Step → Prop
  | .tag name => name ∈ tagNames
  | .field key => key ∈ fieldKeys
  | .index _ => True

instance : DecidablePred Step.Known
  | .tag name => inferInstanceAs (Decidable (name ∈ tagNames))
  | .field key => inferInstanceAs (Decidable (key ∈ fieldKeys))
  | .index _ => inferInstanceAs (Decidable True)

theorem Kind.name_mem_tagNames (kind : Kind) : kind.name ∈ tagNames := by
  cases kind <;> decide

theorem Shape.name_mem_tagNames (shape : Shape) : shape.name ∈ tagNames := by
  cases shape <;> decide

/-- The tags by which the classes of nodes are told. -/
theorem Model.tag_mem_tagNames {model : Model} (node : model.isNode = true) {tag : String}
    (tagged : model.tag? = some tag ∨ model.kindTag? = some tag) : tag ∈ tagNames := by
  cases model with
  | literal kind =>
    rcases tagged with ⟨⟨⟩⟩ | ⟨⟨⟩⟩
    · decide
    · exact kind.name_mem_tagNames
  | range kind =>
    rcases tagged with ⟨⟨⟩⟩ | ⟨⟨⟩⟩
    · decide
    · exact kind.toKind.name_mem_tagNames
  | combine c =>
    rcases tagged with ⟨⟨⟩⟩ | ⟨⟨⟩⟩
    cases c <;> decide
  | modify m =>
    rcases tagged with ⟨⟨⟩⟩ | ⟨⟨⟩⟩
    cases m <;> decide
  | term | namedTerm | constant =>
    rcases tagged with ⟨⟨⟩⟩ | ⟨⟨⟩⟩
    decide
  | predicate | geometry _ | filter _ => cases node

namespace Value

/-! ## Steps -/

/-- The fields are tagged as those of a combination. -/
def combines (fs : List (String × Value)) : Bool :=
  (fs.lookup "type").any fun tag =>
    tag.text? = some Connective.and.name || tag.text? = some Connective.or.name

/-- A mapping of a combination that gives two sides, as one that gives operands. -/
def operandsForm : Value → Value
  | .mapping fs =>
    match fs.lookup "operands", fs.lookup "lhs", fs.lookup "rhs" with
    | none, some l, some r =>
      if combines fs then
        .mapping (fs.filter (·.1 ∉ sideKeys) ++ [("operands", .list [l, r])])
      else .mapping fs
    | _, _, _ => .mapping fs
  | v => v

/-- The part to which a step leads. -/
def part? (v : Value) : Step → Option Value
  | .tag name | .field name =>
    if name ∈ tagNames then some v
    else
      match v.operandsForm with
      | .record _ fs => fs.lookup name
      | _ => none
  | .index i => v.items?.bind fun vs => vs[i]?

/-- What a path leads to, if it leads anywhere. -/
def walk (v : Value) : Path → Option Value
  | [] => some v
  | s :: path => (v.part? s).bind fun u => u.walk path

theorem walk_of_part {v u : Value} {s : Step} (step : v.part? s = some u) (path : Path) :
    v.walk (s :: path) = u.walk path := by
  rw [walk, step, Option.bind_some]

theorem part?_tag {name : String} (known : name ∈ tagNames) (v : Value) :
    v.part? (.tag name) = some v :=
  if_pos known

theorem part?_index {v u : Value} {vs : List Value} {i : Nat} (items : v.items? = some vs)
    (there : vs[i]? = some u) : v.part? (.index i) = some u := by
  rw [part?, items, Option.bind_some, there]

section Fields

variable {m : Option Model} {fs : List (String × Value)} {key : String}

theorem combines_of_tag {c : Connective} (type : TextAt "type" fs c.name) :
    combines fs = true := by
  obtain ⟨tag, found, said⟩ := type
  rw [combines, found]
  cases c <;> simp [said]

theorem not_combines_of_tag {name : String} (type : TextAt "type" fs name)
    (other : ∀ c : Connective, name ≠ c.name) : combines fs = false := by
  obtain ⟨tag, found, said⟩ := type
  rw [combines, found]
  simp [said, other]

/-- Other keys than those of sides are kept. -/
theorem lookup_filter_sides (other : key ∉ sideKeys) :
    (fs.filter (·.1 ∉ sideKeys)).lookup key = fs.lookup key := by
  induction fs with
  | nil => rfl
  | cons f fs ih =>
    obtain ⟨name, v⟩ := f
    by_cases same : key = name
    · subst same
      simp [other]
    · have differs : (key == name) = false := beq_false_of_ne same
      by_cases side : name ∈ sideKeys
      · simpa [List.filter_cons, side, List.lookup_cons, differs] using ih
      · simpa [List.filter_cons, side, List.lookup_cons, differs] using ih

theorem operandsForm_mapping : (Value.mapping fs).operandsForm =
    match fs.lookup "operands", fs.lookup "lhs", fs.lookup "rhs" with
    | none, some l, some r =>
      if combines fs then .mapping (fs.filter (·.1 ∉ sideKeys) ++ [("operands", .list [l, r])])
      else .mapping fs
    | _, _, _ => .mapping fs :=
  rfl

/-- A mapping keeps the fields that have nothing to do with sides. -/
theorem exists_operandsForm (other : key ∉ "operands" :: sideKeys) :
    ∃ gs, (Value.mapping fs).operandsForm = .mapping gs ∧ gs.lookup key = fs.lookup key := by
  rw [List.mem_cons, not_or] at other
  rw [operandsForm_mapping]
  split
  · next l r _ _ _ =>
    split
    · have last : [("operands", Value.list [l, r])].lookup key = none := by
        simp [List.lookup_cons, beq_false_of_ne other.1]
      refine ⟨_, rfl, ?_⟩
      rw [List.lookup_append, last, Option.or_none, lookup_filter_sides other.2]
    · exact ⟨fs, rfl, rfl⟩
  · exact ⟨fs, rfl, rfl⟩

/-- All other names lead to their fields. -/
theorem part?_field (free : key ∉ reservedNames) :
    (Value.record m fs).part? (.field key) = fs.lookup key := by
  rw [reservedNames, List.mem_append, not_or] at free
  rw [part?, if_neg free.2]
  cases m with
  | some m => rfl
  | none =>
    obtain ⟨gs, form, same⟩ := exists_operandsForm free.1
    rw [form, ← same]

/-- Without a combination every key leads to its field. -/
theorem part?_field_of_tag (plain : combines fs = false) (noTag : key ∉ tagNames) :
    (Value.record m fs).part? (.field key) = fs.lookup key := by
  have kept : (Value.record m fs).operandsForm = .record m fs := by
    cases m with
    | some m => rfl
    | none =>
      rw [operandsForm_mapping, plain]
      split <;> rfl
  rw [part?, if_neg noTag, kept]

theorem part?_operands {w : Value} (found : fs.lookup "operands" = some w) :
    (Value.record m fs).part? (.field "operands") = some w := by
  have kept : (Value.record m fs).operandsForm = .record m fs := by
    cases m with
    | some m => rfl
    | none => simp [operandsForm_mapping, found]
  rw [part?, if_neg (by decide), kept]
  exact found

theorem part?_sides {l r : Value} (combination : combines fs = true)
    (missing : fs.lookup "operands" = none) (lhs : fs.lookup "lhs" = some l)
    (rhs : fs.lookup "rhs" = some r) :
    (Value.mapping fs).part? (.field "operands") = some (.list [l, r]) := by
  have form : (Value.mapping fs).operandsForm =
      .mapping (fs.filter (·.1 ∉ sideKeys) ++ [("operands", .list [l, r])]) := by
    simp [operandsForm_mapping, missing, lhs, rhs, combination]
  have none : (fs.filter (·.1 ∉ sideKeys)).lookup "operands" = none :=
    (lookup_filter_sides (by decide)).trans missing
  rw [part?, if_neg (by decide), form]
  show (fs.filter (·.1 ∉ sideKeys) ++ [("operands", Value.list [l, r])]).lookup "operands" = _
  rw [List.lookup_append, none]
  rfl

/-- What stands under a name is a field or the list of the two sides. -/
theorem part?_named_cases {name : String} {v u : Value} (noTag : name ∉ tagNames)
    (step : v.part? (.field name) = some u) :
    (∃ vs, v.children? = some vs ∧ u ∈ vs) ∨
      ∃ fs l r, v = .mapping fs ∧ fs.lookup "lhs" = some l ∧ fs.lookup "rhs" = some r ∧
        u = .list [l, r] := by
  rw [part?, if_neg noTag] at step
  cases v with
  | record m fs =>
    have field (found : fs.lookup name = some u) :
        ∃ vs, (Value.record m fs).children? = some vs ∧ u ∈ vs :=
      ⟨_, rfl, List.mem_map_of_mem (mem_of_lookup found)⟩
    cases m with
    | some m => exact .inl (field step)
    | none =>
      rw [operandsForm_mapping] at step
      split at step
      · next rewritten =>
        split at rewritten
        · next l r _ lhs rhs =>
          split at rewritten
          · cases rewritten
            rcases List.mem_append.1 (mem_of_lookup step) with kept | added
            · exact .inl ⟨_, rfl, List.mem_map_of_mem (List.mem_of_mem_filter kept)⟩
            · cases List.mem_singleton.1 added
              exact .inr ⟨fs, l, r, rfl, lhs, rhs, rfl⟩
          · cases rewritten
            exact .inl (field step)
        · cases rewritten
          exact .inl (field step)
      · cases step
  | _ => cases step

end Fields

/-- What goes over to items and fields, and to the list of two sides, goes along every walk. -/
theorem walk_induction {p : Value → Prop}
    (held : ∀ v vs, v.children? = some vs → p v → ∀ w ∈ vs, p w)
    (sides : ∀ l r, p l → p r → p (.list [l, r])) {v w : Value} {path : Path}
    (reached : v.walk path = some w) (start : p v) : p w := by
  have named {v u : Value} {name : String} (step : v.part? (.field name) = some u) (start : p v) :
      p u := by
    by_cases tag : name ∈ tagNames
    · rw [part?, if_pos tag] at step
      cases step
      exact start
    · rcases part?_named_cases tag step with ⟨vs, children, member⟩ | ⟨fs, l, r, rfl, lhs, rhs, rfl⟩
      · exact held v vs children start u member
      · have field {key : String} {w : Value} (found : fs.lookup key = some w) : p w :=
          held _ _ rfl start w (List.mem_map_of_mem (mem_of_lookup found))
        exact sides l r (field lhs) (field rhs)
  induction path generalizing v with
  | nil =>
    cases reached
    exact start
  | cons s path ih =>
    obtain ⟨u, step, rest⟩ := Option.bind_eq_some_iff.1 reached
    apply ih rest
    cases s with
    | tag name => exact named step start
    | field name => exact named step start
    | index i =>
      obtain ⟨vs, items, there⟩ := Option.bind_eq_some_iff.1 step
      exact held v vs (Geometry.children_of_items items) start u (List.mem_of_getElem? there)

end Value

end QueryTree
