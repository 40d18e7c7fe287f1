import QueryTree.Proofs.Grammar.Node

/-!
# Dates inside the calendar

The one thing besides a tree and a list of faults that reading can end with is a date whose UTC
form leaves the years 1 to 9999.  It comes from the places where the grammar wants a date, as far as
there is room to get there, and only from there.

* `Value.dateInside`, `Value.datesInside` : a date, all dates of a value, stay in the calendar
* `DateAt`                 : where the grammar wants dates, in a room
* `Node.decodeIn_eq_outside` : reading stops at the dates there that leave the calendar
* `Node.decodeIn_ne_outside` : it gives a tree or faults if no date of the value does
-/

namespace QueryTree

variable {α : Type}

/-! ## Which dates -/

/-- A value that stands for a date names one inside the calendar, if it names any. -/
def Value.dateInside : Value → Bool
  | .dateTime t => t.utc?.isSome
  | v => v.text?.all fun s => Moment.read s.toList != .error .outsideCalendar

/-- The keys under which a record with these fields holds dates. -/
def dateKeys (fs : List (String × Value)) : List String :=
  match (fs.lookup "type").bind Value.text?, (fs.lookup "kind").bind Value.text? with
  | some "literal", some "date" => ["value"]
  | some "range", some "date" => ["lower", "upper"]
  | _, _ => []

namespace Value

mutual

/-- Every date of a value names a moment inside the calendar. -/
def datesInside : Value → Bool
  | .list vs => datesInsideList vs
  | .tuple vs => datesInsideList vs
  | .record _ fs =>
    ((dateKeys fs).all fun key => (fs.lookup key).all dateInside) && datesInsideFields fs
  | _ => true

def datesInsideList : List Value → Bool
  | [] => true
  | v :: vs => v.datesInside && datesInsideList vs

def datesInsideFields : List (String × Value) → Bool
  | [] => true
  | (_, v) :: rest => v.datesInside && datesInsideFields rest

end

theorem datesInsideList_eq (vs : List Value) : datesInsideList vs = vs.all datesInside := by
  induction vs with
  | nil => rfl
  | cons v vs ih => simp [datesInsideList, ih]

theorem datesInsideFields_eq (fs : List (String × Value)) :
    datesInsideFields fs = (fs.map (·.2)).all datesInside := by
  induction fs with
  | nil => rfl
  | cons f fs ih => simp [datesInsideFields, ih]

/-- What a container holds has its dates inside, if the container has. -/
theorem datesInside_of_mem {v w : Value} {vs : List Value} (inside : v.datesInside = true)
    (held : v.children? = some vs) (member : w ∈ vs) : w.datesInside = true := by
  cases v with
  | list items | tuple items =>
    cases held
    rw [datesInside, datesInsideList_eq] at inside
    exact List.all_eq_true.1 inside w member
  | record m fs =>
    cases held
    rw [datesInside, datesInsideFields_eq, Bool.and_eq_true] at inside
    exact List.all_eq_true.1 inside.2 w member
  | _ => cases held

theorem datesInside_of_lookup {m : Option Model} {fs : List (String × Value)} {key : String}
    {v : Value} (inside : (record m fs).datesInside = true) (found : fs.lookup key = some v) :
    v.datesInside = true :=
  datesInside_of_mem inside rfl (List.mem_map_of_mem (mem_of_lookup found))

end Value

/-- The key of the one child that a class of nodes has. -/
def Model.childKey? : Model → Option String
  | .term | .namedTerm => some "value"
  | .modify _ => some "rhs"
  | .constant => some "lhs"
  | _ => none

/-- A value stands at a place of another one where the grammar of trees wants a date, and there is
    room inside the classes on the way to it. -/
inductive DateAt (w : Value) : Room → Value → Prop where
  | literal {room inner : Room} {v : Value} {fs : List (String × Value)} :
      Tagged (.literal .date) v fs → room.enter (.literal .date) = some inner →
        fs.lookup "value" = some w → DateAt w room v
  | bound {room inner : Room} {v : Value} {fs : List (String × Value)} {key : String} :
      Tagged (.range .date) v fs → room.enter (.range .date) = some inner →
        key = "lower" ∨ key = "upper" → fs.lookup key = some w → DateAt w room v
  | child {room inner : Room} {v u : Value} {fs : List (String × Value)} {model : Model}
      {key : String} :
      Tagged model v fs → room.enter model = some inner → model.childKey? = some key →
        fs.lookup key = some u → DateAt w inner u → DateAt w room v
  | operand {room inner : Room} {v u o : Value} {fs : List (String × Value)} {us : List Value}
      {c : Connective} :
      Tagged (.combine c) v fs → room.enter (.combine c) = some inner →
        fs.lookup "operands" = some u → u.items? = some us → o ∈ us → DateAt w inner o →
          DateAt w room v
  | side {room inner : Room} {fs : List (String × Value)} {l r o : Value} {c : Connective} :
      Tagged (.combine c) (.mapping fs) fs → room.enter (.combine c) = some inner →
        fs.lookup "operands" = none → fs.lookup "lhs" = some l → fs.lookup "rhs" = some r →
          o ∈ [l, r] → DateAt w inner o → DateAt w room (.mapping fs)

/-! ## Reading leaves and ranges -/

theorem Moment.decode_eq_outside {v : Value} :
    Moment.decode v = .outsideCalendar ↔ v.dateInside = false := by
  unfold Moment.decode
  split
  · simp [Value.dateInside, Value.text?]
  · next t => cases found : t.utc? <;> simp [Value.dateInside, found]
  · next notDay notClock =>
    have text : v.dateInside =
        v.text?.all fun s => Moment.read s.toList != .error .outsideCalendar := by
      cases v with
      | dateTime t => exact absurd rfl (notClock t)
      | _ => rfl
    rw [text]
    cases v.text? with
    | none => simp
    | some s =>
      cases read : Moment.read s.toList with
      | ok m => simp [read]
      | error e => cases e <;> simp [read]

theorem Literal.ofFields_eq_outside {room : Room} {kind : Kind} {whole : Value}
    {fs : List (String × Value)} :
    Literal.ofFields room kind whole fs = .outsideCalendar ↔
      kind = .date ∧ ∃ w, fs.lookup "value" = some w ∧ w.dateInside = false := by
  cases kind <;>
    simp [Literal.ofFields, decodeRequired_eq_outside, decodeString_ne_outside,
      Number.decode_ne_outside, Moment.decode_eq_outside, SpatialPredicate.decode_ne_outside]

theorem decodeFlag_ne_outside {key : String} {whole : Value} {fs : List (String × Value)} :
    decodeFlag key whole fs ≠ .outsideCalendar := by
  unfold decodeFlag
  split
  · simpa using decodeBool_ne_outside _
  · split
    · simpa using decodeBool_ne_outside _
    · simp

/-- The bounds of a range are all that it may leave the calendar through. -/
theorem Bounds.ofFields_eq_outside {read : Value → Decoded α} {whole : Value}
    {fs : List (String × Value)} :
    Bounds.ofFields read .right whole fs = .outsideCalendar ↔
      ∃ key w, (key = "lower" ∨ key = "upper") ∧ fs.lookup key = some w ∧ w ≠ .null ∧
        read w = .outsideCalendar := by
  simp only [Bounds.ofFields, Tags.right, Decoded.combine_known, Decoded.bind_eq_outside,
    Decoded.combine_eq_outside, decodeFlag_ne_outside, or_self, false_or,
    decodeAbsentable_eq_outside]
  constructor
  · rintro ((⟨w, found, present, left⟩ | ⟨w, found, present, left⟩) | ⟨parts, -, left⟩)
    · exact ⟨"lower", w, .inl rfl, found, present, left⟩
    · exact ⟨"upper", w, .inr rfl, found, present, left⟩
    -- that both bounds are lacking is a fault
    · split at left <;> simp at left
  · rintro ⟨key, w, rfl | rfl, found, present, left⟩
    · exact .inl (.inl ⟨w, found, present, left⟩)
    · exact .inl (.inr ⟨w, found, present, left⟩)

theorem Range.ofFields_eq_outside {kind : OrderedKind} {whole : Value}
    {fs : List (String × Value)} :
    Range.ofFields kind .right whole fs = .outsideCalendar ↔
      kind = .date ∧ ∃ key w, (key = "lower" ∨ key = "upper") ∧ fs.lookup key = some w ∧
        w.dateInside = false := by
  have present {w : Value} (outside : w.dateInside = false) : w ≠ .null := by
    rintro rfl
    cases outside
  cases kind with
  | string => simp [Range.ofFields, Bounds.ofFields_eq_outside, decodeString_ne_outside]
  | number => simp [Range.ofFields, Bounds.ofFields_eq_outside, Number.decode_ne_outside]
  | date =>
    simp only [Range.ofFields, Decoded.map_eq_outside, Bounds.ofFields_eq_outside,
      Moment.decode_eq_outside, true_and]
    constructor
    · rintro ⟨key, w, bound, found, -, outside⟩
      exact ⟨key, w, bound, found, outside⟩
    · rintro ⟨key, w, bound, found, outside⟩
      exact ⟨key, w, bound, found, present outside, outside⟩

/-! ## Reading trees -/

namespace Node

theorem underPath_eq_outside {path : Path} {d : Decoded α} :
    d.underPath path = .outsideCalendar ↔ d = .outsideCalendar := by
  induction path with
  | nil => rfl
  | cons s path ih =>
    rw [← ih]
    exact Decoded.under_eq_outside

theorem operandsOf_eq_outside {room : Room} {plain : Bool} {whole : Value}
    {fs : List (String × Value)} :
    operandsOf room plain whole fs = .outsideCalendar ↔
      (∃ u us, fs.lookup "operands" = some u ∧ u.items? = some us ∧
        ∃ o ∈ us, decodeIn room o = .outsideCalendar) ∨
      (plain = true ∧ fs.lookup "operands" = none ∧ ∃ l r, fs.lookup "lhs" = some l ∧
        fs.lookup "rhs" = some r ∧ ∃ o ∈ [l, r], decodeIn room o = .outsideCalendar) := by
  unfold operandsOf
  rw [decodeOperandsAt_eq, decodeAt_eq, decodeAt_eq]
  unfold chooseOperands requireChild
  cases operands : fs.lookup "operands" with
  | some w => simp [decodeItems_eq, decodeSequence_eq_outside]
  | none =>
    cases lhs : fs.lookup "lhs" with
    | none => simp
    | some l =>
      cases rhs : fs.lookup "rhs" with
      | none => simp
      | some r =>
        cases plain with
        | false => simp
        | true => simp [gather_sides, gather_outside]

/-- Reading the fields of a class leaves the calendar through a date leaf, through a bound of a date
    range, or through a child. -/
theorem ofFields_eq_outside {room : Room} {model : Model} {m : Option Model} {whole : Value}
    {fs : List (String × Value)} :
    ofFields room model m whole fs = .outsideCalendar ↔
      (model = .literal .date ∧ ∃ w, fs.lookup "value" = some w ∧ w.dateInside = false) ∨
      (model = .range .date ∧ ∃ key w, (key = "lower" ∨ key = "upper") ∧
        fs.lookup key = some w ∧ w.dateInside = false) ∨
      (∃ key u, model.childKey? = some key ∧ fs.lookup key = some u ∧
        decodeIn room u = .outsideCalendar) ∨
      ∃ c, model = .combine c ∧ operandsOf room m.isNone whole fs = .outsideCalendar := by
  cases model <;>
    simp [ofFields, Model.childKey?, Literal.ofFields_eq_outside, Range.ofFields_eq_outside,
      decodeRequired_eq_outside, FieldName.decode_ne_outside, Number.decode_ne_outside]

theorem decodeIn_record_eq_outside {room : Room} {m : Option Model}
    {fs : List (String × Value)} :
    decodeIn room (.record m fs) = .outsideCalendar ↔
      ∃ model inner, model.isNode = true ∧ Tagged model (.record m fs) fs ∧
        room.enter model = some inner ∧
        ofFields inner model m (.record m fs) fs = .outsideCalendar := by
  rw [decodeIn_record]
  constructor
  · intro outside
    split at outside
    · simp [underPath_eq_outside] at outside
    · next path model chosen =>
      rw [underPath_eq_outside, Room.read_eq_outside] at outside
      obtain ⟨inner, entered, outside⟩ := outside
      split at outside
      · next fits =>
        obtain ⟨node, tags⟩ := carriesTags_of_classOf chosen
        exact ⟨model, inner, node, ⟨tags, fitsModel_iff.1 fits⟩, entered, outside⟩
      · simp at outside
  · rintro ⟨model, inner, node, tagged, entered, outside⟩
    obtain ⟨path, chosen⟩ := exists_classOf (m := m) node tagged.toCarriesTags
    rw [chosen]
    simp only [tagged.fits, if_true]
    rw [underPath_eq_outside]
    exact Room.read_eq_outside.2 ⟨inner, entered, outside⟩

theorem decodeIn_ne_outside_of_scalar {room : Room} {v : Value}
    (other : ∀ m fs, v ≠ .record m fs) : decodeIn room v ≠ .outsideCalendar := by
  rw [decodeIn]
  · split <;> simp [underPath_eq_outside]
  · exact other

/-- A date outside the calendar that stops reading is found at one of the places for dates.  The
operands of a combination are one level further down, so the induction carries sequences along. -/
theorem exists_dateAt (v : Value) (room : Room) :
    (decodeIn room v = .outsideCalendar → ∃ w, DateAt w room v ∧ w.dateInside = false) ∧
      ∀ us, v.items? = some us → ∀ o ∈ us, decodeIn room o = .outsideCalendar →
        ∃ w, DateAt w room o ∧ w.dateInside = false := by
  induction v using Value.induction generalizing room with
  | step v ih =>
    constructor
    · intro outside
      cases v with
      | record m fs =>
        have held {key : String} {u : Value} (found : fs.lookup key = some u) :
            u ∈ fs.map (·.2) := List.mem_map_of_mem (mem_of_lookup found)
        obtain ⟨model, inner, -, tagged, entered, fields⟩ := decodeIn_record_eq_outside.1 outside
        rcases ofFields_eq_outside.1 fields with
          ⟨rfl, w, found, left⟩ | ⟨rfl, key, w, bound, found, left⟩ | ⟨key, u, child, found, left⟩ |
            ⟨c, rfl, operands⟩
        · exact ⟨w, .literal tagged entered found, left⟩
        · exact ⟨w, .bound tagged entered bound found, left⟩
        · obtain ⟨w, there, left⟩ := (ih _ rfl u (held found) inner).1 left
          exact ⟨w, .child tagged entered child found there, left⟩
        · rcases operandsOf_eq_outside.1 operands with
            ⟨u, us, found, items, o, member, left⟩ |
              ⟨plain, missing, l, r, lhs, rhs, o, member, left⟩
          · obtain ⟨w, there, left⟩ := (ih _ rfl u (held found) inner).2 us items o member left
            exact ⟨w, .operand tagged entered found items member there, left⟩
          · obtain rfl := Option.isNone_iff_eq_none.1 plain
            have side : o ∈ fs.map (·.2) := by
              rcases List.mem_pair.1 member with rfl | rfl
              · exact held lhs
              · exact held rhs
            obtain ⟨w, there, left⟩ := (ih _ rfl o side inner).1 left
            exact ⟨w, .side tagged entered missing lhs rhs member there, left⟩
      | _ => exact absurd outside (decodeIn_ne_outside_of_scalar (by rintro m fs ⟨⟩))
    · intro us items o member
      exact (ih us (Geometry.children_of_items items) o member room).1

theorem decodeIn_of_dateAt {room : Room} {v w : Value} (there : DateAt w room v)
    (outside : w.dateInside = false) : decodeIn room v = .outsideCalendar := by
  induction there with
  | literal tagged entered found =>
    obtain ⟨m, rfl⟩ := tagged.exists_record
    exact decodeIn_record_eq_outside.2 ⟨_, _, rfl, tagged, entered,
      ofFields_eq_outside.2 (.inl ⟨rfl, w, found, outside⟩)⟩
  | bound tagged entered bound found =>
    obtain ⟨m, rfl⟩ := tagged.exists_record
    exact decodeIn_record_eq_outside.2 ⟨_, _, rfl, tagged, entered,
      ofFields_eq_outside.2 (.inr (.inl ⟨rfl, _, w, bound, found, outside⟩))⟩
  | @child room inner v u fs model key tagged entered child found _ ih =>
    obtain ⟨m, rfl⟩ := tagged.exists_record
    have node : model.isNode = true := by
      cases model with
      | predicate | geometry _ | filter _ => cases child
      | _ => rfl
    exact decodeIn_record_eq_outside.2 ⟨_, _, node, tagged, entered,
      ofFields_eq_outside.2 (.inr (.inr (.inl ⟨_, _, child, found, ih⟩)))⟩
  | operand tagged entered found items member _ ih =>
    obtain ⟨m, rfl⟩ := tagged.exists_record
    exact decodeIn_record_eq_outside.2 ⟨_, _, rfl, tagged, entered,
      ofFields_eq_outside.2 (.inr (.inr (.inr ⟨_, rfl,
        operandsOf_eq_outside.2 (.inl ⟨_, _, found, items, _, member, ih⟩)⟩)))⟩
  | side tagged entered missing lhs rhs member _ ih =>
    exact decodeIn_record_eq_outside.2 ⟨_, _, rfl, tagged, entered,
      ofFields_eq_outside.2 (.inr (.inr (.inr ⟨_, rfl,
        operandsOf_eq_outside.2 (.inr ⟨rfl, missing, _, _, lhs, rhs, _, member, ih⟩)⟩)))⟩

/-- Reading leaves the calendar exactly if a date that the grammar wants does. -/
theorem decodeIn_eq_outside {room : Room} {v : Value} :
    decodeIn room v = .outsideCalendar ↔ ∃ w, DateAt w room v ∧ w.dateInside = false :=
  ⟨(exists_dateAt v room).1, fun ⟨_, there, outside⟩ => decodeIn_of_dateAt there outside⟩

end Node

/-! ## Values whose dates are inside -/

/-- The tags of date leaves and date ranges name the keys of their dates. -/
theorem dateInside_of_lookup {v w : Value} {fs : List (String × Value)} {model : Model}
    {key : String} (inside : v.datesInside = true) (tagged : Tagged model v fs)
    (found : fs.lookup key = some w)
    (dated : (model = .literal .date ∧ key = "value") ∨
      (model = .range .date ∧ (key = "lower" ∨ key = "upper"))) : w.dateInside = true := by
  obtain ⟨m, rfl⟩ := tagged.exists_record
  have listed : key ∈ dateKeys fs := by
    rcases dated with ⟨rfl, rfl⟩ | ⟨rfl, bound⟩
    · obtain ⟨t, type, typed⟩ := tagged.type _ rfl
      obtain ⟨k, kind, kinded⟩ := tagged.kind _ rfl
      simp [dateKeys, type, typed, kind, kinded, Kind.name]
    · obtain ⟨t, type, typed⟩ := tagged.type _ rfl
      obtain ⟨k, kind, kinded⟩ := tagged.kind _ rfl
      have keys : dateKeys fs = ["lower", "upper"] := by
        simp [dateKeys, type, typed, kind, kinded, OrderedKind.name, OrderedKind.toKind, Kind.name]
      rcases bound with rfl | rfl <;> simp [keys]
  rw [Value.datesInside, Bool.and_eq_true] at inside
  simpa [found] using List.all_eq_true.1 inside.1 key listed

theorem DateAt.dateInside {room : Room} {v w : Value} (there : DateAt w room v)
    (inside : v.datesInside = true) : w.dateInside = true := by
  induction there with
  | literal tagged _ found => exact dateInside_of_lookup inside tagged found (.inl ⟨rfl, rfl⟩)
  | bound tagged _ bound found => exact dateInside_of_lookup inside tagged found (.inr ⟨rfl, bound⟩)
  | child tagged _ _ found _ ih =>
    obtain ⟨m, rfl⟩ := tagged.exists_record
    exact ih (Value.datesInside_of_lookup inside found)
  | operand tagged _ found items member _ ih =>
    obtain ⟨m, rfl⟩ := tagged.exists_record
    have operands := Value.datesInside_of_lookup inside found
    exact ih (Value.datesInside_of_mem operands (Geometry.children_of_items items) member)
  | side _ _ _ lhs rhs member _ ih =>
    apply ih
    rcases List.mem_pair.1 member with rfl | rfl
    · exact Value.datesInside_of_lookup inside lhs
    · exact Value.datesInside_of_lookup inside rhs

/-- A value whose dates are inside the calendar gives a tree or faults. -/
theorem Node.decodeIn_ne_outside {room : Room} {v : Value} (inside : v.datesInside = true) :
    decodeIn room v ≠ .outsideCalendar := by
  intro outside
  obtain ⟨w, there, left⟩ := decodeIn_eq_outside.1 outside
  rw [there.dateInside inside] at left
  cases left

end QueryTree
