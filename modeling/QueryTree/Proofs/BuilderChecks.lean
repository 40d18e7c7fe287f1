import QueryTree.Proofs.Construction

/-!
# Checks of the builders

The builders of leaves and ranges check the kinds of raw values before they call a constructor, which
checks the values again.  The checks agree: what has a kind is taken by the constructor of that kind,
and no fault of a constructor is ever seen.

* `Value.refusal`, `Value.Refused` : values of no kind
* `LeafOutcome`, `RangeOutcome`    : what the builders end with, in the order of the checks
* `BoundsOfKind`                   : bounds whose kinds agree
* `Build.literal_eq_iff`, `Build.range_eq_iff` : each builder has exactly one outcome
* `builders_decide`                : both builders on all values
* `builders_oversizedList`         : a value that cannot be refused by name
-/

namespace QueryTree

variable {α β : Type}

/-! ## Raw values -/

namespace Value

/-- A reading of a clock names a moment inside the calendar. -/
def clockInside : Value → Bool
  | .dateTime t => t.utc?.isSome
  | _ => true

/-- The error about a value of no kind. -/
def refusal : Value → QueryError
  | .float x => .notFinite (.float x)
  | v => .notPrimitive v

theorem shownValue?_refusal (v : Value) : v.refusal.shownValue? = some v := by
  cases v <;> rfl

theorem dateInside_of_clock {v : Value} (outside : v.clockInside = false) :
    v.dateInside = false := by
  cases v with
  | dateTime t => exact outside
  | _ => cases outside

end Value

def Kindless (v : Value) : Prop :=
  ∀ kind, Kind.classify v ≠ .ok kind

/-- A value is refused by an error that shows it; if it holds an integer beyond the limit on digits,
    that is the failure. -/
inductive Value.Refused (v : Value) : Except Failure Node → Prop where
  | named : v.writable = true → Value.Refused v (.error (.query v.refusal))
  | oversized : v.writable = false → Value.Refused v (.error (.oversized none))

theorem refused_iff {v : Value} {e : Except Failure Node} :
    Failure.raise v.refusal = e ↔ Value.Refused v e := by
  rw [Failure.raise, Value.shownValue?_refusal, Option.all_some]
  constructor
  · rintro rfl
    cases written : v.writable with
    | true => exact .named written
    | false => exact .oversized written
  · intro refused
    cases refused with
    | named written => exact if_pos written
    | oversized unwritten => simp [unwritten]

/-- What follows a failure is not done. -/
theorem raise_bind {q : QueryError} {f : α → Except Failure β} :
    (Failure.raise q >>= f) = Failure.raise q := by
  unfold Failure.raise
  split <;> rfl

theorem classify_cases (v : Value) :
    (∃ kind, Kind.classify v = .ok kind) ∨ Kind.classify v = Failure.raise v.refusal := by
  unfold Kind.classify
  split
  · exact .inl ⟨_, rfl⟩
  · split
    · exact .inl ⟨_, rfl⟩
    · split
      · exact .inl ⟨_, rfl⟩
      · right
        cases v <;> rfl

theorem kindless_or_kind (v : Value) : Kindless v ∨ ∃ kind, Kind.classify v = .ok kind := by
  by_cases kindless : Kindless v
  · exact .inl kindless
  · exact .inr (by simpa [Kindless] using kindless)

theorem classify_kindless {v : Value} (kindless : Kindless v) :
    Kind.classify v = Failure.raise v.refusal := by
  rcases classify_cases v with ⟨kind, classified⟩ | refused
  · exact absurd classified (kindless kind)
  · exact refused

/-- A value that has a kind is a leaf of the kind, unless it is a date outside the calendar. -/
theorem exists_rawForm {v : Value} {kind : OrderedKind} (classified : Kind.classify v = .ok kind)
    (inside : v.clockInside = true) : ∃ l, l.kind = kind.toKind ∧ RawForm v l := by
  unfold Kind.classify at classified
  split at classified
  · next said =>
    cases classified
    obtain ⟨s, said⟩ := Option.isSome_iff_exists.1 said
    exact ⟨_, rfl, .string said⟩
  · split at classified
    · next number =>
      cases classified
      cases v with
      | int n => exact ⟨_, rfl, .number (.int n)⟩
      | float x =>
        cases x with
        | finite x => exact ⟨_, rfl, .number (.float x)⟩
        | _ => cases number
      | _ => cases number
    · split at classified
      · next date =>
        cases classified
        cases v with
        | date d => exact ⟨_, rfl, .date (.day d)⟩
        | dateTime t =>
          obtain ⟨m, named⟩ := Option.isSome_iff_exists.1 inside
          exact ⟨_, rfl, .date (.reading named)⟩
        | _ => cases date
      · split at classified <;> exact absurd classified raise_ne_ok

theorem RawForm.clockInside {v : Value} {l : Literal} (form : RawForm v l) :
    v.clockInside = true := by
  cases form with
  | string said =>
    cases v with
    | dateTime t => cases said
    | _ => rfl
  | number form => cases form <;> rfl
  | date form =>
    cases form with
    | day d => rfl
    | reading named => simp [Value.clockInside, named]

/-- Leaves of raw values hold no geometries, so that there is room for them. -/
theorem RawForm.buildable {v : Value} {l : Literal} (form : RawForm v l) :
    (Node.literal l).Buildable := by
  refine Literal.inRoom_plain ?_ _
  cases form <;> exact nofun

/-! ## Leaves -/

/-- What the builder of leaves ends with. -/
inductive LeafOutcome (v : Value) : Except Failure Node → Prop where
  -- the value has a kind, which is that of the leaf
  | made {kind : OrderedKind} {l : Literal} : Kind.classify v = .ok kind → l.kind = kind.toKind →
      RawForm v l → LeafOutcome v (.ok (.literal l))
  -- the value has no kind
  | refused {e : Except Failure Node} : Kindless v → Value.Refused v e → LeafOutcome v e
  | outsideCalendar : Kind.classify v = .ok .date → v.clockInside = false →
      LeafOutcome v (.error .outsideCalendar)

theorem buildNode_eq_outside {model : Model} {fs : List (String × Value)}
    (noType : fs.lookup "type" = none) (noKind : fs.lookup "kind" = none) :
    buildNode model fs = .error .outsideCalendar ↔
      Node.ofFields (.constructing model) model none (.mapping fs) fs = .outsideCalendar := by
  rw [buildNode, Node.build_eq noType noKind]
  cases Node.ofFields (.constructing model) model none (.mapping fs) fs <;> simp [Decoded.orFail]

/-- Of what has a kind, only a date can be outside the calendar. -/
theorem classify_clock_outside {v : Value} (outside : v.clockInside = false) :
    Kind.classify v = .ok .date := by
  cases v with
  | dateTime t => rfl
  | _ => cases outside

namespace Build

variable {v : Value} {e : Except Failure Node}

theorem literal_of_outcome (outcome : LeafOutcome v e) : literal v = e := by
  cases outcome with
  | made _ _ form => exact literal_eq_ok.2 ⟨⟨_, form, rfl⟩, form.buildable⟩
  | refused kindless refused =>
    rw [literal, classify_kindless kindless, raise_bind, refused_iff]
    exact refused
  | outsideCalendar classified outside =>
    rw [literal, classified]
    refine (buildNode_eq_outside rfl rfl).2 (Node.ofFields_eq_outside.2 (.inl ⟨rfl, v, rfl, ?_⟩))
    exact Value.dateInside_of_clock outside

/-- There is an outcome for every value. -/
theorem exists_leafOutcome (v : Value) : ∃ e, LeafOutcome v e := by
  rcases kindless_or_kind v with kindless | ⟨kind, classified⟩
  · exact ⟨_, .refused kindless (refused_iff.1 rfl)⟩
  · cases inside : v.clockInside with
    | true =>
      obtain ⟨l, same, form⟩ := exists_rawForm classified inside
      exact ⟨_, .made classified same form⟩
    | false => exact ⟨_, .outsideCalendar (classify_clock_outside inside) inside⟩

theorem literal_eq_iff : literal v = e ↔ LeafOutcome v e := by
  constructor
  · rintro rfl
    obtain ⟨e, outcome⟩ := exists_leafOutcome v
    rwa [literal_of_outcome outcome]
  · exact literal_of_outcome

end Build

/-! ## Ranges -/

/-- The bounds that are there have the kind, and there is at least one. -/
structure BoundsOfKind (kind : OrderedKind) (lower upper : Value) : Prop where
  low : lower = .null ∨ Kind.classify lower = .ok kind
  high : upper = .null ∨ Kind.classify upper = .ok kind
  present : ¬ (lower = .null ∧ upper = .null)

/-- The mapping of a range, as documents spell it. -/
def rangeMapping (kind : OrderedKind) (closedLower closedUpper : Bool) (lower upper : Value) :
    Value :=
  .mapping [("type", .str "range"), ("kind", .str kind.name), ("closedLower", .bool closedLower),
    ("closedUpper", .bool closedUpper), ("lower", lower), ("upper", upper)]

/-- What the builder of ranges ends with.  The lower bound is looked at first. -/
inductive RangeOutcome (closedLower closedUpper : Bool) (lower upper : Value) :
    Except Failure Node → Prop where
  | unbounded : lower = .null → upper = .null →
      RangeOutcome closedLower closedUpper lower upper (.error (.query .unbounded))
  | lowerRefused {e : Except Failure Node} : lower ≠ .null → Kindless lower →
      Value.Refused lower e → RangeOutcome closedLower closedUpper lower upper e
  | upperRefused {e : Except Failure Node} :
      lower = .null ∨ (∃ kind, Kind.classify lower = .ok kind) → upper ≠ .null → Kindless upper →
        Value.Refused upper e → RangeOutcome closedLower closedUpper lower upper e
  | kindsDiffer {k k' : OrderedKind} : Kind.classify lower = .ok k → Kind.classify upper = .ok k' →
      k ≠ k' → RangeOutcome closedLower closedUpper lower upper
        (.error (.query (.kindsDiffer k.toKind k'.toKind)))
  -- the bounds are read as they are from the mapping
  | made {kind : OrderedKind} {r : Range} : BoundsOfKind kind lower upper → r.kind = kind →
      RawRange (.bool closedLower) (.bool closedUpper) lower upper r →
      Node.decode (rangeMapping kind closedLower closedUpper lower upper) = .done (.range r) →
        RangeOutcome closedLower closedUpper lower upper (.ok (.range r))
  -- a date is outside the calendar, and it is so in the mapping
  | outsideCalendar : BoundsOfKind .date lower upper →
      lower.clockInside = false ∨ upper.clockInside = false →
      Node.decode (rangeMapping .date closedLower closedUpper lower upper) = .outsideCalendar →
        RangeOutcome closedLower closedUpper lower upper (.error .outsideCalendar)

section Mapping

variable {kind : OrderedKind} {closedLower closedUpper : Bool} {lower upper : Value}

theorem tagged_rangeMapping :
    Tagged (.range kind) (rangeMapping kind closedLower closedUpper lower upper)
      [("type", .str "range"), ("kind", .str kind.name), ("closedLower", .bool closedLower),
        ("closedUpper", .bool closedUpper), ("lower", lower), ("upper", upper)] := by
  refine ⟨⟨?_, ?_⟩, .inl rfl⟩
  · rintro tag ⟨⟩
    exact ⟨.str "range", rfl, rfl⟩
  · rintro tag ⟨⟩
    exact ⟨.str kind.name, rfl, rfl⟩

theorem RawBounds.boundsForm {raw form : Value → α → Prop} (weaker : ∀ v a, raw v a → form v a)
    {b : Bounds α} (bounds : RawBounds raw (.bool closedLower) (.bool closedUpper) lower upper b) :
    BoundsForm form [("type", .str "range"), ("kind", .str kind.name),
      ("closedLower", .bool closedLower), ("closedUpper", .bool closedUpper), ("lower", lower),
      ("upper", upper)] b := by
  obtain ⟨left, right, low, high⟩ := bounds
  cases left
  cases right
  refine ⟨.other rfl rfl rfl, .other rfl rfl rfl, ?_, ?_⟩
  · generalize b.span.lower? = a? at low
    cases low with
    | absent => exact .null rfl
    | given there => exact .given rfl (weaker _ _ there)
  · generalize b.span.upper? = a? at high
    cases high with
    | absent => exact .null rfl
    | given there => exact .given rfl (weaker _ _ there)

/-- The mapping of the bounds of a range is read as the range. -/
theorem decode_rangeMapping {r : Range}
    (raw : RawRange (.bool closedLower) (.bool closedUpper) lower upper r) :
    Node.decode (rangeMapping r.kind closedLower closedUpper lower upper) = .done (.range r) := by
  refine Node.decode_eq_done_iff.2 ⟨.range tagged_rangeMapping ?_, Nat.le_add_left 1 254⟩
  cases raw with
  | string bounds => exact .string (bounds.boundsForm fun _ _ => id)
  | number bounds => exact .number (bounds.boundsForm fun _ _ => id)
  | date bounds => exact .date (bounds.boundsForm fun _ _ form => (clockForm_iff.1 form).1)

theorem decode_rangeMapping_outside
    (outside : lower.clockInside = false ∨ upper.clockInside = false) :
    Node.decode (rangeMapping .date closedLower closedUpper lower upper) = .outsideCalendar := by
  refine Node.decodeIn_eq_outside.2 ?_
  rcases outside with outside | outside
  · exact ⟨lower, .bound tagged_rangeMapping rfl (.inl rfl) rfl, Value.dateInside_of_clock outside⟩
  · exact ⟨upper, .bound tagged_rangeMapping rfl (.inr rfl) rfl, Value.dateInside_of_clock outside⟩

end Mapping

namespace BoundsOfKind

variable {kind : OrderedKind} {lower upper : Value}

theorem oneKind (bounds : BoundsOfKind kind lower upper) :
    ∃ low high, Build.OneKind kind low high ∧ Build.boundKind lower = .ok low ∧
      Build.boundKind upper = .ok high := by
  obtain ⟨rfl | low, rfl | high, present⟩ := bounds
  · exact absurd ⟨rfl, rfl⟩ present
  · exact ⟨_, _, .upper, rfl, Build.boundKind_eq_some.2 high⟩
  · exact ⟨_, _, .lower, Build.boundKind_eq_some.2 low, rfl⟩
  · exact ⟨_, _, .both, Build.boundKind_eq_some.2 low, Build.boundKind_eq_some.2 high⟩

theorem exists_rawBounds {form : Value → α → Prop} (bounds : BoundsOfKind kind lower upper)
    (forms : ∀ v, v = lower ∨ v = upper → Kind.classify v = .ok kind → ∃ a, form v a)
    (closedLower closedUpper : Bool) :
    ∃ b, RawBounds form (.bool closedLower) (.bool closedUpper) lower upper b := by
  obtain ⟨rfl | low, rfl | high, present⟩ := bounds
  · exact absurd ⟨rfl, rfl⟩ present
  · obtain ⟨u, there⟩ := forms upper (.inr rfl) high
    exact ⟨⟨closedLower, closedUpper, .below u⟩, rfl, rfl, .absent, .given there⟩
  · obtain ⟨l, there⟩ := forms lower (.inl rfl) low
    exact ⟨⟨closedLower, closedUpper, .above l⟩, rfl, rfl, .given there, .absent⟩
  · obtain ⟨l, left⟩ := forms lower (.inl rfl) low
    obtain ⟨u, right⟩ := forms upper (.inr rfl) high
    exact ⟨⟨closedLower, closedUpper, .between l u⟩, rfl, rfl, .given left, .given right⟩

/-- Only bounds that are dates can be outside the calendar. -/
theorem eq_date (bounds : BoundsOfKind kind lower upper)
    (outside : lower.clockInside = false ∨ upper.clockInside = false) : kind = .date := by
  have bound {v : Value} (fits : v = .null ∨ Kind.classify v = .ok kind)
      (left : v.clockInside = false) : kind = .date := by
    rcases fits with rfl | classified
    · cases left
    · rw [classify_clock_outside left] at classified
      cases classified
      rfl
  exact outside.elim (bound bounds.low) (bound bounds.high)

theorem clockInside {closedLower closedUpper : Bool} {r : Range}
    (bounds : BoundsOfKind kind lower upper)
    (decoded : Node.decode (rangeMapping kind closedLower closedUpper lower upper) =
      .done (.range r)) :
    lower.clockInside = true ∧ upper.clockInside = true := by
  have inside : ¬ (lower.clockInside = false ∨ upper.clockInside = false) := by
    intro outside
    obtain rfl := bounds.eq_date outside
    rw [decode_rangeMapping_outside outside] at decoded
    cases decoded
  simpa using inside

/-- Bounds of a kind make a range of the kind, unless one is a date outside the calendar. -/
theorem exists_rawRange (bounds : BoundsOfKind kind lower upper)
    (low : lower.clockInside = true) (high : upper.clockInside = true)
    (closedLower closedUpper : Bool) :
    ∃ r, r.kind = kind ∧ RawRange (.bool closedLower) (.bool closedUpper) lower upper r := by
  have leaf (v : Value) (bound : v = lower ∨ v = upper) (classified : Kind.classify v = .ok kind) :
      ∃ l, l.kind = kind.toKind ∧ RawForm v l := by
    rcases bound with rfl | rfl
    · exact exists_rawForm classified low
    · exact exists_rawForm classified high
  cases kind with
  | string =>
    have texts (v : Value) (bound : v = lower ∨ v = upper)
        (classified : Kind.classify v = .ok .string) : ∃ s, v.text? = some s := by
      obtain ⟨_, same, form⟩ := leaf v bound classified
      cases form with
      | string said => exact ⟨_, said⟩
      | _ => cases same
    obtain ⟨b, raw⟩ := bounds.exists_rawBounds texts closedLower closedUpper
    exact ⟨_, rfl, .string raw⟩
  | number =>
    have numbers (v : Value) (bound : v = lower ∨ v = upper)
        (classified : Kind.classify v = .ok .number) : ∃ n, NumberForm v n := by
      obtain ⟨_, same, form⟩ := leaf v bound classified
      cases form with
      | number number => exact ⟨_, number⟩
      | _ => cases same
    obtain ⟨b, raw⟩ := bounds.exists_rawBounds numbers closedLower closedUpper
    exact ⟨_, rfl, .number raw⟩
  | date =>
    have clocks (v : Value) (bound : v = lower ∨ v = upper)
        (classified : Kind.classify v = .ok .date) : ∃ m, ClockForm v m := by
      obtain ⟨_, same, form⟩ := leaf v bound classified
      cases form with
      | date clock => exact ⟨_, clock⟩
      | _ => cases same
    obtain ⟨b, raw⟩ := bounds.exists_rawBounds clocks closedLower closedUpper
    exact ⟨_, rfl, .date raw⟩

end BoundsOfKind

namespace Build

variable {closedLower closedUpper : Bool} {lower upper : Value} {e : Except Failure Node}

theorem boundKind_kindless {v : Value} (present : v ≠ .null) (kindless : Kindless v) :
    boundKind v = Failure.raise v.refusal := by
  have mapped : boundKind v = (Kind.classify v).map some := by
    cases v with
    | null => exact absurd rfl present
    | _ => rfl
  rw [mapped, classify_kindless kindless, Failure.raise, Failure.raise]
  split <;> rfl

theorem exists_boundKind {v : Value} (fits : v = .null ∨ ∃ kind, Kind.classify v = .ok kind) :
    ∃ kind?, boundKind v = .ok kind? := by
  rcases fits with rfl | ⟨kind, classified⟩
  · exact ⟨_, rfl⟩
  · exact ⟨_, boundKind_eq_some.2 classified⟩

theorem range_of_kind {kind : OrderedKind} (bounds : BoundsOfKind kind lower upper)
    (closedLower closedUpper : Value) :
    range closedLower closedUpper lower upper =
      buildNode (.range kind) (rangeFields closedLower closedUpper lower upper) := by
  obtain ⟨low, high, one, lowKind, highKind⟩ := bounds.oneKind
  rw [range, lowKind, highKind]
  cases one with
  | lower | upper => rfl
  | both => exact if_pos rfl

theorem range_of_outcome (outcome : RangeOutcome closedLower closedUpper lower upper e) :
    range (.bool closedLower) (.bool closedUpper) lower upper = e := by
  cases outcome with
  | unbounded low high =>
    rw [low, high]
    rfl
  | lowerRefused present kindless refused =>
    rw [range, boundKind_kindless present kindless, raise_bind, refused_iff]
    exact refused
  | upperRefused fits present kindless refused =>
    obtain ⟨low, lowKind⟩ := exists_boundKind fits
    rw [range, lowKind, boundKind_kindless present kindless]
    show (Failure.raise upper.refusal >>= _) = e
    rw [raise_bind, refused_iff]
    exact refused
  | kindsDiffer low high differ =>
    rw [range, boundKind_eq_some.2 low, boundKind_eq_some.2 high]
    exact if_neg differ
  | made _ _ raw _ => exact range_eq_ok.2 ⟨⟨_, raw, rfl⟩, trivial⟩
  | outsideCalendar bounds outside _ =>
    rw [range_of_kind bounds]
    refine (buildNode_eq_outside rfl rfl).2 (Node.ofFields_eq_outside.2 (.inr (.inl ⟨rfl, ?_⟩)))
    rcases outside with outside | outside
    · exact ⟨"lower", lower, .inl rfl, rfl, Value.dateInside_of_clock outside⟩
    · exact ⟨"upper", upper, .inr rfl, rfl, Value.dateInside_of_clock outside⟩

theorem exists_outcome_of_kind {kind : OrderedKind} (bounds : BoundsOfKind kind lower upper) :
    ∃ e, RangeOutcome closedLower closedUpper lower upper e := by
  have left (outside : lower.clockInside = false ∨ upper.clockInside = false) :
      ∃ e, RangeOutcome closedLower closedUpper lower upper e := by
    obtain rfl := bounds.eq_date outside
    exact ⟨_, .outsideCalendar bounds outside (decode_rangeMapping_outside outside)⟩
  cases low : lower.clockInside with
  | false => exact left (.inl low)
  | true =>
    cases high : upper.clockInside with
    | false => exact left (.inr high)
    | true =>
      obtain ⟨r, rfl, raw⟩ := bounds.exists_rawRange low high closedLower closedUpper
      exact ⟨_, .made bounds rfl raw (decode_rangeMapping raw)⟩

theorem exists_rangeOutcome (closedLower closedUpper : Bool) (lower upper : Value) :
    ∃ e, RangeOutcome closedLower closedUpper lower upper e := by
  by_cases low : lower = .null
  · by_cases high : upper = .null
    · exact ⟨_, .unbounded low high⟩
    · rcases kindless_or_kind upper with kindless | ⟨kind, classified⟩
      · exact ⟨_, .upperRefused (.inl low) high kindless (refused_iff.1 rfl)⟩
      · exact exists_outcome_of_kind ⟨.inl low, .inr classified, fun both => high both.2⟩
  · have present : ¬ (lower = .null ∧ upper = .null) := fun both => low both.1
    rcases kindless_or_kind lower with kindless | ⟨k, lowKind⟩
    · exact ⟨_, .lowerRefused low kindless (refused_iff.1 rfl)⟩
    · by_cases high : upper = .null
      · exact exists_outcome_of_kind ⟨.inr lowKind, .inl high, present⟩
      · rcases kindless_or_kind upper with kindless | ⟨k', highKind⟩
        · exact ⟨_, .upperRefused (.inr ⟨k, lowKind⟩) high kindless (refused_iff.1 rfl)⟩
        · by_cases same : k = k'
          · subst same
            exact exists_outcome_of_kind ⟨.inr lowKind, .inr highKind, present⟩
          · exact ⟨_, .kindsDiffer lowKind highKind same⟩

theorem range_eq_iff : range (.bool closedLower) (.bool closedUpper) lower upper = e ↔
    RangeOutcome closedLower closedUpper lower upper e := by
  constructor
  · rintro rfl
    obtain ⟨e, outcome⟩ := exists_rangeOutcome closedLower closedUpper lower upper
    rwa [range_of_outcome outcome]
  · exact range_of_outcome

end Build

/-! ## Both builders -/

/-- Every value and every pair of bounds has one outcome.  A leaf is made exactly of what has a kind,
    a range exactly of bounds of one kind, unless a date is outside the calendar, and no fault of a
    constructor is ever the outcome. -/
theorem builders_decide (closedLower closedUpper : Bool) (v lower upper : Value) :
    (∀ e, Build.literal v = e ↔ LeafOutcome v e) ∧
    (∀ e, Build.range (.bool closedLower) (.bool closedUpper) lower upper = e ↔
      RangeOutcome closedLower closedUpper lower upper e) ∧
    ((∃ n, Build.literal v = .ok n) ↔
      (∃ kind, Kind.classify v = .ok kind) ∧ v.clockInside = true) ∧
    ((∃ n, Build.range (.bool closedLower) (.bool closedUpper) lower upper = .ok n) ↔
      (∃ kind, BoundsOfKind kind lower upper) ∧
        lower.clockInside = true ∧ upper.clockInside = true) ∧
    ∀ title f fs, Build.literal v ≠ .error (.invalid title f fs) ∧
      Build.range (.bool closedLower) (.bool closedUpper) lower upper ≠
        .error (.invalid title f fs) := by
  simp only [ne_eq, Build.literal_eq_iff, Build.range_eq_iff, implies_true, true_and]
  refine ⟨⟨?_, ?_⟩, ⟨?_, ?_⟩, fun title f fs => ⟨?_, ?_⟩⟩
  · rintro ⟨n, outcome⟩
    cases outcome with
    | made classified _ form => exact ⟨⟨_, classified⟩, form.clockInside⟩
    | refused _ refused => cases refused
  · rintro ⟨⟨kind, classified⟩, inside⟩
    obtain ⟨l, same, form⟩ := exists_rawForm classified inside
    exact ⟨_, .made classified same form⟩
  · rintro ⟨n, outcome⟩
    cases outcome with
    | made bounds _ _ decoded => exact ⟨⟨_, bounds⟩, bounds.clockInside decoded⟩
    | lowerRefused _ _ refused | upperRefused _ _ _ refused => cases refused
  · rintro ⟨⟨kind, bounds⟩, low, high⟩
    obtain ⟨r, rfl, raw⟩ := bounds.exists_rawRange low high closedLower closedUpper
    exact ⟨_, .made bounds rfl raw (decode_rangeMapping raw)⟩
  · intro outcome
    cases outcome with
    | refused _ refused => cases refused
  · intro outcome
    cases outcome with
    | lowerRefused _ _ refused | upperRefused _ _ _ refused => cases refused

/-- A list that holds a long integer is no bound and no leaf, but the error cannot name it. -/
theorem builders_oversizedList :
    Kindless (.list [.int (10 ^ digitLimit)]) ∧
      Build.literal (.list [.int (10 ^ digitLimit)]) = .error (.oversized none) ∧
      Build.range (.bool true) (.bool true) (.list [.int (10 ^ digitLimit)]) .null =
        .error (.oversized none) := by
  have kindless (vs : List Value) : Kindless (.list vs) := by
    intro kind classified
    have refused : Kind.classify (.list vs) = Failure.raise (.notPrimitive (.list vs)) := rfl
    rw [refused] at classified
    exact raise_ne_ok classified
  have unwritten : (Value.list [.int (10 ^ digitLimit)]).writable = false := by
    simp [Value.writable, Value.writableList, writableInt]
  refine ⟨kindless _, Build.literal_eq_iff.2 (.refused (kindless _) (.oversized unwritten)),
    Build.range_eq_iff.2 (.lowerRefused ?_ (kindless _) (.oversized unwritten))⟩
  simp

end QueryTree
