import QueryTree.Proofs.Builders
import QueryTree.Proofs.Outcomes

/-!
# Builders one by one

Each builder but the folds returns a tree from exactly the arguments that are forms of its parts, if
the constructor has room for these.

* `RawForm`, `RawRange` : raw values as leaves and as bounds
* `Build.literal_eq_ok`, `Build.spatialLiteral_eq_ok`, … : leaves
* `Build.child_eq_ok`, `Build.combine_eq_ok`, … : composite trees
* `Build.range_eq_ok`   : ranges
-/

namespace QueryTree

variable {α : Type}

/-! ## Raw values -/

/-- A date that is no text. -/
inductive ClockForm : Value → Moment → Prop where
  | day (d : Day) : ClockForm (.date d) (Moment.ofDay d)
  | reading {t : DateTime} {m : Moment} : t.utc? = some m → ClockForm (.dateTime t) m

/-- A raw value as a leaf of the kind that it has by itself: text is never a date. -/
inductive RawForm : Value → Literal → Prop where
  | string {v : Value} {s : String} : v.text? = some s → RawForm v (.string s)
  | number {v : Value} {n : Number} : NumberForm v n → RawForm v (.number n)
  | date {v : Value} {m : Moment} : ClockForm v m → RawForm v (.date m)

/-- A raw value as a bound; the absent value is none. -/
inductive RawBound (form : Value → α → Prop) : Value → Option α → Prop where
  | absent : RawBound form .null none
  | given {v : Value} {a : α} : form v a → RawBound form v (some a)

/-- Two truth values, and raw values as bounds. -/
structure RawBounds (form : Value → α → Prop) (closedLower closedUpper lower upper : Value)
    (b : Bounds α) : Prop where
  closedLower : closedLower = .bool b.closedLower
  closedUpper : closedUpper = .bool b.closedUpper
  lower : RawBound form lower b.span.lower?
  upper : RawBound form upper b.span.upper?

/-- Raw values as a range of the kind that both bounds have by themselves. -/
inductive RawRange (closedLower closedUpper lower upper : Value) : Range → Prop where
  | string {b : Bounds String} :
      RawBounds (fun v s => v.text? = some s) closedLower closedUpper lower upper b →
        RawRange closedLower closedUpper lower upper (.string b)
  | number {b : Bounds Number} : RawBounds NumberForm closedLower closedUpper lower upper b →
      RawRange closedLower closedUpper lower upper (.number b)
  | date {b : Bounds Moment} : RawBounds ClockForm closedLower closedUpper lower upper b →
      RawRange closedLower closedUpper lower upper (.date b)

theorem buildNode_eq_ok {model : Model} {fs : List (String × Value)} {n : Node}
    (noType : fs.lookup "type" = none) (noKind : fs.lookup "kind" = none) :
    buildNode model fs = .ok n ↔
      Node.ofFields (.constructing model) model none (.mapping fs) fs = .done n := by
  rw [buildNode, Node.build_eq noType noKind]
  cases Node.ofFields (.constructing model) model none (.mapping fs) fs <;> simp [Decoded.orFail]

theorem Decoded.Crowded.orFail {d : Decoded α} (crowded : d.Crowded) (title : String) :
    (∃ a, d.orFail title = .ok a) ∨
      ∃ f fs, d.orFail title = .error (.invalid title f fs) ∧ f.cause = .tooNested := by
  cases crowded with
  | done a => exact .inl ⟨a, rfl⟩
  | tooNested first => exact .inr ⟨_, _, rfl, first⟩

theorem raise_ne_ok {e : QueryError} {a : α} : Failure.raise e ≠ .ok a := by
  rw [Failure.raise]
  split <;> exact nofun

/-! ## The kinds of raw values -/

theorem classify_text {v : Value} {s : String} (said : v.text? = some s) :
    Kind.classify v = .ok .string :=
  if_pos (by rw [said]; rfl)

theorem classify_number {v : Value} {n : Number} (form : NumberForm v n) :
    Kind.classify v = .ok .number := by
  cases form <;> rfl

theorem classify_clock {v : Value} {m : Moment} (form : ClockForm v m) :
    Kind.classify v = .ok .date := by
  cases form <;> rfl

/-- Of the forms of a moment, the kind of a raw value excludes text. -/
theorem clockForm_iff {v : Value} {m : Moment} :
    ClockForm v m ↔ MomentForm v m ∧ Kind.classify v = .ok .date := by
  constructor
  · intro form
    refine ⟨?_, classify_clock form⟩
    cases form with
    | day d => exact .date d
    | reading named => exact .dateTime named
  · rintro ⟨form, classified⟩
    cases form with
    | date d => exact .day d
    | dateTime named => exact .reading named
    | text said _ =>
      rw [classify_text said] at classified
      cases classified

theorem rawForm_iff {v : Value} {l : Literal} :
    RawForm v l ↔ ∃ kind, Kind.classify v = .ok kind ∧ l.kind = kind.toKind ∧ LiteralForm v l := by
  constructor
  · intro form
    cases form with
    | string said => exact ⟨.string, classify_text said, rfl, .string said⟩
    | number form => exact ⟨.number, classify_number form, rfl, .number form⟩
    | date form => exact ⟨.date, classify_clock form, rfl, .date (clockForm_iff.1 form).1⟩
  · rintro ⟨kind, classified, same, form⟩
    cases form with
    | string said => exact .string said
    | number form => exact .number form
    | date form =>
      cases kind with
      | date => exact .date (clockForm_iff.2 ⟨form, classified⟩)
      | _ => cases same
    | glob _ | spatial _ => cases kind <;> cases same

/-! ## Leaves -/

namespace Build

variable {v w : Value} {n : Node}

theorem literal_eq_ok :
    literal v = .ok n ↔ (∃ l, RawForm v l ∧ .literal l = n) ∧ n.Buildable := by
  constructor
  · intro built
    obtain ⟨kind, classified, made⟩ := bind_eq_ok.1 built
    obtain ⟨l, part, rfl⟩ := Decoded.map_eq_done.1 ((buildNode_eq_ok rfl rfl).1 made)
    obtain ⟨⟨same, _, ⟨⟩, form⟩, fits⟩ := Literal.ofFields_eq_done.1 part
    exact ⟨⟨l, rawForm_iff.2 ⟨kind, classified, same, form⟩, rfl⟩, fits⟩
  · rintro ⟨⟨l, form, rfl⟩, fits⟩
    obtain ⟨kind, classified, same, form⟩ := rawForm_iff.1 form
    refine bind_eq_ok.2 ⟨kind, classified, (buildNode_eq_ok rfl rfl).2 ?_⟩
    exact Decoded.map_eq_done.2 ⟨l, Literal.ofFields_eq_done.2 ⟨⟨same, v, rfl, form⟩, fits⟩, rfl⟩

theorem boundKind_eq_some {kind : OrderedKind} :
    boundKind v = .ok (some kind) ↔ Kind.classify v = .ok kind := by
  have mapped : (Kind.classify v).map some = .ok (some kind) ↔ Kind.classify v = .ok kind := by
    cases Kind.classify v <;> simp [Except.map]
  have none : Failure.raise (.notPrimitive .null) ≠ .ok kind := raise_ne_ok
  cases v with
  | null => exact iff_of_false nofun none
  | _ => exact mapped

theorem boundKind_eq_none : boundKind v = .ok none ↔ v = .null := by
  have mapped : (Kind.classify v).map some ≠ .ok none := by
    cases Kind.classify v <;> simp [Except.map]
  cases v with
  | null => exact iff_of_true rfl rfl
  | _ => exact iff_of_false mapped nofun

/-- What the constructor of a range is given. -/
def rangeFields (closedLower closedUpper lower upper : Value) : List (String × Value) :=
  [("closed_lower", closedLower), ("closed_upper", closedUpper), ("lower", lower),
    ("upper", upper)]

section Bounds

variable {form raw : Value → α → Prop} {kind : OrderedKind}
  (agree : ∀ v a, raw v a ↔ form v a ∧ Kind.classify v = .ok kind)

include agree

/-- A raw bound is a bound that has the kind of the range, if it is there. -/
theorem rawBound_iff {key : String} {fs : List (String × Value)} {a? : Option α}
    (found : fs.lookup key = some v) :
    RawBound raw v a? ↔ BoundAt form key fs a? ∧ boundKind v = .ok (a?.map fun _ => kind) := by
  constructor
  · intro bound
    cases bound with
    | absent => exact ⟨.null found, rfl⟩
    | given there =>
      obtain ⟨there, classified⟩ := (agree _ _).1 there
      exact ⟨.given found there, boundKind_eq_some.2 classified⟩
  · rintro ⟨bound, classified⟩
    cases bound with
    | missing missing => cases missing.symm.trans found
    | null null =>
      cases null.symm.trans found
      exact .absent
    | given given there =>
      cases given.symm.trans found
      exact .given ((agree _ _).2 ⟨there, boundKind_eq_some.1 classified⟩)

variable {closedLower closedUpper lower upper : Value} {b : Bounds α}

theorem rawBounds_iff :
    RawBounds raw closedLower closedUpper lower upper b ↔
      BoundsForm form (rangeFields closedLower closedUpper lower upper) b ∧
        boundKind lower = .ok (b.span.lower?.map fun _ => kind) ∧
        boundKind upper = .ok (b.span.upper?.map fun _ => kind) := by
  have flag {key : String} {u : Value} {closed : Bool}
      (found : (rangeFields closedLower closedUpper lower upper).lookup key = some u) :
      FlagAt key (rangeFields closedLower closedUpper lower upper) closed ↔ u = .bool closed := by
    constructor
    · rintro (own | ⟨missing, -, -⟩)
      · exact Option.some.inj (found.symm.trans own)
      · cases missing.symm.trans found
    · rintro rfl
      exact .own found
  have bound {key : String} {u : Value} {a? : Option α}
      (found : (rangeFields closedLower closedUpper lower upper).lookup key = some u) :
      RawBound raw u a? ↔ BoundAt form key (rangeFields closedLower closedUpper lower upper) a? ∧
        boundKind u = .ok (a?.map fun _ => kind) :=
    rawBound_iff agree found
  have lowerAt : (rangeFields closedLower closedUpper lower upper).lookup "lower" = some lower :=
    rfl
  have upperAt : (rangeFields closedLower closedUpper lower upper).lookup "upper" = some upper :=
    rfl
  constructor
  · rintro ⟨left, right, low, high⟩
    obtain ⟨low, lowKind⟩ := (bound lowerAt).1 low
    obtain ⟨high, highKind⟩ := (bound upperAt).1 high
    exact ⟨⟨(flag rfl).2 left, (flag rfl).2 right, low, high⟩, lowKind, highKind⟩
  · rintro ⟨⟨left, right, low, high⟩, lowKind, highKind⟩
    exact ⟨(flag rfl).1 left, (flag rfl).1 right, (bound lowerAt).2 ⟨low, lowKind⟩,
      (bound upperAt).2 ⟨high, highKind⟩⟩

end Bounds

/-- The kind that a bound is found to have, if it has the kind of the range or none. -/
theorem eq_of_boundAt {form : Value → α → Prop} {key : String} {fs : List (String × Value)}
    {a? : Option α} {kind : OrderedKind} {found? : Option OrderedKind}
    (present : ∀ a, ¬ form .null a) (found : fs.lookup key = some v)
    (bound : BoundAt form key fs a?) (classified : boundKind v = .ok found?)
    (only : ∀ k ∈ found?, k = kind) :
    found? = a?.map fun _ => kind := by
  cases bound with
  | missing missing => cases missing.symm.trans found
  | null null =>
    cases null.symm.trans found
    cases classified
    rfl
  | given given there =>
    cases given.symm.trans found
    cases found? with
    | none =>
      cases boundKind_eq_none.1 classified
      exact absurd there (present _)
    | some k => rw [only k rfl, Option.map_some]

/-- The kinds of the bounds that a range has. -/
def boundKinds : Range → Option OrderedKind × Option OrderedKind
  | .string b => (b.span.lower?.map fun _ => .string, b.span.upper?.map fun _ => .string)
  | .number b => (b.span.lower?.map fun _ => .number, b.span.upper?.map fun _ => .number)
  | .date b => (b.span.lower?.map fun _ => .date, b.span.upper?.map fun _ => .date)

section Range

variable {closedLower closedUpper lower upper : Value} {r : Range}

theorem rawRange_iff :
    RawRange closedLower closedUpper lower upper r ↔
      RangeForm (rangeFields closedLower closedUpper lower upper) r ∧
        boundKind lower = .ok (boundKinds r).1 ∧ boundKind upper = .ok (boundKinds r).2 := by
  have strings (v : Value) (s : String) :
      v.text? = some s ↔ v.text? = some s ∧ Kind.classify v = .ok .string :=
    ⟨fun said => ⟨said, classify_text said⟩, And.left⟩
  have numbers (v : Value) (k : Number) :
      NumberForm v k ↔ NumberForm v k ∧ Kind.classify v = .ok .number :=
    ⟨fun form => ⟨form, classify_number form⟩, And.left⟩
  have moments (v : Value) (m : Moment) :
      ClockForm v m ↔ MomentForm v m ∧ Kind.classify v = .ok .date := clockForm_iff
  constructor
  · intro raw
    cases raw with
    | string bounds =>
      obtain ⟨form, kinds⟩ := (rawBounds_iff strings).1 bounds
      exact ⟨.string form, kinds⟩
    | number bounds =>
      obtain ⟨form, kinds⟩ := (rawBounds_iff numbers).1 bounds
      exact ⟨.number form, kinds⟩
    | date bounds =>
      obtain ⟨form, kinds⟩ := (rawBounds_iff moments).1 bounds
      exact ⟨.date form, kinds⟩
  · rintro ⟨form, kinds⟩
    cases form with
    | string form => exact .string ((rawBounds_iff strings).2 ⟨form, kinds⟩)
    | number form => exact .number ((rawBounds_iff numbers).2 ⟨form, kinds⟩)
    | date form => exact .date ((rawBounds_iff moments).2 ⟨form, kinds⟩)

/-- Two bounds whose kinds are known to be the same. -/
inductive OneKind (kind : OrderedKind) : Option OrderedKind → Option OrderedKind → Prop where
  | lower : OneKind kind (some kind) none
  | upper : OneKind kind none (some kind)
  | both : OneKind kind (some kind) (some kind)

theorem oneKind_boundKinds (r : Range) : OneKind r.kind (boundKinds r).1 (boundKinds r).2 := by
  have extent {α : Type} (span : Span α) (kind : OrderedKind) :
      OneKind kind (span.lower?.map fun _ => kind) (span.upper?.map fun _ => kind) := by
    cases span with
    | above l => exact .lower
    | below u => exact .upper
    | between l u => exact .both
  cases r with
  | string b | number b | date b => exact extent b.span _

/-- The kinds that the bounds of a range are found to have. -/
theorem eq_boundKinds {low high : Option OrderedKind}
    (form : RangeForm (rangeFields closedLower closedUpper lower upper) r)
    (one : OneKind r.kind low high) (lowKind : boundKind lower = .ok low)
    (highKind : boundKind upper = .ok high) :
    low = (boundKinds r).1 ∧ high = (boundKinds r).2 := by
  have only : (∀ k ∈ low, k = r.kind) ∧ ∀ k ∈ high, k = r.kind := by
    cases one <;> simp
  have kinds {α : Type} {form : Value → α → Prop} {b : Bounds α} (present : ∀ a, ¬ form .null a)
      (bounds : BoundsForm form (rangeFields closedLower closedUpper lower upper) b) :
      (low = b.span.lower?.map fun _ => r.kind) ∧ high = b.span.upper?.map fun _ => r.kind :=
    ⟨eq_of_boundAt present rfl bounds.lower lowKind only.1,
      eq_of_boundAt present rfl bounds.upper highKind only.2⟩
  cases form with
  | string bounds => exact kinds not_text_null bounds
  | number bounds => exact kinds not_numberForm_null bounds
  | date bounds => exact kinds not_momentForm_null bounds

/-- A range is made when there is a bound, and the kinds of the bounds are the same. -/
theorem range_eq_ok_iff : range closedLower closedUpper lower upper = .ok n ↔
    ∃ kind low high, OneKind kind low high ∧ boundKind lower = .ok low ∧
      boundKind upper = .ok high ∧
      buildNode (.range kind) (rangeFields closedLower closedUpper lower upper) = .ok n := by
  constructor
  · intro built
    obtain ⟨low, lowKind, built⟩ := bind_eq_ok.1 built
    obtain ⟨high, highKind, built⟩ := bind_eq_ok.1 built
    cases low with
    | none =>
      cases high with
      | none => exact absurd built raise_ne_ok
      | some k => exact ⟨k, _, _, .upper, lowKind, highKind, built⟩
    | some k =>
      cases high with
      | none => exact ⟨k, _, _, .lower, lowKind, highKind, built⟩
      | some k' =>
        dsimp only at built
        split at built
        · next same =>
          subst same
          exact ⟨k, _, _, .both, lowKind, highKind, built⟩
        · exact absurd built raise_ne_ok
  · rintro ⟨kind, low, high, one, lowKind, highKind, built⟩
    refine bind_eq_ok.2 ⟨low, lowKind, bind_eq_ok.2 ⟨high, highKind, ?_⟩⟩
    cases one with
    | lower | upper => exact built
    | both => exact (if_pos rfl).trans built

theorem range_eq_ok : range closedLower closedUpper lower upper = .ok n ↔
    (∃ r, RawRange closedLower closedUpper lower upper r ∧ .range r = n) ∧ n.Buildable := by
  rw [range_eq_ok_iff]
  constructor
  · rintro ⟨kind, low, high, one, lowKind, highKind, built⟩
    obtain ⟨r, part, rfl⟩ := Decoded.map_eq_done.1 ((buildNode_eq_ok rfl rfl).1 built)
    obtain ⟨rfl, form⟩ := Range.ofFields_eq_done.1 part
    obtain ⟨rfl, rfl⟩ := eq_boundKinds form one lowKind highKind
    exact ⟨⟨r, rawRange_iff.2 ⟨form, lowKind, highKind⟩, rfl⟩, trivial⟩
  · rintro ⟨⟨r, raw, rfl⟩, -⟩
    obtain ⟨form, lowKind, highKind⟩ := rawRange_iff.1 raw
    refine ⟨r.kind, _, _, oneKind_boundKinds r, lowKind, highKind, (buildNode_eq_ok rfl rfl).2 ?_⟩
    exact Decoded.map_eq_done.2 ⟨r, Range.ofFields_eq_done.2 ⟨rfl, form⟩, rfl⟩

end Range

end Build

end QueryTree
