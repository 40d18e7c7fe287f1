import QueryTree.Proofs.Encoding
import QueryTree.Proofs.Grammar.Crowding
import QueryTree.Proofs.Grammar.Dates
import QueryTree.Verdict

/-!
# Reading as a decision

Reading decides the grammar of query trees, as far as there is room: it gives the tree of a form,
and faults for everything else.  The faults become messages, unless one of them would show an
integer beyond the limit on digits.  The decision is about all of `Value`; its texts are made of
characters, so that texts with half of a surrogate pair are no part of it.

* `Node.Within`, `Node.promise` : what holds of every part of a tree that was read
* `Decoded.verdict_shown`, `Decoded.verdict_oversized` : the verdict on a value with faults
* `Node.decode_decides`         : the decision
-/

namespace QueryTree

/-! ## What trees promise -/

/-- A tree is part of another one, or the whole of it. -/
inductive Node.Within (n : Node) : Node → Prop where
  | self : Within n n
  | term {v : Node} : Within n v → Within n (.term v)
  | namedTerm {f : FieldName} {v : Node} : Within n v → Within n (.namedTerm f v)
  | operand {c : Connective} {m : Node} {ms : List Node} :
      m ∈ ms → Within n m → Within n (.combine c ms)
  | modify {m : Modifier} {v : Node} : Within n v → Within n (.modify m v)
  | constant {v : Node} {boost : Number} : Within n v → Within n (.constant v boost)

/-- One of the bounds is there. -/
def Bounds.bounded {α : Type} (b : Bounds α) : Prop :=
  b.span.lower? ≠ none ∨ b.span.upper? ≠ none

theorem Bounds.bounded_all {α : Type} (b : Bounds α) : b.bounded := by
  obtain ⟨_, _, span⟩ := b
  cases span with
  | above l => exact .inl (by simp [Span.lower?])
  | below u => exact .inr (by simp [Span.upper?])
  | between l u => exact .inl (by simp [Span.lower?])

/-- What a node promises beside the trees below it: a leaf holds a value of its kind, a range has a
    bound, the field of a named term is not empty. -/
def Node.promise : Node → Prop
  | .literal l => LiteralForm l.content l
  | .range (.string b) => b.bounded
  | .range (.number b) => b.bounded
  | .range (.date b) => b.bounded
  | .namedTerm f _ => f.text ≠ ""
  | _ => True

theorem Node.promise_all (n : Node) : n.promise := by
  cases n with
  | literal l => exact literalForm_encoded faithful_id l
  | range r => cases r <;> exact Bounds.bounded_all _
  | namedTerm f v => exact f.nonempty
  | _ => trivial

/-! ## Verdicts -/

/-- Faults become messages, one for each, if the values that they show can be written. -/
theorem Decoded.verdict_shown {α : Type} {f : Fault} {fs : List Fault}
    (shown : ∀ g ∈ f :: fs, g.input.writable = true) :
    (Decoded.faulty f fs : Decoded α).verdict = .ok (.rejected (.malformed f fs)) :=
  if_pos (List.all_eq_true.2 shown)

/-- One value that cannot be written spoils the messages. -/
theorem Decoded.verdict_oversized {α : Type} {f : Fault} {fs : List Fault}
    (hidden : ∃ g ∈ f :: fs, g.input.writable = false) :
    (Decoded.faulty f fs : Decoded α).verdict = .error (.oversized none) := by
  obtain ⟨g, member, hidden⟩ := hidden
  have spoiled : ¬ ((f :: fs).all fun f => f.input.writable) = true := by
    intro all
    rw [List.all_eq_true.1 all g member] at hidden
    cases hidden
  exact if_neg spoiled

/-- Reading gives the tree of a form for which there is room, of which every part keeps what its
    class promises and is a form itself.  There is room for all forms whose containers are nested up
    to 246 times, and a form for which there is none has that as its first fault.  Every other value
    whose dates are inside the calendar has faults too.  The verdict shows faults as messages, of
    which there is one at least; it is a failure exactly if there is a fault at a value with an
    integer beyond the limit on digits. -/
theorem Node.decode_decides (v : Value) :
    (∀ n, decode v = .done n ↔ NodeForm v n ∧ n.InRoom .full) ∧
    (∀ n, NodeForm v n →
      (v.nest ≤ 246 → n.InRoom .full) ∧
        (¬ n.InRoom .full → ∃ f fs, decode v = .faulty f fs ∧ f.cause = .tooNested)) ∧
    (∀ n, decode v = .done n →
      (decode v).verdict = .ok (.accepted n) ∧
        ∀ m, Within m n → m.promise ∧ NodeForm m.toValue m) ∧
    (v.datesInside = true → (∀ n, NodeForm v n → ¬ n.InRoom .full) →
      ∃ f fs, decode v = .faulty f fs ∧ (Rejection.malformed f fs).messages ≠ [] ∧
        ((decode v).verdict = .ok (.rejected (.malformed f fs)) ↔
          ∀ g ∈ f :: fs, g.input.writable = true) ∧
        ((decode v).verdict = .error (.oversized none) ↔
          ∃ g ∈ f :: fs, g.input.writable = false)) := by
  refine ⟨fun n => decode_eq_done_iff, fun n form => ⟨fun shallow => ?_, fun crowded => ?_⟩, ?_, ?_⟩
  · have wide : v.nest + Room.full.rank ≤ Room.full.left := by
      simp only [Room.full, readerLimit]
      omega
    exact form.inRoom wide
  · exact exists_tooNested form crowded
  · intro n done
    rw [done]
    exact ⟨rfl, fun m _ => ⟨m.promise_all, m.nodeForm_toValue⟩⟩
  · intro inside outside
    obtain ⟨f, fs, faulty⟩ := Decoded.exists_faulty (decodeIn_ne_outside inside) fun n done => by
      obtain ⟨form, fits⟩ := decodeIn_eq_done_iff.1 done
      exact outside n form fits
    refine ⟨f, fs, faulty, Rejection.messages_ne_nil _, ?_⟩
    rw [decode, faulty]
    by_cases shown : ∀ g ∈ f :: fs, g.input.writable = true
    · have none : ¬ ∃ g ∈ f :: fs, g.input.writable = false := by
        rintro ⟨g, member, hidden⟩
        rw [shown g member] at hidden
        cases hidden
      rw [Decoded.verdict_shown shown]
      exact ⟨⟨fun _ => shown, fun _ => rfl⟩, by simp only [none, reduceCtorEq]⟩
    · have hidden : ∃ g ∈ f :: fs, g.input.writable = false := by
        simpa only [not_forall, Bool.not_eq_true, exists_prop] using shown
      rw [Decoded.verdict_oversized hidden]
      exact ⟨by simp only [shown, reduceCtorEq], ⟨fun _ => hidden, fun _ => rfl⟩⟩

/-- A term is read, and the absent value is not. -/
theorem Node.decode_decides_term_and_null :
    (decode (toValue (.term (.literal (.string "lion"))))).verdict =
        .ok (.accepted (.term (.literal (.string "lion")))) ∧
      ∃ f fs, decode .null = .faulty f fs ∧
        (decode .null).verdict = .ok (.rejected (.malformed f fs)) := by
  have room : InRoom (.term (.literal (.string "lion"))) .full := by decide
  refine ⟨((decode_decides _).2.2.1 _ (decodeIn_toValue room)).1, ?_⟩
  have unread : decode .null = .faulty (Fault.here .notRecord .null) [] := by
    rw [decode, decodeIn]
    · rfl
    · rintro m fs ⟨⟩
  have formless (n : Node) (form : NodeForm .null n) (fits : n.InRoom .full) : False := by
    rw [decode_eq_done_iff.2 ⟨form, fits⟩] at unread
    cases unread
  obtain ⟨f, fs, faulty, -, shown, -⟩ := (decode_decides .null).2.2.2 (by decide) formless
  refine ⟨f, fs, faulty, shown.2 ?_⟩
  cases unread.symm.trans faulty
  decide

/-- Text that is an integer of 4301 digits. -/
def oversizedText : Value :=
  .mapping [("type", .str "literal"), ("kind", .str "string"), ("value", .int (10 ^ digitLimit))]

/-- Negations of a leaf, one inside the other. -/
def Node.negated : Nat → Node
  | 0 => .literal (.string "a")
  | k + 1 => .modify .not (negated k)

theorem Node.readers_negated_inside (k : Nat) : (negated k).readers 5 = k + 1 := by
  induction k with
  | zero => rfl
  | succ k ih =>
    rw [negated, readers, show Model.innerRank 5 (.modify .not) = 5 from rfl, ih]
    exact Nat.add_comm _ _

/-- There is room for 253 negations, one inside the other. -/
theorem Node.inRoom_negated {k : Nat} : (negated k).InRoom .full ↔ k ≤ 253 := by
  cases k with
  | zero => decide
  | succ k =>
    have cost : Model.entries 9 (.modify .not) = 2 := rfl
    have inside : Model.innerRank 9 (.modify .not) = 5 := rfl
    simp only [InRoom, Room.full, negated, readers, cost, inside, readers_negated_inside,
      readerLimit]
    omega

/-- Text that is an integer of 4301 digits is no form of a tree, and there are no messages either.
    Negations are a form, but there is no room for 254 of them around a leaf. -/
theorem Node.decode_oversizedText_negated :
    (oversizedText.datesInside = true ∧ (∀ n, ¬ NodeForm oversizedText n) ∧
      (decode oversizedText).verdict = .error (.oversized none)) ∧
    NodeForm (negated 254).toValue (negated 254) ∧
      ∃ f fs, decode (negated 254).toValue = .faulty f fs ∧ f.cause = .tooNested := by
  have faulty : decode oversizedText =
      .faulty ⟨[.tag "literal", .tag "string", .field "value"], .notString,
        .int (10 ^ digitLimit)⟩ [] := by
    unfold oversizedText
    rw [decode, decodeIn_record]
    rfl
  have unroomy : ¬ (negated 254).InRoom .full := by
    rw [inRoom_negated]
    omega
  refine ⟨⟨by decide, fun n form => ?_, ?_⟩, (negated 254).nodeForm_toValue,
    exists_tooNested (negated 254).nodeForm_toValue unroomy⟩
  · have fits : n.InRoom .full := form.inRoom (by decide)
    rw [decode_eq_done_iff.2 ⟨form, fits⟩] at faulty
    cases faulty
  · rw [faulty]
    refine Decoded.verdict_oversized ⟨_, .head _, ?_⟩
    simp [Value.writable, writableInt]

end QueryTree
