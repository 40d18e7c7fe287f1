import Mathlib.Data.List.Forall2
import QueryTree.Geometry.Decode

/-!
# Laws of reading

When the combinators that readers are made of give a result, and when they stop at a date
outside the calendar.  Every reader is opened through these laws.

* `map_eq_done`, `combine_eq_done`, … : a result of a combinator, from results of its parts
* `whole_gather`, `decodeSequence_eq_done` : a sequence is read item by item
* `decodeRequired_eq_done`, `decodeAbsentable_eq_done` : fields
* `map_eq_outside`, …, `decodeAbsentable_eq_outside` : the calendar is left through a part
-/

namespace QueryTree

variable {α β γ : Type}

namespace Decoded

/-! ## Results -/

@[simp] theorem map_eq_done {f : α → β} {d : Decoded α} {b : β} :
    d.map f = .done b ↔ ∃ a, d = .done a ∧ f a = b := by
  cases d <;> simp [map]

@[simp] theorem combine_eq_done {f : α → β → γ} {d : Decoded α} {e : Decoded β} {c : γ} :
    combine f d e = .done c ↔ ∃ a b, d = .done a ∧ e = .done b ∧ f a b = c := by
  cases d <;> cases e <;> simp [combine]

/-- A part that is known to be right adds nothing. -/
@[simp] theorem combine_known {a : α} {d : Decoded β} : combine (fun _ b => b) (.done a) d = d := by
  cases d <;> rfl

@[simp] theorem bind_eq_done {d : Decoded α} {f : α → Decoded β} {b : β} :
    d.bind f = .done b ↔ ∃ a, d = .done a ∧ f a = .done b := by
  cases d <;> simp [bind]

@[simp] theorem under_eq_done {s : Step} {d : Decoded α} {a : α} :
    d.under s = .done a ↔ d = .done a := by
  cases d <;> simp [under]

@[simp] theorem fault_ne_done {c : Cause} {v : Value} {a : α} :
    (fault c v : Decoded α) ≠ .done a := by
  simp [fault]

theorem ofFaults_eq_done {faults : List Fault} {a b : α} :
    ofFaults faults a = .done b ↔ faults = [] ∧ a = b := by
  cases faults <;> simp [ofFaults]

/-! ## Leaving the calendar -/

@[simp] theorem map_eq_outside {f : α → β} {d : Decoded α} :
    d.map f = .outsideCalendar ↔ d = .outsideCalendar := by
  cases d <;> simp [map]

@[simp] theorem combine_eq_outside {f : α → β → γ} {d : Decoded α} {e : Decoded β} :
    combine f d e = .outsideCalendar ↔ d = .outsideCalendar ∨ e = .outsideCalendar := by
  cases d <;> cases e <;> simp [combine]

@[simp] theorem bind_eq_outside {d : Decoded α} {f : α → Decoded β} :
    d.bind f = .outsideCalendar ↔
      d = .outsideCalendar ∨ ∃ a, d = .done a ∧ f a = .outsideCalendar := by
  cases d <;> simp [bind]

@[simp] theorem under_eq_outside {s : Step} {d : Decoded α} :
    d.under s = .outsideCalendar ↔ d = .outsideCalendar := by
  cases d <;> simp [under]

@[simp] theorem fault_ne_outside {c : Cause} {v : Value} :
    (fault c v : Decoded α) ≠ .outsideCalendar := by
  simp [fault]

theorem ofFaults_ne_outside {faults : List Fault} {a : α} :
    ofFaults faults a ≠ .outsideCalendar := by
  cases faults <;> simp [ofFaults]

/-- A value that gives no result and names no date outside the calendar has a fault. -/
theorem exists_faulty {d : Decoded α} (inside : d ≠ .outsideCalendar)
    (undone : ∀ a, d ≠ .done a) : ∃ f fs, d = .faulty f fs := by
  cases d with
  | done a => exact absurd rfl (undone a)
  | faulty f fs => exact ⟨f, fs, rfl⟩
  | outsideCalendar => exact absurd rfl inside

end Decoded

/-! ## Sequences -/

namespace Gathered

/-- Nothing was lost: every item gave a result. -/
structure Whole (g : Gathered α) (xs : List α) : Prop where
  inside : g.outside = false
  faultless : g.faults = []
  items : g.items = xs

theorem whole_cons {i : Nat} {d : Decoded α} {rest : Gathered α} {xs : List α} :
    (cons i d rest).Whole xs ↔ ∃ x ys, d = .done x ∧ rest.Whole ys ∧ x :: ys = xs := by
  cases d with
  | done x =>
    constructor
    · rintro ⟨inside, faultless, items⟩
      exact ⟨x, rest.items, rfl, ⟨inside, faultless, rfl⟩, items⟩
    · rintro ⟨_, _, ⟨⟩, ⟨inside, faultless, rfl⟩, items⟩
      exact ⟨inside, faultless, items⟩
  | faulty f fs =>
    constructor
    · rintro ⟨-, ⟨⟩, -⟩
    · rintro ⟨_, _, ⟨⟩, -⟩
  | outsideCalendar =>
    constructor
    · rintro ⟨⟨⟩, -, -⟩
    · rintro ⟨_, _, ⟨⟩, -⟩

theorem atLeast_eq_done {least : Nat} {v : Value} {g : Gathered α} {xs : List α} :
    g.atLeast least v = .done xs ↔ g.Whole xs ∧ least ≤ xs.length := by
  constructor
  · intro done
    unfold atLeast at done
    split at done
    · cases done
    · next inside =>
      obtain ⟨faults, rfl⟩ := Decoded.ofFaults_eq_done.1 done
      obtain ⟨faultless, enough⟩ := List.append_eq_nil_iff.1 faults
      refine ⟨⟨by simpa using inside, faultless, rfl⟩, ?_⟩
      by_contra short
      rw [if_pos (Nat.not_le.1 short)] at enough
      cases enough
  · rintro ⟨⟨inside, faultless, rfl⟩, enough⟩
    simp [atLeast, inside, faultless, Nat.not_lt.2 enough, Decoded.ofFaults_eq_done]

@[simp] theorem atLeast_eq_outside {least : Nat} {v : Value} {g : Gathered α} :
    g.atLeast least v = .outsideCalendar ↔ g.outside = true := by
  cases h : g.outside <;> simp [atLeast, h, Decoded.ofFaults_ne_outside]

end Gathered

/-- Items are gathered without a loss exactly when every one of them gives a result. -/
theorem whole_gather {read : Value → Decoded α} {i : Nat} {vs : List Value} {xs : List α} :
    (gather read i vs).Whole xs ↔ List.Forall₂ (fun v x => read v = .done x) vs xs := by
  induction vs generalizing i xs with
  | nil =>
    constructor
    · rintro ⟨-, -, rfl⟩
      exact .nil
    · rintro ⟨⟩
      exact ⟨rfl, rfl, rfl⟩
  | cons v vs ih =>
    rw [gather, Gathered.whole_cons, List.forall₂_cons_left_iff]
    constructor
    · rintro ⟨x, ys, done, whole, rfl⟩
      exact ⟨x, ys, done, ih.1 whole, rfl⟩
    · rintro ⟨x, ys, done, all, rfl⟩
      exact ⟨x, ys, done, ih.2 all, rfl⟩

theorem gather_outside {read : Value → Decoded α} {i : Nat} {vs : List Value} :
    (gather read i vs).outside = true ↔ ∃ v ∈ vs, read v = .outsideCalendar := by
  induction vs generalizing i with
  | nil => simp [gather, Gathered.empty]
  | cons v vs ih =>
    simp only [gather, List.mem_cons, exists_eq_or_imp]
    cases read v <;> simp [Gathered.cons, ih]

/-- A sequence that is gathered item by item is done when every item is, and there are enough. -/
theorem atLeast_gather_eq_done {read : Value → Decoded α} {least i : Nat} {v : Value}
    {vs : List Value} {xs : List α} :
    (gather read i vs).atLeast least v = .done xs ↔
      List.Forall₂ (fun v x => read v = .done x) vs xs ∧ least ≤ xs.length := by
  rw [Gathered.atLeast_eq_done, whole_gather]

theorem decodeSequence_eq_done {least : Nat} {read : Value → Decoded α} {v : Value}
    {xs : List α} :
    decodeSequence least read v = .done xs ↔
      ∃ vs, v.items? = some vs ∧ List.Forall₂ (fun v x => read v = .done x) vs xs ∧
        least ≤ xs.length := by
  unfold decodeSequence
  cases v.items? with
  | none => simp
  | some vs => simp [atLeast_gather_eq_done]

theorem decodeSequence_eq_outside {least : Nat} {read : Value → Decoded α} {v : Value} :
    decodeSequence least read v = .outsideCalendar ↔
      ∃ vs, v.items? = some vs ∧ ∃ w ∈ vs, read w = .outsideCalendar := by
  unfold decodeSequence
  cases v.items? with
  | none => simp
  | some vs => simp [gather_outside]

theorem decodeSequence_ne_outside {least : Nat} {read : Value → Decoded α} {v : Value}
    (inside : ∀ vs, v.items? = some vs → ∀ w ∈ vs, read w ≠ .outsideCalendar) :
    decodeSequence least read v ≠ .outsideCalendar := by
  rw [ne_eq, decodeSequence_eq_outside]
  rintro ⟨vs, items, w, member, outside⟩
  exact inside vs items w member outside

/-! ## Fields -/

theorem decodeRequired_eq_done {key : String} {read : Value → Decoded α} {whole : Value}
    {fs : List (String × Value)} {a : α} :
    decodeRequired key read whole fs = .done a ↔
      ∃ v, fs.lookup key = some v ∧ read v = .done a := by
  unfold decodeRequired
  cases fs.lookup key <;> simp

theorem decodeRequired_eq_outside {key : String} {read : Value → Decoded α} {whole : Value}
    {fs : List (String × Value)} :
    decodeRequired key read whole fs = .outsideCalendar ↔
      ∃ v, fs.lookup key = some v ∧ read v = .outsideCalendar := by
  unfold decodeRequired
  cases fs.lookup key <;> simp

theorem decodeRequired_ne_outside {key : String} {read : Value → Decoded α} {whole : Value}
    {fs : List (String × Value)}
    (inside : ∀ v, fs.lookup key = some v → read v ≠ .outsideCalendar) :
    decodeRequired key read whole fs ≠ .outsideCalendar := by
  rw [ne_eq, decodeRequired_eq_outside]
  rintro ⟨v, found, outside⟩
  exact inside v found outside

theorem decodeOptional_eq_done {read : Value → Decoded α} {v : Value} {a? : Option α} :
    decodeOptional read v = .done a? ↔
      (v = .null ∧ a? = none) ∨ (v ≠ .null ∧ ∃ a, read v = .done a ∧ some a = a?) := by
  cases v <;> simp [decodeOptional, @eq_comm _ none]

theorem decodeAbsentable_eq_done {key : String} {read : Value → Decoded α}
    {fs : List (String × Value)} {a? : Option α} :
    decodeAbsentable key read fs = .done a? ↔
      decodeOptional read ((fs.lookup key).getD .null) = .done a? := by
  unfold decodeAbsentable
  cases fs.lookup key <;> simp [decodeOptional]

/-- The absent value is not read at all. -/
theorem decodeAbsentable_eq_outside {key : String} {read : Value → Decoded α}
    {fs : List (String × Value)} :
    decodeAbsentable key read fs = .outsideCalendar ↔
      ∃ v, fs.lookup key = some v ∧ v ≠ .null ∧ read v = .outsideCalendar := by
  unfold decodeAbsentable
  cases fs.lookup key with
  | none => simp
  | some v => cases v <;> simp [decodeOptional]

end QueryTree
