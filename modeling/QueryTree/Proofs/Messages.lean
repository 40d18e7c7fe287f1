import QueryTree.Proofs.Outcomes

/-!
# Messages about faults

Every message that an entry point gives about a value it could not read is about a part of that
value.  Its path leads there, and what it shows is the part.

* `Message.place`           : the way to the part that a message is about
* `Node.messages_located`   : messages about values that are no trees
-/

namespace QueryTree

/-- The way to the part that a message is about.  If a field is missing, the last step does not lead
    to anything, and the message is about the part that lacks the field. -/
def Message.place (m : Message) : Path :=
  if m.code = "missing" then m.path.dropLast else m.path

theorem Cause.code_eq_missing {cause : Cause} : cause.code = "missing" ↔ cause = .fieldMissing := by
  cases cause <;> simp [code]

/-- A message is about a part of a value: its way leads to the part, which it shows. -/
def Message.Locates (v : Value) (m : Message) : Prop :=
  (m.code = "missing" → m.path ≠ []) ∧
    ∃ w, v.walk m.place = some w ∧ m.details = [("input", .str w.shown)]

theorem Fault.PointsInto.locates {v : Value} {f : Fault} (points : f.PointsInto v) :
    f.toMessage.Locates v := by
  cases points with
  | @place path cause w _ said reached =>
    have coded : ¬ cause.code = "missing" := fun missing =>
      said.ne_missing (Cause.code_eq_missing.1 missing)
    have place : (Fault.toMessage ⟨path, cause, w⟩).place = path := if_neg coded
    refine ⟨fun missing => absurd missing coded, w, ?_, rfl⟩
    rw [place]
    exact reached
  | @missing path key w _ _ reached =>
    have place : (Fault.toMessage ⟨path ++ [.field key], .fieldMissing, w⟩).place = path := by
      apply (if_pos rfl).trans
      exact List.dropLast_concat
    refine ⟨fun _ => List.append_ne_nil_of_right_ne_nil path (by simp), w, ?_, rfl⟩
    rw [place]
    exact reached

/-- Whatever cannot be read as a tree is answered by the messages about its faults, and every one is
    about a part of the value. -/
theorem Node.messages_located {v : Value} {f : Fault} {fs : List Fault}
    (faulty : decode v = .faulty f fs) (writable : v.writable = true) :
    (decode v).verdict = .ok (.rejected (.malformed f fs)) ∧
      (∀ role limit, guardDepth limit v = .ok () →
        checkValue role limit v = .ok (.rejected (.malformed f fs))) ∧
      ∀ m ∈ (Rejection.malformed f fs).messages, m.Locates v := by
  have points : ∀ g ∈ f :: fs, g.PointsInto v := by
    have all : (decode v).PointsInto v := decodeIn_pointsInto .full v
    rwa [faulty] at all
  have verdict : (decode v).verdict = .ok (.rejected (.malformed f fs)) := by
    rw [faulty]
    exact Decoded.verdict_shown fun g member => (points g member).writable writable
  refine ⟨verdict, ?_, ?_⟩
  · intro role limit passed
    rw [checkValue, passed]
    dsimp only
    rw [verdict]
    rfl
  · intro m member
    obtain ⟨g, there, rfl⟩ := List.mem_map.1 member
    exact (points g there).locates

/-- A number that is text and a range without a flag, as the two sides of a combination. -/
def badSides : Value :=
  .mapping [
    ("lhs", .mapping [("type", .str "literal"), ("kind", .str "number"), ("value", .str "ten")]),
    ("type", .str "and"),
    ("rhs", .mapping [("kind", .str "string"), ("type", .str "range"), ("closedUpper", .bool true),
      ("upper", .str "z")])]

/-- The sides are operands in the paths of the messages, and the flag is under its own name. -/
theorem Node.messages_located_badSides :
    badSides.writable = true ∧ ∃ f fs, decode badSides = .faulty f fs ∧
      (Rejection.malformed f fs).messages.map Message.path =
        [[.tag "and", .field "operands", .index 0, .tag "literal", .tag "number", .field "value",
            .tag "int"],
          [.tag "and", .field "operands", .index 0, .tag "literal", .tag "number", .field "value",
            .tag "float"],
          [.tag "and", .field "operands", .index 1, .tag "range", .tag "string",
            .field "closed_lower"]] ∧
      ∀ m ∈ (Rejection.malformed f fs).messages, m.Locates badSides := by
  have writable : badSides.writable = true := by decide
  obtain ⟨f, fs, faulty⟩ : ∃ f fs, decode badSides = .faulty f fs := ⟨_, _, rfl⟩
  refine ⟨writable, f, fs, faulty, ?_, (messages_located faulty writable).2.2⟩
  cases faulty
  rfl

end QueryTree
