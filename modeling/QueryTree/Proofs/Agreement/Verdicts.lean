import QueryTree.Proofs.Agreement.Slots
import QueryTree.Query

/-!
# Answers that are alike

Values that the guard judges alike and that are read alike get the same answers everywhere: the same
tree, the same text, or messages of the same codes about the same places.

* `Rejection.places`       : the codes and places of the messages
* `SameOutcome`            : two outcomes of an entry point that are alike
* `SameOutcomes`           : the outcomes of all entry points
* `sameOutcomes_of_agrees` : values that are judged and read alike
-/

namespace QueryTree

variable {α : Type}

/-! ## Outcomes -/

/-- The codes and places of the messages that the caller gets, in order. -/
def Rejection.places (r : Rejection) : List (String × Path) :=
  r.messages.map fun m => (m.code, m.path)

/-- The same result, messages of the same codes about the same places, or the same failure. -/
inductive SameOutcome :
    Except Failure (Verdict α) → Except Failure (Verdict α) → Prop where
  | accepted (a : α) : SameOutcome (.ok (.accepted a)) (.ok (.accepted a))
  | rejected {r s : Rejection} :
      r.places = s.places → SameOutcome (.ok (.rejected r)) (.ok (.rejected s))
  | failure (e : Failure) : SameOutcome (.error e) (.error e)

theorem SameOutcome.refl (outcome : Except Failure (Verdict α)) : SameOutcome outcome outcome := by
  match outcome with
  | .ok (.accepted a) => exact .accepted a
  | .ok (.rejected r) => exact .rejected rfl
  | .error e => exact .failure e

/-- The entry points do not tell two values apart, whatever kind a term value is wanted of. -/
structure SameOutcomes (limit : Int) (v w : Value) : Prop where
  element : SameOutcome (validateElement limit v) (validateElement limit w)
  clause : SameOutcome (validateClause limit v) (validateClause limit w)
  termValue : ∀ kind,
    SameOutcome (validateTermValue kind limit v) (validateTermValue kind limit w)
  query : SameOutcome (toQuery limit v) (toQuery limit w)

/-! ## Readings and outcomes -/

theorem faults_places_eq {fs gs : List Fault} (agree : List.Forall₂ Fault.Agrees fs gs) :
    (fs.map Fault.toMessage).map (fun m => (m.code, m.path)) =
      (gs.map Fault.toMessage).map fun m => (m.code, m.path) := by
  induction agree with
  | nil => rfl
  | cons agrees _ ih => exact congrArg₂ List.cons (Prod.ext agrees.code agrees.path) ih

theorem faults_shown_eq {fs gs : List Fault} (agree : List.Forall₂ Fault.Agrees fs gs) :
    (fs.all fun f => f.input.writable) = gs.all fun g => g.input.writable := by
  induction agree with
  | nil => rfl
  | cons agrees _ ih => simp [agrees.shown, ih]

theorem Decoded.Agrees.verdict {d e : Decoded α} (agrees : d.Agrees e) :
    SameOutcome d.verdict e.verdict := by
  cases agrees with
  | done a => exact .accepted a
  | outsideCalendar => exact .failure _
  | faulty first rest =>
    have all := List.Forall₂.cons first rest
    unfold Decoded.verdict
    dsimp only
    rw [faults_shown_eq all]
    split
    · exact .rejected (faults_places_eq all)
    · exact .failure _

section Checks

variable {limit : Int} {v w : Value}

theorem checkValue_agrees {role : Role} (guarded : guardDepth limit v = guardDepth limit w)
    (read : (Node.decode v).Agrees (Node.decode w)) :
    SameOutcome (checkValue role limit v) (checkValue role limit w) := by
  rw [checkValue, checkValue, guarded]
  cases guardDepth limit w with
  | error stop => cases stop <;> exact .refl _
  | ok passed =>
    have verdict := read.verdict
    generalize (Node.decode v).verdict = o, (Node.decode w).verdict = p at verdict
    cases verdict with
    | accepted n => exact .refl _
    | rejected places => exact .rejected places
    | failure e => exact .failure e

/-- The text depends on the tree alone. -/
theorem toQuery_agrees (checked : SameOutcome (validateElement limit v) (validateElement limit w)) :
    SameOutcome (toQuery limit v) (toQuery limit w) := by
  unfold toQuery
  generalize validateElement limit v = o, validateElement limit w = p at checked
  cases checked with
  | accepted n => exact .refl _
  | rejected places => exact .rejected places
  | failure e => exact .failure e

theorem validateTermValue_agrees {kind : Value}
    (checked : ∀ k,
      SameOutcome (checkValue (.termValue k) limit v) (checkValue (.termValue k) limit w)) :
    SameOutcome (validateTermValue kind limit v) (validateTermValue kind limit w) := by
  unfold validateTermValue
  cases Kind.lookup kind with
  | error e => exact .failure e
  | ok k => exact checked k

theorem sameOutcomes_of_agrees (guarded : guardDepth limit v = guardDepth limit w)
    (read : (Node.decode v).Agrees (Node.decode w)) : SameOutcomes limit v w where
  element := checkValue_agrees guarded read
  clause := checkValue_agrees guarded read
  termValue _ := validateTermValue_agrees fun _ => checkValue_agrees guarded read
  query := toQuery_agrees (checkValue_agrees guarded read)

end Checks

end QueryTree
