import QueryTree.Proofs.Limits
import QueryTree.Proofs.Rendering

/-!
# Objects made by hand

An object that was made without checks is read like any other value: whatever it holds, the entry
points answer, and what they accept keeps every promise of its class.  They do not get to answer an
object that lacks a field: the guard fails on it.

* `WellFormed`          : a tree that a value is a form of, with the promises of its parts
* `complete_handBuilt`  : which objects lack no field, at any level
* `handBuilt_rechecked` : the answers
* `fieldless_unanswered` : an object without the field that it needs
-/

namespace QueryTree

/-! ## Complete objects -/

/-- What a field of an object made by hand holds: what was given under its name, else under its
    other name, else the default. -/
def Value.handBuiltField (m : Model) (given : List (String × Value)) (name : String) :
    Option Value :=
  ((given.lookup name).or ((Model.otherName? name).bind fun other => given.lookup other)).or
    (defaultField? m name)

/-- An object made by hand is complete if each field of its class holds a complete value. -/
theorem complete_handBuilt {m : Model} {given : List (String × Value)} :
    (Value.handBuilt m given).complete = true ↔
      ∀ name ∈ m.fieldNames, ∃ v,
        Value.handBuiltField m given name = some v ∧ v.complete = true := by
  have field {name : String} (named : name ∈ m.fieldNames) :
      (m.fieldsOf given).lookup name = Value.handBuiltField m given name :=
    lookup_fieldsOf named
  have lacks : (Value.handBuilt m given).lacksField = false ↔
      ∀ name ∈ m.fieldNames, ((m.fieldsOf given).lookup name).isSome = true := by
    show (m.fieldNames.any fun name => ((m.fieldsOf given).lookup name).isNone) = false ↔ _
    simp [Option.isSome_iff_ne_none]
  rw [Value.complete_iff, lacks]
  constructor
  · rintro ⟨there, whole⟩ name named
    obtain ⟨v, found⟩ := Option.isSome_iff_exists.1 (there name named)
    have held : v ∈ (m.fieldsOf given).map Prod.snd := List.mem_map_of_mem (mem_of_lookup found)
    exact ⟨v, (field named).symm.trans found, whole _ rfl v held⟩
  · intro each
    constructor
    · intro name named
      obtain ⟨v, found, -⟩ := each name named
      rw [field named, found]
      rfl
    · rintro vs ⟨⟩ w member
      obtain ⟨⟨key, v⟩, inside, rfl⟩ := List.mem_map.1 member
      obtain ⟨named, found⟩ := mem_fieldsOf_iff.1 inside
      obtain ⟨u, same, complete⟩ := each key named
      cases found.symm.trans ((field named).trans same)
      exact complete

/-! ## Answers -/

/-- The tree of a value: the value is a form of it, and every part of it keeps what its class
    promises and is a form itself. -/
structure WellFormed (v : Value) (n : Node) : Prop where
  form : NodeForm v n
  parts : ∀ m, Node.Within m n → m.promise ∧ NodeForm m.toValue m

theorem wellFormed_of_accepted {role : Role} {limit : Int} {v : Value} {n : Node}
    (accepted : checkValue role limit v = .ok (.accepted n)) : WellFormed v n where
  form := (Node.decode_eq_done_iff.1 (checkValue_eq_accepted.1 accepted).2.1).1
  parts m _ := ⟨m.promise_all, m.nodeForm_toValue⟩

/-- An object made by hand is never trusted: if no object in it lacks a field it is answered like
    any other value, and what is accepted keeps every promise.  If one lacks a field, the guard
    fails, unless a container that is too deep stops it before. -/
theorem handBuilt_rechecked (m : Model) (given : List (String × Value)) (limit : Int) :
    let v := Value.handBuilt m given
    (v.complete = true ↔ ∀ name ∈ m.fieldNames, ∃ w,
      Value.handBuiltField m given name = some w ∧ w.complete = true) ∧
    (v.complete = true → ¬ v.DateOutside → v.writable = true → writableInt limit = true →
      Answered limit v) ∧
    (¬ v.complete = true → Stopped .missingField limit v ∨
      max limit 0 < v.nest ∧ Stopped (.beyond limit) limit v) ∧
    (∀ n, validateElement limit v = .ok (.accepted n) ∨ validateClause limit v = .ok (.accepted n) ∨
      (∃ name, validateTermValue name limit v = .ok (.accepted n)) → WellFormed v n) ∧
    ∀ text, toQuery limit v = .ok (.accepted text) →
      ∃ n, WellFormed v n ∧ text = String.ofList n.text := by
  intro v
  refine ⟨complete_handBuilt, ?_, ?_, ?_, ?_⟩
  · intro complete inside writable short
    rcases guardDepth_cases limit v with ⟨passed, -⟩ | ⟨stopped, -⟩ | ⟨-, lacking⟩
    · exact answered_of_guard passed inside writable
    · rw [GuardStop.beyond_eq_tooDeep.2 short] at stopped
      exact (stopped_of_guard stopped).rejects.answered
    · exact absurd complete lacking
  · intro lacking
    rcases guardDepth_cases limit v with ⟨-, complete, -⟩ | ⟨stopped, deep⟩ | ⟨stopped, -⟩
    · exact absurd complete lacking
    · exact .inr ⟨by omega, stopped_of_guard stopped⟩
    · exact .inl (stopped_of_guard stopped)
  · rintro n (accepted | accepted | ⟨name, accepted⟩)
    · exact wellFormed_of_accepted accepted
    · exact wellFormed_of_accepted accepted
    · rw [validateTermValue] at accepted
      cases found : Kind.lookup name with
      | error failure =>
        rw [found] at accepted
        cases accepted
      | ok kind =>
        rw [found] at accepted
        exact wellFormed_of_accepted accepted
  · intro text written
    obtain ⟨n, accepted, -, same⟩ := toQuery_eq_accepted.1 written
    exact ⟨n, wellFormed_of_accepted accepted, same⟩

/-- A clause by hand over a leaf by hand, of a kind and with a value. -/
def clauseByHand (kind : Kind) (value : Value) : Value :=
  .handBuilt (.modify .required) [("rhs", .handBuilt (.literal kind) [("value", value)])]

/-- A leaf over numbers that holds text is answered, and one over text is accepted as the tree that
    it looks like. -/
theorem handBuilt_rechecked_clauses :
    Answered 200 (clauseByHand .number (.str "lion")) ∧
      WellFormed (clauseByHand .string (.str "lion"))
        (.modify .required (.literal (.string "lion"))) := by
  have inside : ¬ (clauseByHand .number (.str "lion")).DateOutside :=
    Value.not_dateOutside (by decide)
  have accepted : validateElement 200 (clauseByHand .string (.str "lion")) =
      .ok (.accepted (.modify .required (.literal (.string "lion")))) := by
    have object : clauseByHand .string (.str "lion") =
        (Node.modify .required (.literal (.string "lion"))).toValue := rfl
    rw [object, validateElement, checkValue_toValue (Node.formed_iff.2 (by decide)) (by decide)]
    rfl
  obtain ⟨-, answers, -, -, -⟩ := handBuilt_rechecked (.modify .required)
    [("rhs", .handBuilt (.literal .number) [("value", .str "lion")])] 200
  obtain ⟨-, -, -, sound, -⟩ := handBuilt_rechecked (.modify .required)
    [("rhs", .handBuilt (.literal .string) [("value", .str "lion")])] 200
  exact ⟨answers (by decide) inside (by decide) (by decide +kernel), sound _ (.inl accepted)⟩

/-- A term without a value. -/
def fieldless : Value :=
  .handBuilt .term []

/-- It holds no date and no integer, and yet there is no answer to it. -/
theorem fieldless_unanswered :
    ¬ fieldless.DateOutside ∧ fieldless.writable = true ∧ fieldless.nest = 1 ∧
      Stopped .missingField 200 fieldless ∧
      validateElement 200 fieldless = .error .missingField := by
  have stopped : Stopped .missingField 200 fieldless := by
    apply stopped_of_guard
    rw [guardDepth_shallow (by decide), if_neg (by decide)]
  exact ⟨Value.not_dateOutside (by decide), by decide, by decide, stopped, stopped.element⟩

end QueryTree
