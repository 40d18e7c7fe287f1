import QueryTree.CommandLine.Arguments
import QueryTree.Proofs.NumberText
import QueryTree.Proofs.Outcomes
import QueryTree.Settings.Basic

/-!
# Limits on nesting

The guard measures nesting exactly, so a value is too deep for a limit just if its nesting is beyond
it, and a value that is not too deep is answered as with any higher limit.

* `Rejects`             : the entry points reject a value for one reason
* `SameLimits`          : the entry points make no difference between two limits
* `guardDepth_exact`    : what the guard and the entry points say at a limit
* `Settings.writable_maxDepth`, `CommandLine.writable_depth` : limits that are given as texts
-/

namespace QueryTree

attribute [local instance (high)] instPowNat

section Answers

variable {limit higher : Int} {v : Value}

/-! ## Values that are too deep -/

/-- Every entry point for trees rejects a value, for the same reasons. -/
structure Rejects (reasons : Rejection) (limit : Int) (v : Value) : Prop where
  element : validateElement limit v = .ok (.rejected reasons)
  clause : validateClause limit v = .ok (.rejected reasons)
  termValue : ∀ (kind : Kind) (name : Value), name.text? = some kind.name →
    validateTermValue name limit v = .ok (.rejected reasons)
  query : toQuery limit v = .ok (.rejected reasons)

theorem Stopped.rejects (stopped : Stopped .tooDeep limit v) : Rejects (.tooDeep limit) limit v where
  element := stopped.element
  clause := stopped.clause
  termValue := stopped.termValue
  query := stopped.query

theorem Rejects.answered {reasons : Rejection} (rejects : Rejects reasons limit v) :
    Answered limit v where
  element := ⟨_, rejects.element⟩
  clause := ⟨_, rejects.clause⟩
  termValue kind name named := ⟨_, rejects.termValue kind name named⟩
  query := ⟨_, rejects.query⟩

/-- No other check gives the reason of the guard. -/
theorem guardDepth_of_checkValue {role : Role} {bound : Int}
    (rejected : checkValue role limit v = .ok (.rejected (.tooDeep bound))) :
    guardDepth limit v = .error .tooDeep := by
  cases guarded : guardDepth limit v with
  | error stop =>
    cases stop with
    | tooDeep => rfl
    | oversizedLimit | missingField =>
      rw [checkValue, guarded] at rejected
      cases rejected
  | ok _ =>
    rw [checkValue, guarded] at rejected
    cases read : Node.decode v with
    | done n =>
      rw [read] at rejected
      have placed : role.verdict n = .rejected (.tooDeep bound) := Except.ok.inj rejected
      rw [Role.verdict] at placed
      split at placed <;> cases placed
    | faulty f fs =>
      simp only [read, Decoded.verdict] at rejected
      split at rejected <;> cases rejected
    | outsideCalendar =>
      rw [read] at rejected
      cases rejected

/-! ## Values within the limit -/

/-- No entry point makes a difference between two limits. -/
structure SameLimits (limit higher : Int) (v : Value) : Prop where
  element : validateElement limit v = validateElement higher v
  clause : validateClause limit v = validateClause higher v
  termValue : ∀ kind, validateTermValue kind limit v = validateTermValue kind higher v
  query : toQuery limit v = toQuery higher v

theorem sameLimits_of_guard (same : guardDepth limit v = .ok ())
    (high : guardDepth higher v = .ok ()) :
    SameLimits limit higher v := by
  have checked (role : Role) : checkValue role limit v = checkValue role higher v := by
    rw [checkValue, checkValue, same, high]
  refine ⟨checked _, checked _, fun kind => ?_, ?_⟩
  · simp only [validateTermValue, checked]
  · rw [toQuery, toQuery, validateElement, validateElement, checked]

/-! ## The guard -/

theorem GuardStop.beyond_eq_tooDeep : beyond limit = .tooDeep ↔ writableInt limit = true := by
  unfold beyond
  split <;> simp [*]

theorem GuardStop.beyond_eq_oversizedLimit :
    beyond limit = .oversizedLimit ↔ writableInt limit = false := by
  unfold beyond
  split <;> simp [*]

/-- The guard stops a value in which no object lacks a field just if it is nested deeper than the
    limit, and so do the entry points: with one message about the whole value, which shows the
    limit, or, if the limit has too many digits for that, without an answer.  A higher limit makes
    no difference to a value that passes. -/
theorem guardDepth_exact (complete : v.complete = true) (limit : Int) :
    (guardDepth limit v = .ok () ↔ (v.nest : Int) ≤ max limit 0) ∧
    (guardDepth limit v = .error .tooDeep ↔
      max limit 0 < v.nest ∧ writableInt limit = true) ∧
    (guardDepth limit v = .error .oversizedLimit ↔
      max limit 0 < v.nest ∧ writableInt limit = false) ∧
    (max limit 0 < v.nest → Stopped (.beyond limit) limit v) ∧
    (Rejects (.tooDeep limit) limit v ↔ max limit 0 < v.nest ∧ writableInt limit = true) ∧
    (Rejection.tooDeep limit).messages =
      [⟨"recursion_limit_exceeded", Rejection.depthText limit, [], [("limit", .int limit)]⟩] ∧
    ((v.nest : Int) ≤ max limit 0 → ∀ higher, limit ≤ higher → SameLimits limit higher v) := by
  have passed (limit : Int) : guardDepth limit v = .ok () ↔ (v.nest : Int) ≤ max limit 0 := by
    rw [guardDepth_eq complete]
    split
    · exact iff_of_true rfl (by omega)
    · exact iff_of_false nofun (by omega)
  have stops (stop : GuardStop) :
      guardDepth limit v = .error stop ↔ max limit 0 < v.nest ∧ .beyond limit = stop := by
    rw [guardDepth_eq complete, ← not_le]
    split <;> simp [*]
  have deep := (stops .tooDeep).trans (and_congr_right' GuardStop.beyond_eq_tooDeep)
  refine ⟨passed limit, deep,
    (stops .oversizedLimit).trans (and_congr_right' GuardStop.beyond_eq_oversizedLimit),
    fun beyond => stopped_of_guard ((stops _).2 ⟨beyond, rfl⟩), ?_, rfl,
    fun within higher above => ?_⟩
  · constructor
    · exact fun rejects => deep.1 (guardDepth_of_checkValue rejects.element)
    · exact fun beyond => (stopped_of_guard (deep.2 beyond)).rejects
  · exact sameLimits_of_guard ((passed limit).2 within) ((passed higher).2 (by omega))

end Answers

/-- A list that is nested twice. -/
def nestedTuple : Value :=
  .list [.tuple [], .int 1]

theorem guardDepth_exact_nestedTuple :
    nestedTuple.complete = true ∧ Rejects (.tooDeep 1) 1 nestedTuple ∧
      SameLimits 2 300 nestedTuple := by
  have complete : nestedTuple.complete = true := by decide
  have short : writableInt 1 = true := by decide +kernel
  obtain ⟨-, -, -, -, rejects, -⟩ := guardDepth_exact complete 1
  obtain ⟨-, -, -, -, -, -, same⟩ := guardDepth_exact complete 2
  exact ⟨complete, rejects.2 ⟨by decide, short⟩, same (by decide) 300 (by decide)⟩

/-- A limit below zero that cannot be shown. -/
def longLimit : Int :=
  -(10 ^ digitLimit)

/-- The empty mapping is nested deeper than that, but no entry point says so. -/
theorem guardDepth_longLimit :
    max longLimit 0 < (Value.mapping []).nest ∧
      guardDepth longLimit (.mapping []) = .error .oversizedLimit ∧
      validateElement longLimit (.mapping []) = .error (.oversized none) ∧
      ¬ Rejects (.tooDeep longLimit) longLimit (.mapping []) := by
  have long : writableInt longLimit = false := by
    simp [writableInt, longLimit, Int.natAbs_pow]
  have negative : longLimit ≤ 0 :=
    Int.neg_nonpos_of_nonneg (Int.pow_nonneg (by decide))
  have beyond : max longLimit 0 < (Value.mapping []).nest := by
    rw [max_eq_right negative]
    decide
  have stopped : guardDepth longLimit (.mapping []) = .error .oversizedLimit := by
    rw [guardDepth_eq rfl, if_neg (not_le.2 beyond), GuardStop.beyond_eq_oversizedLimit.2 long]
  have unanswered := (stopped_of_guard stopped).element
  refine ⟨beyond, stopped, unanswered, fun rejects => ?_⟩
  cases unanswered.symm.trans rejects.element

/-! ## Limits that are given as texts -/

theorem writableInt_of_digits {ds : List Nat} {n : Int} (small : ∀ d ∈ ds, d < 10)
    (short : ds.length ≤ digitLimit) (read : n.natAbs = Text.ofDigits ds) :
    writableInt n = true := by
  have bound : Text.ofDigits ds < 10 ^ digitLimit :=
    Nat.lt_of_lt_of_le (ofDigits_lt small) (Nat.pow_le_pow_right (by decide) short)
  rw [writableInt, read]
  exact decide_eq_true bound

theorem asciiDigit?_lt {c : Char} {d : Nat} (digit : Text.asciiDigit? c = some d) : d < 10 := by
  unfold Text.asciiDigit? at digit
  split at digit
  · cases digit
    omega
  · cases digit

theorem digitValue?_lt {c : Char} {d : Nat} (digit : Text.digitValue? c = some d) : d < 10 := by
  obtain ⟨first, found, rfl⟩ := Option.map_eq_some_iff.1 digit
  have near := List.find?_some found
  simp only [decide_eq_true_eq] at near
  omega

/-- An integer of a setting is within the limit on digits. -/
theorem writable_of_readPlainInteger {cs : List Char} {n : Int}
    (read : readPlainInteger cs = .ok n) : writableInt n = true := by
  unfold readPlainInteger at read
  split at read
  next negative ds parts =>
  have shorter : ds.length ≤ cs.length := by
    split at parts <;> cases parts <;> simp
  simp only at read
  split at read
  · cases read
  split at read
  · cases read
  split at read
  · cases read
  next fits =>
  cases read
  refine writableInt_of_digits ?_ ?_ (natAbs_signed negative _)
  · intro d member
    obtain ⟨c, -, digit⟩ := List.mem_filterMap.1 member
    exact asciiDigit?_lt digit
  · have fewer : (ds.filterMap Text.asciiDigit?).length ≤ ds.length := List.length_filterMap_le _ _
    omega

theorem writable_of_readSettingInteger {cs : List Char} {n : Int}
    (read : readSettingInteger cs = .ok n) : writableInt n = true := by
  rw [readSettingInteger] at read
  split at read
  next negative cs parts =>
  simp only at read
  split at read
  · cases read
  · exact writable_of_readPlainInteger read

theorem lt_of_mem_groupedDigits {cs : List Char} {afterDigit : Bool} {ds : List Nat}
    (read : groupedDigits? afterDigit cs = some ds) : ∀ d ∈ ds, d < 10 := by
  induction cs generalizing afterDigit ds with
  | nil =>
    rw [groupedDigits?] at read
    split at read <;> cases read
    exact fun d member => nomatch member
  | cons c cs ih =>
    by_cases underscore : c = '_'
    · subst underscore
      rw [groupedDigits?] at read
      split at read
      · exact ih read
      · cases read
    · rw [groupedDigits? ] at read
      · obtain ⟨d, digit, read⟩ := Option.bind_eq_some_iff.1 read
        obtain ⟨rest, grouped, same⟩ := Option.bind_eq_some_iff.1 read
        cases same
        exact List.forall_mem_cons.2 ⟨digitValue?_lt digit, ih grouped⟩
      · exact underscore

theorem writable_of_readGroupedInteger {cs : List Char} {n : Int}
    (read : readGroupedInteger? cs = some n) : writableInt n = true := by
  rw [readGroupedInteger?] at read
  split at read
  next negative cs parts =>
  obtain ⟨ds, grouped, read⟩ := Option.bind_eq_some_iff.1 read
  split at read
  · cases read
  next fits =>
  cases read
  exact writableInt_of_digits (lt_of_mem_groupedDigits grouped) (by omega)
    (natAbs_signed negative _)

/-- No limit of settings is beyond the limit on digits. -/
theorem Settings.writable_maxDepth {around : List (String × String)} {file : Option String}
    {settings : Settings} (loaded : Settings.load around file = .ok settings) :
    writableInt settings.maxDepth = true := by
  have initial : writableInt initial.maxDepth = true := by decide +kernel
  unfold load at loaded
  simp only at loaded
  split at loaded
  · cases loaded
    exact initial
  · split at loaded
    · next read =>
      cases loaded
      exact writable_of_readSettingInteger read
    · cases loaded
    · cases loaded

namespace CommandLine

theorem writable_depthOf {s : Sorted} {n : Int} (given : depthOf s = .ok (some n)) :
    writableInt n = true := by
  rw [depthOf] at given
  split at given
  · cases given
  · split at given
    · next read =>
      cases given
      exact writable_of_readGroupedInteger read
    · cases given

/-- Neither is one that is given on a command line. -/
theorem writable_depth {args : List String} {source : Source} {n : Int}
    (asked : renderCommand args = .ok (.render source (some n))) : writableInt n = true := by
  obtain ⟨s, -, asked⟩ := bind_eq_ok.1 asked
  obtain ⟨name, -, asked⟩ := bind_eq_ok.1 asked
  split at asked
  · cases asked
  · obtain ⟨depth, given, ⟨⟩⟩ := bind_eq_ok.1 asked
    exact writable_depthOf given

end CommandLine

end QueryTree
