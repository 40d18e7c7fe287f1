import QueryTree.Proofs.Objects

/-!
# The nesting guard

The guard that works through a stack measures the nesting of values in which no object lacks a
field, and stops at objects that lack one.

* `Value.complete`   : no object in a value lacks a field
* `Shallow`          : what the guard lets pass on its stack
* `guardStack_judged`, `guardDepth_cases` : what the guard says is true of the value
* `guardDepth_eq`, `guardDepth_shallow`   : complete values and values within the limit
* `Node.complete_toValue` : the objects of a tree lack no field
-/

namespace QueryTree

namespace Value

/-! ## Nesting by what a value holds -/

theorem nestFields_eq (fs : List (String × Value)) : nestFields fs = nestList (fs.map (·.2)) := by
  induction fs with
  | nil => rfl
  | cons f fs ih => simp [nestFields, nestList, ih]

theorem nest_scalar {v : Value} (scalar : v.children? = none) : v.nest = 0 := by
  cases v <;> first | rfl | cases scalar

theorem nest_container {v : Value} {vs : List Value} (held : v.children? = some vs) :
    v.nest = nestList vs + 1 := by
  cases v <;> cases held <;> simp [nest, nestFields_eq]

theorem nestList_le {vs : List Value} {k : Nat} : nestList vs ≤ k ↔ ∀ v ∈ vs, v.nest ≤ k := by
  induction vs with
  | nil => simp [nestList]
  | cons v vs ih => simp only [nestList, Nat.max_le, ih, List.forall_mem_cons]

theorem nest_lt_of_mem {v w : Value} {vs : List Value} (held : v.children? = some vs)
    (member : w ∈ vs) : w.nest < v.nest := by
  rw [nest_container held]
  exact Nat.lt_succ_of_le (nestList_le.1 (Nat.le_refl _) w member)

/-! ## Complete objects -/

mutual

/-- No object in a value lacks a field of its class. -/
def complete : Value → Bool
  | .list vs => completeList vs
  | .tuple vs => completeList vs
  | .record none fs => completeFields fs
  | .record (some m) fs => !lacksField (.object m fs) && completeFields fs
  | _ => true

def completeList : List Value → Bool
  | [] => true
  | v :: vs => v.complete && completeList vs

def completeFields : List (String × Value) → Bool
  | [] => true
  | (_, v) :: rest => v.complete && completeFields rest

end

theorem complete_scalar {v : Value} (scalar : v.children? = none) : v.complete = true := by
  cases v <;> first | rfl | cases scalar

theorem completeList_iff {vs : List Value} :
    completeList vs = true ↔ ∀ v ∈ vs, v.complete = true := by
  induction vs with
  | nil => simp [completeList]
  | cons v vs ih => simp [completeList, ih]

theorem completeFields_eq (fs : List (String × Value)) :
    completeFields fs = completeList (fs.map (·.2)) := by
  induction fs with
  | nil => rfl
  | cons f fs ih => simp [completeFields, completeList, ih]

theorem complete_iff {v : Value} :
    v.complete = true ↔ v.lacksField = false ∧
      ∀ vs, v.children? = some vs → ∀ w ∈ vs, w.complete = true := by
  cases v with
  | record m fs =>
    cases m <;> simp [complete, lacksField, children?, completeFields_eq, completeList_iff]
  | _ => simp [complete, lacksField, children?, completeList_iff]

end Value

/-! ## The guard -/

/-- A value on the stack that the guard lets pass: a scalar, or a container whose innermost
    container is within the limit, counted from the depth of the value. -/
def Shallow (limit : Int) (p : Value × Nat) : Prop :=
  p.1.nest = 0 ∨ ((p.1.nest + p.2 : Nat) : Int) ≤ limit + 1

instance (limit : Int) (p : Value × Nat) : Decidable (Shallow limit p) :=
  inferInstanceAs (Decidable (_ ∨ _))

theorem shallow_scalar {limit : Int} {v : Value} {depth : Nat} (scalar : v.children? = none) :
    Shallow limit (v, depth) :=
  .inl (Value.nest_scalar scalar)

/-- A container passes if its own depth is within the limit and what it holds passes one level
    further down. -/
theorem shallow_container {limit : Int} {v : Value} {vs : List Value} {depth : Nat}
    (held : v.children? = some vs) :
    Shallow limit (v, depth) ↔ depth ≤ limit ∧ ∀ w ∈ vs, Shallow limit (w, depth + 1) := by
  simp only [Shallow, Value.nest_container held]
  constructor
  · rintro (none | bound)
    · omega
    · refine ⟨by omega, fun w member => ?_⟩
      have smaller : w.nest ≤ Value.nestList vs := Value.nestList_le.1 (Nat.le_refl _) w member
      omega
  · rintro ⟨here, below⟩
    have bound : Value.nestList vs ≤ (limit - depth).toNat := by
      refine Value.nestList_le.2 fun w member => ?_
      rcases below w member with none | bound <;> omega
    omega

theorem mem_pushAll {depth : Nat} {vs : List Value} {stack : List (Value × Nat)}
    {p : Value × Nat} :
    p ∈ pushAll depth vs stack ↔ (∃ v ∈ vs, p = (v, depth)) ∨ p ∈ stack := by
  induction vs generalizing stack with
  | nil => simp [pushAll]
  | cons v vs ih =>
    simp only [pushAll, ih, List.mem_cons]
    constructor
    · rintro (⟨w, member, rfl⟩ | rfl | member)
      · exact .inl ⟨w, .inr member, rfl⟩
      · exact .inl ⟨v, .inl rfl, rfl⟩
      · exact .inr member
    · rintro (⟨w, rfl | member, rfl⟩ | member)
      · exact .inr (.inl rfl)
      · exact .inl ⟨w, member, rfl⟩
      · exact .inr (.inr member)

/-! One step of the guard for each kind of value on top of its stack. -/

theorem guardStack_scalar {limit : Int} {v : Value} {depth : Nat} {rest : List (Value × Nat)}
    (scalar : v.children? = none) :
    guardStack limit ((v, depth) :: rest) = guardStack limit rest := by
  rw [guardStack]
  split
  · rfl
  · next held => cases scalar.symm.trans held

theorem guardStack_container {limit : Int} {v : Value} {vs : List Value} {depth : Nat}
    {rest : List (Value × Nat)} (held : v.children? = some vs) (whole : v.lacksField = false) :
    guardStack limit ((v, depth) :: rest) =
      if limit < depth then .error (.beyond limit) else guardStack limit (pushAll (depth + 1) vs rest) := by
  rw [guardStack]
  split
  · next scalar => cases scalar.symm.trans held
  · next ws found =>
    cases held.symm.trans found
    simp [whole]

theorem guardStack_lacking {limit : Int} {v : Value} {vs : List Value} {depth : Nat}
    {rest : List (Value × Nat)} (held : v.children? = some vs) (lacks : v.lacksField = true) :
    guardStack limit ((v, depth) :: rest) = .error .missingField := by
  rw [guardStack]
  split
  · next scalar => cases scalar.symm.trans held
  · simp [lacks]

/-- What the guard says of a stack is true of it: all of it may pass, or a container on it is too
    deep, or an object on it lacks a field. -/
inductive Judged (limit : Int) (stack : List (Value × Nat)) : Except GuardStop Unit → Prop where
  | passed : (∀ p ∈ stack, p.1.complete = true ∧ Shallow limit p) → Judged limit stack (.ok ())
  | tooDeep {p : Value × Nat} :
      p ∈ stack → ¬ Shallow limit p → Judged limit stack (.error (.beyond limit))
  | missingField {p : Value × Nat} :
      p ∈ stack → ¬ p.1.complete = true → Judged limit stack (.error .missingField)

/-- The step of the guard: what is judged of a stack with the parts of a value is judged of the
    stack with the value. -/
theorem Judged.step {limit : Int} {stack : List (Value × Nat)} {before : List (Value × Nat)}
    {outcome : Except GuardStop Unit} (judged : Judged limit stack outcome)
    (passes : (∀ p ∈ stack, p.1.complete = true ∧ Shallow limit p) →
      ∀ p ∈ before, p.1.complete = true ∧ Shallow limit p)
    (comes : ∀ p ∈ stack, ∃ q ∈ before, (q.1.complete = true → p.1.complete = true) ∧
      (Shallow limit q → Shallow limit p)) :
    Judged limit before outcome := by
  cases judged with
  | passed all => exact .passed (passes all)
  | tooDeep member deep =>
    obtain ⟨q, there, -, shallow⟩ := comes _ member
    exact .tooDeep there fun within => deep (shallow within)
  | missingField member lacking =>
    obtain ⟨q, there, complete, -⟩ := comes _ member
    exact .missingField there fun whole => lacking (complete whole)

theorem guardStack_judged (limit : Int) (stack : List (Value × Nat)) :
    Judged limit stack (guardStack limit stack) := by
  induction stack using guardStack.induct limit with
  | case1 =>
    rw [guardStack]
    exact .passed (by simp)
  | case2 v depth rest scalar ih =>
    rw [guardStack_scalar scalar]
    refine ih.step (fun all => ?_) fun p member => ⟨p, .tail _ member, id, id⟩
    exact List.forall_mem_cons.2 ⟨⟨Value.complete_scalar scalar, shallow_scalar scalar⟩, all⟩
  | case3 v depth rest vs held lacks =>
    rw [guardStack_lacking held lacks]
    refine .missingField (.head _) fun complete => ?_
    have own := (Value.complete_iff.1 complete).1
    rw [lacks] at own
    cases own
  -- a container beyond the limit stops the guard
  | case4 v depth rest vs held lacks deep =>
    rw [guardStack_container held (by simpa using lacks), if_pos deep]
    refine .tooDeep (.head _) ?_
    rw [shallow_container held]
    omega
  -- otherwise what it holds goes on the stack, one level further down
  | case5 v depth rest vs held lacks within ih =>
    rw [guardStack_container held (by simpa using lacks), if_neg within]
    have here : (depth : Int) ≤ limit := by omega
    refine ih.step (fun all => ?_) fun p member => ?_
    · have parts (w : Value) (inside : w ∈ vs) := all _ (mem_pushAll.2 (.inl ⟨w, inside, rfl⟩))
      refine List.forall_mem_cons.2 ⟨⟨?_, ?_⟩, fun p member => all p (mem_pushAll.2 (.inr member))⟩
      · rw [Value.complete_iff]
        refine ⟨by simpa using lacks, fun ws found w inside => ?_⟩
        cases held.symm.trans found
        exact (parts w inside).1
      · rw [shallow_container held]
        exact ⟨here, fun w inside => (parts w inside).2⟩
    · rcases mem_pushAll.1 member with ⟨w, inside, rfl⟩ | member
      · refine ⟨(v, depth), .head _, fun complete => ?_, fun shallow => ?_⟩
        · exact (Value.complete_iff.1 complete).2 vs held w inside
        · exact ((shallow_container held).1 shallow).2 w inside
      · exact ⟨p, .tail _ member, id, id⟩

/-- The guard passes exactly the complete values that are within the limit; scalars pass any.  What
    it says of the others is true of them. -/
theorem guardDepth_cases (limit : Int) (v : Value) :
    (guardDepth limit v = .ok () ∧ v.complete = true ∧ (v.nest : Int) ≤ max limit 0) ∨
      (guardDepth limit v = .error (.beyond limit) ∧ ¬ (v.nest : Int) ≤ max limit 0) ∨
      (guardDepth limit v = .error .missingField ∧ ¬ v.complete = true) := by
  have within : Shallow limit (v, 1) ↔ (v.nest : Int) ≤ max limit 0 := by
    simp only [Shallow]
    omega
  have judged := guardStack_judged limit [(v, 1)]
  unfold guardDepth
  generalize guardStack limit [(v, 1)] = outcome at judged
  cases judged with
  | passed all =>
    obtain ⟨complete, shallow⟩ := all _ (.head _)
    exact .inl ⟨rfl, complete, within.1 shallow⟩
  | tooDeep member deep =>
    obtain rfl := List.mem_singleton.1 member
    exact .inr (.inl ⟨rfl, fun bound => deep (within.2 bound)⟩)
  | missingField member lacking =>
    obtain rfl := List.mem_singleton.1 member
    exact .inr (.inr ⟨rfl, lacking⟩)

/-- The guard compares the nesting of a complete value with the limit. -/
theorem guardDepth_eq {limit : Int} {v : Value} (complete : v.complete = true) :
    guardDepth limit v = if (v.nest : Int) ≤ max limit 0 then .ok () else .error (.beyond limit) := by
  rcases guardDepth_cases limit v with ⟨guarded, -, shallow⟩ | ⟨guarded, deep⟩ | ⟨-, lacking⟩
  · rw [guarded, if_pos shallow]
  · rw [guarded, if_neg deep]
  · exact absurd complete lacking

/-- Of a value that is within the limit, the guard says whether it is complete. -/
theorem guardDepth_shallow {limit : Int} {v : Value} (shallow : (v.nest : Int) ≤ max limit 0) :
    guardDepth limit v = if v.complete = true then .ok () else .error .missingField := by
  rcases guardDepth_cases limit v with ⟨guarded, complete, -⟩ | ⟨-, deep⟩ | ⟨guarded, lacking⟩
  · rw [guarded, if_pos complete]
  · exact absurd shallow deep
  · rw [guarded, if_neg lacking]

/-! ## Objects of trees -/

theorem hereditary_complete : Hereditary fun v => v.complete = true where
  scalar none _ := Value.complete_scalar none
  tuple each := by
    rw [Value.complete, Value.completeList_iff]
    exact each
  object there each := by
    rw [Value.complete_iff]
    constructor
    · simp only [Value.lacksField, List.any_eq_false, Bool.not_eq_true, Option.isNone_eq_false_iff]
      exact there
    · rintro vs ⟨⟩ w member
      obtain ⟨⟨key, v⟩, inside, rfl⟩ := List.mem_map.1 member
      exact (each key v inside).2

/-- No object of a tree lacks a field. -/
theorem Node.complete_toValue (n : Node) : n.toValue.complete = true :=
  hereditary_complete.node n

/-- The guard passes the object of a tree that is nested no deeper than the limit. -/
theorem Node.guardDepth_toValue {limit : Int} {n : Node} (deep : (n.toValue.nest : Int) ≤ limit) :
    guardDepth limit n.toValue = .ok () := by
  rw [guardDepth_eq n.complete_toValue, if_pos (by omega)]

end QueryTree
