import Mathlib.Data.List.Forall2
import QueryTree.Value.Nesting

/-!
# Induction over trees

Induction principles for the types that hold lists of themselves.  Each gives the hypothesis for
every member of such a list.

* `Node.induction`, `Geometry.induction` : by constructors
* `Value.induction`  : by what a value holds directly
* `forall₂_imp_mem`, `forall₂_exists_left`, `mem_of_lookup` : lists beside such an induction
-/

namespace QueryTree

variable {α β γ : Type}

/-! ## Principles -/

/-- Induction over query trees; the operands of a combination are treated alike. -/
@[elab_as_elim]
theorem Node.induction {motive : Node → Prop} (literal : ∀ l, motive (.literal l))
    (range : ∀ r, motive (.range r)) (term : ∀ v, motive v → motive (.term v))
    (namedTerm : ∀ f v, motive v → motive (.namedTerm f v))
    (combine : ∀ c ns, (∀ n ∈ ns, motive n) → motive (.combine c ns))
    (modify : ∀ m n, motive n → motive (.modify m n))
    (constant : ∀ n b, motive n → motive (.constant n b)) : ∀ n, motive n
  | .literal l => literal l
  | .range r => range r
  | .term v => term v (induction literal range term namedTerm combine modify constant v)
  | .namedTerm f v =>
    namedTerm f v (induction literal range term namedTerm combine modify constant v)
  | .combine c ns =>
    combine c ns fun n _ => induction literal range term namedTerm combine modify constant n
  | .modify m n => modify m n (induction literal range term namedTerm combine modify constant n)
  | .constant n b =>
    constant n b (induction literal range term namedTerm combine modify constant n)

/-- Induction over geometries: those with coordinates, and collections of others. -/
@[elab_as_elim]
theorem Geometry.induction {motive : Geometry → Prop}
    (plain : ∀ g : Geometry, g.shape ≠ .collection → motive g)
    (collection : ∀ g gs, (∀ h ∈ g :: gs, motive h) → motive (.collection g gs)) : ∀ g, motive g
  | .collection g gs =>
    collection g gs fun h member =>
      have _smaller : sizeOf h < sizeOf (Geometry.collection g gs) := by
        have bound := List.sizeOf_lt_of_mem member
        simp only [List.cons.sizeOf_spec, Geometry.collection.sizeOf_spec] at bound ⊢
        omega
      induction plain collection h
  | .point p => plain (.point p) (by simp [Geometry.shape])
  | .multiPoint ps => plain (.multiPoint ps) (by simp [Geometry.shape])
  | .lineString l => plain (.lineString l) (by simp [Geometry.shape])
  | .multiLineString ls => plain (.multiLineString ls) (by simp [Geometry.shape])
  | .polygon rs => plain (.polygon rs) (by simp [Geometry.shape])
  | .multiPolygon ps => plain (.multiPolygon ps) (by simp [Geometry.shape])
termination_by g => sizeOf g

namespace Value

theorem size_le_sizeList {v : Value} {vs : List Value} (member : v ∈ vs) :
    v.size ≤ sizeList vs := by
  induction vs with
  | nil => cases member
  | cons w ws ih =>
    simp only [sizeList]
    rcases List.mem_cons.1 member with rfl | member
    · omega
    · have := ih member
      omega

/-- Induction over values: a value may be treated after what it holds directly. -/
@[elab_as_elim]
theorem induction {motive : Value → Prop}
    (step : ∀ v : Value, (∀ vs, v.children? = some vs → ∀ w ∈ vs, motive w) → motive v)
    (v : Value) : motive v :=
  step v fun vs held w member =>
    have _smaller : w.size < v.size :=
      Nat.lt_of_le_of_lt (size_le_sizeList member) (sizeList_children held)
    induction step w
termination_by v.size

end Value

/-! ## Lists -/

/-- A relation that follows from another for the members of the right list. -/
theorem forall₂_imp_mem {R S : α → β → Prop} {xs : List α} {ys : List β}
    (step : ∀ y ∈ ys, ∀ x, R x y → S x y) (all : List.Forall₂ R xs ys) : List.Forall₂ S xs ys := by
  induction all with
  | nil => exact .nil
  | cons related _ ih =>
    exact .cons (step _ (.head _) _ related) (ih fun y member => step y (.tail _ member))

/-- Relations that agree on the members of the right list relate the same lists. -/
theorem forall₂_congr_mem {R S : α → β → Prop} {xs : List α} {ys : List β}
    (agree : ∀ y ∈ ys, ∀ x, R x y ↔ S x y) : List.Forall₂ R xs ys ↔ List.Forall₂ S xs ys :=
  ⟨forall₂_imp_mem fun y member x => (agree y member x).1,
    forall₂_imp_mem fun y member x => (agree y member x).2⟩

/-- A relation with a condition on the right side is the relation, and the condition on the members
    of the right list. -/
theorem forall₂_and_mem {R : α → β → Prop} {p : β → Prop} {xs : List α} {ys : List β} :
    List.Forall₂ (fun x y => R x y ∧ p y) xs ys ↔ List.Forall₂ R xs ys ∧ ∀ y ∈ ys, p y := by
  induction xs generalizing ys with
  | nil => cases ys <;> simp
  | cons x xs ih =>
    cases ys with
    | nil => simp
    | cons y ys => simp only [List.forall₂_cons, ih, List.forall_mem_cons]; tauto

/-- A list is related to its image when every member is related to its own. -/
theorem forall₂_map_same {R : β → α → Prop} {f : α → β} {xs : List α}
    (each : ∀ x ∈ xs, R (f x) x) : List.Forall₂ R (xs.map f) xs := by
  induction xs with
  | nil => exact .nil
  | cons x xs ih => exact .cons (each x (.head _)) (ih fun y member => each y (.tail _ member))

/-- A relation through a function is a relation and the image under the function. -/
theorem forall₂_image {R : α → β → Prop} {g : β → γ} {xs : List α} {zs : List γ} :
    List.Forall₂ (fun x z => ∃ y, R x y ∧ g y = z) xs zs ↔
      ∃ ys, List.Forall₂ R xs ys ∧ ys.map g = zs := by
  induction xs generalizing zs with
  | nil => simp
  | cons x xs ih =>
    constructor
    · rintro (_ | ⟨⟨y, related, rfl⟩, rest⟩)
      obtain ⟨ys, all, rfl⟩ := ih.1 rest
      exact ⟨y :: ys, .cons related all, rfl⟩
    · rintro ⟨_, _ | ⟨related, all⟩, rfl⟩
      exact .cons ⟨_, related, rfl⟩ (ih.2 ⟨_, all, rfl⟩)

theorem forall₂_append_left {R : α → β → Prop} {xs xs' : List α} {ys : List β} :
    List.Forall₂ R (xs ++ xs') ys ↔
      ∃ zs zs', List.Forall₂ R xs zs ∧ List.Forall₂ R xs' zs' ∧ zs ++ zs' = ys := by
  induction xs generalizing ys with
  | nil => simp
  | cons x xs ih =>
    constructor
    · rintro (_ | ⟨related, rest⟩)
      obtain ⟨zs, zs', all, all', rfl⟩ := ih.1 rest
      exact ⟨_ :: zs, zs', .cons related all, all', rfl⟩
    · rintro ⟨_, zs', _ | ⟨related, all⟩, all', rfl⟩
      exact .cons related (ih.2 ⟨_, zs', all, all', rfl⟩)

/-- A member of the right list is related to a member of the left one. -/
theorem forall₂_exists_left {R : α → β → Prop} {xs : List α} {ys : List β}
    (all : List.Forall₂ R xs ys) : ∀ y ∈ ys, ∃ x ∈ xs, R x y := by
  induction all with
  | nil => rintro y ⟨⟩
  | cons related _ ih =>
    rintro y (_ | ⟨_, member⟩)
    · exact ⟨_, .head _, related⟩
    · obtain ⟨x, there, related⟩ := ih y member
      exact ⟨x, .tail _ there, related⟩

/-- Every member of a list is related to something exactly if the list is related to one. -/
theorem exists_forall₂_iff {R : α → β → Prop} {xs : List α} :
    (∃ ys, List.Forall₂ R xs ys) ↔ ∀ x ∈ xs, ∃ y, R x y := by
  induction xs with
  | nil => simp
  | cons x xs ih =>
    rw [List.forall_mem_cons, ← ih]
    constructor
    · rintro ⟨_, related | ⟨related, all⟩⟩
      exact ⟨⟨_, related⟩, _, all⟩
    · rintro ⟨⟨y, related⟩, ys, all⟩
      exact ⟨y :: ys, .cons related all⟩

/-- Members that go over into others take what they are related to along. -/
theorem forall₂_transfer {R S : α → β → Prop} {T : α → α → Prop} {U : β → β → Prop}
    {xs xs' : List α} {ys : List β}
    (step : ∀ x x' y, T x x' → R x y → ∃ y', S x' y' ∧ U y y') (all : List.Forall₂ R xs ys)
    (steps : List.Forall₂ T xs xs') :
    ∃ ys', List.Forall₂ S xs' ys' ∧ List.Forall₂ U ys ys' := by
  induction all generalizing xs' with
  | nil =>
    cases steps
    exact ⟨[], .nil, .nil⟩
  | cons related _ ih =>
    obtain _ | ⟨moved, rest⟩ := steps
    obtain ⟨y', related', close⟩ := step _ _ _ moved related
    obtain ⟨ys', all', closes⟩ := ih rest
    exact ⟨y' :: ys', .cons related' all', .cons close closes⟩

/-- What is there in both of two lists. -/
theorem forall₂_filterMap {R : α → β → Prop} {xs : List (Option α)} {ys : List (Option β)}
    (all : List.Forall₂ (Option.Rel R) xs ys) :
    List.Forall₂ R (xs.filterMap id) (ys.filterMap id) := by
  induction all with
  | nil => exact .nil
  | cons part _ ih =>
    cases part with
    | none => exact ih
    | some related => exact .cons related ih

/-- A field that is found is a member. -/
theorem mem_of_lookup {key : String} {fs : List (String × Value)} {v : Value}
    (found : fs.lookup key = some v) : (key, v) ∈ fs := by
  induction fs with
  | nil => cases found
  | cons f fs ih =>
    obtain ⟨k, w⟩ := f
    by_cases same : key = k
    · subst same
      simp only [List.lookup_cons_self, Option.some.injEq] at found
      subst found
      exact .head _
    · have other : (key == k) = false := beq_false_of_ne same
      simp only [List.lookup_cons, other] at found
      exact .tail _ (ih found)

end QueryTree
