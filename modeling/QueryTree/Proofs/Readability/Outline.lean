import QueryTree.Proofs.Induction
import QueryTree.Proofs.Readability.Reader

/-!
# Outlines of trees

The reader finds the outline of a tree in its text, so trees with one text have one outline.

* `Node.outline`     : the outline of a tree
* `Node.legible`     : the trees whose texts can be read
* `Node.found`       : the reader finds the outline of a legible tree
* `Node.outline_eq_of_text` : one text, one outline
-/

namespace QueryTree

/-! ## Outlines of trees -/

/-- The outline of a leaf; the sign of a negative number looks like a modifier. -/
def Literal.outline : Literal → Outline
  | .number n =>
    if n.isNegative then .modify .prohibited (.leaf n.abs.queryText) else .leaf n.queryText
  | l => .leaf l.text

namespace Node

mutual

def outline : Node → Outline
  | .literal l => l.outline
  | .range r => .leaf r.text
  | .term v => v.outline
  | .namedTerm f v => .field f.text.toList v.outline
  | .combine c ns => c.outline (outlines ns)
  | .modify m n => .modify m n.outline
  | .constant n boost => .boosted n.outline boost.queryText

def outlines : List Node → List Outline
  | [] => []
  | n :: ns => n.outline :: outlines ns

end

theorem outlines_eq_map (ns : List Node) : outlines ns = ns.map outline := by
  induction ns with
  | nil => rfl
  | cons n ns ih => rw [outlines, ih, List.map_cons]

end Node

/-! ## Legible trees -/

theorem FieldName.text_injective {f f' : FieldName} (same : f.text = f'.text) : f = f' := by
  cases f
  cases f'
  cases same
  rfl

def Literal.legible : Literal → Bool
  | .glob p => p != ""
  | _ => true

namespace Node

mutual

/-- Whether all leaves of a tree have a text and all its fields are names. -/
def legible : Node → Bool
  | .literal l => l.legible
  | .range _ => true
  | .term v => v.legible
  | .namedTerm f v => f.legible && v.legible
  | .combine _ ns => legibleList ns
  | .modify _ n => n.legible
  | .constant n _ => n.legible

def legibleList : List Node → Bool
  | [] => true
  | n :: ns => n.legible && legibleList ns

end

theorem legibleList_iff {ns : List Node} : legibleList ns = true ↔ ∀ n ∈ ns, n.legible = true := by
  induction ns with
  | nil => simp [legibleList]
  | cons n ns ih => simp [legibleList, ih]

end Node

/-! ## Trees are found -/

theorem Literal.found {l : Literal} (legible : l.legible = true) : Outline.Found l.outline l.text := by
  cases l with
  | string s => exact .of_token (isToken_quote s.toList)
  | number n =>
    rw [outline, text]
    split
    · next negative =>
      rw [Number.queryText_negative negative]
      exact (Outline.Found.of_token (Number.isToken n.isNegative_abs)).prohibited
    · next positive => exact .of_token (Number.isToken (Bool.eq_false_iff.2 positive))
  | date m => exact .of_token m.isToken
  | glob p =>
    refine .of_token (isToken_escapeGlob fun empty => ?_)
    rw [String.toList_eq_nil_iff] at empty
    rw [empty] at legible
    cases legible
  | spatial p => exact .of_token (isToken_quote p.text)

namespace Node

theorem found {n : Node} (legible : n.legible = true) : Outline.Found n.outline n.text := by
  induction n using Node.induction with
  | literal l => exact Literal.found legible
  | range r => exact .of_token r.isToken
  | term v ih => exact ih legible
  | namedTerm f v ih =>
    obtain ⟨name, below⟩ := Bool.and_eq_true_iff.1 legible
    exact (ih below).field name
  | combine c ns ih =>
    have each := legibleList_iff.1 legible
    refine .combine ?_
    rw [outlines_eq_map, texts_eq_map, List.forall₂_map_left_iff, List.forall₂_map_right_iff,
      List.forall₂_same]
    exact fun n member => ih n member (each n member)
  | modify m n ih => exact (ih legible).modify m
  | constant n boost ih => exact (ih legible).boosted (passes_number boost false)

theorem outline_eq_of_text {n m : Node} (legible : n.legible = true) (legible' : m.legible = true)
    (same : n.text = m.text) : n.outline = m.outline := by
  have ends : Ends [] := by rintro c ⟨⟩
  -- the reader finds both outlines in the one text
  have read := (found legible).read (Nat.le_refl n.text.length) ends
  rw [same, (found legible').read (Nat.le_refl m.text.length) ends, Option.some.injEq,
    Prod.mk.injEq] at read
  exact read.1.symm

end Node

end QueryTree
