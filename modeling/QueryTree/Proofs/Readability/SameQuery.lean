import QueryTree.Proofs.Escapes
import QueryTree.Proofs.Readability.Outline
import QueryTree.Proofs.Rendering

/-!
# Trees that are one query

Different trees may have one text.  They are related by a few collapses and by no others: two
legible trees have one text exactly when they are the same query.

* `SameQuery`          : the congruence of the collapses
* `SameQuery.text_eq`  : the same query has one text
* `Bared`              : trees without wrappers, beside their outlines
* `Outline.determines` : trees with one outline are the same query
* `Node.render_eq_iff` : what the text of a query says about its tree
-/

namespace QueryTree

/-! ## The relation -/

def Literal.isBare : Literal → Bool
  | .number _ | .date _ | .glob _ => true
  | .string _ | .spatial _ => false

/-- The trees that are the same query. -/
inductive SameQuery : Node → Node → Prop where
  | refl (n : Node) : SameQuery n n
  | symm {n m : Node} (same : SameQuery n m) : SameQuery m n
  | trans {n m k : Node} (first : SameQuery n m) (second : SameQuery m k) : SameQuery n k
  -- the default field is not named
  | term (v : Node) : SameQuery (.term v) v
  -- a single operand has no connective
  | single (n : Node) : SameQuery (.combine .and [n]) (.combine .or [n])
  -- and neither have no operands
  | none : SameQuery (.combine .and []) (.combine .or [])
  -- numbers, dates and patterns are known by their texts
  | bare {l l' : Literal} (bare : l.isBare = true) (bare' : l'.isBare = true)
      (text : l.text = l'.text) : SameQuery (.literal l) (.literal l')
  -- the bounds of ranges are known by their texts
  | range {r r' : Range} (closed : r.closed = r'.closed) (bounds : r.boundTexts = r'.boundTexts) :
      SameQuery (.range r) (.range r')
  -- boosts are known by their texts
  | boost (n : Node) {b b' : Number} (text : b.queryText = b'.queryText) :
      SameQuery (.constant n b) (.constant n b')
  -- a spatial predicate is the string of its text
  | spatial (p : SpatialPredicate) :
      SameQuery (.literal (.spatial p)) (.literal (.string (String.ofList p.text)))
  -- the sign of a negative number is a modifier
  | negative {n : Number} (negative : n.isNegative = true) :
      SameQuery (.literal (.number n)) (.modify .prohibited (.literal (.number n.abs)))
  -- and in every place of a tree
  | namedTerm (f : FieldName) {v w : Node} (same : SameQuery v w) :
      SameQuery (.namedTerm f v) (.namedTerm f w)
  | operand (c : Connective) (before after : List Node) {n m : Node} (same : SameQuery n m) :
      SameQuery (.combine c (before ++ n :: after)) (.combine c (before ++ m :: after))
  | modify (modifier : Modifier) {n m : Node} (same : SameQuery n m) :
      SameQuery (.modify modifier n) (.modify modifier m)
  | constant (boost : Number) {n m : Node} (same : SameQuery n m) :
      SameQuery (.constant n boost) (.constant m boost)

namespace SameQuery

variable {n m : Node}

theorem text_eq (same : SameQuery n m) : n.text = m.text := by
  induction same with
  | refl n => rfl
  | symm _ ih => exact ih.symm
  | trans _ _ ih ih' => exact ih.trans ih'
  | term v => rfl
  | single n => rfl
  | none => rfl
  | bare _ _ text => exact text
  | range closed bounds => rw [Node.text, Node.text, Range.text_eq, Range.text_eq, closed, bounds]
  | boost n text => rw [Node.text, Node.text, text]
  | spatial p => rw [Node.text, Node.text, Literal.text, Literal.text, String.toList_ofList]
  | negative negative => exact Number.queryText_negative negative
  | namedTerm f _ ih => rw [Node.text, Node.text, ih]
  | operand c before after _ ih =>
    rw [Node.text, Node.text, Node.texts_eq_map, Node.texts_eq_map, List.map_append,
      List.map_append, List.map_cons, List.map_cons, ih]
  | modify m _ ih => rw [Node.text, Node.text, ih]
  | constant boost _ ih => rw [Node.text, Node.text, ih]

theorem operands (c : Connective) (before : List Node) {ns ms : List Node}
    (each : List.Forall₂ SameQuery ns ms) :
    SameQuery (.combine c (before ++ ns)) (.combine c (before ++ ms)) := by
  -- one operand after the other moves to those before
  induction each generalizing before with
  | nil => exact .refl _
  | @cons n m ns ms first _ ih =>
    have others := ih (before ++ [m])
    rw [List.append_assoc, List.append_assoc] at others
    exact (operand c before ns first).trans others

end SameQuery

/-! ## Trees without wrappers -/

def quotes : List Char :=
  ['"', '[', '\x7b']

/-- The trees without wrappers, beside their outlines. -/
inductive Bared : Node → Outline → Prop where
  | string {s : String} {t : List Char} (text : Text.quote s.toList = t) :
      Bared (.literal (.string s)) (.leaf t)
  | bare {l : Literal} {t : List Char} (bare : l.isBare = true) (text : l.text = t)
      (start : ∀ c ∈ t.head?, c ∉ quotes) :
      Bared (.literal l) (.leaf t)
  | range {r : Range} {t : List Char} (text : r.text = t) : Bared (.range r) (.leaf t)
  | namedTerm {f : FieldName} {v : Node} {name : List Char} {o : Outline}
      (field : f.text.toList = name) (value : v.outline = o) :
      Bared (.namedTerm f v) (.field name o)
  | none : Bared (.combine .and []) .empty
  | ands {n : Node} {ns : List Node} {first : Outline} {more : List Outline}
      (head : n.outline = first) (tail : ns.map Node.outline = more) :
      Bared (.combine .and (n :: ns)) (.group first more [])
  | ors {n m : Node} {ns : List Node} {first second : Outline} {more : List Outline}
      (head : n.outline = first) (next : m.outline = second) (tail : ns.map Node.outline = more) :
      Bared (.combine .or (n :: m :: ns)) (.group first [] (second :: more))
  | modify {m : Modifier} {n : Node} {o : Outline} (rhs : n.outline = o) :
      Bared (.modify m n) (.modify m o)
  | constant {n : Node} {b : Number} {o : Outline} {t : List Char} (lhs : n.outline = o)
      (boost : b.queryText = t) : Bared (.constant n b) (.boosted o t)

theorem Literal.start_bare {l : Literal} (bare : l.isBare = true) :
    ∀ c ∈ l.text.head?, c ∉ quotes := by
  have ordinary {c : Char} (plain : c ∉ marks) : c ∉ quotes := by
    refine fun member => plain ?_
    simp only [quotes, List.mem_cons, List.not_mem_nil, or_false] at member
    rcases member with rfl | rfl | rfl <;> decide
  intro c head
  cases l with
  | string s => cases bare
  | number n =>
    exact ordinary (Number.numeralChar_of_mem_queryText (List.mem_of_mem_head? head)).ordinary
  | date m => exact ordinary (m.ordinary_queryText c (List.mem_of_mem_head? head))
  | glob p =>
    by_cases empty : p.toList = []
    · rw [text, empty] at head
      cases head
    · obtain ⟨d, rest, written, start⟩ := escapeGlob_eq_cons empty
      rw [text, written] at head
      cases head
      rcases start with rfl | plain
      · decide
      · have special : quotes.all Text.isGlobSpecial = true := by decide
        exact notMem_of_all special plain
  | spatial p => cases bare

theorem Literal.exists_bared (l : Literal) :
    ∃ m, SameQuery (.literal l) m ∧ Bared m l.outline := by
  cases l with
  | string s => exact ⟨_, .refl _, .string rfl⟩
  | number n =>
    rw [outline]
    split
    · next negative =>
      refine ⟨_, .negative negative, .modify ?_⟩
      have positive : ¬ n.abs.isNegative = true := by
        rw [n.isNegative_abs]
        exact Bool.false_ne_true
      rw [Node.outline, outline, if_neg positive]
    · exact ⟨_, .refl _, .bare rfl rfl (start_bare (l := .number n) rfl)⟩
  | date m => exact ⟨_, .refl _, .bare rfl rfl (start_bare (l := .date m) rfl)⟩
  | glob p => exact ⟨_, .refl _, .bare rfl rfl (start_bare (l := .glob p) rfl)⟩
  | spatial p => exact ⟨_, .spatial p, .string (by rw [String.toList_ofList]; rfl)⟩

theorem Node.exists_bared (n : Node) : ∃ m, SameQuery n m ∧ Bared m n.outline := by
  induction n using Node.induction with
  | literal l => exact l.exists_bared
  | range r => exact ⟨_, .refl _, .range rfl⟩
  | term v ih =>
    obtain ⟨m, same, bared⟩ := ih
    exact ⟨m, (SameQuery.term v).trans same, bared⟩
  | namedTerm f v => exact ⟨_, .refl _, .namedTerm rfl rfl⟩
  | combine c ns =>
    rw [outline, outlines_eq_map]
    cases c with
    | and =>
      cases ns with
      | nil => exact ⟨_, .refl _, .none⟩
      | cons n ns => exact ⟨_, .refl _, .ands rfl rfl⟩
    | or =>
      cases ns with
      | nil => exact ⟨_, .symm .none, .none⟩
      | cons n ns =>
        cases ns with
        | nil => exact ⟨_, .symm (.single n), .ands rfl rfl⟩
        | cons m ns => exact ⟨_, .refl _, .ors rfl rfl rfl⟩
  | modify m n => exact ⟨_, .refl _, .modify rfl⟩
  | constant n boost => exact ⟨_, .refl _, .constant rfl rfl⟩

theorem quote_ne_range (s : String) (r : Range) : Text.quote s.toList ≠ r.text := by
  obtain ⟨c, cs, text, start⟩ := r.text_eq_cons
  rw [text]
  rcases start with rfl | rfl <;> rintro ⟨⟩

namespace Bared

variable {n m : Node} {t : List Char}

theorem sameQuery_of_leaf (bared : Bared n (.leaf t)) (bared' : Bared m (.leaf t)) :
    SameQuery n m := by
  -- the first character tells strings and ranges from each other and from all else
  have quoted (s : String) : '"' ∈ (Text.quote s.toList).head? := rfl
  have bracketed (r : Range) : ∃ c ∈ r.text.head?, c ∈ quotes := by
    obtain ⟨c, cs, text, start⟩ := r.text_eq_cons
    rw [text]
    exact ⟨c, rfl, by rcases start with rfl | rfl <;> decide⟩
  cases bared with
  | string text =>
    cases bared' with
    | string text' =>
      rw [String.toList_inj.1 (Text.quote_injective (text.trans text'.symm))]
      exact .refl _
    | bare _ _ start => exact absurd (by decide) (start '"' (text ▸ quoted _))
    | range text' => exact absurd (text.trans text'.symm) (quote_ne_range _ _)
  | bare bare text start =>
    cases bared' with
    | string text' => exact absurd (by decide) (start '"' (text' ▸ quoted _))
    | bare bare' text' => exact .bare bare bare' (text.trans text'.symm)
    | @range r _ text' =>
      obtain ⟨c, head, bracket⟩ := bracketed r
      exact absurd bracket (start c (text' ▸ head))
  | @range r _ text =>
    cases bared' with
    | string text' => exact absurd (text'.trans text.symm) (quote_ne_range _ _)
    | bare _ _ start =>
      obtain ⟨c, head, bracket⟩ := bracketed r
      exact absurd bracket (start c (text ▸ head))
    | range text' =>
      obtain ⟨closed, bounds⟩ := Range.text_injective (text.trans text'.symm)
      exact .range closed bounds

end Bared

/-! ## One outline, one query -/

def Outline.Determines (o : Outline) : Prop :=
  ∀ n m : Node, Bared n o → Bared m o → SameQuery n m

namespace Outline.Determines

theorem sameQuery {o : Outline} {n m : Node} (determines : o.Determines) (left : n.outline = o)
    (right : m.outline = o) : SameQuery n m := by
  obtain ⟨n', same, bared⟩ := n.exists_bared
  obtain ⟨m', same', bared'⟩ := m.exists_bared
  rw [left] at bared
  rw [right] at bared'
  exact same.trans ((determines n' m' bared bared').trans same'.symm)

theorem operands {os : List Outline} {ns ms : List Node} (each : ∀ o ∈ os, o.Determines)
    (left : ns.map Node.outline = os) (right : ms.map Node.outline = os) :
    List.Forall₂ SameQuery ns ms := by
  induction os generalizing ns ms with
  | nil =>
    rw [List.map_eq_nil_iff.1 left, List.map_eq_nil_iff.1 right]
    exact .nil
  | cons o os ih =>
    obtain ⟨n, ns, rfl, head, tail⟩ := List.map_eq_cons_iff.1 left
    obtain ⟨m, ms, rfl, head', tail'⟩ := List.map_eq_cons_iff.1 right
    exact .cons ((each o (.head _)).sameQuery head head')
      (ih (fun o member => each o (.tail _ member)) tail tail')

end Outline.Determines

theorem Outline.determines (o : Outline) : o.Determines := by
  -- the parts of an outline belong to one query each, and the relation is a congruence
  induction o using Outline.induction with
  | leaf t => exact fun n m bared bared' => bared.sameQuery_of_leaf bared'
  | field name o ih =>
    intro n m bared bared'
    cases bared with
    | @namedTerm f _ _ _ field value =>
      cases bared' with
      | @namedTerm f' _ _ _ field' value' =>
        have name : f = f' := FieldName.text_injective (String.toList_inj.1 (field.trans field'.symm))
        rw [← name]
        exact .namedTerm f (ih.sameQuery value value')
  | empty =>
    rintro _ _ ⟨⟩ ⟨⟩
    exact .refl _
  | group first ands ors ih each each' =>
    intro n m bared bared'
    cases bared with
    | ands head tail =>
      cases bared' with
      | ands head' tail' =>
        have others := Determines.operands each tail tail'
        exact .operands .and [] (.cons (ih.sameQuery head head') others)
    | ors head next tail =>
      cases bared' with
      | ors head' next' tail' =>
        obtain ⟨second, more⟩ := List.forall_mem_cons.1 each'
        have others := Determines.operands more tail tail'
        exact .operands .or [] (.cons (ih.sameQuery head head')
          (.cons (second.sameQuery next next') others))
  | modify m o ih =>
    intro n k bared bared'
    cases bared with
    | modify rhs =>
      cases bared' with
      | modify rhs' => exact .modify m (ih.sameQuery rhs rhs')
  | boosted o t ih =>
    intro n m bared bared'
    cases bared with
    | @constant n b _ _ lhs boost =>
      cases bared' with
      | @constant n' b' _ _ lhs' boost' =>
        exact .trans (.constant b (ih.sameQuery lhs lhs')) (.boost n' (boost.trans boost'.symm))

/-! ## One text, one query -/

namespace Node

variable {n m : Node}

theorem text_eq_iff (legible : n.legible = true) (legible' : m.legible = true) :
    n.text = m.text ↔ SameQuery n m := by
  refine ⟨fun same => ?_, SameQuery.text_eq⟩
  exact m.outline.determines.sameQuery (outline_eq_of_text legible legible' same) rfl

/-- Well-formed trees without long integers are rendered, and the text of a legible tree says which
    query it is, but not more. -/
theorem render_eq_iff (formed : n.Formed) (formed' : m.Formed) (written : n.writable = true)
    (written' : m.writable = true) (legible : n.legible = true) (legible' : m.legible = true) :
    n.toValue.render = .ok n.text ∧ m.toValue.render = .ok m.text ∧
      (n.toValue.render = m.toValue.render ↔ SameQuery n m) := by
  have left := formed.render_toValue written
  have right := formed'.render_toValue written'
  refine ⟨left, right, ?_⟩
  rw [left, right, Except.ok.injEq]
  exact text_eq_iff legible legible'

/-- Two patterns, the first of which is spelt like the word of a modifier. -/
def patternsWithNot : Node :=
  .combine .and [.literal (.glob "NOT"), .literal (.glob "x")]

/-- A pattern under that modifier. -/
def patternUnderNot : Node :=
  .modify .not (.literal (.glob "x"))

theorem render_eq_iff_pattern_not :
    (patternsWithNot.Formed ∧ patternUnderNot.Formed) ∧
      (patternsWithNot.writable = true ∧ patternUnderNot.writable = true) ∧
      (patternsWithNot.legible = true ∧ patternUnderNot.legible = true) ∧
      patternsWithNot.toValue.render = .ok "(NOT AND x)".toList ∧
      patternUnderNot.toValue.render = .ok "(NOT x)".toList ∧
      ¬ SameQuery patternsWithNot patternUnderNot := by
  have formed : patternsWithNot.Formed := formed_iff.2 (by decide)
  have formed' : patternUnderNot.Formed := formed_iff.2 (by decide)
  obtain ⟨left, right, texts⟩ :=
    render_eq_iff formed formed' (by decide) (by decide) (by decide) (by decide)
  refine ⟨⟨formed, formed'⟩, by decide, by decide, left, right, fun same => ?_⟩
  have one := texts.2 same
  rw [left, right] at one
  cases one

end Node

end QueryTree
