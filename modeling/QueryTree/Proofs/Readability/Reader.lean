import Mathlib.Data.List.Forall2
import QueryTree.Proofs.Readability.Leaf

/-!
# Reading queries back

The text of a query shows an outline of its tree: the fields, groups and modifiers, and the texts
of the leaves.  A reader with fuel finds the outline at the start of a text.

* `Outline`         : what the text of a tree shows
* `Outline.read`    : the reader
* `Outline.Found`   : the reader finds an outline at the start of a text, whatever follows
* `Found.of_token`, `Found.field`, `Found.combine`, … : one rule for each shape of tree
-/

namespace QueryTree

/-! ## Outlines -/

/-- What the text of a tree shows. -/
inductive Outline where
  | leaf (text : List Char)
  | field (name : List Char) (value : Outline)
  -- brackets around nothing
  | empty
  -- brackets around a first tree and those that follow it, by their connective
  | group (first : Outline) (ands ors : List Outline)
  | modify (modifier : Modifier) (rhs : Outline)
  | boosted (lhs : Outline) (boost : List Char)

@[elab_as_elim]
theorem Outline.induction {motive : Outline → Prop} (leaf : ∀ t, motive (.leaf t))
    (field : ∀ name o, motive o → motive (.field name o)) (empty : motive .empty)
    (group : ∀ first ands ors, motive first → (∀ o ∈ ands, motive o) → (∀ o ∈ ors, motive o) →
      motive (.group first ands ors))
    (modify : ∀ m o, motive o → motive (.modify m o))
    (boosted : ∀ o t, motive o → motive (.boosted o t)) : ∀ o, motive o
  | .leaf t => leaf t
  | .field name o => field name o (induction leaf field empty group modify boosted o)
  | .empty => empty
  | .group first ands ors =>
    group first ands ors (induction leaf field empty group modify boosted first)
      (fun o _ => induction leaf field empty group modify boosted o)
      fun o _ => induction leaf field empty group modify boosted o
  | .modify m o => modify m o (induction leaf field empty group modify boosted o)
  | .boosted o t => boosted o t (induction leaf field empty group modify boosted o)

def Connective.between (c : Connective) : List Char :=
  ' ' :: c.word.toList ++ [' ']

/-- The outline of operands in brackets. -/
def Connective.outline (c : Connective) : List Outline → Outline
  | [] => .empty
  | first :: more =>
    match c with
    | .and => .group first more []
    | .or => .group first [] more

/-- Whether a field name is a letter or underscore before letters, digits and underscores. -/
def FieldName.legible (f : FieldName) : Bool :=
  f.text.toList.head?.any (fun c => c.isAlpha || c == '_') && f.text.toList.all isIdentChar

/-! ## The reader -/

namespace Outline

mutual

/-- Reads the tree at the start of a text, with fuel for its characters. -/
def read : Nat → List Char → Option (Outline × List Char)
  | 0, _ => none
  | k + 1, '+' :: cs => do
    let (rhs, rest) ← read k cs
    some (.modify .required rhs, rest)
  | k + 1, '-' :: cs => do
    let (rhs, rest) ← read k cs
    some (.modify .prohibited rhs, rest)
  | _ + 1, '(' :: ')' :: rest => some (.empty, rest)
  | k + 1, '(' :: cs => do
    let (first, rest) ← read k cs
    readGroup k first rest
  | k + 1, cs =>
    match cs.dropWhile isIdentChar with
    | ':' :: value => do
      let (value, rest) ← read k value
      some (.field (cs.takeWhile isIdentChar) value, rest)
    | _ =>
      let (text, rest) := token .outside cs
      some (.leaf text, rest)

/-- Reads what stands behind the first tree in brackets. -/
def readGroup : Nat → Outline → List Char → Option (Outline × List Char)
  | 0, _, _ => none
  | _ + 1, first, ')' :: '^' :: '=' :: cs =>
    let (boost, rest) := token .outside cs
    some (.boosted first boost, rest)
  | k + 1, first, cs => do
    let (ands, rest) ← readMore .and k cs
    let (ors, rest) ← readMore .or k rest
    match rest, first with
    | ')' :: rest, first => some (.group first ands ors, rest)
    | ' ' :: rest, .leaf ['N', 'O', 'T'] => do
      let (rhs, rest) ← read k rest
      some (.modify .not rhs, rest.tail)
    | _, _ => none

/-- Reads the operands that follow with a connective. -/
def readMore (c : Connective) : Nat → List Char → Option (List Outline × List Char)
  | 0, cs => some ([], cs)
  | k + 1, cs =>
    match cs.dropPrefix? c.between with
    | none => some ([], cs)
    | some cs => do
      let (first, rest) ← read k cs
      let (more, rest) ← readMore c k rest
      some (first :: more, rest)

end

variable {k : Nat} {rest : List Char}

/-! ## Leaves and fields -/

theorem ends_bracket (rest : List Char) : Ends (')' :: rest) := by
  rintro c ⟨⟩
  exact .inr rfl

theorem ends_blank (rest : List Char) : Ends (' ' :: rest) := by
  rintro c ⟨⟩
  exact .inl rfl

theorem noField_append {t rest : List Char} (noField : (t.dropWhile isIdentChar).head? ≠ some ':')
    (ends : Ends rest) : ((t ++ rest).dropWhile isIdentChar).head? ≠ some ':' := by
  rw [List.dropWhile_append]
  split
  -- all of the text could stand in a name: then the end decides, and it is no colon
  · intro colon
    cases rest with
    | nil => cases colon
    | cons c cs =>
      have stop : c = ' ' ∨ c = ')' := ends c rfl
      rcases stop with rfl | rfl <;> cases colon
  · next inside =>
    intro colon
    refine noField ?_
    cases part : t.dropWhile isIdentChar with
    | nil => simp [part] at inside
    | cons c cs =>
      rw [part] at colon
      exact colon

theorem read_leaf {t : List Char} (token : IsToken t) (ends : Ends rest) :
    read (k + 1) (t ++ rest) = some (.leaf t, rest) := by
  obtain ⟨c, cs, rfl, start⟩ := token.start
  simp only [openings, List.mem_cons, List.not_mem_nil, or_false, not_or] at start
  have noField := noField_append token.noField ends
  have whole := token_append token.passes ends
  rw [read]
  · split
    · next colon => rw [colon] at noField; exact absurd rfl noField
    · rw [whole]
  · exact fun _ same => start.1 (List.cons.inj same).1
  · exact fun _ same => start.2.1 (List.cons.inj same).1
  · exact fun _ same => start.2.2.1 (List.cons.inj same).1
  · exact fun _ same => start.2.2.1 (List.cons.inj same).1

theorem read_field {f : FieldName} (legible : f.legible = true) (value : List Char) :
    read (k + 1) (fieldText f.text.toList value) =
      (read k value).map fun (value, rest) => (.field f.text.toList value, rest) := by
  obtain ⟨first, all⟩ := Bool.and_eq_true_iff.1 legible
  have idents : ∀ c ∈ f.text.toList, isIdentChar c = true := List.all_eq_true.1 all
  have ident : isIdentChar ':' = false := by decide
  have before : (fieldText f.text.toList value).takeWhile isIdentChar = f.text.toList := by
    rw [fieldText, List.takeWhile_append_of_pos idents, List.takeWhile_cons_of_neg (by decide),
      List.append_nil]
  have behind : (fieldText f.text.toList value).dropWhile isIdentChar = ':' :: value := by
    rw [fieldText, List.dropWhile_append_of_pos idents, List.dropWhile_cons_of_neg (by decide)]
  have start {c : Char} {cs : List Char} (other : isIdentChar c = false) :
      fieldText f.text.toList value ≠ c :: cs := by
    intro same
    cases name : f.text.toList with
    | nil => rw [name] at first; cases first
    | cons d ds =>
      rw [name, fieldText, List.cons_append] at same
      rw [← (List.cons.inj same).1, idents d (by rw [name]; exact .head _)] at other
      cases other
  rw [read]
  · rw [behind, before]
    simp only
    cases read k value <;> rfl
  · exact fun _ => start (by decide)
  · exact fun _ => start (by decide)
  · exact fun _ => start (by decide)
  · exact fun _ => start (by decide)

/-! ## Finding an outline -/

/-- The reader finds an outline at the start of a text, whatever follows. -/
structure Found (o : Outline) (t : List Char) : Prop where
  start : ∃ c cs, t = c :: cs ∧ c ≠ ')'
  read : ∀ {k rest}, t.length ≤ k → Ends rest → read k (t ++ rest) = some (o, rest)

theorem Found.of_cons {o : Outline} {c : Char} {cs : List Char} (start : c ≠ ')')
    (reads : ∀ {k rest}, cs.length ≤ k → Ends rest →
      Outline.read (k + 1) (c :: (cs ++ rest)) = some (o, rest)) : Found o (c :: cs) := by
  refine ⟨⟨c, cs, rfl, start⟩, fun {k rest} fuel ends => ?_⟩
  -- the first character pays for the step of the reader
  cases k with
  | zero => cases fuel
  | succ k => exact reads (Nat.le_of_succ_le_succ fuel) ends

theorem Found.of_token {t : List Char} (token : IsToken t) : Found (.leaf t) t := by
  obtain ⟨c, cs, rfl, start⟩ := token.start
  exact .of_cons (fun same => start (same ▸ by decide)) fun _ ends => read_leaf token ends

theorem Found.signed {m : Modifier} {sign : Char} {o : Outline} {t : List Char} (found : Found o t)
    (start : sign ≠ ')') (reads : ∀ k cs, Outline.read (k + 1) (sign :: cs) =
      (Outline.read k cs).map fun (rhs, rest) => (.modify m rhs, rest)) :
    Found (.modify m o) (sign :: t) := by
  refine .of_cons start fun fuel ends => ?_
  rw [reads, found.read fuel ends]
  rfl

theorem Found.required {o : Outline} {t : List Char} (found : Found o t) :
    Found (.modify .required o) ('+' :: t) := by
  refine found.signed (by decide) fun k cs => ?_
  rw [Outline.read]
  cases Outline.read k cs <;> rfl

theorem Found.prohibited {o : Outline} {t : List Char} (found : Found o t) :
    Found (.modify .prohibited o) ('-' :: t) := by
  refine found.signed (by decide) fun k cs => ?_
  rw [Outline.read]
  cases Outline.read k cs <;> rfl

theorem Found.field {f : FieldName} {o : Outline} {t : List Char} (legible : f.legible = true)
    (found : Found o t) : Found (.field f.text.toList o) (fieldText f.text.toList t) := by
  obtain ⟨first, all⟩ := Bool.and_eq_true_iff.1 legible
  cases name : f.text.toList with
  | nil => rw [name] at first; cases first
  | cons c cs =>
    refine .of_cons ?_ fun {k rest} fuel ends => ?_
    · rintro rfl
      rw [name] at all
      cases all
    · have short : t.length ≤ k := by
        rw [List.append_eq, List.length_append, List.length_cons] at fuel
        omega
      have text : c :: (cs ++ ':' :: t ++ rest) = fieldText f.text.toList (t ++ rest) := by
        rw [name, fieldText, List.append_assoc]
        rfl
      rw [List.append_eq, text, read_field legible, found.read short ends, name]
      rfl

/-! ## Operands -/

def behind (c : Connective) (ts : List (List Char)) : List Char :=
  ts.flatMap (c.between ++ ·)

theorem intercalate_eq (c : Connective) (t : List Char) (ts : List (List Char)) :
    List.intercalate c.between (t :: ts) = t ++ behind c ts := by
  induction ts generalizing t with
  | nil => simp [behind]
  | cons u us ih =>
    rw [List.intercalate_cons_cons, ih, behind, behind, List.flatMap_cons]
    simp

theorem ends_behind (c : Connective) (ts : List (List Char)) (rest : List Char) :
    Ends (behind c ts ++ ')' :: rest) := by
  cases ts with
  | nil => exact ends_bracket rest
  | cons t ts => exact ends_blank _

theorem readMore_stop {c : Connective} (other : ∀ more, rest ≠ c.between ++ more) :
    readMore c k rest = some ([], rest) := by
  cases k with
  | zero => rw [readMore]
  | succ k =>
    rw [readMore]
    split
    · rfl
    · next more found =>
      obtain ⟨between, text, same⟩ := List.dropPrefix?_eq_some_iff.1 found
      rw [beq_iff_eq.1 same] at text
      exact absurd text (other more)

theorem between_ne_bracket (c : Connective) (cs more : List Char) :
    ')' :: cs ≠ c.between ++ more := by
  rintro ⟨⟩

theorem readMore_behind {c : Connective} {os : List Outline} {ts : List (List Char)}
    (each : List.Forall₂ Found os ts) (fuel : (behind c ts).length < k) :
    readMore c k (behind c ts ++ ')' :: rest) = some (os, ')' :: rest) := by
  -- along the operands; each connective pays for a step
  induction each generalizing k with
  | nil => exact readMore_stop (between_ne_bracket c rest)
  | @cons o t os ts first more ih =>
    have text : behind c (t :: ts) = c.between ++ (t ++ behind c ts) := by
      rw [behind, List.flatMap_cons, List.append_assoc]
      rfl
    have some : 0 < c.between.length := by cases c <;> decide
    rw [text, List.length_append, List.length_append] at fuel
    cases k with
    | zero => omega
    | succ k =>
      have found := first.read (by omega : t.length ≤ k) (ends_behind c ts rest)
      have others : readMore c k (behind c ts ++ ')' :: rest) = .some (os, ')' :: rest) :=
        ih (by omega)
      rw [text, List.append_assoc, List.append_assoc, readMore,
        List.dropPrefix?_append_of_beq _ (beq_self_eq_true _)]
      simp only [found, others, Option.bind_eq_bind, Option.bind_some]

/-! ## Brackets -/

theorem read_bracket {cs : List Char} (start : cs.head? ≠ some ')') :
    read (k + 1) ('(' :: cs) = (do
      let (first, rest) ← read k cs
      readGroup k first rest) := by
  rw [read]
  rintro ds rfl
  exact start rfl

theorem readGroup_boosted (first : Outline) {boost : List Char}
    (passes : Passes .outside boost .outside) (ends : Ends rest) :
    readGroup (k + 1) first (")^=".toList ++ (boost ++ rest)) =
      some (.boosted first boost, rest) := by
  have whole := token_append passes ends
  have text : ")^=".toList ++ (boost ++ rest) = ')' :: '^' :: '=' :: (boost ++ rest) := rfl
  rw [text, readGroup, whole]

theorem readGroup_behind {c : Connective} (first : Outline) {os : List Outline}
    {ts : List (List Char)} (each : List.Forall₂ Found os ts) (fuel : (behind c ts).length < k)
    (ends : Ends rest) :
    readGroup (k + 1) first (behind c ts ++ ')' :: rest) = some (c.outline (first :: os), rest) := by
  have found : readMore c k (behind c ts ++ ')' :: rest) = some (os, ')' :: rest) :=
    readMore_behind each fuel
  have stop (c' : Connective) : readMore c' k (')' :: rest) = some ([], ')' :: rest) :=
    readMore_stop (between_ne_bracket c' rest)
  -- nothing that ends a group looks like a boost
  have unboosted (cs : List Char) : behind c ts ++ ')' :: rest ≠ ')' :: '^' :: '=' :: cs := by
    cases ts with
    | nil =>
      intro same
      have next := ends '^' (by rw [(List.cons.inj same).2]; rfl)
      revert next
      decide
    | cons t ts => rintro ⟨⟩
  rw [readGroup]
  · cases c with
    | and => simp only [found, stop, Option.bind_eq_bind, Option.bind_some, Connective.outline]
    | or =>
      have other : readMore .and k (behind .or ts ++ ')' :: rest) =
          some ([], behind .or ts ++ ')' :: rest) := by
        refine readMore_stop fun more => ?_
        cases ts <;> rintro ⟨⟩
      simp only [other, found, Option.bind_eq_bind, Option.bind_some, Connective.outline]
  · exact unboosted

theorem readGroup_not {o : Outline} {t : List Char} (found : Found o t) (fuel : t.length ≤ k)
    (plain : ∀ (c : Connective) more, t ++ ')' :: rest ≠ c.word.toList ++ ' ' :: more) :
    readGroup (k + 1) (.leaf "NOT".toList) (' ' :: t ++ ')' :: rest) =
      some (.modify .not o, rest) := by
  have stop (c : Connective) : readMore c k (' ' :: t ++ ')' :: rest) =
      some ([], ' ' :: t ++ ')' :: rest) := by
    refine readMore_stop fun more same => plain c more ?_
    rw [Connective.between, List.cons_append, List.cons_append, List.cons_append,
      List.append_assoc] at same
    exact (List.cons.inj same).2
  rw [readGroup]
  · simp only [stop, Option.bind_eq_bind, Option.bind_some]
    have word : "NOT".toList = ['N', 'O', 'T'] := rfl
    rw [word]
    simp only [List.cons_append, found.read fuel (ends_bracket rest), Option.bind_some, List.tail_cons]
  · rintro cs ⟨⟩

/-- A tree in brackets is found if the reader goes on well behind the first tree inside. -/
theorem Found.bracket {first o : Outline} {t inside : List Char} (found : Found first t)
    (group : ∀ {k rest}, inside.length ≤ k → Ends rest →
      Ends (inside ++ rest) ∧ readGroup (k + 1) first (inside ++ rest) = some (o, rest)) :
    Found o ('(' :: (t ++ inside)) := by
  refine .of_cons (by decide) fun {k rest} fuel ends => ?_
  obtain ⟨c, cs, text, start⟩ := found.start
  rw [List.length_append] at fuel
  cases k with
  | zero => rw [text, List.length_cons] at fuel; omega
  | succ k =>
    -- the first tree has a character, so what follows has fuel for one more step
    have some : 0 < t.length := by rw [text]; exact Nat.succ_pos _
    obtain ⟨behind, read⟩ := @group k rest (by omega) ends
    rw [List.append_assoc, read_bracket, found.read (by omega : t.length ≤ k + 1) behind]
    · exact read
    · rw [text]
      simpa using start

theorem Found.combine {c : Connective} {os : List Outline} {ts : List (List Char)}
    (each : List.Forall₂ Found os ts) : Found (c.outline os) (c.text ts) := by
  cases each with
  | nil => exact .of_cons (by decide) fun _ _ => rfl
  | @cons o t os ts first more =>
    have text : c.text (t :: ts) = '(' :: (t ++ (behind c ts ++ [')'])) := by
      rw [← List.append_assoc, ← intercalate_eq]
      rfl
    rw [text]
    refine first.bracket fun {k rest} fuel ends => ?_
    rw [List.append_assoc, List.singleton_append]
    rw [List.length_append, List.length_singleton] at fuel
    exact ⟨ends_behind c ts rest, readGroup_behind o more (by omega) ends⟩

theorem Found.boosted {o : Outline} {t boost : List Char} (found : Found o t)
    (passes : Passes .outside boost .outside) : Found (.boosted o boost) (boostText t boost) := by
  have text : boostText t boost = '(' :: (t ++ (")^=".toList ++ boost)) := by
    rw [boostText, List.cons_append, List.cons_append, List.append_assoc]
  rw [text]
  refine found.bracket fun _ ends => ?_
  rw [List.append_assoc]
  exact ⟨ends_bracket _, readGroup_boosted o passes ends⟩

theorem isToken_word {word : List Char}
    (known : word ∈ ["AND".toList, "OR".toList, "NOT".toList]) : IsToken word := by
  simp only [List.mem_cons, List.not_mem_nil, or_false] at known
  rcases known with rfl | rfl | rfl
  all_goals
    exact ⟨passes_word (by decide) false, ⟨_, _, rfl, by decide⟩, by decide⟩

theorem Found.not_word {o : Outline} {t : List Char} (found : Found o t) (c : Connective)
    (rest more : List Char) : t ++ ')' :: rest ≠ c.word.toList ++ ' ' :: more := by
  intro same
  -- the reader would stop at the blank, but it stops behind the tree
  have word : IsToken c.word.toList := by
    cases c <;> exact isToken_word (by decide)
  have whole := found.read (Nat.le_succ t.length) (ends_bracket rest)
  rw [same, read_leaf word (ends_blank more), Option.some.injEq, Prod.mk.injEq] at whole
  cases whole.2

theorem Found.not {o : Outline} {t : List Char} (found : Found o t) :
    Found (.modify .not o) (Modifier.not.text t) := by
  have text : Modifier.not.text t = '(' :: ("NOT".toList ++ (' ' :: t ++ [')'])) := rfl
  rw [text]
  -- the word is read like a first operand, and then no connective follows
  refine (Found.of_token (isToken_word (by decide))).bracket fun {k rest} fuel ends => ?_
  rw [List.length_append, List.length_cons] at fuel
  rw [List.append_assoc]
  have plain (c : Connective) (more : List Char) := found.not_word c rest more
  exact ⟨ends_blank _, readGroup_not found (by omega) plain⟩

theorem Found.modify {o : Outline} {t : List Char} (m : Modifier) (found : Found o t) :
    Found (.modify m o) (m.text t) := by
  cases m with
  | not => exact found.not
  | required => exact found.required
  | prohibited => exact found.prohibited

end Outline

end QueryTree
