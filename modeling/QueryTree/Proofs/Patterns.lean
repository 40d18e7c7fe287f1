import QueryTree.Proofs.Escapes
import QueryTree.Proofs.Readability.Reader
import QueryTree.Proofs.Rendering
import QueryTree.Proofs.RoundTrip

/-!
# Patterns inside queries

A pattern is written without quotes between the words of a query.  All its blanks and marks are
escaped, so that it is read as one term wherever it stands.

* `Connective.front`, `Connective.back` : what is written around an operand
* `toQuery_pattern`     : patterns as queries and as operands
* `toQuery_liveTab`     : what is left as it is in a pattern
-/

namespace QueryTree

/-! ## Operands -/

open Outline (behind intercalate_eq)

/-- What stands in brackets before an operand: the operands in front of it, the connective behind
    each of them. -/
def Connective.front (c : Connective) (ts : List (List Char)) : List Char :=
  '(' :: ts.flatMap (· ++ c.between)

/-- What stands behind an operand: the operands that follow, the connective in front of each of
    them, and the bracket. -/
def Connective.back (c : Connective) (ts : List (List Char)) : List Char :=
  behind c ts ++ [')']

theorem Connective.text_around (c : Connective) (before : List (List Char)) (t : List Char)
    (after : List (List Char)) :
    c.text (before ++ t :: after) = c.front before ++ t ++ c.back after := by
  have joined : List.intercalate c.between (before ++ t :: after) =
      before.flatMap (· ++ c.between) ++ t ++ behind c after := by
    induction before with
    | nil => exact intercalate_eq c t after
    | cons u us ih =>
      cases us with
      | nil =>
        rw [List.singleton_append, List.intercalate_cons_cons, intercalate_eq]
        simp
      | cons w ws =>
        rw [List.cons_append, List.cons_append, List.intercalate_cons_cons, ← List.cons_append, ih]
        simp
  show '(' :: List.intercalate c.between (before ++ t :: after) ++ [')'] = _
  rw [joined]
  simp [front, back]

theorem Connective.front_closed (c : Connective) (ts : List (List Char)) :
    (c.front ts).getLast? ≠ some '\\' := by
  rcases List.eq_nil_or_concat ts with rfl | ⟨us, t, rfl⟩
  · simp [front]
  · have ends : c.front (us.concat t) = (c.front us ++ t ++ ' ' :: c.word.toList) ++ [' '] := by
      simp [front, between]
    rw [ends, List.getLast?_concat]
    simp

/-! ## Queries -/

/-- The characters that the query language reacts to where they stand alone. -/
def syntaxMarks : List Char :=
  [' ', '+', '-', '&', '|', '!', '(', ')', '\x7b', '\x7d', '[', ']', '^', '"', '~', ':', '/', '\\']

/-- The words that the query language reacts to. -/
def syntaxWords : List String :=
  ["AND", "OR", "NOT"]

/-- A pattern is written as one term: no blank and no mark of the language has its own meaning in
    it, and it is a word of the language only if that word is the pattern.  As an operand it is read
    by itself, so that all other blanks and quotes are those in front of it and behind it, where the
    connective stands. -/
theorem toQuery_pattern {limit : Int} {v : Value} {pattern : String}
    (accepted : validateElement limit v = .ok (.accepted (.literal (.glob pattern))))
    (filled : pattern ≠ "") :
    ∃ text : String, toQuery limit v = .ok (.accepted text) ∧ IsToken text.toList ∧
      (∀ c ∈ syntaxMarks, .live c ∉ Text.glyphs text.toList) ∧
      (∀ word ∈ syntaxWords, text = word ↔ pattern = word) ∧
      ∀ (c : Connective) (before after : List Node) (whole : List Char),
        (Node.combine c (before ++ .literal (.glob pattern) :: after)).toValue.render = .ok whole →
          whole = c.front (before.map Node.text) ++ text.toList ++ c.back (after.map Node.text) ∧
          Text.glyphs whole = Text.glyphs (c.front (before.map Node.text)) ++
            Text.glyphs text.toList ++ Text.glyphs (c.back (after.map Node.text)) := by
  have backslash : Text.isGlobSpecial '\\' = true := by decide
  refine ⟨String.ofList (Text.escapeGlob pattern.toList), ?_, ?_, ?_, ?_, ?_⟩
  · exact toQuery_eq_accepted.2 ⟨_, accepted, rfl, rfl⟩
  · rw [String.toList_ofList]
    exact isToken_escapeGlob (by simpa using filled)
  · intro c mark live
    rw [String.toList_ofList] at live
    have all : syntaxMarks.all Text.isGlobSpecial = true := by decide
    exact notMem_of_all all (Text.not_special_of_live backslash live) mark
  · intro word known
    have free : ∀ w ∈ syntaxWords, w.toList.any Text.isGlobSpecial = false := by decide
    rw [← String.toList_inj, ← String.toList_inj, String.toList_ofList]
    exact Text.escape_eq_iff backslash (free word known)
  · intro c before after whole rendered
    have split : whole = c.front (before.map Node.text) ++ Text.escapeGlob pattern.toList ++
        c.back (after.map Node.text) := by
      rw [Node.text_of_render rendered, Node.text, Node.texts_eq_map, List.map_append,
        List.map_cons, Connective.text_around]
      rfl
    rw [String.toList_ofList]
    refine ⟨split, ?_⟩
    rw [split, List.append_assoc, Text.glyphs_append (c.front_closed _), Text.escapeGlob,
      Text.glyphs_escape_append backslash, ← Text.glyphs_escape backslash, List.append_assoc]

/-- The mapping of a pattern. -/
def patternLeaf (pattern : String) : Value :=
  .mapping [("type", .str "literal"), ("kind", .str "glob"), ("value", .str pattern)]

theorem validateElement_patternLeaf (pattern : String) :
    validateElement 200 (patternLeaf pattern) = .ok (.accepted (.literal (.glob pattern))) := by
  have dump : patternLeaf pattern = (Node.literal (.glob pattern)).toValue.dump := rfl
  have deep : ((Node.literal (.glob pattern)).toValue.nest : Int) ≤ 200 := by
    show ((1 : Nat) : Int) ≤ 200
    decide
  have formed : (Node.literal (.glob pattern)).Formed := by
    refine Node.formed_iff.2 ?_
    show 1 ≤ readerLimit
    decide
  rw [dump, validateElement, checkValue_dump formed, checkValue_toValue formed deep]
  rfl

/-- A pattern that spells a query is one operand between two others: all blanks that stand alone are
    those around the connective. -/
theorem toQuery_pattern_spelledQuery :
    "b) OR (c" ≠ "" ∧ ∃ text : String,
      toQuery 200 (patternLeaf "b) OR (c") = .ok (.accepted text) ∧
      .live ' ' ∉ Text.glyphs text.toList ∧
      Text.glyphs (Node.combine .or [.literal (.glob "a"), .literal (.glob "b) OR (c"),
        .literal (.glob "d")]).text =
          Text.glyphs "(a OR ".toList ++ Text.glyphs text.toList ++ Text.glyphs " OR d)".toList := by
  have filled : "b) OR (c" ≠ "" := by decide
  obtain ⟨text, query, -, marks, -, operand⟩ :=
    toQuery_pattern (validateElement_patternLeaf "b) OR (c") filled
  have formed : (Node.combine .or ([.literal (.glob "a")] ++ .literal (.glob "b) OR (c") ::
      [.literal (.glob "d")])).Formed :=
    Node.formed_iff.2 (by decide)
  refine ⟨filled, text, query, marks ' ' (by decide), ?_⟩
  exact (operand .or [.literal (.glob "a")] [.literal (.glob "d")] _ (formed.render_toValue rfl)).2

/-- A tab stays as it is in a pattern, and so does a pattern that is a word of the language. -/
theorem toQuery_liveTab :
    (validateElement 200 (patternLeaf "a\tb") = .ok (.accepted (.literal (.glob "a\tb"))) ∧
      toQuery 200 (patternLeaf "a\tb") = .ok (.accepted "a\tb") ∧
      .live '\t' ∈ Text.glyphs "a\tb".toList ∧ Text.isBlank '\t' = true) ∧
    validateElement 200 (patternLeaf "AND") = .ok (.accepted (.literal (.glob "AND"))) ∧
      toQuery 200 (patternLeaf "AND") = .ok (.accepted "AND") := by
  have written {pattern text : String} (escaped : Text.escapeGlob pattern.toList = text.toList) :
      toQuery 200 (patternLeaf pattern) = .ok (.accepted text) := by
    refine toQuery_eq_accepted.2 ⟨_, validateElement_patternLeaf pattern, rfl, ?_⟩
    rw [Node.text, Literal.text, escaped, String.ofList_toList]
  exact ⟨⟨validateElement_patternLeaf _, written (by decide), by decide, by decide⟩,
    validateElement_patternLeaf _, written (by decide)⟩

end QueryTree
