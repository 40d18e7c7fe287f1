import QueryTree.Node.Text
import QueryTree.Proofs.MomentText
import QueryTree.Proofs.NumberText

/-!
# Tokens of the query language

A scanner finds the end of a leaf or range: the first blank or closing bracket that is neither
escaped, nor in quotes, nor between the brackets of a range.

* `Scan`, `token`  : the scanner
* `Passes`         : text that is scanned without an end
* `Ends`           : text behind a leaf
* `passes_quote`, `passes_escapeGlob`, `passes_rangeText` : leaves and ranges
* `token_append`   : the scanner finds the end of a leaf
-/

namespace QueryTree

/-! ## The scanner -/

/-- Where the scanner stands: inside quotes, or between the brackets of a range. -/
structure Scan where
  quoted : Bool
  bracketed : Bool

namespace Scan

def outside : Scan := ⟨false, false⟩

/-- Where the scanner stands behind a character that is not escaped. -/
def after (s : Scan) (c : Char) : Scan :=
  if c = '"' then { s with quoted := !s.quoted }
  else if s.quoted then s
  else if c = '[' ∨ c = '\x7b' then { s with bracketed := true }
  else if c = ']' ∨ c = '\x7d' then { s with bracketed := false }
  else s

def stops (s : Scan) (c : Char) : Bool :=
  !s.quoted && !s.bracketed && (c == ' ' || c == ')')

end Scan

/-- Splits a text behind the token at its start; escaped characters never end it. -/
def token (s : Scan) : List Char → List Char × List Char
  | [] => ([], [])
  | '\\' :: c :: cs =>
    let (t, rest) := token s cs
    ('\\' :: c :: t, rest)
  | c :: cs =>
    if s.stops c then ([], c :: cs)
    else
      let (t, rest) := token (s.after c) cs
      (c :: t, rest)

/-- The scanner goes through a text without an end, from one place to another. -/
def Passes (s : Scan) (t : List Char) (s' : Scan) : Prop :=
  ∀ rest, token s (t ++ rest) = (t ++ (token s' rest).1, (token s' rest).2)

/-- What may stand behind a leaf: nothing, a blank or a closing bracket. -/
def Ends (rest : List Char) : Prop :=
  ∀ c ∈ rest.head?, c = ' ' ∨ c = ')'

namespace Passes

variable {s s' s'' : Scan} {t t' : List Char}

theorem nil (s : Scan) : Passes s [] s := fun _ => rfl

theorem append (first : Passes s t s') (second : Passes s' t' s'') : Passes s (t ++ t') s'' := by
  intro rest
  rw [List.append_assoc, first, second, List.append_assoc]

theorem escaped (s : Scan) (c : Char) : Passes s ['\\', c] s := fun _ => by
  simp [token]

theorem single {c : Char} (plain : c ≠ '\\') (inside : s.stops c = false) :
    Passes s [c] (s.after c) := by
  intro rest
  rw [List.singleton_append, token]
  · simp [inside]
  · rintro d ds rfl
    exact absurd rfl plain

end Passes

theorem token_append {t rest : List Char} (passes : Passes .outside t .outside) (ends : Ends rest) :
    token .outside (t ++ rest) = (t, rest) := by
  have stopped : token .outside rest = ([], rest) := by
    cases rest with
    | nil => rfl
    | cons c cs =>
      have stop : c = ' ' ∨ c = ')' := ends c rfl
      rcases stop with rfl | rfl <;> rfl
  rw [passes, stopped, List.append_nil]

/-! ## Text without an end -/

/-- The characters with a meaning for the scanner, outside quotes. -/
def marks : List Char :=
  ['\\', '"', '[', ']', '\x7b', '\x7d', ' ', ')']

/-- Escaped text is scanned through wherever the other characters have no meaning. -/
theorem passes_escape {s : Scan} {special : Char → Bool} {cs : List Char}
    (other : ∀ c, special c = false → c ≠ '\\' ∧ s.stops c = false ∧ s.after c = s) :
    Passes s (Text.escape special cs) s := by
  induction cs with
  | nil => exact .nil s
  | cons c cs ih =>
    rw [Text.escape]
    split
    -- an escaped character is passed over, whichever it is
    · exact (Passes.escaped s c).append ih
    · next plain =>
      obtain ⟨unescaped, inside, stays⟩ := other c (by simpa using plain)
      have first := Passes.single unescaped inside
      rw [stays] at first
      exact first.append ih

theorem ordinary_step {c : Char} (ordinary : c ∉ marks) (bracketed : Bool) :
    c ≠ '\\' ∧ Scan.stops ⟨false, bracketed⟩ c = false ∧
      Scan.after ⟨false, bracketed⟩ c = ⟨false, bracketed⟩ := by
  simp only [marks, List.mem_cons, List.not_mem_nil, or_false, not_or] at ordinary
  obtain ⟨unescaped, quote, opening, closing, curly, endCurly, blank, bracket⟩ := ordinary
  refine ⟨unescaped, ?_, ?_⟩
  · simp [Scan.stops, blank, bracket]
  · simp [Scan.after, quote, opening, closing, curly, endCurly]

theorem passes_ordinary {t : List Char} (each : ∀ c ∈ t, c ∉ marks) (bracketed : Bool) :
    Passes ⟨false, bracketed⟩ t ⟨false, bracketed⟩ := by
  induction t with
  | nil => exact .nil _
  | cons c t ih =>
    obtain ⟨unescaped, inside, stays⟩ := ordinary_step (each c (.head _)) bracketed
    have first := Passes.single unescaped inside
    rw [stays] at first
    exact first.append (ih fun d member => each d (.tail _ member))

theorem passes_word {t : List Char} (plain : t.all (fun c => !marks.contains c) = true)
    (bracketed : Bool) : Passes ⟨false, bracketed⟩ t ⟨false, bracketed⟩ := by
  refine passes_ordinary (fun c member inside => ?_) bracketed
  have other := List.all_eq_true.1 plain c member
  simp [inside] at other

theorem passes_quote (cs : List Char) (bracketed : Bool) :
    Passes ⟨false, bracketed⟩ (Text.quote cs) ⟨false, bracketed⟩ := by
  -- the scanner goes into the quotes, stays there and comes out
  have opening : Passes ⟨false, bracketed⟩ ['"'] ⟨true, bracketed⟩ :=
    Passes.single (by decide) (by simp [Scan.stops])
  have closing : Passes ⟨true, bracketed⟩ ['"'] ⟨false, bracketed⟩ :=
    Passes.single (by decide) (by simp [Scan.stops])
  have inside : Passes ⟨true, bracketed⟩ (Text.escape Text.isQuotedSpecial cs) ⟨true, bracketed⟩ := by
    refine passes_escape fun c plain => ?_
    simp only [Text.isQuotedSpecial, Bool.or_eq_false_iff, beq_eq_false_iff_ne] at plain
    exact ⟨plain.2, by simp [Scan.stops], by simp [Scan.after, plain.1]⟩
  exact (opening.append inside).append closing

theorem passes_escapeGlob (cs : List Char) : Passes .outside (Text.escapeGlob cs) .outside := by
  -- a pattern has a backslash before every mark
  have special : marks.all Text.isGlobSpecial = true := by decide
  exact passes_escape fun c plain => ordinary_step (notMem_of_all special plain) false

theorem passes_rangeText {lower upper : List Char} (closedLower closedUpper : Bool)
    (first : Passes ⟨false, true⟩ lower ⟨false, true⟩)
    (last : Passes ⟨false, true⟩ upper ⟨false, true⟩) :
    Passes .outside (rangeText closedLower closedUpper lower upper) .outside := by
  have opening : Passes .outside [if closedLower then '[' else '\x7b'] ⟨false, true⟩ := by
    cases closedLower <;> exact Passes.single (by decide) (by decide)
  have closing : Passes ⟨false, true⟩ [if closedUpper then ']' else '\x7d'] .outside := by
    cases closedUpper <;> exact Passes.single (by decide) (by decide)
  have between : Passes ⟨false, true⟩ " TO ".toList ⟨false, true⟩ := by
    intro rest
    simp [token, Scan.stops, Scan.after]
  exact (((opening.append first).append between).append last).append closing

end QueryTree
