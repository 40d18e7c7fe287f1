import Mathlib.Logic.Function.Basic
import QueryTree.Text.Quoted

/-!
# Escapes

Escaped text is read from the left, a backslash together with the character behind it.  Read so, it
gives back every character of the text that was escaped, and tells which of them kept their meaning;
a quoted text ends at the first quote that has one.

* `Glyph`, `glyphs`         : text as it is read, each character alone or behind a backslash
* `unescape_eq_map`         : text without its escapes, by its glyphs
* `glyphs_escape`           : escaped text, whatever follows it
* `glyphs_append`           : text in front of other text
* `closing_quote`           : a quoted text, up to the quote that closes it
* `escapes_invertible`      : patterns and quoted texts
-/

namespace QueryTree

namespace Text

/-! ## Text as it is read -/

inductive Glyph where
  -- a character with its own meaning
  | live (c : Char)
  -- a character behind a backslash, which has none
  | escaped (c : Char)
  deriving DecidableEq, Repr

/-- Text as it is read from the left; a backslash at its end stands for itself. -/
def glyphs : List Char → List Glyph
  | [] => []
  | '\\' :: c :: cs => .escaped c :: glyphs cs
  | c :: cs => .live c :: glyphs cs

/-- The character that is read. -/
def Glyph.char : Glyph → Char
  | .live c => c
  | .escaped c => c

/-- The character, if it has its own meaning. -/
def Glyph.live? : Glyph → Option Char
  | .live c => some c
  | .escaped _ => none

/-- How a character is read after it was escaped as one of a class. -/
def Glyph.ofEscaped (special : Char → Bool) (c : Char) : Glyph :=
  if special c then .escaped c else .live c

theorem glyphs_live {c : Char} (plain : c ≠ '\\') (cs : List Char) :
    glyphs (c :: cs) = .live c :: glyphs cs := by
  rw [glyphs]
  rintro d ds rfl
  exact absurd rfl plain

/-- To drop the escapes of a text is to read it. -/
theorem unescape_eq_map (cs : List Char) : unescape cs = (glyphs cs).map Glyph.char := by
  induction cs using unescape.induct with
  | case1 => rfl
  | case2 => rfl
  | case3 c cs ih => simp [unescape, glyphs, Glyph.char, ih]
  | case4 c cs dangling escaping ih =>
    have plain : c ≠ '\\' := by
      rintro rfl
      cases cs with
      | nil => exact dangling rfl rfl
      | cons d ds => exact escaping d ds rfl rfl
    rw [unescape, glyphs_live plain, ih, List.map_cons, Glyph.char]
    · exact dangling
    · exact escaping

/-- Escaped text is read character by character, and nothing of it reaches into what follows. -/
theorem glyphs_escape_append {special : Char → Bool} (backslash : special '\\' = true)
    (cs rest : List Char) :
    glyphs (escape special cs ++ rest) = cs.map (Glyph.ofEscaped special) ++ glyphs rest := by
  induction cs with
  | nil => rfl
  | cons c cs ih =>
    by_cases marked : special c = true
    · simp [escape, marked, glyphs, Glyph.ofEscaped, ih]
    · have plain : c ≠ '\\' := by
        rintro rfl
        exact marked backslash
      simp [escape, marked, glyphs_live plain, Glyph.ofEscaped, ih]

theorem glyphs_escape {special : Char → Bool} (backslash : special '\\' = true)
    (cs : List Char) : glyphs (escape special cs) = cs.map (Glyph.ofEscaped special) := by
  simpa [glyphs] using glyphs_escape_append backslash cs []

theorem getLast?_ne_of_cons {c d : Char} {cs : List Char} (other : (c :: cs).getLast? ≠ some d) :
    cs.getLast? ≠ some d := by
  cases cs with
  | nil => simp
  | cons e es => simpa [List.getLast?_cons_cons] using other

/-- Text that does not end with a backslash is read by itself. -/
theorem glyphs_append {front : List Char} (closed : front.getLast? ≠ some '\\')
    (rest : List Char) : glyphs (front ++ rest) = glyphs front ++ glyphs rest := by
  induction front using glyphs.induct with
  | case1 => rfl
  | case2 c cs ih =>
    have inner := ih (getLast?_ne_of_cons (getLast?_ne_of_cons closed))
    simp [glyphs, inner]
  | case3 c cs unescaping ih =>
    have plain : c ≠ '\\' := by
      rintro rfl
      cases cs with
      | nil => exact closed rfl
      | cons d ds => exact unescaping d ds rfl rfl
    have inner := ih (getLast?_ne_of_cons closed)
    rw [List.cons_append, glyphs_live plain, glyphs_live plain, inner, List.cons_append]

/-- What has its own meaning in escaped text is not of the class. -/
theorem not_special_of_live {special : Char → Bool} (backslash : special '\\' = true)
    {cs : List Char} {c : Char} (live : .live c ∈ glyphs (escape special cs)) :
    special c = false := by
  rw [glyphs_escape backslash, List.mem_map] at live
  obtain ⟨d, -, same⟩ := live
  unfold Glyph.ofEscaped at same
  split at same
  · cases same
  · next plain =>
    cases same
    simpa using plain

/-- Text without characters of a class is its own escaped form, and that of nothing else. -/
theorem escape_eq_iff {special : Char → Bool} (backslash : special '\\' = true)
    {cs plain : List Char} (none : plain.any special = false) :
    escape special cs = plain ↔ cs = plain := by
  have fixed : ∀ ds : List Char, ds.any special = false → escape special ds = ds := by
    intro ds free
    induction ds with
    | nil => rfl
    | cons d ds ih =>
      rw [List.any_cons, Bool.or_eq_false_iff] at free
      simp [escape, free.1, ih free.2]
  constructor
  · intro same
    have back := congrArg unescape (same.trans (fixed plain none).symm)
    rwa [unescape_escape backslash, unescape_escape backslash] at back
  · rintro rfl
    exact fixed cs none

section Escaped

variable (special : Char → Bool) (c : Char)

@[simp] theorem Glyph.char_ofEscaped : (ofEscaped special c).char = c := by
  unfold ofEscaped
  split <;> rfl

@[simp] theorem Glyph.live?_ofEscaped :
    (ofEscaped special c).live? = if special c then none else some c := by
  unfold ofEscaped
  split <;> rfl

theorem Glyph.ofEscaped_eq_live {d : Char} :
    ofEscaped special c = .live d ↔ c = d ∧ special c = false := by
  unfold ofEscaped
  split <;> simp [*]

end Escaped

/-- The characters that keep their meaning are those outside the class, in their order. -/
theorem live_glyphs_escape {special : Char → Bool} (backslash : special '\\' = true)
    (cs : List Char) :
    (glyphs (escape special cs)).filterMap Glyph.live? = cs.filter fun c => !special c := by
  have kept : Glyph.live? ∘ Glyph.ofEscaped special = Option.guard fun c => !special c := by
    funext c
    by_cases marked : special c = true
    · simp [Option.guard, marked]
    · simp [Option.guard, marked]
  rw [glyphs_escape backslash, List.filterMap_map, kept, List.filterMap_eq_filter]

/-- They keep their places. -/
theorem live_glyphs_escape_at {special : Char → Bool} (backslash : special '\\' = true)
    {c : Char} (unmarked : special c = false) (cs : List Char) (i : Nat) :
    (glyphs (escape special cs))[i]? = some (.live c) ↔ cs[i]? = some c := by
  rw [glyphs_escape backslash, List.getElem?_map]
  cases cs[i]? with
  | none => simp
  | some d =>
    simp only [Option.map_some, Option.some.injEq, Glyph.ofEscaped_eq_live]
    constructor
    · exact fun same => same.1
    · rintro rfl
      exact ⟨rfl, unmarked⟩

theorem escape_injective {special : Char → Bool} (backslash : special '\\' = true) :
    Function.Injective (escape special) :=
  Function.LeftInverse.injective (unescape_escape backslash)

theorem isGlobSpecial_backslash : isGlobSpecial '\\' = true := by decide

theorem isQuotedSpecial_backslash : isQuotedSpecial '\\' = true := by decide

/-! ## Quoted text -/

/-- A quoted text is read as its quotes and, between them, its characters; what follows is read by
    itself. -/
theorem glyphs_quote_append (cs rest : List Char) :
    glyphs (quote cs ++ rest) =
      .live '"' :: cs.map (Glyph.ofEscaped isQuotedSpecial) ++ .live '"' :: glyphs rest := by
  have opening : quote cs ++ rest = '"' :: (escape isQuotedSpecial cs ++ '"' :: rest) := by
    simp [quote]
  rw [opening, glyphs_live (by decide), glyphs_escape_append isQuotedSpecial_backslash,
    glyphs_live (by decide)]
  rfl

/-- No quote inside has a meaning, so the first one that has closes the text. -/
theorem closing_quote (cs rest : List Char) :
    (glyphs (quote cs ++ rest)).tail.takeWhile (· ≠ .live '"') =
      cs.map (Glyph.ofEscaped isQuotedSpecial) := by
  have inside : ∀ g ∈ cs.map (Glyph.ofEscaped isQuotedSpecial), g ≠ .live '"' := by
    intro g member
    obtain ⟨c, -, rfl⟩ := List.mem_map.1 member
    intro quote
    obtain ⟨rfl, plain⟩ := (Glyph.ofEscaped_eq_live _ _).1 quote
    cases plain
  rw [glyphs_quote_append, List.cons_append, List.tail_cons,
    List.takeWhile_append_of_pos (by simpa using inside)]
  simp

/-- A quoted text is told from all others as soon as it ends. -/
theorem eq_of_quote_append {cs ds rest rest' : List Char}
    (same : quote cs ++ rest = quote ds ++ rest') : cs = ds := by
  have read := congrArg (fun t => (glyphs t).tail.takeWhile (· ≠ .live '"')) same
  simp only [closing_quote] at read
  simpa [Function.comp_def] using congrArg (List.map Glyph.char) read

theorem quote_injective : Function.Injective quote := fun _ _ same =>
  eq_of_quote_append (congrArg (· ++ []) same)

theorem quote_isPrefix_iff {cs ds : List Char} : quote cs <+: quote ds ↔ cs = ds := by
  constructor
  · rintro ⟨rest, same⟩
    exact eq_of_quote_append (same.trans (List.append_nil _).symm)
  · rintro rfl
    exact List.prefix_refl _

/-! ## Both codecs -/

/-- Patterns and quoted texts are read back as they were.  In a pattern exactly the characters
    outside the escaped class keep their meaning, the wildcards in their places among them.  Between
    its quotes a quoted text has no quote with a meaning, whatever follows it, so that none is the
    beginning of another. -/
theorem escapes_invertible (s : List Char) :
    (∀ t, unescape t = (glyphs t).map Glyph.char) ∧
    (unescape (escapeGlob s) = s ∧
      (glyphs (escapeGlob s)).filterMap Glyph.live? = s.filter (fun c => !isGlobSpecial c) ∧
      ∀ i : Nat, ((glyphs (escapeGlob s))[i]? = some (Glyph.live '*') ↔ s[i]? = some '*') ∧
        ((glyphs (escapeGlob s))[i]? = some (Glyph.live '?') ↔ s[i]? = some '?')) ∧
    (∃ body, quote s = '"' :: body ++ ['"'] ∧ unescape body = s ∧ .live '"' ∉ glyphs body ∧
      ∀ rest, glyphs (quote s ++ rest) = .live '"' :: glyphs body ++ .live '"' :: glyphs rest) ∧
    ∀ t, (escapeGlob s = escapeGlob t ↔ s = t) ∧ (quote s = quote t ↔ s = t) ∧
      (quote s <+: quote t ↔ s = t) := by
  have marked := isGlobSpecial_backslash
  have marked' := isQuotedSpecial_backslash
  refine ⟨unescape_eq_map, ⟨unescape_escape marked s, live_glyphs_escape marked s, fun i => ?_⟩,
    ⟨escape isQuotedSpecial s, rfl, unescape_escape marked' s, fun closed => ?_, fun rest => ?_⟩,
    fun t => ⟨(escape_injective marked).eq_iff, quote_injective.eq_iff, quote_isPrefix_iff⟩⟩
  · constructor
    · exact live_glyphs_escape_at marked (by decide) s i
    · exact live_glyphs_escape_at marked (by decide) s i
  · have plain : isQuotedSpecial '"' = false := not_special_of_live marked' closed
    cases plain
  · rw [glyphs_quote_append, glyphs_escape marked']

-- Backslashes in front of a quote are escaped one by one, and so is the quote.
example : glyphs (quote ['\\', '"', '*']) =
    [.live '"', .escaped '\\', .escaped '"', .live '*', .live '"'] := by
  decide

end Text

end QueryTree
