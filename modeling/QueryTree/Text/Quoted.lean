/-!
# Escaped text

User text inside a query.  A backslash takes the meaning away from the character
behind it.

* `escape`       : text with a backslash before each character of a class
* `quote`        : text in double quotes, quotes and backslashes inside escaped
* `escapeGlob`   : a pattern in which all characters of the query language but the
                   wildcards are escaped
* `unescape`     : text without its escapes
-/

namespace QueryTree.Text

/-- Text with a backslash before each character of a class. -/
def escape (special : Char → Bool) : List Char → List Char
  | [] => []
  | c :: cs => if special c then '\\' :: c :: escape special cs else c :: escape special cs

/-! ## Quoted text -/

/-- The characters with a meaning inside quotes. -/
def isQuotedSpecial (c : Char) : Bool :=
  c == '"' || c == '\\'

def quote (cs : List Char) : List Char :=
  '"' :: escape isQuotedSpecial cs ++ ['"']

/-! ## Patterns -/

/-- The characters with a meaning in a query, apart from the wildcards `*` and `?`. -/
def globSpecials : List Char :=
  [' ', '+', '-', '&', '|', '!', '(', ')', '\x7b', '\x7d', '[', ']', '^', '"', '~', ':', '/', '\\']

def isGlobSpecial (c : Char) : Bool :=
  globSpecials.contains c

def escapeGlob (cs : List Char) : List Char :=
  escape isGlobSpecial cs

/-! ## Reading back -/

/-- Text without its escapes: each backslash goes and the character behind it stays, whatever
    it is. -/
def unescape : List Char → List Char
  | [] => []
  | ['\\'] => ['\\']
  | '\\' :: c :: cs => c :: unescape cs
  | c :: cs => c :: unescape cs

/-- What was escaped can be read back, if the backslash itself is in the class. -/
theorem unescape_escape {special : Char → Bool} (h : special '\\' = true) (cs : List Char) :
    unescape (escape special cs) = cs := by
  induction cs with
  | nil => rfl
  | cons c cs ih =>
    by_cases hc : special c = true
    · simp [escape, hc, unescape, ih]
    · have hb : c ≠ '\\' := fun e => hc (e ▸ h)
      have hf : special c = false := by simpa using hc
      simp only [escape, hf, Bool.false_eq_true, if_false]
      rw [unescape.eq_4, ih]
      · intro e; exact absurd e hb
      · intro d ds e; exact absurd e hb

end QueryTree.Text
