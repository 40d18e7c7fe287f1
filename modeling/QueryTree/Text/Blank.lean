/-!
# Blank characters

The characters that count as white space when text that a person typed is
trimmed: the ASCII controls from tab to carriage return, the four information
separators, and the space-like characters of Unicode.

* `isBlank`  : the predicate
* `trim`     : text without the blanks at its two ends
* `trimEnd`  : text without the blanks at its end
* `isSpace`, `trimSpaces` : the same for a smaller class of characters
-/

namespace QueryTree.Text

/-- The white-space characters: the five ASCII layout controls, the information
    separators `U+001C` to `U+001F`, next line, the no-break space and the spaces
    of the general punctuation block. -/
def isBlank (c : Char) : Bool :=
  let n := c.toNat
  (9 ≤ n && n ≤ 13) || (28 ≤ n && n ≤ 32) || n == 0x85 || n == 0xA0 || n == 0x1680 ||
    (0x2000 ≤ n && n ≤ 0x200A) || n == 0x2028 || n == 0x2029 || n == 0x202F || n == 0x205F ||
    n == 0x3000

def trimEnd (cs : List Char) : List Char :=
  (cs.reverse.dropWhile isBlank).reverse

/-- Text without the blanks at its two ends; blanks inside stay. -/
def trim (cs : List Char) : List Char :=
  trimEnd (cs.dropWhile isBlank)

/-- The blanks apart from the information separators. -/
def isSpace (c : Char) : Bool :=
  isBlank c && !(28 ≤ c.toNat && c.toNat ≤ 31)

def trimSpaces (cs : List Char) : List Char :=
  ((cs.dropWhile isSpace).reverse.dropWhile isSpace).reverse

/-- Every character that the core library calls white space is blank. -/
theorem isBlank_of_isWhitespace {c : Char} (h : c.isWhitespace = true) : isBlank c = true := by
  simp only [Char.isWhitespace, Bool.or_eq_true, decide_eq_true_eq] at h
  rcases h with ((rfl | rfl) | rfl) | rfl <;> decide

end QueryTree.Text
