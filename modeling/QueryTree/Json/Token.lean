import QueryTree.Value.Basic

/-!
# Tokens of JSON text

The text is cut into tokens.  A text token whose quotes or escapes are wrong carries what is
wrong with it: that only matters if a text may stand there.

* `JsonCause`, `JsonError` : what is wrong with a text, and where
* `scanText`    : the characters of a quoted text
* `scanNumber?` : the numeral at the start of a text
* `Lexeme`, `Token`, `tokens` : tokens
-/

namespace QueryTree

/-! ## Errors -/

inductive JsonCause where
  -- there is no value where one has to be
  | expectingValue
  -- there is no key where one has to be
  | expectingKey
  -- a key is not followed by a colon
  | expectingColon
  -- a member is followed by neither comma nor closing bracket
  | expectingComma
  -- a quoted text does not end
  | unterminated
  -- a quoted text holds a control character
  | controlCharacter
  -- a backslash is followed by a character that it does not go with
  | badEscape
  -- an escape by code point lacks hexadecimal digits
  | badCodePoint
  | extraData
  -- the text starts with a byte order mark
  | byteOrderMark
  -- an integer has more digits than the limit
  | tooManyDigits (count : Nat)
  -- containers are nested deeper than the reader goes
  | tooNested
  deriving DecidableEq, Repr

/-- What is wrong with a JSON text, with the number of characters in front of the place. -/
structure JsonError where
  cause : JsonCause
  -- the number of characters in front of the place
  position : Nat
  deriving DecidableEq, Repr

namespace Json

/-! ## Quoted text -/

def hexValue? (c : Char) : Option Nat :=
  let n := c.toNat
  if 48 ≤ n ∧ n ≤ 57 then some (n - 48)
  else if 97 ≤ n ∧ n ≤ 102 then some (n - 87)
  else if 65 ≤ n ∧ n ≤ 70 then some (n - 55)
  else none

def hexValue4? (a b c d : Char) : Option Nat := do
  some ((((← hexValue? a) * 16 + (← hexValue? b)) * 16 + (← hexValue? c)) * 16 + (← hexValue? d))

/-- The character that a backslash and a letter stand for. -/
def simpleEscape? : Char → Option Char
  | '"' => some '"'
  | '\\' => some '\\'
  | '/' => some '/'
  | 'b' => some (Char.ofNat 8)
  | 'f' => some (Char.ofNat 12)
  | 'n' => some '\n'
  | 'r' => some '\r'
  | 't' => some '\t'
  | _ => none

/-- The code points of a quoted text, in front of which `taken` characters were read, counting
    from its opening quote; `codes` are those read, in reverse.  Returns the number of characters
    up to and with the closing quote. -/
def scanText (taken : Nat) (codes : List Nat) : List Char → Except JsonError (List Nat × Nat)
  | [] => .error ⟨.unterminated, 0⟩
  | '"' :: _ => .ok (codes.reverse, taken + 1)
  | '\\' :: [] => .error ⟨.unterminated, 0⟩
  | '\\' :: 'u' :: a :: b :: c :: d :: next :: rest =>
    match hexValue4? a b c d with
    | some code => scanText (taken + 6) (code :: codes) (next :: rest)
    | none => .error ⟨.badCodePoint, taken + 1⟩
  | '\\' :: c :: rest =>
    if c = 'u' then .error ⟨.badCodePoint, taken + 1⟩
    else
      match simpleEscape? c with
      | some c => scanText (taken + 2) (c.toNat :: codes) rest
      | none => .error ⟨.badEscape, taken⟩
  | c :: rest =>
    if c.toNat < 0x20 then .error ⟨.controlCharacter, taken⟩
    else scanText (taken + 1) (c.toNat :: codes) rest

/-- Whether a code point is the first half of a pair. -/
def isHighSurrogate (n : Nat) : Bool :=
  0xD800 ≤ n && n ≤ 0xDBFF

/-- Whether a code point is the second half of a pair. -/
def isLowSurrogate (n : Nat) : Bool :=
  0xDC00 ≤ n && n ≤ 0xDFFF

/-- The characters of code points: halves that form a pair are joined.  A half by itself is no
    character, so text with one is outside the values; here it is replaced. -/
def joinSurrogates : List Nat → List Char
  | [] => []
  | [n] => [if isHighSurrogate n || isLowSurrogate n then '\uFFFD' else Char.ofNat n]
  | high :: low :: rest =>
    if isHighSurrogate high && isLowSurrogate low then
      Char.ofNat (0x10000 + (high - 0xD800) * 0x400 + (low - 0xDC00)) :: joinSurrogates rest
    else
      (if isHighSurrogate high || isLowSurrogate high then '\uFFFD' else Char.ofNat high) ::
        joinSurrogates (low :: rest)

/-! ## Numbers -/

def leadingDigits (cs : List Char) : List Nat :=
  (cs.takeWhile fun c => (Text.asciiDigit? c).isSome).filterMap Text.asciiDigit?

/-- The exponent at the start of a text, with the number of its characters; there is none without
    digits. -/
def scanExponent? (cs : List Char) : Option ((Bool × List Nat) × Nat) :=
  match cs with
  | [] => none
  | e :: rest =>
    if e = 'e' ∨ e = 'E' then
      let (negative, sign) :=
        match rest with
        | '-' :: _ => (true, 1)
        | '+' :: _ => (false, 1)
        | _ => (false, 0)
      let ds := leadingDigits (rest.drop sign)
      if ds.isEmpty then none else some ((negative, ds), 1 + sign + ds.length)
    else none

/-- The numeral at the start of a text, with the number of its characters: an optional minus sign,
    digits without a leading zero, and a fraction and an exponent if they have digits. -/
def scanNumber? (cs : List Char) : Option (Numeral × Nat) :=
  let negative := cs.head? == some '-'
  let body := if negative then cs.drop 1 else cs
  let whole := if body.head? == some '0' then [0] else leadingDigits body
  if whole.isEmpty then none
  else
    let rest := body.drop whole.length
    let fraction :=
      match rest with
      | '.' :: rest => leadingDigits rest
      | _ => []
    let point := !fraction.isEmpty
    let fractionLength := if point then fraction.length + 1 else 0
    let exponent := scanExponent? (rest.drop fractionLength)
    some (⟨negative, whole, point, fraction, exponent.map (·.1)⟩,
      (if negative then 1 else 0) + whole.length + fractionLength +
        (exponent.map (·.2)).getD 0)

/-! ## Tokens -/

inductive Lexeme where
  -- the opening bracket of an array
  | openArray
  -- the closing bracket of an array
  | closeArray
  -- the opening bracket of an object
  | openObject
  -- the closing bracket of an object
  | closeObject
  | colon
  | comma
  -- a word that stands for a value
  | word (v : Value)
  | number (n : Numeral)
  -- a quoted text, or what is wrong with it
  | text (content : Except JsonError String)
  -- a character that starts no token
  | unknown

structure Token where
  lexeme : Lexeme
  -- the number of characters in front of it
  position : Nat

def words : List (List Char × Value) :=
  [("null".toList, .null), ("true".toList, .bool true), ("false".toList, .bool false),
    ("NaN".toList, .float .nan), ("Infinity".toList, .float (.infinite false)),
    ("-Infinity".toList, .float (.infinite true))]

/-- The token at the start of a text, with the number of its characters. -/
def lexemeAt (c : Char) (rest : List Char) : Lexeme × Nat :=
  match c with
  | '[' => (.openArray, 1)
  | ']' => (.closeArray, 1)
  | '\x7b' => (.openObject, 1)
  | '\x7d' => (.closeObject, 1)
  | ':' => (.colon, 1)
  | ',' => (.comma, 1)
  | '"' =>
    match scanText 1 [] rest with
    | .ok (codes, length) => (.text (.ok (String.ofList (joinSurrogates codes))), length)
    | .error e => (.text (.error e), 1)
  | _ =>
    match words.find? fun w => w.1.isPrefixOf (c :: rest) with
    | some (word, v) => (.word v, word.length)
    | none =>
      match scanNumber? (c :: rest) with
      | some (n, length) => (.number n, length)
      | none => (.unknown, 1)

/-- The characters that may stand between tokens. -/
def isSpace (c : Char) : Bool :=
  c == ' ' || c == '\t' || c == '\n' || c == '\r'

/-- The tokens of a text in front of which there are `position` characters and whose first
    `inside` characters belong to the token before. -/
def tokens (inside position : Nat) : List Char → List Token
  | [] => []
  | c :: rest =>
    match inside with
    | inside + 1 => tokens inside (position + 1) rest
    | 0 =>
      if isSpace c then tokens 0 (position + 1) rest
      else
        let (lexeme, length) := lexemeAt c rest
        ⟨lexeme, position⟩ :: tokens (length - 1) (position + 1) rest

end Json

end QueryTree
