import QueryTree.Entries
import QueryTree.Text.Blank

/-!
# Files of variables

Files that set variables line by line: `name=value`, with comments, quotes, and references to
other variables.  Lines that cannot be read are passed over.

* `scanQuoted?`, `scanValue?` : the value of a variable
* `scanBinding`     : a line
* `bindings`        : all variables in order, as they are written
* `expand`          : a value with its references filled in
* `EnvFile.assignments` : all variables, with their references filled in
-/

namespace QueryTree.EnvFile

open Text (isBlank trimEnd)

/-! ## Characters -/

def isLineEnd (c : Char) : Bool :=
  c == '\n' || c == '\r'

def isInlineBlank (c : Char) : Bool :=
  isBlank c && !isLineEnd c

def skipBlanks (cs : List Char) : List Char :=
  cs.dropWhile isInlineBlank

/-- What follows a line, if nothing but blanks and a comment stands before its end. -/
def endLine? (cs : List Char) : Option (List Char) :=
  let rest :=
    match skipBlanks cs with
    | '#' :: comment => comment.dropWhile (!isLineEnd ·)
    | rest => rest
  match rest with
  | [] => some []
  | '\r' :: '\n' :: rest => some rest
  | c :: rest => if isLineEnd c then some rest else none

def skipLine (cs : List Char) : List Char :=
  (cs.dropWhile (!isLineEnd ·)).drop 1

/-! ## Values -/

/-- The text up to the first quote that is not behind a backslash, and what follows the quote. -/
def closeQuote? (quote : Char) : List Char → Option (List Char × List Char)
  | [] => none
  | c :: cs =>
    if c = quote then some ([], cs)
    else
      match c, cs with
      | '\\', d :: ds =>
        if d = quote then (closeQuote? quote ds).map fun (text, rest) => ('\\' :: d :: text, rest)
        else (closeQuote? quote (d :: ds)).map fun (text, rest) => ('\\' :: text, rest)
      | c, cs => (closeQuote? quote cs).map fun (text, rest) => (c :: text, rest)

/-- The text up to the last quote, and what follows the quote. -/
def lastQuote? (quote : Char) (cs : List Char) : Option (List Char × List Char) :=
  match cs.reverse.span (· != quote) with
  | (after, _ :: before) => some (before.reverse, after.reverse)
  | (_, []) => none

/-- The text behind an opening quote up to its closing quote.  If all quotes that follow are behind
    backslashes, the last of them closes. -/
def scanQuoted? (quote : Char) (cs : List Char) : Option (List Char × List Char) :=
  (closeQuote? quote cs).or (lastQuote? quote cs)

/-- The characters that a backslash and a letter stand for in double quotes. -/
def doubleEscape? : Char → Option Char
  | '\\' => some '\\'
  | '\'' => some '\''
  | '"' => some '"'
  | 'a' => some (Char.ofNat 7)
  | 'b' => some (Char.ofNat 8)
  | 'f' => some (Char.ofNat 12)
  | 'n' => some '\n'
  | 'r' => some '\r'
  | 't' => some '\t'
  | 'v' => some (Char.ofNat 11)
  | _ => none

/-- The characters that a backslash and a character stand for in single quotes. -/
def singleEscape? : Char → Option Char
  | '\\' => some '\\'
  | '\'' => some '\''
  | _ => none

/-- A text with its escapes replaced; a backslash that starts none stays. -/
def replaceEscapes (escape? : Char → Option Char) : List Char → List Char
  | '\\' :: c :: cs =>
    match escape? c with
    | some d => d :: replaceEscapes escape? cs
    | none => '\\' :: replaceEscapes escape? (c :: cs)
  | c :: cs => c :: replaceEscapes escape? cs
  | [] => []

/-- A text up to the first `#` that is behind a blank. -/
def cutComment (afterBlank : Bool) : List Char → List Char
  | [] => []
  | c :: cs => if afterBlank && c == '#' then [] else c :: cutComment (isBlank c) cs

/-- The value behind an equals sign, and what follows it. -/
def scanValue? : List Char → Option (List Char × List Char)
  | '\'' :: cs => (scanQuoted? '\'' cs).map fun (v, rest) => (replaceEscapes singleEscape? v, rest)
  | '"' :: cs => (scanQuoted? '"' cs).map fun (v, rest) => (replaceEscapes doubleEscape? v, rest)
  | cs =>
    let (line, rest) := cs.span (!isLineEnd ·)
    some (trimEnd (cutComment false line), rest)

/-! ## Lines -/

/-- A variable: its name, and its value if it has one. -/
abbrev Binding := String × Option String

/-- A text without the word `export` at its start, which has to be followed by blanks. -/
def skipExport (cs : List Char) : List Char :=
  let word := "export".toList
  if word.isPrefixOf cs && ((cs.drop word.length).head?.any isInlineBlank) then
    skipBlanks (cs.drop word.length)
  else cs

/-- The name at the start of a line, none in front of a comment; fails where no name starts. -/
def scanName? : List Char → Option (Option String × List Char)
  | '#' :: cs => some (none, '#' :: cs)
  | '\'' :: cs =>
    match cs.span (· != '\'') with
    | (c :: name, _ :: rest) => some (some (String.ofList (c :: name)), rest)
    | _ => none
  | cs =>
    match cs.span fun c => c != '=' && c != '#' && !isBlank c with
    | (c :: name, rest) => some (some (String.ofList (c :: name)), rest)
    | ([], _) => none

/-- A line that starts with no blank: the variable that it sets, if any, and what follows; or where
    it cannot be read any further. -/
def scanLine (cs : List Char) : Except (List Char) (Option Binding × List Char) :=
  let cs := skipExport cs
  match scanName? cs with
  | none => .error cs
  | some (name, cs) => do
    let cs := skipBlanks cs
    let (value, cs) ←
      match cs with
      | '=' :: rest =>
        let rest := skipBlanks rest
        match scanValue? rest with
        | some (v, rest) => .ok (some (String.ofList v), rest)
        | none => .error rest
      | _ => .ok (none, cs)
    match endLine? cs with
    | some rest => .ok (name.map (·, value), rest)
    | none => .error cs

/-- The next variable, if the next line can be read and sets one, and what follows. -/
def scanBinding (cs : List Char) : Option Binding × List Char :=
  match cs.dropWhile isBlank with
  | [] => (none, [])
  | cs =>
    match scanLine cs with
    | .ok found => found
    | .error rest => (none, skipLine rest)

def bindings (cs : List Char) : List Binding :=
  let (binding, rest) := scanBinding cs
  if rest.length < cs.length then binding.toList ++ bindings rest else binding.toList
termination_by cs.length

/-! ## References -/

/-- The variables by which references are filled in: those set before in the file, which may lack
    a value, and those of the surroundings. -/
structure Scope where
  earlier : List Binding
  around : List (String × String)

/-- What a reference stands for: the value of the variable, nothing for a variable without a value,
    the default for an unknown variable. -/
def Scope.resolve (s : Scope) (name : String) (default : List Char) : List Char :=
  match s.earlier.lookup name with
  | some value => (value.getD "").toList
  | none =>
    match s.around.lookup name with
    | some value => value.toList
    | none => default

/-- A reference behind a dollar sign: its name, its default, and the number of its characters. -/
def scanReference? : List Char → Option (List Char × List Char × Nat)
  | '\x7b' :: cs =>
    let (name, rest) := cs.span fun c => c != '\x7d' && c != ':'
    match rest with
    | '\x7d' :: _ => some (name, [], name.length + 2)
    | ':' :: '-' :: rest =>
      match rest.span (· != '\x7d') with
      | (default, _ :: _) => some (name, default, name.length + default.length + 4)
      | (_, []) => none
    | _ => none
  | _ => none

/-- A value with its references filled in; the first `inside` characters belong to a reference that
    is filled in already. -/
def expand (s : Scope) (inside : Nat) : List Char → List Char
  | [] => []
  | c :: cs =>
    match inside with
    | inside + 1 => expand s inside cs
    | 0 =>
      if c = '$' then
        match scanReference? cs with
        | some (name, default, length) =>
          s.resolve (String.ofList name) default ++ expand s length cs
        | none => c :: expand s 0 cs
      else c :: expand s 0 cs

/-- Fills in the references of variables in order; `set` are those before them. -/
def resolveAll (around : List (String × String)) (set : List Binding) : List Binding → List Binding
  | [] => set
  | (name, value) :: rest =>
    let value := value.map fun v => String.ofList (expand ⟨set, around⟩ 0 v.toList)
    resolveAll around (putEntry name value set) rest

/-- The variables of a file, where `around` are those of the surroundings; of several with one name
    the last counts, at the place of the first. -/
def assignments (around : List (String × String)) (text : List Char) : List Binding :=
  resolveAll around [] (bindings text)

end QueryTree.EnvFile
