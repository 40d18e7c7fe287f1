import QueryTree.Number.Reader

/-!
# Reading integers

Two further grammars for integers, as settings and as command lines give them.

* `groupedDigits?`       : digits with single underscores between them
* `readGroupedInteger?`  : an integer of a command line, with digits of any script
* `readPlainInteger`     : a sign and ASCII digits without leading zeros
* `readSettingInteger`   : an integer of a setting, which may be written as a decimal that ends
                           in zeros
-/

namespace QueryTree

/-! ## Command lines -/

/-- The values of digits with single underscores between them; `afterDigit` says whether a digit
    stands directly in front. -/
def groupedDigits? (afterDigit : Bool) : List Char → Option (List Nat)
  | [] => if afterDigit then some [] else none
  | '_' :: cs => if afterDigit then groupedDigits? false cs else none
  | c :: cs => do
    let d ← Text.digitValue? c
    some (d :: (← groupedDigits? true cs))

/-- An integer of a command line: spaces around it are ignored, a sign may stand in front, the
    digits are of any script, and integers beyond the limit on digits are none. -/
def readGroupedInteger? (cs : List Char) : Option Int := do
  let (negative, cs) := takeSign (Text.trimSpaces cs)
  let ds ← groupedDigits? false cs
  if digitLimit < ds.length then none
  else some (if negative then -(Text.ofDigits ds : Int) else Text.ofDigits ds)

/-! ## Settings -/

/-- Why a text was not read as an integer of a setting. -/
inductive IntegerError where
  | unreadable
  -- the text is an integer that is too long
  | tooLong
  deriving DecidableEq, Repr

/-- An integer in ASCII digits: a minus sign may stand in front, zeros may not. -/
def readPlainInteger (cs : List Char) : Except IntegerError Int :=
  let (negative, ds) :=
    match cs with
    | '-' :: ds => (true, ds)
    | ds => (false, ds)
  let values := ds.filterMap Text.asciiDigit?
  if ds.isEmpty || values.length != ds.length then .error .unreadable
  else if values.head? == some 0 && 1 < values.length then .error .unreadable
  else if digitLimit < cs.length then .error .tooLong
  else .ok (if negative then -(Text.ofDigits values : Int) else Text.ofDigits values)

/-- What follows leading zeros, between which underscores may stand; of a number that is nothing
    but zeros the last character stays, and so does the zero in front of a point.  A minus sign
    may stand behind the zeros.  Texts that do not start with a digit have no such rest. -/
def dropLeadingZeros? : List Char → Option (List Char)
  | '0' :: cs => afterZero '0' cs
  | c :: cs => if (Text.asciiDigit? c).isSome then some (c :: cs) else none
  | [] => none
where
  -- goes on behind a leading zero or underscore `last`
  afterZero (last : Char) : List Char → Option (List Char)
    | [] => some [last]
    | c :: cs =>
      if c = '0' ∨ c = '_' then afterZero c cs
      else if c = '.' then some (last :: c :: cs)
      else if c = '-' ∨ (Text.asciiDigit? c).isSome then some (c :: cs)
      else none

/-- A number without its fraction, if that consists of zeros; a point that nothing follows
    stays. -/
def dropZeroFraction (cs : List Char) : List Char :=
  match cs.span (· != '.') with
  | (whole, '.' :: fraction) =>
    if !fraction.isEmpty && fraction.all (· == '0') then whole else cs
  | _ => cs

/-- Digits without the underscores between them; underscores at the ends or next to each other
    stay. -/
def dropUnderscores (cs : List Char) : List Char :=
  if cs.head? == some '_' || cs.getLast? == some '_' || doubled cs then cs
  else cs.filter (· != '_')
where
  -- whether two underscores stand next to each other
  doubled : List Char → Bool
    | '_' :: '_' :: _ => true
    | _ :: cs => doubled cs
    | [] => false

/-- An integer of a setting: spaces around it are ignored, one sign may stand in front. -/
def readSettingInteger (cs : List Char) : Except IntegerError Int :=
  let (negative, cs) := takeSign (Text.trimSpaces cs)
  match dropLeadingZeros? cs with
  | none => .error .unreadable
  | some cs =>
    let digits := dropUnderscores (dropZeroFraction cs)
    readPlainInteger (if negative then '-' :: digits else digits)

end QueryTree
