import QueryTree.Entries
import QueryTree.Fault
import QueryTree.Json.Token

/-!
# Reading JSON

Values from JSON text.  The reader goes through the tokens once and keeps the containers that
are still open on a stack.  The undefined value and the infinities have words of their own, the
last of several equal keys counts, at the place of the first.

* `Frame`, `Mode`   : an open container, what may come next
* `step`, `run`     : one token, all tokens
* `Json.read`       : a text as a value
* `JsonError.message` : the message about a text that is no JSON
-/

namespace QueryTree

namespace Json

/-- The greatest number of containers that may be open at a time. -/
def nestingLimit : Nat := 960

/-! ## The machine -/

/-- An open container that waits for a value. -/
inductive Frame where
  -- an array and its items so far, in reverse
  | array (items : List Value)
  -- an object, its fields so far, in reverse, and the key of the value
  | object (fields : List (String × Value)) (key : String)

inductive Mode where
  | value
  -- the first item of an array, or its end
  | firstItem
  -- a comma or the end of an array
  | afterItem (items : List Value)
  -- the first key of an object, or its end
  | firstKey
  | key (fields : List (String × Value))
  | colon (fields : List (String × Value)) (key : String)
  -- a comma or the end of an object
  | afterField (fields : List (String × Value))
  | finished (v : Value)

/-- The reader between two tokens: what may come next, and the open containers around. -/
structure Machine where
  mode : Mode
  -- the open containers, the innermost first
  stack : List Frame

/-- The mapping of the fields of an object, which are given in reverse. -/
def closeFields (fields : List (String × Value)) : Value :=
  .mapping (fields.foldr (fun f fs => putEntry f.1 f.2 fs) [])

def give (v : Value) : List Frame → Machine
  | [] => ⟨.finished v, []⟩
  | .array items :: stack => ⟨.afterItem (v :: items), stack⟩
  | .object fields key :: stack => ⟨.afterField ((key, v) :: fields), stack⟩

def numberValue (n : Numeral) : Except JsonCause Value :=
  if n.isInteger then
    if digitLimit < n.whole.length then .error (.tooManyDigits n.whole.length)
    else .ok (.int n.integer)
  else .ok (.float (Float64.ofNumeral n))

/-- The text of a text token; its errors are placed in the whole. -/
def textOf (position : Nat) (content : Except JsonError String) : Except JsonError String :=
  content.mapError fun e => ⟨e.cause, position + e.position⟩

def openFrame (mode : Mode) (position : Nat) (stack : List Frame) : Except JsonError Machine :=
  if stack.length < nestingLimit then .ok ⟨mode, stack⟩ else .error ⟨.tooNested, position⟩

def valueStep (t : Token) (stack : List Frame) : Except JsonError Machine :=
  match t.lexeme with
  | .openArray => openFrame .firstItem t.position stack
  | .openObject => openFrame .firstKey t.position stack
  | .word v => .ok (give v stack)
  | .number n =>
    match numberValue n with
    | .ok v => .ok (give v stack)
    | .error cause => .error ⟨cause, t.position⟩
  | .text content => do .ok (give (.str (← textOf t.position content)) stack)
  | _ => .error ⟨.expectingValue, t.position⟩

def keyStep (t : Token) (fields : List (String × Value)) (stack : List Frame) :
    Except JsonError Machine :=
  match t.lexeme with
  | .text content => do .ok ⟨.colon fields (← textOf t.position content), stack⟩
  | _ => .error ⟨.expectingKey, t.position⟩

def step (m : Machine) (t : Token) : Except JsonError Machine :=
  match m.mode, t.lexeme with
  | .value, _ => valueStep t m.stack
  | .firstItem, .closeArray => .ok (give (.list []) m.stack)
  | .firstItem, _ => valueStep t (.array [] :: m.stack)
  | .afterItem items, .closeArray => .ok (give (.list items.reverse) m.stack)
  | .afterItem items, .comma => .ok ⟨.value, .array items :: m.stack⟩
  | .afterItem _, _ => .error ⟨.expectingComma, t.position⟩
  | .firstKey, .closeObject => .ok (give (.mapping []) m.stack)
  | .firstKey, _ => keyStep t [] m.stack
  | .key fields, _ => keyStep t fields m.stack
  | .colon fields key, .colon => .ok ⟨.value, .object fields key :: m.stack⟩
  | .colon _ _, _ => .error ⟨.expectingColon, t.position⟩
  | .afterField fields, .closeObject => .ok (give (closeFields fields) m.stack)
  | .afterField fields, .comma => .ok ⟨.key fields, m.stack⟩
  | .afterField _, _ => .error ⟨.expectingComma, t.position⟩
  | .finished _, _ => .error ⟨.extraData, t.position⟩

/-- What the reader has at the end of the text, in front of which there are `position`
    characters. -/
def finish (m : Machine) (position : Nat) : Except JsonError Value :=
  match m.mode with
  | .finished v => .ok v
  | .value | .firstItem => .error ⟨.expectingValue, position⟩
  | .firstKey | .key _ => .error ⟨.expectingKey, position⟩
  | .colon _ _ => .error ⟨.expectingColon, position⟩
  | .afterItem _ | .afterField _ => .error ⟨.expectingComma, position⟩

/-- Goes on with all tokens of a text of `length` characters. -/
def run (length : Nat) (m : Machine) : List Token → Except JsonError Value
  | [] => finish m length
  | t :: ts => do run length (← step m t) ts

def read (cs : List Char) : Except JsonError Value :=
  if cs.head? = some '\uFEFF' then .error ⟨.byteOrderMark, 0⟩
  else run cs.length ⟨.value, []⟩ (tokens 0 0 cs)

end Json

/-! ## Messages -/

def JsonCause.text : JsonCause → String
  | .expectingValue => "Expecting value"
  | .expectingKey => "Expecting property name enclosed in double quotes"
  | .expectingColon => "Expecting ':' delimiter"
  | .expectingComma => "Expecting ',' delimiter"
  | .unterminated => "Unterminated string starting at"
  | .controlCharacter => "Invalid control character at"
  | .badEscape => "Invalid \\escape"
  | .badCodePoint => "Invalid \\uXXXX escape"
  | .extraData => "Extra data"
  | .byteOrderMark => "Unexpected UTF-8 BOM (decode using utf-8-sig)"
  | .tooManyDigits count => digitLimitText count
  | .tooNested => "maximum recursion depth exceeded"

/-- The message about a text: what is wrong, and the line, column and number of characters in
    front of the place. -/
def JsonError.message (text : List Char) (e : JsonError) : String :=
  let before := text.take e.position
  e.cause.text ++ ": line " ++ shownNat (before.count '\n' + 1) ++ " column " ++
    shownNat ((before.reverse.takeWhile (· != '\n')).length + 1) ++ " (char " ++
    shownNat e.position ++ ")"

end QueryTree
