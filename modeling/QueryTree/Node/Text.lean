import QueryTree.Geometry.WellKnownText
import QueryTree.Node.Basic
import QueryTree.Text.Quoted

/-!
# The text of a query

How a tree is written in the query language.

* `Literal.text`, `Range.text` : leaves and ranges
* `Connective.text`, `Modifier.text`, … : the shapes of composite trees, over the texts of their
  parts
* `Node.text`                  : trees
* `Node.writable`              : whether all numbers of a tree can be written
-/

namespace QueryTree

/-! ## Leaves and ranges -/

/-- The text of a leaf: strings and spatial predicates in quotes, everything else bare. -/
def Literal.text : Literal → List Char
  | .string s => Text.quote s.toList
  | .number n => n.queryText
  | .date m => m.queryText
  | .glob p => Text.escapeGlob p.toList
  | .spatial p => Text.quote p.text

def wildcard : List Char := ['*']

/-- The text of a bound; an absent bound is a wildcard. -/
def boundText {α : Type} (write : α → List Char) (bound : Option α) : List Char :=
  (bound.map write).getD wildcard

/-- A range over the texts of its bounds: square brackets at closed ends, curly ones at open
    ends. -/
def rangeText (closedLower closedUpper : Bool) (lower upper : List Char) : List Char :=
  (if closedLower then '[' else '\x7b') :: lower ++ " TO ".toList ++ upper ++
    [if closedUpper then ']' else '\x7d']

def Bounds.text {α : Type} (write : α → List Char) (b : Bounds α) : List Char :=
  rangeText b.closedLower b.closedUpper (boundText write b.span.lower?)
    (boundText write b.span.upper?)

def Range.text : Range → List Char
  | .string b => b.text fun s => Text.quote s.toList
  | .number b => b.text Number.queryText
  | .date b => b.text Moment.queryText

/-! ## Shapes -/

/-- The texts of operands in brackets, the word of their connective between them. -/
def Connective.text (c : Connective) (operands : List (List Char)) : List Char :=
  '(' :: List.intercalate (' ' :: c.word.toList ++ [' ']) operands ++ [')']

def Modifier.text (m : Modifier) (rhs : List Char) : List Char :=
  match m with
  | .not => "(NOT ".toList ++ rhs ++ [')']
  | .required => '+' :: rhs
  | .prohibited => '-' :: rhs

def fieldText (field value : List Char) : List Char :=
  field ++ ':' :: value

def boostText (lhs boost : List Char) : List Char :=
  '(' :: lhs ++ ")^=".toList ++ boost

/-! ## Trees -/

namespace Node

mutual

def text : Node → List Char
  | .literal l => l.text
  | .range r => r.text
  | .term v => v.text
  | .namedTerm f v => fieldText f.text.toList v.text
  | .combine c ns => c.text (texts ns)
  | .modify m n => m.text n.text
  | .constant n boost => boostText n.text boost.queryText

def texts : List Node → List (List Char)
  | [] => []
  | n :: ns => n.text :: texts ns

end

theorem texts_eq_map (ns : List Node) : texts ns = ns.map text := by
  induction ns with
  | nil => rfl
  | cons n ns ih => simp [texts, ih]

end Node

/-! ## What can be written -/

def Literal.writable : Literal → Bool
  | .number n => n.writable
  | .spatial p => p.geom.writable
  | _ => true

def Range.writable : Range → Bool
  | .number b => b.span.lower?.all Number.writable && b.span.upper?.all Number.writable
  | _ => true

namespace Node

mutual

/-- Whether all numbers of a tree can be written. -/
def writable : Node → Bool
  | .literal l => l.writable
  | .range r => r.writable
  | .term v => v.writable
  | .namedTerm _ v => v.writable
  | .combine _ ns => writableList ns
  | .modify _ n => n.writable
  | .constant n boost => n.writable && boost.writable

def writableList : List Node → Bool
  | [] => true
  | n :: ns => n.writable && writableList ns

end

end Node

end QueryTree
