import QueryTree.Builder

/-!
# Flat filters

Filters as forms and query strings give them: under the name of an operator a value or a
list of values.  A filter becomes a term value: all operators have to hold, and of an
operator's values one.

* `Comparison`       : the operators that compare
* `Families`, `Filter` : the values of a filter, by operator
* `Filter.decode`    : a filter from a mapping
* `Filter.tree`      : a filter as a term value
* `filterTree`, `filterTreeFor` : the term value of an untrusted value
-/

namespace QueryTree

open Decoded

/-! ## Operators -/

inductive Comparison where
  | eq
  | neq
  | gt
  | lt
  | gte
  | lte
  deriving DecidableEq, Repr

namespace Comparison

def all : List Comparison := [.eq, .neq, .gt, .lt, .gte, .lte]

def name : Comparison → String
  | .eq => "eq"
  | .neq => "neq"
  | .gt => "gt"
  | .lt => "lt"
  | .gte => "gte"
  | .lte => "lte"

end Comparison

def patternOperator : String := "glob"

/-! ## Filters -/

/-- The values of a filter over values of one type. -/
structure Families (α : Type) where
  -- the values to compare with, by operator, in the fixed order
  compared : List (Comparison × List α)
  patterns : List String
  deriving DecidableEq, Repr

inductive Filter where
  | string (families : Families String)
  | number (families : Families Number)
  | date (families : Families Moment)
  deriving DecidableEq, Repr

/-! ## Reading -/

/-- A single value counts as a list of it. -/
def listed : Value → Value
  | .list vs => .list vs
  | .tuple vs => .tuple vs
  | v => .list [v]

/-- The values of an operator; an operator that is absent has none. -/
def decodeFamily {α : Type} (read : Value → Decoded α) (key : String)
    (fs : List (String × Value)) : Decoded (List α) :=
  match fs.lookup key with
  | none | some .null => .done []
  | some v => (decodeSequence 0 read (listed v)).under (.field key)

def decodeFamilies {α : Type} (read : Value → Decoded α) (fs : List (String × Value)) :
    List Comparison → Decoded (List (Comparison × List α))
  | [] => .done []
  | c :: cs =>
    combine (fun values rest => (c, values) :: rest) (decodeFamily read c.name fs)
      (decodeFamilies read fs cs)

/-- The values of all operators; whether there are patterns depends on the kind. -/
def Families.decode {α : Type} (read : Value → Decoded α) (patterned : Bool)
    (fs : List (String × Value)) : Decoded (Families α) :=
  combine Families.mk (decodeFamilies read fs Comparison.all)
    (if patterned then decodeFamily decodeString patternOperator fs else .done [])

namespace Filter

def ofFields (kind : OrderedKind) (fs : List (String × Value)) : Decoded Filter :=
  match kind with
  | .string => (Families.decode decodeString true fs).map .string
  | .number => (Families.decode Number.decodeInput false fs).map .number
  | .date => (Families.decode Moment.decode true fs).map .date

def decode (kind : OrderedKind) : Value → Decoded Filter
  | .mapping fs => ofFields kind fs
  | v => fault (.notInstance (.filter kind)) v

end Filter

/-! ## Trees -/

/-- Trees as the alternatives of a term value, of which there has to be one. -/
def alternatives (members : List Node) : Option Node :=
  if members.isEmpty then none else some (.combine .or members)

namespace Comparison

/-- What an operator demands of one value. -/
def member {α : Type} (literal : α → Literal) (range : Bounds α → Range) (c : Comparison) (a : α) :
    Node :=
  match c with
  | .eq => .literal (literal a)
  | .neq => .modify .not (.literal (literal a))
  | .gt => .range (range ⟨false, false, .above a⟩)
  | .lt => .range (range ⟨false, false, .below a⟩)
  | .gte => .range (range ⟨true, true, .above a⟩)
  | .lte => .range (range ⟨true, true, .below a⟩)

end Comparison

/-- The values of a filter as a term value; operators without values are left out. -/
def Families.tree {α : Type} (literal : α → Literal) (range : Bounds α → Range) (f : Families α) :
    Node :=
  .combine .and <|
    (f.compared.filterMap fun (c, values) => alternatives (values.map (c.member literal range))) ++
      (alternatives (f.patterns.map fun p => .literal (.glob p))).toList

def Filter.tree : Filter → Node
  | .string f => f.tree .string .string
  | .number f => f.tree .number .number
  | .date f => f.tree .date .date

/-! ## Filters as objects -/

def Families.toValue {α : Type} (kind : OrderedKind) (f : α → Value) (families : Families α) : Value :=
  Model.object (.filter kind) <|
    families.compared.map (fun (c, values) => (c.name, .tuple (values.map f))) ++
      [(patternOperator, .tuple (families.patterns.map .str))]

def Filter.toValue : Filter → Value
  | .string f => f.toValue .string .str
  | .number f => f.toValue .number .ofNumber
  | .date f => f.toValue .date .ofMoment

/-- What an operator demands of one value of a filter object, which may hold anything. -/
def Comparison.build (c : Comparison) (v : Value) : Except Failure Node :=
  match c with
  | .eq => Build.literal v
  | .neq => do Build.modify .not (← Build.literal v).toValue
  | .gt => Build.openRange v .null
  | .lt => Build.openRange .null v
  | .gte => Build.closedRange v .null
  | .lte => Build.closedRange .null v

/-- The alternatives for the values that a filter object holds under a key, if there are any. -/
def buildFamily (key : String) (member : Value → Except Failure Node)
    (fs : List (String × Value)) : Except Failure (List Value) :=
  match fs.lookup key with
  | none => .ok []
  | some v =>
    if v.truthy then
      match v.elements? with
      | none => .error .wrongType
      | some items => do
        let members ← items.mapM member
        let node ← Build.combine .or (members.map Node.toValue)
        .ok [node.toValue]
    else .ok []

/-- A filter object as a term value.  What it holds is not checked as a filter, only as the parts
    of the tree. -/
def buildFilter (fs : List (String × Value)) : Except Failure Node := do
  let compared ← Comparison.all.mapM fun c => buildFamily c.name c.build fs
  let patterns ← buildFamily patternOperator Build.globLiteral fs
  Build.combine .and (compared.flatten ++ patterns)

/-! ## Untrusted values -/

/-- The term value of an untrusted value that is to be a filter over a kind; filter objects over
    the kind are taken as they are. -/
def filterTree (kind : OrderedKind) (v : Value) : Except Failure (Verdict Node) :=
  match v with
  | .object m fs =>
    if m = .filter kind then (buildFilter fs).map .accepted
    else ((Filter.decode kind v).map Filter.tree).verdict
  | _ => ((Filter.decode kind v).map Filter.tree).verdict

/-- The kind that a value names, if there are filters over it. -/
def Kind.forFilter (v : Value) : Except Failure OrderedKind := do
  let k ← Kind.lookup v
  match OrderedKind.ofKind? k with
  | some o => .ok o
  | none => Failure.raise (.noFilters k)

/-- The term value of an untrusted value that is to be a filter over the kind that another value
    names. -/
def filterTreeFor (kind : Value) (v : Value) : Except Failure (Verdict Node) := do
  filterTree (← Kind.forFilter kind) v

end QueryTree
