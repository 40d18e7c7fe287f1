import QueryTree.Value.Basic

/-!
# Nesting

How deep containers are nested in a value, measured in two ways: by recursion, and
by a guard that works through a stack and stops at the first container that is too
deep, so that it is safe on values of any depth.

* `Value.nest`      : the nesting of a value
* `Value.children?` : what a container holds directly
* `Value.size`      : the number of constructors of a value
* `guardDepth`      : the guard
-/

namespace QueryTree

namespace Value

/-! ## By recursion -/

mutual

/-- The nesting of a value: nothing for a scalar, one more than the greatest nesting of what it
    holds for a container. -/
def nest : Value → Nat
  | .list vs => nestList vs + 1
  | .tuple vs => nestList vs + 1
  | .record _ fs => nestFields fs + 1
  | _ => 0

def nestList : List Value → Nat
  | [] => 0
  | v :: vs => max v.nest (nestList vs)

def nestFields : List (String × Value) → Nat
  | [] => 0
  | (_, v) :: rest => max v.nest (nestFields rest)

end

mutual

/-- The size of a value; it bounds the work of a traversal. -/
def size : Value → Nat
  | .list vs => sizeList vs + 1
  | .tuple vs => sizeList vs + 1
  | .record _ fs => sizeFields fs + 1
  | _ => 1

def sizeList : List Value → Nat
  | [] => 0
  | v :: vs => v.size + sizeList vs

def sizeFields : List (String × Value) → Nat
  | [] => 0
  | (_, v) :: rest => v.size + sizeFields rest

end

/-! ## By a stack -/

/-- What a value holds directly: `none` for a scalar. -/
def children? : Value → Option (List Value)
  | .list vs => some vs
  | .tuple vs => some vs
  | .record _ fs => some (fs.map (·.2))
  | _ => none

/-- Whether an object lacks one of the fields of its class. -/
def lacksField : Value → Bool
  | .record (some m) fs => m.fieldNames.any fun name => (fs.lookup name).isNone
  | _ => false

theorem sizeFields_eq (fs : List (String × Value)) : sizeFields fs = sizeList (fs.map (·.2)) := by
  induction fs with
  | nil => rfl
  | cons f fs ih => simp [sizeFields, sizeList, ih]

/-- What a container holds is smaller than the container. -/
theorem sizeList_children {v : Value} {vs : List Value} (h : v.children? = some vs) :
    sizeList vs < v.size := by
  cases v with
  | list items => cases h; simp [size]
  | tuple items => cases h; simp [size]
  | record m fs => cases h; simp [size, sizeFields_eq]
  | _ => cases h

end Value

/-! ## The guard -/

inductive GuardStop where
  -- a container is nested deeper than the limit
  | tooDeep
  -- the same, but the limit itself cannot be shown
  | oversizedLimit
  -- an object lacks a field, so that its children cannot be listed
  | missingField
  deriving DecidableEq, Repr

/-- How the guard stops at a container beyond a limit.  The message shows the limit, which fails if
    the limit has too many digits. -/
def GuardStop.beyond (limit : Int) : GuardStop :=
  if writableInt limit then .tooDeep else .oversizedLimit

/-- The sizes of the values on a stack together. -/
def pendingSize : List (Value × Nat) → Nat
  | [] => 0
  | (v, _) :: rest => v.size + pendingSize rest

/-- Puts values on a stack, the last on top, all at the same depth. -/
def pushAll (depth : Nat) : List Value → List (Value × Nat) → List (Value × Nat)
  | [], stack => stack
  | v :: vs, stack => pushAll depth vs ((v, depth) :: stack)

theorem pendingSize_pushAll (depth : Nat) (vs : List Value) (stack : List (Value × Nat)) :
    pendingSize (pushAll depth vs stack) = Value.sizeList vs + pendingSize stack := by
  induction vs generalizing stack with
  | nil => simp [pushAll, Value.sizeList]
  | cons v vs ih =>
    simp only [pushAll, ih, pendingSize, Value.sizeList]
    omega

/-- Works through the values on a stack, each with its depth; the depth of a container beyond
    the limit stops it. -/
def guardStack (limit : Int) : List (Value × Nat) → Except GuardStop Unit
  | [] => .ok ()
  | (v, depth) :: rest =>
    match h : v.children? with
    | none => guardStack limit rest
    | some vs =>
      if v.lacksField then .error .missingField
      else if limit < depth then .error (.beyond limit)
      else guardStack limit (pushAll (depth + 1) vs rest)
termination_by stack => pendingSize stack
decreasing_by
  · have : 0 < v.size := by cases v <;> simp [Value.size]
    simp only [pendingSize]
    omega
  · have := Value.sizeList_children h
    simp only [pendingSize_pushAll, pendingSize]
    omega

/-- Checks that no container of a value is nested deeper than the limit. -/
def guardDepth (limit : Int) (v : Value) : Except GuardStop Unit :=
  guardStack limit [(v, 1)]

end QueryTree
