/-!
# Entries

Values under keys, in the order in which the keys were first put.

* `putEntry` : puts a value under a key
-/

namespace QueryTree

variable {α : Type}

/-- Puts a value under a key: in the place of the one that is there, or behind all others. -/
def putEntry (key : String) (a : α) : List (String × α) → List (String × α)
  | [] => [(key, a)]
  | (k, b) :: rest => if k = key then (k, a) :: rest else (k, b) :: putEntry key a rest

end QueryTree
