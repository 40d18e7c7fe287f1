import QueryTree.Failure
import QueryTree.Node.Position

/-!
# Verdicts

What checking an untrusted value ends with: a result, or the reasons why the value is
not accepted.

* `Rejection`          : the reasons
* `Rejection.messages` : what the caller is told
* `Verdict`            : a result or a rejection
* `Verdict.unwrap`     : the result, or a failure
-/

namespace QueryTree

inductive Rejection where
  -- its containers are nested deeper than a limit
  | tooDeep (limit : Int)
  | malformed (first : Fault) (rest : List Fault)
  -- parts of the tree stand where they must not stand
  | misplaced (first : Issue) (rest : List Issue)
  -- a geometry in it has faults when the query is written
  | badGeometry (faults : List Fault)
  deriving Repr

namespace Rejection

/-- The message about a value that is nested too deep. -/
def depthText (limit : Int) : String :=
  "Input is nested deeper than " ++ shownInt limit ++ " levels"

/-- What the caller is told: a message for each reason. -/
def messages : Rejection → List Message
  | .tooDeep limit => [⟨"recursion_limit_exceeded", depthText limit, [], [("limit", .int limit)]⟩]
  | .malformed f fs => (f :: fs).map Fault.toMessage
  | .misplaced i is => (i :: is).map Issue.toMessage
  | .badGeometry faults =>
    [⟨"geometry_error", (QueryError.malformedGeometry faults).message, [],
      [("detail", .str (QueryError.geometryDetail faults))]⟩]

theorem messages_ne_nil (r : Rejection) : r.messages ≠ [] := by
  cases r <;> simp [messages]

end Rejection

/-- A result, or the reasons why there is none. -/
inductive Verdict (α : Type) where
  | accepted (result : α)
  | rejected (reasons : Rejection)
  deriving Repr

namespace Verdict

variable {α β : Type}

def map (f : α → β) : Verdict α → Verdict β
  | .accepted a => .accepted (f a)
  | .rejected r => .rejected r

/-- The result; a value that was not accepted is a failure then. -/
def unwrap : Verdict α → Except Failure α
  | .accepted a => .ok a
  | .rejected r => .error (.query (.notAccepted r.messages))

end Verdict

/-- The verdict on a value that was read.  Messages show the values that have faults, which fails
    if one holds an integer beyond the limit on digits. -/
def Decoded.verdict {α : Type} : Decoded α → Except Failure (Verdict α)
  | .done a => .ok (.accepted a)
  | .faulty f fs =>
    if (f :: fs).all fun f => f.input.writable then .ok (.rejected (.malformed f fs))
    else .error (.oversized none)
  | .outsideCalendar => .error .outsideCalendar

end QueryTree
