import QueryTree.Fault

/-!
# Reports

What a caller is told about a value that was not accepted: one message per reason,
each with its place.

* `Message`      : a code, a message, a place and further details
* `Message.text` : a message as one line
* `Fault.toMessage` : the message about a fault
* `summary`      : all messages in one text
-/

namespace QueryTree

/-- One reason why a value was not accepted. -/
structure Message where
  code : String
  message : String
  path : Path
  details : List (String × Value)
  deriving Repr

def Message.text (m : Message) : String :=
  pathText m.path ++ ": " ++ m.message

/-- The message about a fault shows the value that was found at its place. -/
def Fault.toMessage (f : Fault) : Message :=
  ⟨f.cause.code, f.message, f.path, [("input", .str f.input.shown)]⟩

theorem Fault.text_toMessage (f : Fault) : f.toMessage.text = f.text := rfl

def summary (messages : List Message) : String :=
  let lines := "; ".intercalate (messages.map Message.text)
  "Validation failed: " ++ if lines = "" then "no details" else lines

end QueryTree
