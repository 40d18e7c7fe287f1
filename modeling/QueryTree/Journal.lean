import QueryTree.Value.Shown
import QueryTree.Verdict

/-!
# The journal

What is noted about the work, and from which severity on it is shown.

* `journalName`   : the full name of a part's journal
* `severities`    : the severities by name
* `Journal`       : the level of the journal and whether it has an outlet
* `Entry`         : a note
* `Rejection.entry`, `renderedEntry`, `filterEntry` : the notes that are made
-/

namespace QueryTree

/-! ## Names -/

def journalRoot : String := "solr_query"

def journalName (part : String) : String :=
  if part = journalRoot ∨ (journalRoot ++ ".").isPrefixOf part then part
  else journalRoot ++ "." ++ part

/-! ## Severities -/

def severities : List (String × Int) :=
  [("CRITICAL", 50), ("FATAL", 50), ("ERROR", 40), ("WARN", 30), ("WARNING", 30), ("INFO", 20),
    ("DEBUG", 10), ("NOTSET", 0)]

/-- The severity that a value says: a number, or the name of one. -/
def severityOf : Value → Except Failure Int
  | .int n => .ok n
  | .bool b => .ok (if b then 1 else 0)
  | .str name =>
    match severities.lookup name with
    | some level => .ok level
    | none => .error (.unknownLevel name)
  | _ => .error .wrongType

structure Journal where
  -- the least severity that is shown
  level : Int
  -- whether the journal has an outlet; it gets one when it is first configured
  attached : Bool
  deriving DecidableEq, Repr

namespace Journal

def initial : Journal := ⟨0, false⟩

/-- The journal once it is configured; whatever it was before, it has one outlet then. -/
def configure (level : Value) : Except Failure Journal :=
  (severityOf level).map fun n => ⟨n, true⟩

def outlets (j : Journal) : Nat :=
  if j.attached then 1 else 0

def shows (j : Journal) (severity : Int) : Bool :=
  j.attached && j.level ≤ severity

end Journal

/-! ## Notes -/

structure Entry where
  -- the part that makes the note
  part : String
  text : String
  deriving DecidableEq, Repr

def Entry.severity : Int := 10

def Entry.line (e : Entry) : String :=
  "DEBUG " ++ journalName e.part ++ ": " ++ e.text

/-- The number of reasons for a rejection, in words. -/
def shownErrors (count : Nat) : String :=
  shownNat count ++ " error(s)"

def Rejection.entry : Rejection → Entry
  | .tooDeep limit => ⟨"validator", "Rejected input: " ++ Rejection.depthText limit⟩
  | .malformed _ fs =>
    ⟨"validator", "Structural validation failed with " ++ shownErrors (fs.length + 1)⟩
  | .misplaced _ is =>
    ⟨"validator", "Positional validation failed with " ++ shownErrors (is.length + 1)⟩
  | .badGeometry faults =>
    ⟨"serializer", "Geometry conversion failed: " ++ QueryError.geometryDetail faults⟩

def renderedEntry (query : String) : Entry :=
  ⟨"serializer", "Rendered query: " ++ query⟩

def filterEntry (kind : OrderedKind) (r : Rejection) : Entry :=
  ⟨"simple", (Model.filter kind).name ++ " rejected input with " ++ shownErrors r.messages.length⟩

end QueryTree
