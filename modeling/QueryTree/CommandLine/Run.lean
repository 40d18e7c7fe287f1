import QueryTree.CommandLine.Arguments
import QueryTree.Filter
import QueryTree.Journal
import QueryTree.Json.Reader
import QueryTree.Settings.Basic

/-!
# Running commands

What a command writes and how it ends, as a function of the document that it is given.

* `normalPath`  : the plain form of a path
* `Document`    : what is found where a document is to be read
* `Outcome`     : what a command writes, and how it ends
* `Invocation.run` : an invocation on a document
-/

namespace QueryTree.CommandLine

/-! ## Documents -/

/-- The plain form of a path: without empty steps and steps that stay in place.  Two slashes at
    the start are kept, more count as one. -/
def normalPath (path : String) : String :=
  let cs := path.toList
  let slashes := (cs.takeWhile (· == '/')).length
  let root := if slashes = 0 then "" else if slashes = 2 then "//" else "/"
  let steps := (path.splitOn "/").filter fun s => s != "" && s != "."
  let plain := root ++ "/".intercalate steps
  if plain = "" then "." else plain

inductive Document where
  | missing
  | directory
  | text (content : String)

/-! ## Outcomes -/

inductive Crash where
  | failure (f : Failure)
  -- a directory was to be read
  | directory
  -- the document is nested deeper than the reader goes
  | tooNested
  deriving Repr

structure Outcome where
  -- the text on the standard output
  output : String
  notes : List Entry
  -- the exit code, or why the command broke off
  ending : Except Crash Nat

namespace Outcome

def line (code : Nat) (notes : List Entry) (text : String) : Outcome :=
  ⟨text ++ "\n", notes, .ok code⟩

def crash (c : Crash) : Outcome := ⟨"", [], .error c⟩

/-- Ends with the reasons why a value was not accepted, one line each. -/
def rejected (note : Entry) (r : Rejection) : Outcome :=
  line 1 [note] ("\n".intercalate (r.messages.map Message.text))

def usage : Outcome := ⟨"", [], .ok 2⟩

end Outcome

/-! ## Commands -/

/-- Goes on with the value of a document, or ends because it has none. -/
def withDocument (source : Source) (document : Document) (next : Value → Outcome) : Outcome :=
  match document with
  | .missing =>
    let path :=
      match source with
      | .file path => normalPath path
      | .input => "-"
    .line 1 [] ("Input file not found: " ++ path)
  | .directory => .crash .directory
  | .text content =>
    let text := Text.unifyNewlines content.toList
    match Json.read text with
    | .ok v => next v
    | .error e =>
      match e.cause with
      | .tooManyDigits count => .crash (.failure (.oversized (some count)))
      | .tooNested => .crash .tooNested
      | _ => .line 1 [] ("Invalid JSON: " ++ e.message text)

def renderValue (limit : Int) (v : Value) : Outcome :=
  match toQuery limit v with
  | .ok (.accepted query) => .line 0 [renderedEntry query] query
  | .ok (.rejected r) => .rejected r.entry r
  | .error f => .crash (.failure f)

def isKindError : QueryError → Bool
  | .unknownKind _ | .unknownOperator _ | .noRanges _ | .noFilters _ | .operatorAsKind _ => true
  | _ => false

def renderFilter (kind : String) (v : Value) : Outcome :=
  match Kind.forFilter (.str kind) with
  | .error (.query e) => if isKindError e then .line 2 [] e.message else .crash (.failure (.query e))
  | .error f => .crash (.failure f)
  | .ok kind =>
    match filterTree kind v with
    | .error f => .crash (.failure f)
    | .ok (.rejected r) => .rejected (filterEntry kind r) r
    | .ok (.accepted n) =>
      match n.toValue.render with
      | .ok query => .line 0 [] (String.ofList query)
      | .error f => .crash (.failure f)

def Command.source? : Command → Option Source
  | .render source _ => some source
  | .simple source _ => some source
  | .help => none

def helpText : String :=
  "Usage: [-v] COMMAND [SOURCE]\n\n" ++
    "  render [SOURCE] [--max-depth N]    Write the query of a tree.\n" ++
    "  simple [SOURCE] --kind KIND        Write the query of a flat filter.\n"

def Command.run (settings : Settings) (document : Document) : Command → Outcome
  | .help => ⟨helpText, [], .ok 0⟩
  | .render source maxDepth =>
    withDocument source document (renderValue (maxDepth.getD settings.maxDepth))
  | .simple source kind => withDocument source document (renderFilter kind)

/-- Runs an invocation on a document; of the notes only those stay that the journal shows. -/
def Invocation.run (settings : Settings) (document : Document) (i : Invocation) : Outcome :=
  let level := if i.verbose then "DEBUG" else settings.logLevel
  match Journal.configure (.str level) with
  | .error f => .crash (.failure f)
  | .ok journal =>
    let outcome := i.command.run settings document
    { outcome with notes := outcome.notes.filter fun _ => journal.shows Entry.severity }

end QueryTree.CommandLine
