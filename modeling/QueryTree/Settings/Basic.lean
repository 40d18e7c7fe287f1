import QueryTree.Failure
import QueryTree.Number.Integer
import QueryTree.Settings.EnvFile
import QueryTree.Text.Newline
import QueryTree.Text.Upper

/-!
# Settings

What can be set from outside: by variables of the surroundings, or by a file of variables.

* `Settings`        : the settings and their defaults
* `findVariable?`   : the value of a variable whose name is compared without regard to case
* `Settings.load`   : the settings that surroundings and file say
-/

namespace QueryTree

structure Settings where
  -- the deepest nesting of untrusted values that is accepted
  maxDepth : Int
  -- the least severity that the journal shows, as it was given
  rawLevel : String
  deriving DecidableEq, Repr

namespace Settings

def initial : Settings := ⟨256, "WARNING"⟩

/-- The least severity that the journal shows, in capitals. -/
def logLevel (s : Settings) : String :=
  Text.upper s.rawLevel

def depthVariable : String := "SOLR_QUERY_MAX_DEPTH"

def levelVariable : String := "SOLR_QUERY_LOG_LEVEL"

end Settings

/-- The value of a variable; names are compared without regard to case, and the last of several
    counts. -/
def findVariable? {α : Type} (name : String) (found : List (String × α)) : Option α :=
  (found.reverse.find? fun v => v.1.toLower == name.toLower).map (·.2)

namespace Settings

/-- The value of a setting: the surroundings count more than the file. -/
def setting? (name : String) (around : List (String × String)) (file : List EnvFile.Binding) :
    Option String :=
  (findVariable? name around).or (findVariable? name file).join

/-- The settings that the surroundings and, if there is one, the text of a file say. -/
def load (around : List (String × String)) (file : Option String) : Except Failure Settings :=
  let inFile :=
    match file with
    | some text => EnvFile.assignments around (Text.unifyNewlines text.toList)
    | none => []
  let level := (setting? levelVariable around inFile).getD initial.rawLevel
  match setting? depthVariable around inFile with
  | none => .ok ⟨initial.maxDepth, level⟩
  | some text =>
    let refuse (cause : Cause) : Except Failure Settings :=
      .error (.invalid "Settings" ⟨[.field depthVariable], cause, .str text⟩ [])
    match readSettingInteger text.toList with
    | .ok n => .ok ⟨n, level⟩
    | .error .unreadable => refuse .unreadableInteger
    | .error .tooLong => refuse .oversizedInteger

end Settings

end QueryTree
