import QueryTree.CommandLine.Run

/-!
# The program

The command line: finds the document that a command needs, runs the command, and writes what it
says.
-/

namespace QueryTree.CommandLine

def readAll (input : IO.FS.Stream) : IO String := do
  let mut text := ""
  let mut more := true
  while more do
    let line ← input.getLine
    text := text ++ line
    more := !line.isEmpty
  return text

def fetch : Source → IO Document
  | .input => do return .text (← readAll (← IO.getStdin))
  | .file path => do
    try
      return .text (← IO.FS.readFile (normalPath path))
    catch
      | .noFileOrDirectory _ _ _ => return .missing
      | .inappropriateType _ _ _ => return .directory
      | e => throw e

def variablesFile : IO (Option String) := do
  try
    return some (← IO.FS.readFile ".env")
  catch _ => return none

def surroundings : IO (List (String × String)) := do
  let mut found := []
  for name in [Settings.depthVariable, Settings.levelVariable] do
    for spelling in [name.toLower, name] do
      if let some value ← IO.getEnv spelling then
        found := found ++ [(spelling, value)]
  return found

def reportCrash : Crash → IO Unit
  | .failure f => IO.eprintln (f.message?.getD "The value cannot be processed")
  | .directory => IO.eprintln "Is a directory"
  | .tooNested => IO.eprintln "The document is nested too deep"

def runProgram (args : List String) : IO UInt32 := do
  match Settings.load (← surroundings) (← variablesFile) with
  | .error f => reportCrash (.failure f); return 1
  | .ok settings =>
    match Invocation.ofArguments args with
    | .error e => IO.eprintln e.message; return 2
    | .ok invocation =>
      let document ←
        match invocation.command.source? with
        | some source => fetch source
        | none => pure .missing
      let outcome := invocation.run settings document
      IO.print outcome.output
      for note in outcome.notes do IO.eprintln note.line
      match outcome.ending with
      | .ok code => return code.toUInt32
      | .error crash => reportCrash crash; return 1

end QueryTree.CommandLine

def main (args : List String) : IO UInt32 :=
  QueryTree.CommandLine.runProgram args
