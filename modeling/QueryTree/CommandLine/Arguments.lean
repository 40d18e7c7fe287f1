import QueryTree.Number.Integer

/-!
# Arguments of the command line

    [-v] render [SOURCE] [--max-depth N]
    [-v] simple [SOURCE] --kind KIND

Options may stand anywhere behind the name of the command.  Of an option that is given more than
once the last value counts; everything behind `--` is no option.

* `OptionSpec`   : the options of a command
* `UsageError`   : what is wrong with the arguments
* `sortArguments`: arguments sorted into options and others
* `Command`, `Invocation` : what is asked for
* `Invocation.ofArguments` : arguments as an invocation
-/

namespace QueryTree.CommandLine

/-! ## Options -/

structure OptionSpec where
  name : String
  -- its letter behind one hyphen, if it has one
  letter : Option Char
  takesValue : Bool
  deriving DecidableEq, Repr

def helpOption : OptionSpec := ⟨"help", none, false⟩

def verboseOption : OptionSpec := ⟨"verbose", some 'v', false⟩

def depthOption : OptionSpec := ⟨"max-depth", none, true⟩

def kindOption : OptionSpec := ⟨"kind", some 'k', true⟩

inductive UsageError where
  | unknownOption (arg : String)
  -- the value of an option is missing
  | missingValue (option : String)
  -- an option that takes no value has one
  | unexpectedValue (option : String)
  -- there are more arguments than the command takes
  | extraArgument (arg : String)
  | unknownCommand (name : String)
  | missingCommand
  -- the value of an option is no integer
  | notInteger (value : String)
  | missingOption (option : String)
  deriving DecidableEq, Repr

def UsageError.message : UsageError → String
  | .unknownOption arg => "No such option: " ++ arg
  | .missingValue option => "Option --" ++ option ++ " requires a value"
  | .unexpectedValue option => "Option --" ++ option ++ " takes no value"
  | .extraArgument arg => "Unexpected argument: " ++ arg
  | .unknownCommand name => "No such command: " ++ name
  | .missingCommand => "Missing command"
  | .notInteger value => "Not an integer: " ++ value
  | .missingOption option => "Missing option --" ++ option

/-- Arguments sorted: the options in order, with their values, and the others. -/
structure Sorted where
  -- the options with their values; options without a value have an empty one
  options : List (OptionSpec × String)
  others : List String
  deriving DecidableEq, Repr

namespace Sorted

def empty : Sorted := ⟨[], []⟩

def withOption (o : OptionSpec) (value : String) (s : Sorted) : Sorted :=
  { s with options := (o, value) :: s.options }

def withOther (arg : String) (s : Sorted) : Sorted :=
  { s with others := arg :: s.others }

def value? (s : Sorted) (o : OptionSpec) : Option String :=
  (s.options.reverse.find? (·.1 == o)).map (·.2)

def has (s : Sorted) (o : OptionSpec) : Bool :=
  s.options.any (·.1 == o)

end Sorted

/-- What an argument that starts with a hyphen says: options without value, and perhaps one with a
    value, which may be attached or be the next argument. -/
structure Clustered where
  -- the options without value, in order
  flags : List OptionSpec
  -- the option with a value, and the value if it is attached
  valued : Option (OptionSpec × Option String)

/-- The options that a group of letters says.  Behind the letter of an option with a value, the
    rest of the group is the value. -/
def scanLetters (specs : List OptionSpec) : List Char → Except UsageError Clustered
  | [] => .ok ⟨[], none⟩
  | c :: cs =>
    match specs.find? (·.letter == some c) with
    | none => .error (.unknownOption (String.ofList ['-', c]))
    | some spec =>
      if spec.takesValue then
        .ok ⟨[], some (spec, if cs.isEmpty then none else some (String.ofList cs))⟩
      else do
        let more ← scanLetters specs cs
        .ok { more with flags := spec :: more.flags }

/-- The options that an argument behind its hyphens says.  A name may have a value attached by an
    equals sign. -/
def scanOption (specs : List OptionSpec) (arg : String) : Except UsageError Clustered :=
  match arg.toList with
  | '-' :: '-' :: name =>
    let (name, value) := name.span (· != '=')
    match specs.find? (·.name == String.ofList name) with
    | none => .error (.unknownOption arg)
    | some spec =>
      match spec.takesValue, value with
      | true, [] => .ok ⟨[], some (spec, none)⟩
      | true, _ :: value => .ok ⟨[], some (spec, some (String.ofList value))⟩
      | false, [] => .ok ⟨[spec], none⟩
      | false, _ :: _ => .error (.unexpectedValue spec.name)
  | '-' :: letters => scanLetters specs letters
  | _ => .error (.unknownOption arg)

/-- Whether an argument is an option: it starts with a hyphen, but is more than that. -/
def isOption (arg : String) : Bool :=
  arg.startsWith "-" && arg != "-"

def Clustered.addTo (c : Clustered) (value : Option (OptionSpec × String)) (s : Sorted) : Sorted :=
  let s :=
    match value with
    | some (spec, value) => s.withOption spec value
    | none => s
  c.flags.foldr (fun spec s => s.withOption spec "") s

/-- Sorts arguments.  If `mixed` is false, the first argument that is no option ends the options. -/
def sortArguments (specs : List OptionSpec) (mixed : Bool) :
    List String → Except UsageError Sorted
  | [] => .ok .empty
  | "--" :: args => .ok ⟨[], args⟩
  | arg :: args =>
    if isOption arg then do
      let cluster ← scanOption specs arg
      match cluster.valued with
      | none => (sortArguments specs mixed args).map (cluster.addTo none)
      | some (spec, some value) =>
        (sortArguments specs mixed args).map (cluster.addTo (some (spec, value)))
      | some (spec, none) =>
        match args with
        | [] => .error (.missingValue spec.name)
        | value :: args =>
          (sortArguments specs mixed args).map (cluster.addTo (some (spec, value)))
    else if mixed then (sortArguments specs mixed args).map (Sorted.withOther arg)
    else .ok ⟨[], arg :: args⟩

/-! ## Invocations -/

inductive Source where
  | input
  | file (path : String)
  deriving DecidableEq, Repr

/-- The source that an argument names; a hyphen names the standard input. -/
def Source.ofArgument (arg : String) : Source :=
  if arg = "-" then .input else .file arg

inductive Command where
  -- writes the query of a tree, with a limit on its nesting
  | render (source : Source) (maxDepth : Option Int)
  -- writes the query of a flat filter over the kind of a name
  | simple (source : Source) (kind : String)
  | help
  deriving DecidableEq, Repr

structure Invocation where
  -- whether all notes of the journal are shown
  verbose : Bool
  command : Command
  deriving DecidableEq, Repr

/-- The only argument that is no option, with a default. -/
def onlyOther (s : Sorted) (default : String) : Except UsageError String :=
  match s.others with
  | [] => .ok default
  | [arg] => .ok arg
  | _ :: arg :: _ => .error (.extraArgument arg)

def depthOf (s : Sorted) : Except UsageError (Option Int) :=
  match s.value? depthOption with
  | none => .ok none
  | some text =>
    match readGroupedInteger? text.toList with
    | some n => .ok (some n)
    | none => .error (.notInteger text)

def renderCommand (args : List String) : Except UsageError Command := do
  let s ← sortArguments [helpOption, depthOption] true args
  let source ← onlyOther s "-"
  if s.has helpOption then .ok .help
  else .ok (.render (.ofArgument source) (← depthOf s))

def simpleCommand (args : List String) : Except UsageError Command := do
  let s ← sortArguments [helpOption, kindOption] true args
  let source ← onlyOther s "-"
  if s.has helpOption then .ok .help
  else
    match s.value? kindOption with
    | some kind => .ok (.simple (.ofArgument source) kind)
    | none => .error (.missingOption kindOption.name)

def Invocation.ofArguments (args : List String) : Except UsageError Invocation := do
  let s ← sortArguments [helpOption, verboseOption] false args
  let verbose := s.has verboseOption
  if s.has helpOption || args.isEmpty then .ok ⟨verbose, .help⟩
  else
    match s.others with
    | [] => .error .missingCommand
    | "render" :: args => do .ok ⟨verbose, ← renderCommand args⟩
    | "simple" :: args => do .ok ⟨verbose, ← simpleCommand args⟩
    | name :: _ => .error (.unknownCommand name)

end QueryTree.CommandLine
