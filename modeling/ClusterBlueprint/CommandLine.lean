import ClusterBlueprint.Blueprint.Expansion
import ClusterBlueprint.Blueprint.Plan
import ClusterBlueprint.Document.Json
import ClusterBlueprint.Yaml.Writer

/-!
The command line: what its arguments ask for, and what is written in answer.

`expand` writes the expanded blueprint and `plan` the plan of its deployment.  Reading and writing
files is left to the caller of `Request.answer`, which gets the texts of the files and says what to
write where.
-/

namespace ClusterBlueprint.CommandLine

/-! ## Options -/

/-- The notation that an expanded blueprint is written in. -/
inductive Format where
  | yaml | json
deriving DecidableEq

def Format.ofText? : String → Option Format
  | "yaml" => some yaml
  | "json" => some json
  | _ => none

/-- What is to be done. -/
inductive Command where
  | expand | plan
deriving DecidableEq

def Command.ofText? : String → Option Command
  | "expand" => some expand
  | "plan" => some plan
  | _ => none

/-- The options of the commands. -/
inductive Flag where
  | modules | vars | validationLevel | format | out | json | help
deriving DecidableEq

namespace Flag

/-- Whether an option is followed by a value. -/
def takesValue : Flag → Bool
  | json | help => false
  | _ => true

/-- Whether an option may be given more than once. -/
def repeats : Flag → Bool
  | vars => true
  | _ => false

def belongsTo (command : Command) : Flag → Bool
  | format | out => command = .expand
  | json => command = .plan
  | _ => true

def ofLong? : String → Option Flag
  | "modules" => some modules
  | "vars" => some vars
  | "validation-level" => some validationLevel
  | "format" => some format
  | "out" => some out
  | "json" => some json
  | "help" => some help
  | _ => none

def ofShort? : Char → Option Flag
  | 'm' => some modules
  | 'o' => some out
  | 'h' => some help
  | _ => none

end Flag

inductive UsageError where
  | missingCommand
  | unknownCommand
  | unknownArgument
  | missingArgument
  /-- an option that was given before -/
  | repeatedOption
  /-- a value behind an option that takes none -/
  | unexpectedValue
  /-- no value, or one that is not among the accepted ones -/
  | badValue
  /-- a value that was read and refused -/
  | refusedValue
  | helpWanted
  | versionWanted
deriving DecidableEq

def UsageError.message : UsageError → String
  | missingCommand => "a command is required: expand or plan"
  | unknownCommand => "unrecognized command"
  | unknownArgument => "unexpected argument"
  | missingArgument => "a blueprint and a module catalog are required"
  | repeatedOption => "an option was given more than once"
  | unexpectedValue => "an option that takes no value was given one"
  | badValue => "an option has no acceptable value"
  | refusedValue => "an option has an invalid value"
  | helpWanted => "usage: expand|plan BLUEPRINT --modules CATALOG [--vars NAME=VALUE] "
      ++ "[--validation-level LEVEL] [--format yaml|json] [--out FILE] [--json]"
  | versionWanted => "1"

/-! ## Requests -/

/-- What the arguments ask for. -/
structure Request where
  command : Command
  /-- the file of the blueprint -/
  blueprint : String
  /-- the file of the catalog -/
  modules : String
  overrides : List String := []
  level : Option ValidationLevel := none
  format : Format := .yaml
  /-- the file to write to instead of the standard output -/
  out : Option String := none
  /-- whether a plan is written as JSON -/
  json : Bool := false

/-- What was read of the arguments of a command. -/
structure Arguments where
  blueprint : Option String := none
  /-- the options so far, latest first -/
  given : List Flag := []
  modules : Option String := none
  overrides : List String := []
  level : Option ValidationLevel := none
  format : Format := .yaml
  out : Option String := none
  /-- why the value that was read last is refused, if it is -/
  refusal : Option UsageError := none

namespace Arguments

/-- The arguments, unless the last value is refused. -/
def settle (arguments : Arguments) : Except UsageError Arguments :=
  match arguments.refusal with
  | some error => .error error
  | none => .ok arguments

def fileName (value : String) : Except UsageError String :=
  if value.isEmpty then .error .badValue else .ok value

/-- The capital of a letter, as far as levels are spelled with it: the small letters are those of
ASCII and the dotless i. -/
def capital (c : Char) : Char := if c = 'ı' then 'I' else c.toUpper

def levelNamed (value : String) : Except UsageError ValidationLevel :=
  match ValidationLevel.ofText? (value.map capital) with
  | some level => .ok level
  | none => .error .refusedValue

/-- The arguments with an option given, which must be new unless it repeats. -/
def give (arguments : Arguments) (flag : Flag) : Except UsageError Arguments :=
  if arguments.given.contains flag && !flag.repeats then .error .repeatedOption
  else .ok { arguments with given := flag :: arguments.given }

def set (arguments : Arguments) (flag : Flag) (value : String) : Except UsageError Arguments := do
  let arguments ← arguments.give flag
  match flag with
  | .modules => return { arguments with modules := some (← fileName value) }
  | .vars => return { arguments with overrides := arguments.overrides ++ [value] }
  | .validationLevel => return { arguments with level := some (← levelNamed value) }
  | .format =>
    match Format.ofText? value with
    | some format => return { arguments with format }
    | none => throw .badValue
  | .out => return { arguments with out := some (← fileName value) }
  | .json | .help => throw .unexpectedValue

/-- The arguments with an option that takes no value. -/
def raise (arguments : Arguments) (flag : Flag) : Except UsageError Arguments :=
  if flag = .help then .error .helpWanted else arguments.give flag

/-- The arguments with the value that follows an option.  Why it is refused is told later, since an
argument after it that cannot stand there at all is told first. -/
def setFollowing (arguments : Arguments) (flag : Flag) (value : String) : Arguments :=
  match arguments.set flag value with
  | .ok arguments => arguments
  | .error error => { arguments with refusal := some error }

def position (arguments : Arguments) (value : String) : Except UsageError Arguments := do
  if arguments.blueprint.isSome then throw .unknownArgument
  let arguments ← arguments.settle
  let refusal := if value.isEmpty then some .badValue else none
  return { arguments with blueprint := some value, refusal }

/-- An option as it stands among the arguments, and a value written behind it. -/
structure Written where
  flag : Flag
  value : Option String := none

def longOption (command : Command) (text : List Char) : Except UsageError Written := do
  let value := match text.dropWhile (· ≠ '=') with
    | _ :: value => some (String.ofList value)
    | [] => none
  match Flag.ofLong? (String.ofList (text.takeWhile (· ≠ '='))) with
  | some flag =>
    if !flag.belongsTo command then throw .unknownArgument
    if !flag.takesValue && value.isSome then throw .unexpectedValue
    return ⟨flag, value⟩
  | none => throw .unknownArgument

def shortOption (command : Command) (letter : Char) (rest : List Char) :
    Except UsageError Written := do
  match Flag.ofShort? letter with
  | some flag =>
    if !flag.belongsTo command then throw .unknownArgument
    if !flag.takesValue || rest.isEmpty then return ⟨flag, none⟩
    return ⟨flag, some (String.ofList (if rest.head? = some '=' then rest.drop 1 else rest))⟩
  | none => throw .unknownArgument

def option? (command : Command) (argument : String) : Except UsageError (Option Written) :=
  match argument.toList with
  | '-' :: '-' :: text => some <$> longOption command text
  | '-' :: letter :: rest => some <$> shortOption command letter rest
  | _ => .ok none

/-- The arguments of a command, after what was read so far.  Behind two dashes nothing is an
option. -/
def read (command : Command) (arguments : Arguments) : List String → Except UsageError Arguments
  | [] => arguments.settle
  | "--" :: rest => do (← rest.foldlM position arguments).settle
  | argument :: rest => do
    match ← option? command argument with
    | none => read command (← arguments.position argument) rest
    | some ⟨flag, value⟩ => do
      let arguments ← arguments.settle
      match value with
      | some value => read command (← arguments.set flag value) rest
      | none =>
        if !flag.takesValue then read command (← arguments.raise flag) rest
        else
          match rest with
          | [] => throw .badValue
          | value :: rest =>
            if value ≠ "--" && (← option? command value).isNone then
              read command (arguments.setFollowing flag value) rest
            else throw .badValue

end Arguments

def commandWords : List String := ["expand", "plan", "help"]

/-- What a first argument says that is no command. -/
def refuseCommand (first : String) (rest : List String) : UsageError :=
  match first.toList with
  | ['-', '-'] =>
    match rest with
    | [] => .missingCommand
    | word :: _ =>
      if commandWords.contains word then .unknownArgument else .unknownCommand
  | '-' :: '-' :: text =>
    match String.ofList (text.takeWhile (· ≠ '=')) with
    | "help" => if text.contains '=' then .unexpectedValue else .helpWanted
    | "version" => if text.contains '=' then .unexpectedValue else .versionWanted
    | _ => .unknownArgument
  | '-' :: letter :: _ =>
    if letter = 'h' then .helpWanted else if letter = 'V' then .versionWanted else .unknownArgument
  | _ =>
    if first = "help" && rest.length ≤ 1 && rest.all commandWords.contains then .helpWanted
    else .unknownCommand

/-- What the arguments ask for, where a catalog may be named by the environment. -/
def Request.ofArguments (environment : Option String) : List String → Except UsageError Request
  | [] => .error .missingCommand
  | first :: rest => do
    match Command.ofText? first with
    | some command =>
      let arguments ← Arguments.read command {} rest
      let modules := arguments.modules.or environment
      match arguments.blueprint, modules with
      | some blueprint, some modules =>
        return {
          command, blueprint, modules
          overrides := arguments.overrides
          level := arguments.level
          format := arguments.format
          out := arguments.out
          json := arguments.given.contains .json }
      | _, _ => throw .missingArgument
    | none => throw (refuseCommand first rest)

/-! ## Answers -/

inductive Failure where
  /-- a file that cannot be read -/
  | unreadable (what path : String)
  /-- a file that is not what it should be -/
  | malformed (what path : String)
  /-- a file that cannot be written -/
  | unwritable (path : String)
  | fault (fault : Fault)

def Failure.message : Failure → String
  | unreadable what path => "loading " ++ what ++ " " ++ path
  | malformed what path => "loading " ++ what ++ " " ++ path
  | unwritable path => "writing " ++ path
  | fault cause => cause.message

structure Answer where
  text : String
  out : Option String := none

/-- The text for the standard output, which ends with a line. -/
def Answer.line (answer : Answer) : String :=
  if answer.text.toList.getLast? = some '\n' then answer.text else answer.text ++ "\n"

/-- What the text of a file says, under a schema. -/
def load {α : Type} (what path : String) (schema : Yaml.Datum → Fitted α) :
    Option String → Except Failure α
  | none => .error (.unreadable what path)
  | some source => (Yaml.readAs schema source).mapError fun _ => .malformed what path

namespace Request

/-- The blueprint of a request, expanded.  Its file is one of a directory, unless the path starts at
the root. -/
def expanded (request : Request) (directory : String) (catalog blueprint : Option String) :
    Except Failure Blueprint := do
  let catalog ← load "module catalog" request.modules Catalog.read catalog
  let bp ← load "blueprint" request.blueprint Blueprint.read blueprint
  let path := if request.blueprint.toList.head? = some '/' then request.blueprint
    else directory ++ "/" ++ request.blueprint
  let options : ExpandOptions := ⟨request.level, request.overrides⟩
  ({ bp with path }.expand catalog options).mapError .fault

/-- What is written in answer to a request, where the files of the catalog and of the blueprint have
known texts if they can be read. -/
def answer (request : Request) (directory : String) (catalog blueprint : Option String) :
    Except Failure Answer := do
  let bp ← request.expanded directory catalog blueprint
  match request.command with
  | .expand =>
    let text := match request.format with
      | .yaml => Yaml.document bp.toNode
      | .json => Json.document bp.toNode
    return ⟨text, request.out⟩
  | .plan =>
    let plan ← (Plan.ofBlueprint bp).mapError .fault
    return ⟨if request.json then Json.document plan.toNode else plan.render, none⟩

end Request

end ClusterBlueprint.CommandLine
