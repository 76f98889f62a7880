import ProcCheck.Command.Arguments
import ProcCheck.Command.Check
import ProcCheck.Command.Help
import ProcCheck.Command.Init
import ProcCheck.Command.Symbols

/-!
# The command line

The first positional argument names the command; it decides which options are known and how
many positionals it takes. Who asks for help or for the version gets that and nothing else.
What is not known is refused before anything is done.
-/

namespace ProcCheck

/-- What a path is needed for: to be resolved, as one of several parts, or to be opened. -/
inductive PathUse where
  | resolve (part : Nat)
  | openFile
  deriving DecidableEq, Repr

/-- What a path has to be for its use. -/
def PathUse.demand : PathUse → Text
  | resolve part => "\"paths[" ++ Text.ofNat part ++ "]\" argument must be of type string"
  | openFile => "\"path\" argument must be of type string or an instance of Buffer or URL"

/-- Why a command line is refused: an argument is missing, names are unknown, or what stands for
a path is not one text. -/
inductive UsageError where
  | missingArgument
  | unknown (names : List Text)
  | noPath (use : PathUse) (given : OptionValue)
  deriving DecidableEq, Repr

/-- What a command line asks for; nothing, if all of it is left aside. A refusal after settings
is one that comes only when the settings could be read. -/
inductive Request where
  | check (options : CheckOptions)
  | symbols (file configDir : Text)
  | init (name : Text)
  | help (page : Text)
  | version
  | refusalAfterSettings (configDir : Text) (e : UsageError)
  | nothing

namespace UsageError

/-- The wording for a refused command line. Blank names are shown in quotes. -/
def message : UsageError → Text
  | missingArgument => "Not enough non-option arguments: got 0, need at least 1"
  | unknown names =>
    let ending : Text := if names.length = 1 then [] else "s"
    let shown := names.map fun name =>
      if name.trim.isEmpty then .quote :: name ++ [.quote] else name
    "Unknown argument" ++ ending ++ ": " ++ Text.join ", " shown
  | noPath use given =>
    "TypeError [ERR_INVALID_ARG_TYPE]: The " ++ use.demand ++ ". Received " ++ given.description

end UsageError

namespace Request

/-- The option that tells where the settings are. -/
def configOption : Text := "config"

/-- The option that asks for JSON. -/
def jsonOption : Text := "json"

/-- The option that names files where no positional does. -/
def filesOption : Text := "files"

/-- The option that asks for help. It may also stand as the last positional. -/
def helpOption : Text := "help"

/-- The option that asks for the version. -/
def versionOption : Text := "version"

/-- The options that a command knows, with their kinds. -/
abbrev Known := List (Text × OptionKind)

/-- The options that every command knows. -/
def commonOptions : Known := [(helpOption, .flag), (versionOption, .flag)]

/-- Sorts the arguments of a command that knows some options besides the common ones. -/
def sortFor (known : Known) (args : List Text) : Arguments :=
  Arguments.sort (fun name => ((commonOptions ++ known).lookup name).getD .unknown) args

/-- The request for help, which shows a page, or for the version. -/
def information? (page : Text) (a : Arguments) : Option Request :=
  if a.isOn helpOption ∨ a.positionals.getLast? = some helpOption then some (.help page)
  else if a.isOn versionOption then some .version
  else none

/-- Refuses options that a command does not know, and positionals that it has no use for. -/
def refuseUnknown (known : Known) (a : Arguments) (spare : List Text) :
    Except UsageError Unit :=
  let names := a.unknownNames ((commonOptions ++ known).map (·.1)) ++ spare
  if names.isEmpty then .ok () else .error (.unknown names)

/-- What a command with a help topic is asked for: information, or what `request` makes of its
arguments, the command's name left out. -/
def ofCommand (topic : Help.Topic) (known : Known) (args : List Text)
    (request : Arguments → Except UsageError Request) : Except UsageError Request :=
  let a := sortFor known args
  match information? topic.text a with
  | some information => .ok information
  | none => request { a with positionals := a.positionals.drop 1 }

/-- The positional of a command that takes one. Hyphens alone are no text. -/
def single (known : Known) (a : Arguments) : Except UsageError Text :=
  match a.positionals with
  | [] => .error .missingArgument
  | first :: spare => do
    refuseUnknown known a spare
    return if Arguments.isPlain first then first else []

/-- The path that a positional gives beside an option of its name. It replaces the one value of
the option, but several values and the path together are no path. -/
def besides (a : Arguments) (name : Text) (use : PathUse) (path : Text) :
    Except UsageError Text :=
  if a.option? .value name = some .several then .error (.noPath use .several) else .ok path

/-- A path that an option gives. -/
def asPath (use : PathUse) : OptionValue → Except UsageError Text
  | .text t => .ok t
  | v => .error (.noPath use v)

/-- The files that are given: the positionals if there are any, hyphens left out; otherwise
what the option for them holds, where parts alone are none. -/
def files (a : Arguments) : Except UsageError (List Text) :=
  if !a.positionals.isEmpty then .ok (a.positionals.filter Arguments.isPlain)
  else if (a.given filesOption).all (· = .record) then .ok []
  else (a.given filesOption).mapM (asPath (.resolve 0))

/-- The directory of the settings: the working directory unless one is given. -/
def configDir (a : Arguments) : Except UsageError Text :=
  match a.option? .value configOption with
  | none => .ok "."
  | some v => asPath (.resolve 0) v

/-- The request that is made of a path, or refused once the settings in a directory are read. -/
def afterSettings {α : Type} (dir : Text) (path : Except UsageError α) (request : α → Request) :
    Request :=
  match path with
  | .ok path => request path
  | .error e => .refusalAfterSettings dir e

/-- The request to check files. -/
def ofCheck (args : List Text) : Except UsageError Request :=
  let known : Known := [(configOption, .value), (jsonOption, .flag), (filesOption, .list)]
  ofCommand Help.check known args fun a => do
    refuseUnknown known a []
    let configDir ← configDir a
    return afterSettings configDir (files a) fun files =>
      .check { files, configDir, json := a.isOn jsonOption }

/-- The request to show the symbols of a file. -/
def ofSymbols (args : List Text) : Except UsageError Request :=
  let fileOption : Text := "file"
  let known : Known := [(configOption, .value), (fileOption, .value)]
  ofCommand Help.symbols known args fun a => do
    let file ← single known a
    let configDir ← configDir a
    return afterSettings configDir (besides a fileOption .openFile file) fun file =>
      .symbols file configDir

/-- The request to start a project. -/
def ofInit (args : List Text) : Except UsageError Request :=
  let nameOption : Text := "name"
  let known : Known := [(nameOption, .value)]
  ofCommand Help.init known args fun a => do
    return .init (← besides a nameOption (.resolve 1) (← single known a))

/-- The commands by their names. -/
def commands : List (Text × (List Text → Except UsageError Request)) :=
  [("check", ofCheck), ("symbols", ofSymbols), ("init", ofInit)]

/-- What the arguments of a command line ask for. The first positional names the command; to
find it only the common options are known. -/
def ofArguments (args : List Text) : Except UsageError Request :=
  let a := sortFor [] args
  match a.positionals.head?.bind fun name => commands.lookup name with
  | some request => request args
  | none =>
    match information? Help.overview a with
    | some information => .ok information
    | none => do
      if a.positionals.isEmpty ∧ a.aside.isEmpty then throw .missingArgument
      refuseUnknown [] a (a.positionals.filter fun name => !(commands.map (·.1)).contains name)
      return .nothing

end Request

/-- How a command line ends. -/
inductive Outcome where
  | finished (code : Nat)
  | failed (e : CommandError)
  | misused (e : UsageError)
  deriving DecidableEq, Repr

/-- The kind and the wording of a failure. The wording of a malformed file of settings is left
to its kind. -/
def CommandError.message : CommandError → Text
  | file e => "Error: " ++ e.message
  | config path (.invalid fault) => "ConfigError: " ++ fault.message path
  | config path (.malformed _) => "YAMLException: " ++ path
  | aborted abort => "Error: " ++ abort.message

namespace Outcome

/-- The exit code. -/
def code : Outcome → Nat
  | finished code => code
  | failed _ | misused _ => 1

/-- What is told when a command line does not finish. -/
def complaint? : Outcome → Option Text
  | finished _ => none
  | failed e => some e.message
  | misused e => some e.message

end Outcome

/-- Does what a request asks for. -/
def Request.run {m : Type → Type} [Monad m] [Host m] (styling : Styling) :
    Request → CommandT m Outcome
  | .nothing => return .finished 0
  | .help page => do
    CommandT.notify (.log page)
    return .finished 0
  | .version => do
    CommandT.notify (.log programVersion)
    return .finished 0
  | .refusalAfterSettings configDir e => do
    let _ ← loadConfig (Path.resolve (← CommandT.workingDir) configDir).text
    return .misused e
  | .check options => return .finished (← Command.check { options with styling })
  | .symbols file configDir => return .finished (← Command.symbols styling file configDir)
  | .init name => return .finished (← Command.init styling name)

/-- Does what a command line asks for. -/
def runCommandLine {m : Type → Type} [Monad m] [Host m] (styling : Styling) (args : List Text) :
    m Outcome := do
  match Request.ofArguments args with
  | .error e => return .misused e
  | .ok request =>
    match ← ExceptT.run (request.run styling : CommandT m Outcome) with
    | .ok outcome => return outcome
    | .error e => return .failed e

end ProcCheck
