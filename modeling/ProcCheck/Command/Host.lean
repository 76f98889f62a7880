import ProcCheck.Config
import ProcCheck.Files.Tree
import ProcCheck.Report.Notice
import ProcCheck.Analysis.Program

/-!
# What commands work on

A command reads and writes files, asks for the working directory and the time, has settings
loaded, and tells its user what it did. A `Host` offers that. `Disk` is a host whose whole state
is a value, so what a command does to it can be stated.
-/

namespace ProcCheck

/-- What a command needs from its surroundings. -/
class Host (m : Type → Type) where
  workingDir : m Path
  now : m Text
  readFile : Text → m (Except FileError Bytes)
  writeFile : Text → Bytes → m (Except FileError Unit)
  makeDir : Text → m (Except FileError Unit)
  loader : m Yaml.Loader
  notify : Notice → m Unit

/-- Why a command fails. -/
inductive CommandError where
  | file (e : FileError)
  | config (file : Text) (e : ConfigError)
  | aborted (abort : Abort)
  deriving DecidableEq, Repr

/-- A command may fail; what it has told its user by then stays told. -/
abbrev CommandT (m : Type → Type) := ExceptT CommandError m

namespace CommandT

variable {m : Type → Type} [Monad m] [Host m]

/-- Runs an operation on files, whose failure is that of the command. -/
def ofFile {α : Type} (act : m (Except FileError α)) : CommandT m α := do
  match ← (act : m (Except FileError α)) with
  | .ok a => return a
  | .error e => throw (.file e)

/-- Tells the user something. -/
def notify (n : Notice) : CommandT m Unit := (Host.notify n : m Unit)

/-- The text in a file. -/
def readText (path : Text) : CommandT m Text := do
  return Text.ofUtf8 (← ofFile (Host.readFile path))

/-- The working directory. -/
def workingDir : CommandT m Path := (Host.workingDir : m Path)

end CommandT

/-- The name of the file that holds the settings. -/
def configFile : Text := "basil.yml"

/-- The settings in a directory; without a file there, the default ones. -/
def loadConfig {m : Type → Type} [Monad m] [Host m] (dir : Text) : CommandT m Config := do
  let path := Path.join dir configFile
  match ← (Host.readFile path : m (Except FileError Bytes)) with
  | .error e => if e.fault = .notFound then return {} else throw (.file e)
  | .ok bytes =>
    let load ← (Host.loader : m Yaml.Loader)
    match Config.ofText (.ofUtf8 bytes) load with
    | .ok config => return config
    | .error e => throw (.config path e)

/-- A host as a value: files, the working directory, the time, what reads settings, and what the
user was told. -/
structure Disk where
  tree : FileTree := {}
  workingDir : Path := []
  now : Text := []
  load : Yaml.Loader := Yaml.Value.ofText
  notices : List Notice := []

namespace Disk

/-- Replaces the tree by the result of an operation, if it succeeds. -/
def update (act : Disk → Except FileError FileTree) : StateM Disk (Except FileError Unit) :=
  fun d =>
    match act d with
    | .ok tree => (.ok (), { d with tree })
    | .error e => (.error e, d)

instance : Host (StateM Disk) where
  workingDir := return (← get).workingDir
  now := return (← get).now
  readFile path := return (← get).tree.read (← get).workingDir path
  writeFile path content := update fun d => d.tree.write d.workingDir path content
  makeDir path := update fun d => d.tree.makeDir d.workingDir path
  loader := return (← get).load
  notify n := modify fun d => { d with notices := d.notices ++ [n] }

end Disk

end ProcCheck
