import ProcCheck.Yaml.Document

/-!
# Settings of a project

The settings stand in a mapping; each key has a kind of value that it requires, and what is
not given has a default.
-/

namespace ProcCheck

/-- The settings of a project: the name of the entry function, the files that are checked when
none are named, the directory of the log, and whether diagnostics make a check fail. -/
structure Config where
  entry : Text := "main"
  sources : List Text := []
  logDir : Text := ".basil/logs"
  failOnDiagnostics : Bool := true
  deriving DecidableEq

/-- Why a value holds no settings. -/
inductive ConfigFault where
  | notMapping
  | badEntry
  | badSources
  | badLogDir
  | badFailOnDiagnostics
  | unknownKey (key : Text)
  deriving DecidableEq, Repr

/-- The wording of a fault in the settings of a file. -/
def ConfigFault.message (file : Text) : ConfigFault → Text
  | notMapping => file ++ " must contain a mapping"
  | badEntry => "'entry' in " ++ file ++ " must be a non-empty string"
  | badSources => "'sources' in " ++ file ++ " must be a list of file paths"
  | badLogDir => "'logDir' in " ++ file ++ " must be a string"
  | badFailOnDiagnostics => "'failOnDiagnostics' in " ++ file ++ " must be true or false"
  | unknownKey key => "Unknown key '" ++ key ++ "' in " ++ file

/-- The text that a value is. -/
def Yaml.Value.string? : Yaml.Value → Option Text
  | string t => some t
  | _ => none

namespace Config

/-- The settings with one more entry of the mapping. -/
def set (c : Config) (key : Text) (value : Yaml.Value) : Except ConfigFault Config :=
  if key = "entry" then
    match value with
    | .string (u :: t) => .ok { c with entry := u :: t }
    | _ => .error .badEntry
  else if key = "sources" then
    match value with
    | .list items =>
      match items.mapM Yaml.Value.string? with
      | some sources => .ok { c with sources }
      | none => .error .badSources
    | _ => .error .badSources
  else if key = "logDir" then
    match value with
    | .string t => .ok { c with logDir := t }
    | _ => .error .badLogDir
  else if key = "failOnDiagnostics" then
    match value with
    | .bool b => .ok { c with failOnDiagnostics := b }
    | _ => .error .badFailOnDiagnostics
  else .error (.unknownKey key)

/-- The settings that a value holds. The first bad entry refuses it. -/
def ofValue : Yaml.Value → Except ConfigFault Config
  | .null => .ok {}
  | .mapping entries => entries.foldlM (fun c entry => c.set entry.1 entry.2) {}
  | _ => .error .notMapping

end Config

/-- Why a text holds no settings. -/
inductive ConfigError where
  | malformed (fault : Yaml.Fault)
  | invalid (fault : ConfigFault)
  deriving DecidableEq, Repr

/-- The settings that a text holds, by what a loader reads in it. -/
def Config.ofText (text : Text) (load : Yaml.Loader := Yaml.Value.ofText) :
    Except ConfigError Config :=
  match load text with
  | .error fault => .error (.malformed fault)
  | .ok value => (ofValue value).mapError .invalid

end ProcCheck
