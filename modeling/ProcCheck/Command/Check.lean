import ProcCheck.Command.Host
import ProcCheck.Report.Json
import ProcCheck.Report.Snippet

/-!
# Checking files

Each file is checked on its own: what is told about it depends on its path, its content and
the entry name. A summary follows, and everything told goes into a log.
-/

namespace ProcCheck

/-- A file and what its analysis gave. -/
structure CheckedFile where
  path : Text
  source : Text
  result : Except SyntaxError Symbols

namespace CheckedFile

/-- The number of problems: the diagnostics, or the one syntax error. -/
def problems (f : CheckedFile) : Nat :=
  match f.result with
  | .error _ => 1
  | .ok symbols => symbols.diagnostics.length

/-- What is told about a file. With `json` the symbols are told later, all at once. -/
def notices (f : CheckedFile) (styling : Styling) (json : Bool) : List Notice :=
  match f.result with
  | .error e =>
    [.error (styling.apply .underline f.path), .error (e.render styling f.source)]
  | .ok symbols =>
    if json then []
    else if symbols.diagnostics.isEmpty then [.log (styling.apply .gray (f.path ++ ": ok"))]
    else
      .log (styling.apply .underline f.path) ::
        symbols.diagnostics.map fun d => .log (d.render styling f.source)

/-- A file and its symbols as JSON; a file with a syntax error has none. -/
def json (f : CheckedFile) : Json :=
  .object <| ("file", .string f.path) ::
    match f.result with
    | .error _ => []
    | .ok symbols => symbols.fields

end CheckedFile

/-- A number of things. -/
def counted (n : Nat) (noun : Text) : Text :=
  let ending : Text := if n = 1 then [] else "s"
  Text.ofNat n ++ " " ++ noun ++ ending

/-- The number of problems in all files. -/
def totalProblems (files : List CheckedFile) : Nat :=
  files.foldr (fun f total => f.problems + total) 0

/-- What is told after all files: their symbols as JSON, or how many problems there are. -/
def checkSummary (styling : Styling) (json : Bool) (files : List CheckedFile) : Notice :=
  let total := totalProblems files
  if json then .log (Json.array (files.map CheckedFile.json)).text
  else if 0 < total then
    .error (styling.apply .red (.lineFeed ::
      ("Found " ++ counted total "problem" ++ " in " ++ counted files.length "file" ++ ".")))
  else
    .log (styling.apply .green (.lineFeed ::
      ("No problems found in " ++ counted files.length "file" ++ ".")))

/-- The content of a log: the date and the told lines, without control sequences. -/
def logText (now : Text) (lines : List Text) : Text :=
  (Text.join [.lineFeed] (("Date: " ++ now) :: lines)).unstyled ++ [.lineFeed]

/-- What a check is asked to do: which files, or those of the settings if there are none; where
the settings are; and whether to tell the symbols as JSON. -/
structure CheckOptions where
  files : List Text
  configDir : Text
  json : Bool := false
  styling : Styling := .plain

namespace Command

variable {m : Type → Type} [Monad m] [Host m]

/-- Analyses a file. -/
def analyseFile (entry path : Text) : CommandT m CheckedFile := do
  let source ← CommandT.readText path
  match source.symbols entry with
  | .ok symbols => return ⟨path, source, .ok symbols⟩
  | .error (.refused e) => return ⟨path, source, .error e⟩
  | .error (.aborted abort) => throw (.aborted abort)

/-- Checks a file and tells about it. -/
def checkFile (styling : Styling) (json : Bool) (entry path : Text) : CommandT m CheckedFile := do
  let file ← analyseFile entry path
  (file.notices styling json).forM CommandT.notify
  return file

/-- Writes the log into a directory, which is made if it is missing. -/
def writeLog (dir : Text) (lines : List Text) : CommandT m Unit := do
  CommandT.ofFile (Host.makeDir dir : m _)
  let now ← (Host.now : m Text)
  CommandT.ofFile (Host.writeFile (Path.join dir "latest.txt") (logText now lines).toUtf8 : m _)

/-- The files that a check is about. -/
def filesToCheck (options : CheckOptions) (workingDir configDir : Path) (config : Config) :
    List Text :=
  if options.files.isEmpty then config.sources.map fun f => (Path.resolve configDir f).text
  else options.files.map fun f => (Path.resolve workingDir f).text

/-- Checks files; the result is the exit code. -/
def check (options : CheckOptions) : CommandT m Nat := do
  let workingDir ← CommandT.workingDir
  let configDir := Path.resolve workingDir options.configDir
  let config ← loadConfig configDir.text
  let paths := filesToCheck options workingDir configDir config
  if paths.isEmpty then
    CommandT.notify (.log (options.styling.apply .yellow
      "No files to check. Pass files or list them under 'sources' in basil.yml."))
    return 0
  else
    let files ← paths.mapM (checkFile options.styling options.json config.entry)
    let summary := checkSummary options.styling options.json files
    CommandT.notify summary
    let told := files.flatMap (·.notices options.styling options.json) ++ [summary]
    writeLog (Path.resolve configDir config.logDir).text (Notice.recorded told)
    return if 0 < totalProblems files ∧ config.failOnDiagnostics then 1 else 0

end Command

end ProcCheck
