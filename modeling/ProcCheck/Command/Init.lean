import ProcCheck.Command.Host
import ProcCheck.Report.Style

/-!
# Starting a project

A new project has a directory with settings and a small program.
-/

namespace ProcCheck.Command

/-- The lines of a text, each closed by a line feed. -/
def closedLines (lines : List Text) : Text := lines.flatMap (· ++ [.lineFeed])

/-- What version control leaves out. -/
def initialIgnore : Text := closedLines [".basil"]

/-- The settings of a new project. -/
def initialConfig : Text :=
  closedLines ["entry: main", "sources:", "  - app.bsl", "logDir: .basil/logs",
    "failOnDiagnostics: true"]

/-- The program of a new project. -/
def initialProgram : Text :=
  closedLines
    ["// Sum of squares below a limit",
      "int limit = 10;",
      "",
      "int square(int n) \x7b",
      "    return n * n;",
      "\x7d",
      "",
      "int main() \x7b",
      "    int total = 0;",
      "    for (int i = 0; i < limit; i = i + 1) \x7b",
      "        total = total + square(i);",
      "    \x7d",
      "    return total;",
      "\x7d"]

variable {m : Type → Type} [Monad m] [Host m]

/-- Makes the directory and the files of a new project, telling about each. -/
def createProject (styling : Styling) (name : Text) : CommandT m Unit := do
  let dir := (Path.resolve (← CommandT.workingDir) name).text
  let file (fileName content : Text) : CommandT m Unit := do
    CommandT.ofFile (Host.writeFile (Path.join dir fileName) content.toUtf8 : m _)
    CommandT.notify (.log (styling.apply .gray ("Created " ++ name ++ "/" ++ fileName)))
  CommandT.ofFile (Host.makeDir dir : m _)
  CommandT.notify (.log (styling.apply .green ("Created directory " ++ name ++ "/")))
  file ".gitignore" initialIgnore
  file configFile initialConfig
  file "app.bsl" initialProgram
  CommandT.notify (.log (styling.apply .green (.lineFeed ::
    ("Project '" ++ name ++ "' initialized successfully!"))))
  CommandT.notify (.log (styling.apply .white ("Check with: basil check --config " ++ name)))

/-- Starts a project; the result is the exit code. A failure is told and not passed on. -/
def init (styling : Styling) (name : Text) : CommandT m Nat := do
  try
    createProject styling name
    return 0
  catch
    | .file e =>
      CommandT.notify (.error (styling.apply .red
        ("Failed to initialize project: " ++ e.message)))
      return 1
    | e => throw e

end ProcCheck.Command
