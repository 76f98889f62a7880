import ProcCheck.Command.Host
import ProcCheck.Report.Table
import ProcCheck.Report.Snippet

/-!
# Showing symbols

The table of a file's symbols, with a hint if the file has diagnostics.
-/

namespace ProcCheck.Command

/-- What is told about the symbols of a file. -/
def symbolNotices (styling : Styling) (file : Text) (symbols : Symbols) : List Notice :=
  (symbols.table styling).map .log ++
    if symbols.diagnostics.isEmpty then []
    else [.log (styling.apply .yellow (.lineFeed ::
      (Text.ofNat symbols.diagnostics.length ++ " diagnostics; run 'basil check " ++ file ++
        "' for details.")))]

/-- Shows the symbols of a file; the result is the exit code. -/
def symbols {m : Type → Type} [Monad m] [Host m] (styling : Styling) (file configDir : Text) :
    CommandT m Nat := do
  let config ← loadConfig (Path.resolve (← CommandT.workingDir) configDir).text
  let source ← CommandT.readText file
  match source.symbols config.entry with
  | .ok found =>
    (symbolNotices styling file found).forM CommandT.notify
    return 0
  | .error (.refused e) =>
    CommandT.notify (.error (e.render styling source))
    return 1
  | .error (.aborted abort) => throw (.aborted abort)

end ProcCheck.Command
