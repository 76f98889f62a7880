import ProcCheck.Command.CommandLine
import Std.Time

/-!
# The program

The command line over the real files: a command runs in `IO`, which reads and writes files,
knows the time and prints notices.
-/

namespace ProcCheck

/-- The fault that a failed call met, if it is one that commands deal with. -/
def FileFault.ofError? : IO.Error → Option FileFault
  | .noFileOrDirectory .. => some .notFound
  | .alreadyExists .. => some .alreadyExists
  | .inappropriateType _ code _ => some (if code = 21 then .isDirectory else .notDirectory)
  | _ => none

/-- Makes a call on files; a fault that commands deal with is its result. -/
def FileError.attempt {α : Type} (call : FileCall) (path : Text) (act : IO α) :
    IO (Except FileError α) := do
  try
    return .ok (← act)
  catch e =>
    match FileFault.ofError? e with
    | some fault => return .error ⟨fault, call, some path⟩
    | none => throw e

instance : Host IO where
  workingDir := return Path.resolve [] (.ofString (← IO.currentDir).toString)
  now := do
    let moment := Std.Time.DateTime.ofTimestamp (← Std.Time.Timestamp.now) .UTC
    return .ofString (moment.format "uuuu-MM-dd'T'HH:mm:ss.SSS'Z'")
  readFile path := do
    match ← FileError.attempt .openFile path (IO.FS.readBinFile path.toString) with
    | .ok content => return .ok content.toList
    | .error e => return .error (if e.fault = .isDirectory then ⟨e.fault, .read, none⟩ else e)
  writeFile path content :=
    FileError.attempt .openFile path (IO.FS.writeBinFile path.toString ⟨content.toArray⟩)
  makeDir path := do
    match ← FileError.attempt .makeDir path (IO.FS.createDirAll path.toString) with
    | .ok () => return .ok ()
    | .error e =>
      let file ← FileError.attempt .openFile path (IO.FS.readBinFile path.toString)
      return .error { e with fault := if file.isOk then .alreadyExists else .notDirectory }
  loader := return Yaml.Value.ofText
  notify
    | ⟨.log, text⟩ => IO.println text.toString
    | ⟨.error, text⟩ => IO.eprintln text.toString

end ProcCheck

/-- Does what the arguments ask for. -/
def main (args : List String) : IO UInt32 := do
  let colour ← (← IO.getStdout).isTty
  let outcome ← ProcCheck.runCommandLine colour (args.map ProcCheck.Text.ofString)
  if let some complaint := outcome.complaint? then
    IO.eprintln complaint.toString
  return outcome.code.toUInt32
