import ProcCheck.Command.Check
import ProcCheck.Proofs.Analysis.Safety

/-!
# Runs of a check on a disk

`CommandT.exec` runs a command on a disk. Equations give what the pieces of a check return and the
disk that they leave: the settings and the files are only read, notices are added at the end, and
the log is written last. So a check takes one of four courses (`Command.course`), with one equation
for each of them.
-/

namespace ProcCheck

/-! ## Disks -/

namespace Disk

/-- The disk whose user was told more. -/
def tell (d : Disk) (notices : List Notice) : Disk := { d with notices := d.notices ++ notices }

variable (d : Disk) (notices more : List Notice)

@[simp] theorem tell_nil : d.tell [] = d := by
  rw [tell, List.append_nil]

@[simp] theorem tell_tell : (d.tell notices).tell more = d.tell (notices ++ more) := by
  rw [tell, tell, tell, List.append_assoc]

end Disk

/-- A path and the content of the file that it leads to. -/
structure StoredFile where
  path : Text
  content : Bytes

/-- A path leads to a file of that content on a disk. -/
def Disk.Stores (d : Disk) (f : StoredFile) : Prop :=
  d.tree.read d.workingDir f.path = .ok f.content

/-- All paths of a list lead to files, or there is a first one that does not. -/
theorem Disk.stored_or_not (d : Disk) (paths : List Text) :
    (∃ files : List StoredFile, paths = files.map (·.path) ∧ ∀ f ∈ files, d.Stores f) ∨
      ∃ (files : List StoredFile) (path : Text) (rest : List Text) (e : FileError),
        paths = files.map (·.path) ++ path :: rest ∧ (∀ f ∈ files, d.Stores f) ∧
          d.tree.read d.workingDir path = .error e := by
  induction paths with
  | nil => exact .inl ⟨[], rfl, by simp⟩
  | cons path paths ih =>
    cases found : d.tree.read d.workingDir path with
    | error e => exact .inr ⟨[], path, paths, e, rfl, by simp, found⟩
    | ok content =>
      have first : d.Stores ⟨path, content⟩ := found
      rcases ih with ⟨files, rfl, stored⟩ | ⟨files, unread, rest, e, rfl, stored, fails⟩
      · exact .inl ⟨⟨path, content⟩ :: files, rfl, List.forall_mem_cons.2 ⟨first, stored⟩⟩
      · exact .inr ⟨⟨path, content⟩ :: files, unread, rest, e, rfl,
          List.forall_mem_cons.2 ⟨first, stored⟩, fails⟩

/-! ## Pieces of commands -/

namespace CommandT

variable {α β : Type} {d d' : Disk}

/-- What a command gives on a disk, and the disk that it leaves. -/
def exec (act : CommandT (StateM Disk) α) (d : Disk) : Except CommandError α × Disk :=
  act.run.run d

@[simp] theorem exec_pure (a : α) (d : Disk) :
    exec (pure a : CommandT (StateM Disk) α) d = (.ok a, d) := rfl

theorem exec_bind (x : CommandT (StateM Disk) α) (f : α → CommandT (StateM Disk) β) (d : Disk) :
    exec (x >>= f) d =
      match exec x d with
      | (.ok a, d') => exec (f a) d'
      | (.error e, d') => (.error e, d') := by
  unfold exec ExceptT.run StateT.run
  simp only [bind, ExceptT.bind, ExceptT.mk, StateT.bind, ExceptT.bindCont]
  rcases x d with ⟨_ | a, d'⟩ <;> rfl

theorem exec_bind_ok {x : CommandT (StateM Disk) α} {a : α} (run : exec x d = (.ok a, d'))
    (f : α → CommandT (StateM Disk) β) : exec (x >>= f) d = exec (f a) d' := by
  rw [exec_bind, run]

theorem exec_bind_error {x : CommandT (StateM Disk) α} {e : CommandError}
    (run : exec x d = (.error e, d')) (f : α → CommandT (StateM Disk) β) :
    exec (x >>= f) d = (.error e, d') := by
  rw [exec_bind, run]

/-- Returning something else changes neither the disk nor a failure. -/
theorem exec_bind_pure (x : CommandT (StateM Disk) α) (b : β) (d : Disk) :
    exec (x >>= fun _ => pure b) d = Prod.map (Except.map fun _ => b) id (exec x d) := by
  rw [exec_bind]
  rcases exec x d with ⟨_ | a, d'⟩ <;> rfl

theorem exec_workingDir (d : Disk) :
    exec (workingDir : CommandT (StateM Disk) Path) d = (.ok d.workingDir, d) := rfl

theorem exec_notify (n : Notice) (d : Disk) :
    exec (notify n : CommandT (StateM Disk) Unit) d = (.ok (), d.tell [n]) := rfl

theorem exec_notifyAll (notices : List Notice) (d : Disk) :
    exec (notices.forM notify : CommandT (StateM Disk) PUnit) d = (.ok (), d.tell notices) := by
  induction notices generalizing d with
  | nil => simp [List.forM_nil]
  | cons n notices ih =>
    change exec (notify n >>= fun _ => notices.forM notify) d = _
    rw [exec_bind_ok (exec_notify n d), ih, Disk.tell_tell]
    rfl

/-- An operation on files that succeeds returns what it returns. -/
theorem exec_ofFile_ok {act : StateM Disk (Except FileError α)} {a : α}
    (run : act.run d = (.ok a, d')) : exec (ofFile act) d = (.ok a, d') := by
  have start : exec (act : CommandT (StateM Disk) (Except FileError α)) d = (.ok (.ok a), d') :=
    congrArg (fun r => (Except.ok r.1, r.2)) run
  rw [ofFile, exec_bind_ok start, exec_pure]

/-- An operation on files that fails makes the command fail. -/
theorem exec_ofFile_error {act : StateM Disk (Except FileError α)} {e : FileError}
    (run : act.run d = (.error e, d')) : exec (ofFile act) d = (.error (.file e), d') := by
  have start : exec (act : CommandT (StateM Disk) (Except FileError α)) d = (.ok (.error e), d') :=
    congrArg (fun r => (Except.ok r.1, r.2)) run
  rw [ofFile, exec_bind_ok start]
  rfl

theorem exec_readText {path : Text} {content : Bytes} (stored : d.Stores ⟨path, content⟩) :
    exec (readText path : CommandT (StateM Disk) Text) d = (.ok (.ofUtf8 content), d) := by
  have found : (Host.readFile path : StateM Disk _).run d = (.ok content, d) :=
    congrArg (·, d) stored
  rw [readText, exec_bind_ok (exec_ofFile_ok found), exec_pure]

theorem exec_readText_error {path : Text} {e : FileError}
    (fails : d.tree.read d.workingDir path = .error e) :
    exec (readText path : CommandT (StateM Disk) Text) d = (.error (.file e), d) := by
  have found : (Host.readFile path : StateM Disk _).run d = (.error e, d) :=
    congrArg (·, d) fails
  rw [readText, exec_bind_error (exec_ofFile_error found)]

end CommandT

/-! ## Settings -/

/-- The settings in a directory of a disk, or why there are none. -/
def Disk.config (d : Disk) (dir : Text) : Except CommandError Config :=
  (CommandT.exec (loadConfig dir) d).1

open CommandT

/-- Settings are read and nothing is changed. -/
theorem exec_loadConfig (dir : Text) (d : Disk) :
    exec (loadConfig dir) d = (d.config dir, d) := by
  refine Prod.ext rfl ?_
  have start : exec (Host.readFile (Path.join dir configFile) : StateM Disk _) d =
      (.ok (d.tree.read d.workingDir (Path.join dir configFile)), d) := rfl
  rw [loadConfig, exec_bind_ok start]
  cases d.tree.read d.workingDir (Path.join dir configFile) with
  | error e =>
    simp only
    split <;> rfl
  | ok bytes =>
    have loaded : exec (Host.loader : StateM Disk Yaml.Loader) d = (.ok d.load, d) := rfl
    simp only
    rw [exec_bind_ok loaded]
    split <;> rfl

/-! ## Files -/

/-- No analysis of a source is cut short. -/
theorem Text.symbols_ne_aborted (source entry : Text) (abort : Abort) :
    source.symbols entry ≠ .error (.aborted abort) := by
  rw [Text.symbols]
  cases read : source.program with
  | error e => simp
  | ok p =>
    obtain ⟨symbols, returned⟩ :=
      Program.symbols_returns (canonical_of_program read).isKnown entry
    simp [returned]

/-- The symbols of a source, or its syntax error. -/
def Text.outcome (source entry : Text) : Except SyntaxError Symbols :=
  match found : source.symbols entry with
  | .ok symbols => .ok symbols
  | .error (.refused e) => .error e
  | .error (.aborted abort) => absurd found (source.symbols_ne_aborted entry abort)

theorem Text.symbols_eq (source entry : Text) :
    source.symbols entry = (source.outcome entry).mapError .refused := by
  unfold outcome
  split
  next symbols found => exact found
  next e found => exact found
  next abort found => exact absurd found (source.symbols_ne_aborted entry abort)

/-- A stored file with what its analysis gives. -/
def StoredFile.checked (entry : Text) (f : StoredFile) : CheckedFile :=
  ⟨f.path, .ofUtf8 f.content, (Text.ofUtf8 f.content).outcome entry⟩

namespace Command

variable {d : Disk} {styling : Styling} {json : Bool} {entry : Text}

theorem exec_analyseFile {f : StoredFile} (stored : d.Stores f) :
    exec (analyseFile entry f.path) d = (.ok (f.checked entry), d) := by
  rw [analyseFile, exec_bind_ok (exec_readText stored), Text.symbols_eq, StoredFile.checked]
  cases (Text.ofUtf8 f.content).outcome entry <;> rfl

/-- A file that can be read is told about, and nothing else is changed. -/
theorem exec_checkFile {f : StoredFile} (stored : d.Stores f) :
    exec (checkFile styling json entry f.path) d =
      (.ok (f.checked entry), d.tell ((f.checked entry).notices styling json)) := by
  rw [checkFile, exec_bind_ok (exec_analyseFile stored), exec_bind_ok (exec_notifyAll _ d)]
  rfl

theorem exec_checkFile_error {path : Text} {e : FileError}
    (fails : d.tree.read d.workingDir path = .error e) :
    exec (checkFile styling json entry path) d = (.error (.file e), d) := by
  rw [checkFile, analyseFile, exec_bind_error (exec_bind_error (exec_readText_error fails) _)]

/-- What is told about files, one after the other. -/
def told (styling : Styling) (json : Bool) (entry : Text) (files : List StoredFile) : List Notice :=
  files.flatMap fun f => (f.checked entry).notices styling json

theorem exec_checkFiles {files : List StoredFile} (stored : ∀ f ∈ files, d.Stores f) :
    exec ((files.map (·.path)).mapM (checkFile styling json entry)) d =
      (.ok (files.map (·.checked entry)), d.tell (told styling json entry files)) := by
  induction files generalizing d with
  | nil => simp [told]
  | cons f files ih =>
    -- What was told about the first file does not change what the others lead to.
    obtain ⟨first, others⟩ := List.forall_mem_cons.1 stored
    have later := ih (d := d.tell ((f.checked entry).notices styling json)) others
    rw [List.map_cons, List.mapM_cons, exec_bind_ok (exec_checkFile first), exec_bind_ok later,
      exec_pure, Disk.tell_tell]
    rfl

/-- Files are told about up to the first that cannot be read. -/
theorem exec_checkFiles_error {files : List StoredFile} (stored : ∀ f ∈ files, d.Stores f)
    {path : Text} {e : FileError} (fails : d.tree.read d.workingDir path = .error e)
    (rest : List Text) :
    exec ((files.map (·.path) ++ path :: rest).mapM (checkFile styling json entry)) d =
      (.error (.file e), d.tell (told styling json entry files)) := by
  induction files generalizing d with
  | nil =>
    rw [List.map_nil, List.nil_append, List.mapM_cons, exec_bind_error (exec_checkFile_error fails)]
    simp [told]
  | cons f files ih =>
    obtain ⟨first, others⟩ := List.forall_mem_cons.1 stored
    have later := ih (d := d.tell ((f.checked entry).notices styling json)) others fails
    rw [List.map_cons, List.cons_append, List.mapM_cons, exec_bind_ok (exec_checkFile first),
      exec_bind_error later, Disk.tell_tell]
    rfl

/-! ## The log -/

section Log

variable {dir : Text} {lines : List Text} {tree tree' : FileTree} {e : FileError}

theorem run_makeDir (dir : Text) : (Host.makeDir dir : StateM Disk _).run d =
    match d.tree.makeDir d.workingDir dir with
    | .ok tree => (.ok (), { d with tree })
    | .error e => (.error e, d) := rfl

/-- Without its directory the log is not written. -/
theorem exec_writeLog_refused (fails : d.tree.makeDir d.workingDir dir = .error e) :
    exec (writeLog dir lines) d = (.error (.file e), d) := by
  have run := run_makeDir (d := d) dir
  rw [fails] at run
  rw [writeLog, exec_bind_error (exec_ofFile_error run)]

/-- With its directory made the log is written into it. -/
theorem exec_writeLog_made (made : d.tree.makeDir d.workingDir dir = .ok tree) :
    exec (writeLog dir lines) d =
      exec (CommandT.ofFile (Host.writeFile (Path.join dir "latest.txt")
        (logText d.now lines).toUtf8 : StateM Disk _)) { d with tree } := by
  have run := run_makeDir (d := d) dir
  rw [made] at run
  have now : exec (Host.now : StateM Disk Text) { d with tree } = (.ok d.now, { d with tree }) := rfl
  rw [writeLog, exec_bind_ok (exec_ofFile_ok run), exec_bind_ok now]

theorem exec_writeLog_unwritten (made : d.tree.makeDir d.workingDir dir = .ok tree)
    (fails : tree.write d.workingDir (Path.join dir "latest.txt") (logText d.now lines).toUtf8 =
      .error e) :
    exec (writeLog dir lines) d = (.error (.file e), { d with tree }) := by
  rw [exec_writeLog_made made]
  refine exec_ofFile_error ?_
  change (match tree.write d.workingDir _ _ with
    | .ok tree => (Except.ok (), { d with tree })
    | .error e => (.error e, { d with tree })) = _
  rw [fails]

theorem exec_writeLog_ok (made : d.tree.makeDir d.workingDir dir = .ok tree)
    (written : tree.write d.workingDir (Path.join dir "latest.txt") (logText d.now lines).toUtf8 =
      .ok tree') :
    exec (writeLog dir lines) d = (.ok (), { d with tree := tree' }) := by
  rw [exec_writeLog_made made]
  refine exec_ofFile_ok ?_
  change (match tree.write d.workingDir _ _ with
    | .ok tree => (Except.ok (), { d with tree })
    | .error e => (.error e, { d with tree })) = _
  rw [written]

end Log

/-! ## Checks -/

/-- The directory that the settings of a check stand in. -/
def configDir (options : CheckOptions) (d : Disk) : Path :=
  Path.resolve d.workingDir options.configDir

/-- The directory that a check writes its log into. -/
def logDir (options : CheckOptions) (d : Disk) (config : Config) : Text :=
  (Path.resolve (configDir options d) config.logDir).text

/-- A check has settings, and at least one file; all of its files can be read. -/
structure Checks (options : CheckOptions) (d : Disk) (config : Config) (files : List StoredFile) :
    Prop where
  configured : d.config (configDir options d).text = .ok config
  listed : filesToCheck options d.workingDir (configDir options d) config = files.map (·.path)
  some : files ≠ []
  stored : ∀ f ∈ files, d.Stores f

/-- How a check goes, by what is on the disk. -/
inductive Course (options : CheckOptions) (d : Disk) : Prop where
  | unconfigured (e : CommandError) (fails : d.config (configDir options d).text = .error e)
  | nothing (config : Config) (configured : d.config (configDir options d).text = .ok config)
      (nothing : filesToCheck options d.workingDir (configDir options d) config = [])
  | unreadable (config : Config) (configured : d.config (configDir options d).text = .ok config)
      (files : List StoredFile) (stored : ∀ f ∈ files, d.Stores f) (path : Text) (rest : List Text)
      (listed : filesToCheck options d.workingDir (configDir options d) config =
        files.map (·.path) ++ path :: rest)
      (e : FileError) (fails : d.tree.read d.workingDir path = .error e)
  | readable (config : Config) (files : List StoredFile) (checks : Checks options d config files)

theorem course (options : CheckOptions) (d : Disk) : Course options d := by
  cases configured : d.config (configDir options d).text with
  | error e => exact .unconfigured e configured
  | ok config =>
    rcases d.stored_or_not (filesToCheck options d.workingDir (configDir options d) config) with
      ⟨files, listed, stored⟩ | ⟨files, path, rest, e, listed, stored, fails⟩
    · by_cases nothing : files = []
      · rw [nothing, List.map_nil] at listed
        exact .nothing config configured listed
      · exact .readable config files ⟨configured, listed, nothing, stored⟩
    · exact .unreadable config configured files stored path rest listed e fails

/-- All that a check of files tells: about each of them, and the summary. -/
def report (options : CheckOptions) (config : Config) (files : List StoredFile) : List Notice :=
  told options.styling options.json config.entry files ++
    [checkSummary options.styling options.json (files.map (·.checked config.entry))]

/-- The exit code of a check of files. -/
def exitCode (config : Config) (files : List StoredFile) : Nat :=
  if 0 < totalProblems (files.map (·.checked config.entry)) ∧ config.failOnDiagnostics then 1
  else 0

variable {options : CheckOptions} {config : Config}

/-- Without settings nothing is checked. -/
theorem exec_check_unconfigured {e : CommandError}
    (fails : d.config (configDir options d).text = .error e) :
    exec (check options) d = (.error e, d) := by
  have run := exec_loadConfig (configDir options d).text d
  rw [fails] at run
  rw [check, exec_bind_ok (exec_workingDir d)]
  exact exec_bind_error run _

/-- Without files nothing is checked, and the user is told so. -/
theorem exec_check_nothing (configured : d.config (configDir options d).text = .ok config)
    (nothing : filesToCheck options d.workingDir (configDir options d) config = []) :
    exec (check options) d = (.ok 0, d.tell [.log (options.styling.apply .yellow
      "No files to check. Pass files or list them under 'sources' in basil.yml.")]) := by
  have run := exec_loadConfig (configDir options d).text d
  rw [configured] at run
  rw [check, exec_bind_ok (exec_workingDir d)]
  refine (exec_bind_ok run _).trans ?_
  simp only [configDir] at nothing
  simp only [nothing, List.isEmpty_nil, if_true]
  rfl

/-- The check of a file that cannot be read ends there. -/
theorem exec_check_unreadable (configured : d.config (configDir options d).text = .ok config)
    {files : List StoredFile} (stored : ∀ f ∈ files, d.Stores f) {path : Text} {rest : List Text}
    (listed : filesToCheck options d.workingDir (configDir options d) config =
      files.map (·.path) ++ path :: rest)
    {e : FileError} (fails : d.tree.read d.workingDir path = .error e) :
    exec (check options) d =
      (.error (.file e), d.tell (told options.styling options.json config.entry files)) := by
  have run := exec_loadConfig (configDir options d).text d
  rw [configured] at run
  rw [check, exec_bind_ok (exec_workingDir d)]
  refine (exec_bind_ok run _).trans ?_
  have some : (files.map (·.path) ++ path :: rest).isEmpty = false := by simp
  simp only [configDir] at listed
  simp only [listed, some, Bool.false_eq_true, if_false]
  exact exec_bind_error (exec_checkFiles_error stored fails rest) _

/-- The check of files that can be read tells about them, writes the log and returns the exit
code, if the log can be written. -/
theorem exec_check_files {files : List StoredFile} (checks : Checks options d config files) :
    exec (check options) d =
      exec (do
        writeLog (logDir options d config) (Notice.recorded (report options config files))
        return exitCode config files) (d.tell (report options config files)) := by
  have run := exec_loadConfig (configDir options d).text d
  rw [checks.configured] at run
  rw [check, exec_bind_ok (exec_workingDir d)]
  refine (exec_bind_ok run _).trans ?_
  have other : (files.map (·.path)).isEmpty = false := by simpa using checks.some
  have listed := checks.listed
  simp only [configDir] at listed
  simp only [listed, other, Bool.false_eq_true, if_false]
  rw [exec_bind_ok (exec_checkFiles checks.stored), exec_bind_ok (exec_notify _ _), Disk.tell_tell]
  simp only [List.flatMap_map]
  rfl

end Command

end ProcCheck
