import ProcCheck.Proofs.Command.Segments
import ProcCheck.Proofs.Files.Tree
import ProcCheck.Proofs.Report.Unstyled

/-!
# What a check changes

A check changes no files before all of them have been read and told about. Then it writes its log:
the directories above it that are missing are made, and all else stays as it is, also where the
log cannot be written. This holds on every disk, hence for every loader of settings.
-/

namespace ProcCheck

open CommandT

/-- A log has the date and the told lines, each without control sequences, and ends with a line
feed. -/
theorem logText_eq (now : Text) (lines : List Text) : logText now lines =
    Text.join [.lineFeed] ((("Date: " ++ now) :: lines).map Text.unstyled) ++ [.lineFeed] := by
  rw [logText, Text.unstyled_join]

namespace Command

/-- The name of a log. -/
def logName : Text := "latest.txt"

/-- The file that the log of a check is written into. -/
def logFile (options : CheckOptions) (d : Disk) (config : Config) : Path :=
  Path.resolve (configDir options d) config.logDir ++ [logName]

theorem isName_logName : Path.IsName logName :=
  ⟨⟨by decide, by decide⟩, by decide, by decide⟩

variable {d d' : Disk}

/-- Writing a log changes only the log, and the log has the told lines when that succeeds. -/
theorem changesOnly_writeLog {dir : Path} (normal : Path.IsNormal dir) {lines : List Text}
    {result : Except CommandError Unit}
    (run : exec (writeLog (Path.text dir) lines) d = (result, d')) :
    d'.notices = d.notices ∧ d.tree.ChangesOnly d'.tree (dir ++ [logName]) ∧
      (result.isOk → d'.tree.find? (dir ++ [logName]) =
        some (.file (logText d.now lines).toUtf8)) := by
  have start : d.tree.makeDir d.workingDir (Path.text dir) =
      (d.tree.makeDirs [] dir).mapError fun fault => ⟨fault, .makeDir, some (Path.text dir)⟩ := by
    rw [FileTree.makeDir, Path.resolve_text normal]
  cases made : d.tree.makeDirs [] dir with
  | error fault =>
    rw [made] at start
    rw [exec_writeLog_refused start] at run
    cases run
    exact ⟨rfl, .refl _ _, nofun⟩
  | ok tree =>
    rw [made] at start
    have change := FileTree.changesOnly_makeDirs made logName
    have directories : ∀ way, way <+: dir → tree.find? way = some .directory :=
      fun way onTheWay => FileTree.isDirectory_makeDirs made rfl onTheWay
    have write := FileTree.write_text normal isName_logName directories d.workingDir
      (logText d.now lines).toUtf8
    split at write
    next occupied =>
      rw [exec_writeLog_unwritten start write] at run
      cases run
      exact ⟨rfl, change, nofun⟩
    next free =>
      rw [exec_writeLog_ok start write] at run
      cases run
      refine ⟨rfl, change.put _ free, fun _ => ?_⟩
      rw [FileTree.find?_put _ _ (by simp), if_pos rfl]

variable {options : CheckOptions} {config : Config}

/-- The check of files that can be read changes only its log. -/
theorem changesOnly_check (normal : Path.IsNormal d.workingDir) {files : List StoredFile}
    (checks : Checks options d config files) {result : Except CommandError Nat}
    (run : exec (check options) d = (result, d')) :
    d'.notices = d.notices ++ report options config files ∧
      d.tree.ChangesOnly d'.tree (logFile options d config) ∧
      (result.isOk → d'.tree.find? (logFile options d config) =
        some (.file (logText d.now (Notice.recorded (report options config files))).toUtf8)) := by
  rw [exec_check_files checks, exec_bind] at run
  have normalLog : Path.IsNormal (Path.resolve (configDir options d) config.logDir) :=
    (normal.resolve options.configDir).resolve config.logDir
  cases written : exec (writeLog (logDir options d config)
      (Notice.recorded (report options config files))) (d.tell (report options config files)) with
  | mk outcome d'' =>
    obtain ⟨notices, change, content⟩ := changesOnly_writeLog normalLog written
    rw [written] at run
    cases outcome with
    | error e =>
      cases run
      exact ⟨notices, change, nofun⟩
    | ok u =>
      cases run
      exact ⟨notices, change, fun _ => content rfl⟩

/-- A check changes only its log. Without settings, without files, or with a file that cannot be
read, it changes nothing. Otherwise only the log and missing directories above it may change, and
when the check returns, the log has the date and all lines that were told, in order and without
control sequences. -/
theorem check_changesOnly_log (normal : Path.IsNormal d.workingDir)
    {result : Except CommandError Nat} (run : exec (check options) d = (result, d')) :
    (∀ e, d.config (configDir options d).text = .error e → d'.tree = d.tree) ∧
    ∀ config, d.config (configDir options d).text = .ok config →
      let paths := filesToCheck options d.workingDir (configDir options d) config
      (paths = [] → d'.tree = d.tree) ∧
      (∀ path ∈ paths, ∀ e, d.tree.read d.workingDir path = .error e → d'.tree = d.tree) ∧
      d.tree.ChangesOnly d'.tree (logFile options d config) ∧
      (paths ≠ [] → ∀ code, result = .ok code → ∃ told, d'.notices = d.notices ++ told ∧
        d'.tree.find? (logFile options d config) = some (.file (Text.toUtf8 <|
          Text.join [.lineFeed] ((("Date: " ++ d.now) :: told.map (·.text)).map Text.unstyled) ++
            [.lineFeed]))) := by
  cases course options d with
  | unconfigured e fails =>
    rw [exec_check_unconfigured fails] at run
    cases run
    refine ⟨fun _ _ => rfl, fun config configured => ?_⟩
    rw [fails] at configured
    cases configured
  | nothing config configured nothing =>
    rw [exec_check_nothing configured nothing] at run
    cases run
    refine ⟨fun _ _ => rfl, fun config' configured' => ?_⟩
    obtain rfl : config = config' := Except.ok.inj (configured.symm.trans configured')
    exact ⟨fun _ => rfl, fun _ _ _ _ => rfl, .refl _ _, fun some => absurd nothing some⟩
  | unreadable config configured files stored path rest listed e fails =>
    -- The log is written behind the last file, so a file that cannot be read comes before it.
    rw [exec_check_unreadable configured stored listed fails] at run
    cases run
    exact ⟨fun _ _ => rfl, fun config' configured' =>
      ⟨fun _ => rfl, fun _ _ _ _ => rfl, .refl _ _, fun _ => nofun⟩⟩
  | readable config files checks =>
    obtain ⟨notices, change, content⟩ := changesOnly_check normal checks run
    refine ⟨fun e fails => ?_, fun config' configured' => ?_⟩
    · rw [checks.configured] at fails
      cases fails
    obtain rfl : config = config' := Except.ok.inj (checks.configured.symm.trans configured')
    simp only [checks.listed]
    refine ⟨fun none => ?_, fun path member e fails => ?_, change, fun _ code returned => ?_⟩
    · exact absurd (List.map_eq_nil_iff.1 none) checks.some
    · obtain ⟨f, isFile, rfl⟩ := List.mem_map.1 member
      rw [checks.stored f isFile] at fails
      cases fails
    · refine ⟨_, notices, ?_⟩
      rw [content (by rw [returned]; rfl), logText_eq, Notice.recorded]

/-- A check in colours of the clean file alone. -/
def cleanCheck : CheckOptions := { files := ["b.proc"], configDir := ".", styling := .terminal }

theorem clean_log : ∃ d', exec (check cleanCheck) mixedDisk = (.ok 0, d') ∧
    mixedDisk.tree.ChangesOnly d'.tree (logFile cleanCheck mixedDisk mixedConfig) ∧
    d'.tree.find? (["w", "log", "latest.txt"].map Text.ofString) =
      some (.file (Text.toUtf8 "Date: today\n/w/b.proc: ok\n\nNo problems found in 1 file.\n")) := by
  have configured : mixedDisk.config (configDir cleanCheck mixedDisk).text = .ok mixedConfig := by
    decide +kernel
  have normal : Path.IsNormal mixedDisk.workingDir := by
    intro name member
    rw [List.mem_singleton.1 member]
    exact ⟨⟨by decide, by decide⟩, by decide, by decide⟩
  have code : (exec (check cleanCheck) mixedDisk).1 = .ok 0 := by decide +kernel
  have lines : ((exec (check cleanCheck) mixedDisk).2.notices.map (·.text)).map Text.unstyled =
      [Text.ofString "/w/b.proc: ok", Text.ofString "\nNo problems found in 1 file."] := by
    decide +kernel
  cases run : exec (check cleanCheck) mixedDisk with
  | mk result d' =>
    rw [run] at code lines
    cases code
    obtain ⟨-, -, change, content⟩ := (check_changesOnly_log normal run).2 mixedConfig configured
    obtain ⟨told, notices, log⟩ := content (by decide +kernel) 0 rfl
    have fresh : mixedDisk.notices = [] := rfl
    rw [fresh, List.nil_append] at notices
    rw [List.map_cons, ← notices, lines] at log
    refine ⟨d', rfl, change, log.trans ?_⟩
    decide +kernel

end Command

end ProcCheck
