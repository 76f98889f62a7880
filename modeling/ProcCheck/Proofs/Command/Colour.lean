import ProcCheck.Proofs.Command.LogOnly
import ProcCheck.Proofs.Report.Colour

/-!
# Checks in colours

Two checks that differ in their stylings only read the same files, tell the same but for control
sequences, and end in the same way, if both stylings keep their texts. As a log has no control
sequences, they leave the same files.
-/

namespace ProcCheck

open CommandT

/-! ## What is told -/

/-- A notice without control sequences. -/
def Notice.unstyled (n : Notice) : Notice := { n with text := n.text.unstyled }

theorem Notice.unstyled_log {t t' : Text} (same : t.unstyled = t'.unstyled) :
    (Notice.log t).unstyled = (Notice.log t').unstyled := congrArg Notice.log same

theorem Notice.unstyled_error {t t' : Text} (same : t.unstyled = t'.unstyled) :
    (Notice.error t).unstyled = (Notice.error t').unstyled := congrArg Notice.error same

theorem Notice.unstyled_recorded {notices notices' : List Notice}
    (same : notices.map Notice.unstyled = notices'.map Notice.unstyled) :
    (Notice.recorded notices).map Text.unstyled = (Notice.recorded notices').map Text.unstyled := by
  have texts := congrArg (List.map Notice.text) same
  simpa only [Notice.recorded, List.map_map, Function.comp_def, Notice.unstyled] using texts

variable {styling : Styling}

section Told

variable (keeps : styling.Keeps)

include keeps

theorem Styling.Keeps.unstyled_apply_plain (style : Style) (t : Text) :
    (styling.apply style t).unstyled = (plain.apply style t).unstyled :=
  keeps.unstyled_apply style t

/-- What is told about a file. -/
theorem CheckedFile.unstyled_notices (f : CheckedFile) (json : Bool) :
    (f.notices styling json).map Notice.unstyled = (f.notices .plain json).map Notice.unstyled := by
  have path := keeps.unstyled_apply_plain .underline f.path
  unfold CheckedFile.notices
  cases f.result with
  | error e =>
    have message : (e.render styling f.source).unstyled = (e.render .plain f.source).unstyled :=
      unstyled_renderError _ keeps f.source e.message []
    simp only [List.map_cons, List.map_nil, Notice.unstyled_error path,
      Notice.unstyled_error message]
  | ok symbols =>
    have fine := keeps.unstyled_apply_plain .gray (f.path ++ Text.ofString ": ok")
    have each (d : Diagnostic) : (Notice.log (d.render styling f.source)).unstyled =
        (Notice.log (d.render .plain f.source)).unstyled :=
      Notice.unstyled_log (d.unstyled_render keeps f.source)
    simp only
    split
    · rfl
    · split
      · rw [List.map_singleton, List.map_singleton, Notice.unstyled_log fine]
      · simp only [List.map_cons, List.map_map, Function.comp_def, Notice.unstyled_log path, each]

/-- The last notice of a check. -/
theorem unstyled_checkSummary (json : Bool) (files : List CheckedFile) :
    (checkSummary styling json files).unstyled = (checkSummary .plain json files).unstyled := by
  unfold checkSummary
  simp only
  split
  · rfl
  · split
    · exact Notice.unstyled_error (keeps.unstyled_apply_plain .red _)
    · exact Notice.unstyled_log (keeps.unstyled_apply_plain .green _)

end Told

/-! ## Runs -/

/-- A disk whose user sees no control sequences. -/
def Disk.unstyled (d : Disk) : Disk := { d with notices := d.notices.map Notice.unstyled }

theorem Disk.unstyled_tell {notices notices' : List Notice}
    (same : notices.map Notice.unstyled = notices'.map Notice.unstyled) (d : Disk) :
    (d.tell notices).unstyled = (d.tell notices').unstyled := by
  simp only [Disk.unstyled, Disk.tell, List.map_append, same]

/-- The same check in another styling. -/
def CheckOptions.inStyling (options : CheckOptions) (styling : Styling) : CheckOptions :=
  { options with styling }

namespace Command

theorem unstyled_told (keeps : styling.Keeps) (json : Bool) (entry : Text)
    (files : List StoredFile) : (told styling json entry files).map Notice.unstyled =
      (told .plain json entry files).map Notice.unstyled := by
  unfold told
  rw [List.map_flatMap, List.map_flatMap]
  exact List.flatMap_congr fun f _ => CheckedFile.unstyled_notices keeps _ json

theorem unstyled_report (keeps : styling.Keeps) (options : CheckOptions) (config : Config)
    (files : List StoredFile) :
    (report (options.inStyling styling) config files).map Notice.unstyled =
      (report (options.inStyling .plain) config files).map Notice.unstyled := by
  unfold report
  rw [List.map_append, List.map_append, List.map_singleton, List.map_singleton]
  exact congrArg₂ (· ++ [·]) (unstyled_told keeps options.json config.entry files)
    (unstyled_checkSummary keeps options.json _)

/-- Two logs of the same lines but for control sequences are the same log. -/
theorem unstyled_writeLog {notices notices' : List Notice}
    (same : notices.map Notice.unstyled = notices'.map Notice.unstyled) (dir : Text) (d : Disk) :
    Prod.map id Disk.unstyled (exec (writeLog dir (Notice.recorded notices)) (d.tell notices)) =
      Prod.map id Disk.unstyled
        (exec (writeLog dir (Notice.recorded notices')) (d.tell notices')) := by
  have text : logText d.now (Notice.recorded notices) = logText d.now (Notice.recorded notices') := by
    rw [logText_eq, logText_eq, List.map_cons, List.map_cons, Notice.unstyled_recorded same]
  have shown (d : Disk) := Disk.unstyled_tell same d
  cases made : d.tree.makeDir d.workingDir dir with
  | error e =>
    rw [exec_writeLog_refused (d := d.tell notices) made,
      exec_writeLog_refused (d := d.tell notices') made]
    exact congrArg (Except.error (CommandError.file e), ·) (shown d)
  | ok tree =>
    cases written : tree.write d.workingDir (Path.join dir "latest.txt")
        (logText d.now (Notice.recorded notices')).toUtf8 with
    | error e =>
      rw [exec_writeLog_unwritten (d := d.tell notices) made (text ▸ written),
        exec_writeLog_unwritten (d := d.tell notices') made written]
      exact congrArg (Except.error (CommandError.file e), ·) (shown { d with tree })
    | ok tree' =>
      rw [exec_writeLog_ok (d := d.tell notices) made (text ▸ written),
        exec_writeLog_ok (d := d.tell notices') made written]
      exact congrArg (Except.ok (), ·) (shown { d with tree := tree' })

/-- A check in colours does the same as one without. -/
theorem unstyled_check (keeps : styling.Keeps) (options : CheckOptions) (d : Disk) :
    Prod.map id Disk.unstyled (exec (check (options.inStyling styling)) d) =
      Prod.map id Disk.unstyled (exec (check (options.inStyling .plain)) d) := by
  cases course options d with
  | unconfigured e fails =>
    have run (styling : Styling) : exec (check (options.inStyling styling)) d = (.error e, d) :=
      exec_check_unconfigured fails
    rw [run, run]
  | nothing config configured nothing =>
    have run (styling : Styling) : exec (check (options.inStyling styling)) d =
        (.ok 0, d.tell [.log (styling.apply .yellow
          "No files to check. Pass files or list them under 'sources' in basil.yml.")]) :=
      exec_check_nothing configured nothing
    rw [run, run]
    refine congrArg (Except.ok 0, ·) (Disk.unstyled_tell ?_ d)
    rw [List.map_singleton, List.map_singleton,
      Notice.unstyled_log (keeps.unstyled_apply_plain .yellow _)]
  | unreadable config configured files stored path rest listed e fails =>
    have run (styling : Styling) : exec (check (options.inStyling styling)) d =
        (.error (.file e), d.tell (told styling options.json config.entry files)) := by
      have listed' : filesToCheck (options.inStyling styling) d.workingDir
          (configDir (options.inStyling styling) d) config = files.map (·.path) ++ path :: rest :=
        listed
      have configured' : d.config (configDir (options.inStyling styling) d).text = .ok config :=
        configured
      exact exec_check_unreadable configured' stored listed' fails
    rw [run, run]
    exact congrArg (Except.error (CommandError.file e), ·)
      (Disk.unstyled_tell (unstyled_told keeps options.json config.entry files) d)
  | readable config files checks =>
    -- The notices differ, but the log that is made of them must not.
    have inStyling (styling : Styling) : Checks (options.inStyling styling) d config files :=
      ⟨checks.configured, checks.listed, checks.some, checks.stored⟩
    have written := unstyled_writeLog (unstyled_report keeps options config files)
      (logDir options d config) d
    have apart (r : Except CommandError Unit × Disk) : Prod.map id Disk.unstyled
        (Prod.map (Except.map fun _ => exitCode config files) id r) =
          Prod.map (Except.map fun _ => exitCode config files) id
            (Prod.map id Disk.unstyled r) := rfl
    rw [exec_check_files (inStyling styling), exec_check_files (inStyling .plain), exec_bind_pure,
      exec_bind_pure, apart, apart]
    exact congrArg _ written

/-- Colours never change a text. Let one styling put control sequences around texts and their line
breaks, and another leave texts as they are. Without its control sequences a plain excerpt, error,
diagnostic or table of symbols in the one is the same as in the other. A check ends in the same way
in both, whatever reads its settings; it tells the same but for control sequences, and all files are
the same after it, the log among them. -/
theorem colours_keep_texts {coloured uncoloured : Styling} (wraps : coloured.Wraps)
    (off : uncoloured.IsOff) :
    (∀ s : Snippet, s.IsPlain → (s.render coloured).unstyled = s.render uncoloured) ∧
    (∀ (source message hint : Text) (location : Location), source.IsPlain → message.IsPlain →
      hint.IsPlain → (renderError coloured source message location hint).unstyled =
        renderError uncoloured source message location hint) ∧
    (∀ (e : SyntaxError) (source : Text), e.message.IsPlain → source.IsPlain →
      (e.render coloured source).unstyled = e.render uncoloured source) ∧
    (∀ (d : Diagnostic) (source : Text), d.message.IsPlain → source.IsPlain →
      (d.render coloured source).unstyled = d.render uncoloured source) ∧
    (∀ s : Symbols, s.IsPlain → (s.table coloured).map Text.unstyled = s.table uncoloured) ∧
    ∀ (options : CheckOptions) (d : Disk) {result result' : Except CommandError Nat} {d₁ d₂ : Disk},
      exec (check (options.inStyling coloured)) d = (result, d₁) →
      exec (check (options.inStyling uncoloured)) d = (result', d₂) →
      result = result' ∧ d₁.tree = d₂.tree ∧
        d₁.notices.map (·.unstyled) = d₂.notices.map (·.unstyled) := by
  obtain rfl := off.eq_plain
  have keeps := wraps.keeps
  refine ⟨fun s plain => Snippet.unstyled_render_plain plain keeps,
    fun source message hint location source' message' hint' =>
      unstyled_renderError_plain location source' message' hint' keeps,
    fun e source message plain =>
      unstyled_renderError_plain e.location plain message Text.isPlain_nil keeps,
    fun d source message plain => Diagnostic.unstyled_render_plain message plain keeps,
    fun s plain => plain.unstyled_table keeps, fun options d result result' d₁ d₂ run run' => ?_⟩
  have same := unstyled_check keeps options d
  rw [run, run'] at same
  have results : result = result' := congrArg Prod.fst same
  have disks : d₁.unstyled = d₂.unstyled := congrArg Prod.snd same
  have trees : d₁.unstyled.tree = d₂.unstyled.tree := by rw [disks]
  have told : d₁.unstyled.notices = d₂.unstyled.notices := by rw [disks]
  exact ⟨results, trees, told⟩

/-- A message over a source that looks like control sequences without escapes. -/
def sample : Snippet :=
  ⟨"Error:", "first\nsecond", ⟨1, 3, some 2⟩, "a[31m;", "9;m"⟩

/-- Symbols with an initial value that has an escape, which is shown between quotes. -/
def sampleSymbols : Symbols where
  globals := [⟨"g", .string, true, 1, some (.string [0x1B, '[', '1', 'm'])⟩]
  functions := [⟨"main", .void, 2, [], [], [⟨.whileLoop, 3, 4, "g[0;1m", 0⟩], .entry⟩]

theorem colours_keep_sample :
    Styling.terminal.Wraps ∧ Styling.plain.IsOff ∧
    sample.render .terminal ≠ sample.render .plain ∧
    (sample.render .terminal).unstyled = sample.render .plain ∧
    (renderError .terminal sample.source sample.message sample.location sample.hint).unstyled =
      renderError .plain sample.source sample.message sample.location sample.hint ∧
    ((⟨.unexpectedUnit '[', ⟨1, 1, none⟩⟩ : SyntaxError).render .terminal "[0m").unstyled =
      (⟨.unexpectedUnit '[', ⟨1, 1, none⟩⟩ : SyntaxError).render .plain "[0m" ∧
    ((⟨1, .undeclaredVariable "m"⟩ : Diagnostic).render .terminal "[0m").unstyled =
      (⟨1, .undeclaredVariable "m"⟩ : Diagnostic).render .plain "[0m" ∧
    (sampleSymbols.table .terminal).map Text.unstyled = sampleSymbols.table .plain ∧
    (exec (check (cleanCheck.inStyling .terminal)) mixedDisk).2.notices ≠
      (exec (check (cleanCheck.inStyling .plain)) mixedDisk).2.notices ∧
    (exec (check (cleanCheck.inStyling .terminal)) mixedDisk).2.tree =
      (exec (check (cleanCheck.inStyling .plain)) mixedDisk).2.tree := by
  have plain : sample.IsPlain := ⟨by decide, by decide, by decide, by decide⟩
  have symbols : sampleSymbols.IsPlain := by
    refine ⟨List.forall_mem_singleton.2 ?_, List.forall_mem_singleton.2 ?_⟩
    · unfold Variable.IsPlain
      decide
    · refine ⟨by decide, nofun, nofun, List.forall_mem_singleton.2 ?_⟩
      unfold ControlStructure.IsPlain
      decide
  obtain ⟨snippet, error, syntaxError, diagnostic, table, runs⟩ :=
    colours_keep_texts Styling.terminal_wraps Styling.plain_isOff
  refine ⟨Styling.terminal_wraps, Styling.plain_isOff, by decide +kernel, snippet _ plain,
    error _ _ _ _ plain.source plain.message plain.hint,
    syntaxError _ _ (by decide) (by decide), diagnostic _ _ (by decide) (by decide),
    table _ symbols, by decide +kernel, ?_⟩
  obtain ⟨-, trees, -⟩ := runs cleanCheck mixedDisk rfl rfl
  exact trees

end Command

end ProcCheck
