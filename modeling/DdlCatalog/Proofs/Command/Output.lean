import DdlCatalog.Command.Directory
import Mathlib.Tactic.Common

/-!
# What a run prints

A run in a directory reads its settings and then its script, and either may use up the standard input.  What it
prints is what the load of the script leaves, and nothing if there is no such load.

* `Directory.settings?`, `Directory.script?` — the settings and the script of a run, told from the directory;
* `Directory.Loads` — a run has both, and its load comes to an end;
* `run_readSettings_of_some`, `run_readScript` : what the two reads give and what they leave of the standard input;
* `reportOf_of_ok`, `reportOf_of_error` : what the report on a load shows;
* `run_execute_of_terminal` : a terminal is not read unless it is asked for;
* `run_output` : what a run prints and its exit code.
-/

namespace DdlCatalog.Command

namespace Directory

/-! ### What is read -/

/-- The text of a file, where `left` is left of the standard input. -/
def text? (d : Directory) (path : String) (left : ByteArray) : Option String :=
  ((d.text path).run left).1.toOption

/-- The settings that the text of a file gives. -/
def settingsOf? (text : Option String) : Option Settings :=
  text.bind fun text => (Settings.ofToml text).toOption

/-- The settings of a run.  There are none if the file that the invocation names cannot be read or understood; the
user's own file may be missing or wrong. -/
def settings? (d : Directory) (i : Invocation) : Option Settings :=
  match i.settings with
  | some path => settingsOf? (d.text? path d.input)
  | none => some ((settingsOf? (d.text? ".pgschemarc" d.input)).getD .default)

/-- What is left of the standard input when the settings have been read. -/
def leftInput (d : Directory) (i : Invocation) : ByteArray :=
  ((d.text (i.settings.getD ".pgschemarc")).run d.input).2

/-- The script of a run: the text on the command line, else the file named there, else the standard input.  There is
none if that is a terminal which the invocation does not ask for. -/
def script? (d : Directory) (i : Invocation) : Option String :=
  match i.command, i.file with
  | some text, _ => some text
  | none, some path => d.text? path (d.leftInput i)
  | none, none => if i.stdin || !d.terminal then (decode (d.leftInput i)).toOption else none

/-- A run has its settings and its script, and the load of the script comes to its end. -/
structure Loads (d : Directory) (i : Invocation) (settings : Settings) (script : String)
    (summary : Script.Summary) : Prop where
  settings_eq : d.settings? i = some settings
  script_eq : d.script? i = some script
  result_eq : (Script.load settings.input .default script).result = .ok summary

variable {d : Directory} {i : Invocation} {settings : Settings} {script path : String}
  {summary : Script.Summary} {left : ByteArray} {arguments : List String}

/-- What comes after a read goes on with what the read leaves. -/
theorem run_bind {α β : Type} {x : StateM ByteArray α} {a : α} {left' : ByteArray} (h : x.run left = (a, left'))
    (f : α → StateM ByteArray β) : (x >>= f).run left = (f a).run left' := by
  rw [StateT.run_bind, h]
  rfl

/-! ### Settings -/

theorem toOption_settingsOf (path : String) (text : Except ReadFailure String) :
    (Command.settingsOf path text).toOption = settingsOf? text.toOption := by
  cases text with
  | error reason => rfl
  | ok text =>
    unfold Command.settingsOf settingsOf?
    cases h : Settings.ofToml text <;> simp [Except.mapError, Except.toOption, h]

/-- The user's own settings are those of the file, or the defaults where it is missing or wrong. -/
theorem run_ownSettings (d : Directory) (left : ByteArray) :
    ∃ own, (ownSettings d.host).run left = (own, ((d.text ".pgschemarc").run left).2) ∧
      own.toOption.getD .default = (settingsOf? (d.text? ".pgschemarc" left)).getD .default := by
  obtain ⟨text, left', hread⟩ : ∃ text left', (d.text ".pgschemarc").run left = (text, left') := ⟨_, _, rfl⟩
  have hhost : d.host.ownSettings.run left = (text, left') := hread
  unfold ownSettings text?
  rw [run_bind hhost, hread]
  dsimp only
  split
  · exact ⟨_, rfl, rfl⟩
  · exact ⟨_, rfl, by rw [toOption_settingsOf]⟩

theorem run_readSettings_named (h : i.settings = some path) :
    (readSettings d.host i).run left =
      ((Command.settingsOf path ((d.text path).run left).1).map (·, ""), ((d.text path).run left).2) := by
  obtain ⟨text, left', hread⟩ : ∃ text left', (d.text path).run left = (text, left') := ⟨_, _, rfl⟩
  have hhost : (d.host.text path).run left = (text, left') := hread
  unfold readSettings
  rw [h]
  dsimp only
  rw [run_bind hhost, hread]
  dsimp only
  cases Command.settingsOf path text <;> rfl

theorem run_readSettings_own (h : i.settings = none) :
    ∃ warnings, (readSettings d.host i).run left =
      (.ok ((settingsOf? (d.text? ".pgschemarc" left)).getD .default, warnings),
        ((d.text ".pgschemarc").run left).2) := by
  obtain ⟨own, hown, hsettings⟩ := d.run_ownSettings left
  unfold readSettings
  rw [h]
  dsimp only
  rw [run_bind hown, ← hsettings]
  cases own with
  | ok settings => exact ⟨_, rfl⟩
  | error e => exact ⟨_, rfl⟩

/-- A run with settings goes on with what they leave of the standard input. -/
theorem run_readSettings_of_some (h : d.settings? i = some settings) :
    ∃ warnings, (readSettings d.host i).run d.input = (.ok (settings, warnings), d.leftInput i) := by
  unfold settings? at h
  unfold leftInput
  cases hpath : i.settings with
  | some path =>
    rw [hpath] at h
    refine ⟨"", ?_⟩
    rw [run_readSettings_named hpath]
    dsimp only [text?, Option.getD_some] at h ⊢
    rw [← toOption_settingsOf path] at h
    cases hs : Command.settingsOf path ((d.text path).run d.input).1 <;> rw [hs] at h <;> cases h
    rfl
  | none =>
    rw [hpath] at h
    cases h
    exact run_readSettings_own hpath

theorem run_readSettings_of_none (h : d.settings? i = none) :
    ∃ e left, (readSettings d.host i).run d.input = (.error e, left) := by
  unfold settings? at h
  cases hpath : i.settings with
  | none =>
    rw [hpath] at h
    cases h
  | some path =>
    rw [hpath] at h
    rw [run_readSettings_named hpath]
    dsimp only [text?] at h ⊢
    rw [← toOption_settingsOf path] at h
    cases hs : Command.settingsOf path ((d.text path).run d.input).1 with
    | error e => exact ⟨e, _, rfl⟩
    | ok settings =>
      rw [hs] at h
      cases h

/-! ### Scripts -/

theorem run_readScript (d : Directory) (i : Invocation) :
    ∃ script left, (readScript d.host i).run (d.leftInput i) = (script, left) ∧ script.toOption = d.script? i := by
  unfold readScript script?
  cases i.command with
  | some text => exact ⟨_, _, rfl, rfl⟩
  | none =>
    cases i.file with
    | some path =>
      obtain ⟨text, left, hread⟩ : ∃ text left, (d.text path).run (d.leftInput i) = (text, left) := ⟨_, _, rfl⟩
      have hhost : (d.host.text path).run (d.leftInput i) = (text, left) := hread
      dsimp only
      rw [run_bind hhost, text?, hread]
      cases text <;> exact ⟨_, _, rfl, rfl⟩
    | none =>
      have hterminal : d.host.interactive = pure d.terminal := rfl
      have hhost : d.host.input.run (d.leftInput i) = (decode (d.leftInput i), .empty) := rfl
      dsimp only
      rw [hterminal, pure_bind]
      by_cases hgiven : (i.stdin || !d.terminal) = true
      · rw [if_pos hgiven, if_pos hgiven, run_bind hhost]
        cases decode (d.leftInput i) <;> exact ⟨_, _, rfl, rfl⟩
      · rw [if_neg hgiven, if_neg hgiven]
        exact ⟨_, _, rfl, rfl⟩

/-! ### Runs -/

/-- What the report on a script says about its load. -/
theorem reportOf_of_ok (warnings : String) (h : (Script.load settings.input .default script).result = .ok summary) :
    (reportOf settings i warnings script).output =
        (Script.load settings.input .default script).schema.render
          ((i.format <|> Format.ofName? settings.format).getD .table) ++ "\n" ∧
      (reportOf settings i warnings script).exitCode = if summary.failed = 0 then 0 else 1 := by
  unfold Script.load at h ⊢
  unfold reportOf
  dsimp only
  rw [h]
  dsimp only
  by_cases hfailed : summary.failed = 0
  · have hnot : ¬ 0 < summary.failed := by omega
    rw [if_neg hnot, if_pos hfailed]
    exact ⟨rfl, rfl⟩
  · have hpos : 0 < summary.failed := by omega
    rw [if_pos hpos, if_neg hfailed]
    exact ⟨rfl, rfl⟩

theorem reportOf_of_error {e : Script.LoadError} (warnings : String)
    (h : (Script.load settings.input .default script).result = .error e) :
    (reportOf settings i warnings script).output = "" ∧ (reportOf settings i warnings script).exitCode = 1 := by
  unfold Script.load at h
  unfold reportOf
  dsimp only
  rw [h]
  exact ⟨rfl, rfl⟩

/-- A run with its settings and its script ends with the report on that script. -/
theorem run_execute_of_some (hs : d.settings? i = some settings) (hscript : d.script? i = some script) :
    ∃ warnings, ((execute d.host i).run d.input).1 = reportOf settings i warnings script := by
  obtain ⟨warnings, hsettings⟩ := run_readSettings_of_some hs
  obtain ⟨read, left, hread, hsome⟩ := d.run_readScript i
  refine ⟨warnings, ?_⟩
  unfold execute
  rw [run_bind hsettings]
  dsimp only
  rw [run_bind hread]
  rw [hscript] at hsome
  cases read <;> cases hsome
  rfl

/-- A run without settings or without a script prints nothing and fails. -/
theorem run_execute_of_none (h : d.settings? i = none ∨ d.script? i = none) :
    ((execute d.host i).run d.input).1.output = "" ∧ ((execute d.host i).run d.input).1.exitCode = 1 := by
  unfold execute
  cases hs : d.settings? i with
  | none =>
    obtain ⟨e, left, hsettings⟩ := run_readSettings_of_none hs
    rw [run_bind hsettings]
    exact ⟨rfl, rfl⟩
  | some settings =>
    obtain ⟨warnings, hsettings⟩ := run_readSettings_of_some hs
    obtain ⟨read, left, hread, hnone⟩ := d.run_readScript i
    rw [run_bind hsettings]
    dsimp only
    rw [run_bind hread]
    rw [h.resolve_left (by simp [hs])] at hnone
    cases read <;> cases hnone
    exact ⟨rfl, rfl⟩

/-- A run at a terminal that is given no script and not asked to read the terminal says so, and reads nothing more than
its settings. -/
theorem run_execute_of_terminal (hs : d.settings? i = some settings) (hcommand : i.command = none)
    (hfile : i.file = none) (hstdin : i.stdin = false) (hterminal : d.terminal = true) :
    ∃ warnings, (execute d.host i).run d.input = (.failed "" warnings .noInput, d.leftInput i) := by
  obtain ⟨warnings, hsettings⟩ := run_readSettings_of_some hs
  have hinteractive : d.host.interactive = pure true := congrArg pure hterminal
  have hscript : readScript d.host i = pure (.error .noInput) := by
    unfold readScript
    rw [hcommand, hfile, hstdin]
    dsimp only
    rw [hinteractive, pure_bind]
    rfl
  refine ⟨warnings, ?_⟩
  unfold execute
  rw [run_bind hsettings]
  dsimp only
  rw [hscript]
  rfl

/-- **What a run prints is decided by its load.**  If the load comes to its end, the run prints the schema and a line
feed, also where statements failed, and fails only for these; otherwise it prints nothing and fails. -/
theorem run_output (h : Request.ofArguments arguments = .ok (.run i)) :
    (∀ settings script summary, d.Loads i settings script summary →
      (d.run arguments).output =
          (Script.load settings.input .default script).schema.render
            ((i.format <|> Format.ofName? settings.format).getD .table) ++ "\n" ∧
        (d.run arguments).exitCode = if summary.failed = 0 then 0 else 1) ∧
      ((¬ ∃ settings script summary, d.Loads i settings script summary) →
        (d.run arguments).output = "" ∧ (d.run arguments).exitCode = 1) := by
  have hrun : d.run arguments = ((execute d.host i).run d.input).1 := by
    unfold Directory.run Command.run
    rw [h]
    rfl
  rw [hrun]
  constructor
  · rintro settings script summary ⟨hs, hscript, hresult⟩
    obtain ⟨warnings, hreport⟩ := run_execute_of_some hs hscript
    rw [hreport]
    exact reportOf_of_ok warnings hresult
  · intro hnot
    cases hs : d.settings? i with
    | none => exact run_execute_of_none (.inl hs)
    | some settings =>
      cases hscript : d.script? i with
      | none => exact run_execute_of_none (.inr hscript)
      | some script =>
        cases hresult : (Script.load settings.input .default script).result with
        | ok summary => exact absurd ⟨settings, script, summary, hs, hscript, hresult⟩ hnot
        | error e =>
          obtain ⟨warnings, hreport⟩ := run_execute_of_some hs hscript
          rw [hreport]
          exact reportOf_of_error warnings hresult

/-! ### A run whose script is partly wrong -/

/-- An invocation that names a settings file and leaves the script to the standard input. -/
def asked : Invocation :=
  { Invocation.plain with settings := some "goOn.toml" }

def partlyWrong : Directory :=
  { files := [("goOn.toml", "[display]\nformat = \"json\"\n[input]\ncontinue_on_error = true\n".toUTF8)]
    input := "CREATE TABLE t (a int); CREATE TABLE u".toUTF8
    home := "/root" }

/-- The lines of JSON that are printed for the script, each ended by a line feed. -/
def printedLines : List String :=
  ["\x7b",
    "  \"schema\": \"public\",",
    "  \"tables\": [",
    "    \x7b",
    "      \"columns\": [",
    "        \x7b",
    "          \"default\": null,",
    "          \"name\": \"a\",",
    "          \"nullable\": true,",
    "          \"type\": \"int\"",
    "        \x7d",
    "      ],",
    "      \"constraints\": [],",
    "      \"inherits\": null,",
    "      \"name\": \"t\",",
    "      \"with_oids\": null",
    "    \x7d",
    "  ]",
    "\x7d"]

/-- The table is printed as the settings say, and the exit code tells of the other statement. -/
theorem run_output_of_partlyWrong :
    Request.ofArguments ["--config", "goOn.toml"] = .ok (.run asked) ∧
      (partlyWrong.run ["--config", "goOn.toml"]).output = String.join (printedLines.map (· ++ "\n")) ∧
      (partlyWrong.run ["--config", "goOn.toml"]).exitCode = 1 := by
  have hasked : Request.ofArguments ["--config", "goOn.toml"] = .ok (.run asked) := by decide
  have hloads : partlyWrong.Loads asked
      { Settings.default with format := "json", input := { Script.Policy.default with continueOnError := true } }
      "CREATE TABLE t (a int); CREATE TABLE u" { parsed := 1, skipped := 0, failed := 1 } :=
    ⟨by decide +kernel, by decide +kernel, by decide +kernel⟩
  obtain ⟨houtput, hcode⟩ := (run_output hasked).1 _ _ _ hloads
  refine ⟨hasked, houtput.trans ?_, hcode⟩
  decide +kernel

end Directory

end DdlCatalog.Command
