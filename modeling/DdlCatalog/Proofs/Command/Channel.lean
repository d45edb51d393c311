import DdlCatalog.Proofs.Command.Arguments
import DdlCatalog.Proofs.Command.Output

/-!
# The way a script comes in

A script may stand on the command line, in a file or on the standard input.  A run tells it from nothing but its text,
and reads only the first of these that it is given.

* `Directory.withInput` — the directory with something else piped into the standard input;
* `Directory.SettingsApart` — the settings of a run do not come from the standard input;
* `exists_readSettings_eq` : such settings are the same whatever is on the standard input, which stays as it is;
* `readScript_piped`, `readScript_stdin` : where a terminal does not show, and where `--stdin` does not;
* `run_of_adds` : a run with one flag more; `execute_of_script` : a run is told from its settings and its script;
* `run_of_channel` : the way the script comes in does not show, nor what could have been read instead of it.
-/

namespace DdlCatalog.Command

/-- The script stands on the command line or in a file. -/
def Invocation.NamesScript (i : Invocation) : Prop :=
  (∃ text, i.command = some text) ∨ ∃ path, i.file = some path

namespace Directory

/-- The directory with a standard input that is no terminal. -/
def piped (d : Directory) : Directory :=
  { d with terminal := false }

/-- The directory with something else piped into the standard input. -/
def withInput (d : Directory) (input : ByteArray) : Directory :=
  { d.piped with input }

/-- The arguments do not ask for settings from the standard input. -/
def SettingsApart (d : Directory) (arguments : List String) : Prop :=
  ∀ i path, Request.ofArguments arguments = .ok (.run i) → i.settings = some path → d.contents path ≠ .ok .input

variable {d : Directory} {extra : Extra} {i : Invocation} {script path : String} {left left' : ByteArray}
  {others arguments : List String}

/-! ### What is read apart from the standard input -/

theorem lookup_ne_input (files : List (String × ByteArray)) (here : List Segment) :
    (files.map fun (path, bytes) => (place ++ segments path, Contents.bytes bytes)).lookup here ≠ some .input := by
  induction files with
  | nil => exact fun e => nomatch e
  | cons file files ih =>
    rw [List.map_cons, List.lookup_cons]
    split
    · exact fun e => nomatch e
    · exact ih

/-- Only the standard input has its place. -/
theorem eq_of_contents?_eq_input {here : List Segment} (h : d.contents? here = some .input) :
    here = absolute "/proc/self/fd/0" := by
  unfold contents? allFiles at h
  rw [List.lookup_cons, List.lookup_cons] at h
  split at h
  · cases h
  · split at h
    next e => exact eq_of_beq e
    next => exact absurd h (lookup_ne_input d.files here)

theorem follow_of_contents_eq_input (h : d.contents path = .ok .input) :
    d.follow path = .ok (absolute "/proc/self/fd/0") := by
  unfold contents at h
  cases hfollow : d.follow path with
  | error reason =>
    rw [hfollow] at h
    cases h
  | ok here =>
    rw [hfollow] at h
    dsimp only [Bind.bind, Except.bind] at h
    cases hhere : d.contents? here with
    | none =>
      rw [hhere] at h
      cases h
    | some contents =>
      rw [hhere] at h
      cases h
      rw [eq_of_contents?_eq_input hhere]

/-- A step to a name that stands for no other place leads there or nowhere. -/
theorem eq_of_step {here there : List Segment} {segment : Segment}
    (hsegment : segment ≠ [] ∧ segment ≠ ['.'] ∧ segment ≠ ['.', '.'])
    (hlinks : links.lookup (here ++ [segment]) = none) (h : d.step here segment = .ok there) :
    there = here ++ [segment] := by
  unfold step at h
  grind

/-- The user's own settings are never the standard input. -/
theorem contents_ownSettings (d : Directory) : d.contents ".pgschemarc" ≠ .ok .input := by
  intro h
  have hfollow := follow_of_contents_eq_input h
  unfold follow at hfollow
  rw [if_neg (by decide), if_neg (by decide)] at hfollow
  have hsegments : segments ".pgschemarc" = [".pgschemarc".toList] := by decide
  have hhead : ".pgschemarc".toList.head? ≠ some '/' := by decide
  rw [hsegments, if_neg hhead] at hfollow
  change (d.step place ".pgschemarc".toList >>= pure) = _ at hfollow
  rw [bind_pure] at hfollow
  have hplace := eq_of_step (by decide) (by decide) hfollow
  revert hplace
  decide

/-- A file that is not the standard input leaves it alone. -/
theorem exists_text_eq (h : d.contents path ≠ .ok .input) : ∃ text, d.text path = pure text := by
  unfold text
  split
  · exact ⟨_, rfl⟩
  next e => exact absurd e h
  · exact ⟨_, rfl⟩

theorem exists_readSettings_eq (h : ∀ path, i.settings = some path → d.contents path ≠ .ok .input) :
    ∃ settings, readSettings d.host i = pure settings := by
  unfold readSettings
  cases hpath : i.settings with
  | some path =>
    obtain ⟨text, htext⟩ := exists_text_eq (h path hpath)
    have hhost : d.host.text path = pure text := htext
    dsimp only
    rw [hhost, pure_bind]
    cases settingsOf path text <;> exact ⟨_, rfl⟩
  | none =>
    obtain ⟨text, htext⟩ := exists_text_eq d.contents_ownSettings
    have hhost : d.host.ownSettings = pure text := htext
    have hown : ∃ own, ownSettings d.host = pure own := by
      unfold ownSettings
      rw [hhost, pure_bind]
      split <;> exact ⟨_, rfl⟩
    obtain ⟨own, hown⟩ := hown
    dsimp only
    rw [hown, pure_bind]
    cases own <;> exact ⟨_, rfl⟩

/-- A script on the command line or in another file leaves the standard input alone. -/
theorem exists_readScript_eq
    (h : (∃ text, i.command = some text) ∨ ∃ path, i.file = some path ∧ d.contents path ≠ .ok .input) :
    ∃ script, readScript d.host i = pure script := by
  unfold readScript
  cases hcommand : i.command with
  | some text => exact ⟨_, rfl⟩
  | none =>
    rcases h with ⟨text, htext⟩ | ⟨path, hfile, hpath⟩
    · rw [hcommand] at htext
      cases htext
    · obtain ⟨text, htext⟩ := exists_text_eq hpath
      have hhost : d.host.text path = pure text := htext
      rw [hfile]
      dsimp only
      rw [hhost, pure_bind]
      cases text <;> exact ⟨_, rfl⟩

theorem decode_toUTF8 (script : String) : decode script.toUTF8 = .ok script := by
  have hread : String.fromUTF8? script.toUTF8 = some script := dif_pos script.isValidUTF8
  unfold decode
  rw [hread]

/-- What is piped into the standard input is the script if there is no other. -/
theorem readScript_of_input (hcommand : i.command = none) (hfile : i.file = none) (script : String) :
    ((readScript d.piped.host i).run script.toUTF8).1 = .ok script := by
  have hterminal : d.piped.host.interactive = pure false := rfl
  have hhost : d.piped.host.input.run script.toUTF8 = (.ok script, .empty) := by
    rw [← decode_toUTF8 script]
    rfl
  have hgiven : (i.stdin || !false) = true := by simp
  unfold readScript
  rw [hcommand, hfile]
  dsimp only
  rw [hterminal, pure_bind, if_pos hgiven, run_bind hhost]
  rfl

theorem readScript_of_file (hcommand : i.command = none) (hfile : i.file = some path)
    (hpath : d.text? path left = some script) : ((readScript d.host i).run left).1 = .ok script := by
  obtain ⟨text, rest, hread⟩ : ∃ text rest, (d.text path).run left = (text, rest) := ⟨_, _, rfl⟩
  have hhost : (d.host.text path).run left = (text, rest) := hread
  unfold text? at hpath
  rw [hread] at hpath
  unfold readScript
  rw [hcommand, hfile]
  dsimp only
  rw [run_bind hhost]
  cases text <;> cases hpath
  rfl

/-- Beside a script on the command line or in a file, a terminal does not show, nor whether the standard input is asked
for. -/
theorem readScript_of_namesScript (h : i.NamesScript) :
    readScript d.piped.host i = readScript d.host i ∧
      readScript d.host (Extra.stdin.apply i) = readScript d.host i := by
  have hsame : (Extra.stdin.apply i).command = i.command ∧ (Extra.stdin.apply i).file = i.file := ⟨rfl, rfl⟩
  unfold readScript
  rw [hsame.1, hsame.2]
  cases hcommand : i.command with
  | some text => exact ⟨rfl, rfl⟩
  | none =>
    rcases h with ⟨text, htext⟩ | ⟨path, hfile⟩
    · rw [hcommand] at htext
      cases htext
    · rw [hfile]
      exact ⟨rfl, rfl⟩

/-- A terminal does not show beside another script, nor where the standard input is asked for. -/
theorem readScript_piped (h : i.NamesScript ∨ i.stdin = true) : readScript d.piped.host i = readScript d.host i := by
  rcases h with hnames | hstdin
  · exact (readScript_of_namesScript hnames).1
  · have hpiped : d.piped.host.interactive = pure false := rfl
    have hterminal : d.host.interactive = pure d.terminal := rfl
    unfold readScript
    simp only [hpiped, hterminal, pure_bind, hstdin, Bool.true_or, if_true]
    rfl

/-- To ask for the standard input changes nothing beside another script, nor where the standard input is no terminal. -/
theorem readScript_stdin (h : i.NamesScript ∨ d.terminal = false) :
    readScript d.host (Extra.stdin.apply i) = readScript d.host i := by
  rcases h with hnames | hpiped
  · exact (readScript_of_namesScript hnames).2
  · have hterminal : d.host.interactive = pure false := congrArg pure hpiped
    have hgiven : ∀ stdin : Bool, (stdin || !false) = true := by simp
    unfold readScript
    simp only [hterminal, pure_bind, if_pos (hgiven _)]
    rfl

/-! ### Runs that load a script -/

/-- The report on a script, told from the settings or the reason why there are none. -/
def reportWith (settings : Except RunError (Settings × String)) (i : Invocation) (script : String) : Report :=
  match settings with
  | .ok (settings, warnings) => reportOf settings i warnings script
  | .error e => .failed "" "" e

theorem execute_of_script {settings : Except RunError (Settings × String)}
    (hs : readSettings d.host i = pure settings) (hscript : ((readScript d.host i).run left).1 = .ok script) :
    ((execute d.host i).run left).1 = reportWith settings i script := by
  obtain ⟨read, left', hread⟩ : ∃ read left', (readScript d.host i).run left = (read, left') := ⟨_, _, rfl⟩
  rw [hread] at hscript
  subst hscript
  unfold execute
  rw [hs, pure_bind]
  cases settings with
  | error e => rfl
  | ok found =>
    dsimp only
    rw [run_bind hread]
    rfl

/-- A run that reads its settings and its script elsewhere leaves the standard input alone. -/
theorem exists_execute_eq {settings : Except RunError (Settings × String)}
    {script : Except RunError String} (hs : readSettings d.host i = pure settings)
    (hscript : readScript d.host i = pure script) : ∃ report, execute d.host i = pure report := by
  unfold execute
  rw [hs, pure_bind]
  cases settings with
  | error e => exact ⟨_, rfl⟩
  | ok found =>
    dsimp only
    rw [hscript, pure_bind]
    cases script <;> exact ⟨_, rfl⟩

/-- Loads that read the same settings and the same script end alike if their reports do. -/
theorem execute_congr {d' : Directory} {j : Invocation} (hs : readSettings d'.host j = readSettings d.host i)
    (hscript : readScript d'.host j = readScript d.host i)
    (hreport : ∀ settings warnings script, reportOf settings j warnings script = reportOf settings i warnings script) :
    execute d'.host j = execute d.host i := by
  unfold execute
  rw [hs, hscript]
  simp only [hreport]

/-- Progress and a summary are shown apart from the output. -/
theorem reportOf_verbose (settings : Settings) (i : Invocation) (warnings script : String) :
    (reportOf settings (Extra.verbose.apply i) warnings script).output = (reportOf settings i warnings script).output ∧
      (reportOf settings (Extra.verbose.apply i) warnings script).exitCode =
        (reportOf settings i warnings script).exitCode := by
  cases hresult : (Script.load settings.input .default script).result with
  | ok summary =>
    obtain ⟨houtput, hcode⟩ := reportOf_of_ok (i := i) warnings hresult
    obtain ⟨houtput', hcode'⟩ := reportOf_of_ok (i := Extra.verbose.apply i) warnings hresult
    exact ⟨houtput'.trans houtput.symm, hcode'.trans hcode.symm⟩
  | error e =>
    obtain ⟨houtput, hcode⟩ := reportOf_of_error (i := i) warnings hresult
    obtain ⟨houtput', hcode'⟩ := reportOf_of_error (i := Extra.verbose.apply i) warnings hresult
    exact ⟨houtput'.trans houtput.symm, hcode'.trans hcode.symm⟩

theorem execute_verbose (d : Directory) (i : Invocation) (left : ByteArray) :
    ((execute d.host (Extra.verbose.apply i)).run left).1.output = ((execute d.host i).run left).1.output ∧
      ((execute d.host (Extra.verbose.apply i)).run left).1.exitCode = ((execute d.host i).run left).1.exitCode := by
  have hsettings : readSettings d.host (Extra.verbose.apply i) = readSettings d.host i := rfl
  have hscript : readScript d.host (Extra.verbose.apply i) = readScript d.host i := rfl
  obtain ⟨settings, left', hs⟩ : ∃ settings left', (readSettings d.host i).run left = (settings, left') := ⟨_, _, rfl⟩
  obtain ⟨script, left'', hread⟩ : ∃ script left'', (readScript d.host i).run left' = (script, left'') := ⟨_, _, rfl⟩
  unfold execute
  rw [hsettings, hscript, run_bind hs, run_bind hs]
  cases settings with
  | error e => exact ⟨rfl, rfl⟩
  | ok found =>
    dsimp only
    rw [run_bind hread, run_bind hread]
    cases script with
    | error e => exact ⟨rfl, rfl⟩
    | ok script => exact reportOf_verbose found.1 i found.2 script

/-! ### Runs by their arguments -/

/-- Where the others ask for a load, the run with one flag more is a load with that flag; where they do not, both runs
end at once and alike. -/
theorem run_of_adds {R : Report → Report → Prop} (hrefl : ∀ report, R report report) (h : Adds extra others arguments)
    (hload : ∀ i, Request.ofArguments others = .ok (.run i) →
      R ((execute d.host (extra.apply i)).run left).1 ((execute d.host i).run left').1) :
    R ((Command.run d.host arguments).run left).1 ((Command.run d.host others).run left').1 := by
  unfold Command.run
  rw [h.ofArguments_eq]
  cases hothers : Request.ofArguments others with
  | error e => exact hrefl _
  | ok request =>
    cases request with
    | run i => exact hload i hothers
    | help => exact hrefl _
    | version => exact hrefl _

theorem namesScript_of_adds {bare : List String} {j : Invocation}
    (h : (∃ script, Adds (.command script) bare others) ∨ ∃ path, Adds (.file path) bare others)
    (hj : Request.ofArguments others = .ok (.run j)) : j.NamesScript := by
  rcases h with ⟨script, hadds⟩ | ⟨path, hadds⟩
  · obtain ⟨i, -, rfl⟩ := hadds.exists_of_run hj
    exact .inl ⟨script, rfl⟩
  · obtain ⟨i, -, rfl⟩ := hadds.exists_of_run hj
    exact .inr ⟨path, rfl⟩

/-- A terminal does not show in a run that does not ask for one. -/
theorem run_piped
    (h : ∀ i, Request.ofArguments arguments = .ok (.run i) → i.NamesScript ∨ i.stdin = true) :
    Command.run d.piped.host arguments = Command.run d.host arguments := by
  unfold Command.run
  rcases hrequest : Request.ofArguments arguments with e | i | _ | _
  · rfl
  · exact execute_congr rfl (readScript_piped (h i hrequest)) fun _ _ _ => rfl
  · rfl
  · rfl

theorem run_withInput_eq (d : Directory) (input : ByteArray) (arguments : List String) :
    (d.withInput input).run arguments = ((Command.run d.piped.host arguments).run input).1 := rfl

/-- The text of a script gives the same report on the command line, in a file and on the standard input. -/
theorem run_eq_of_script {byCommand byFile : List String} (hapart : d.SettingsApart others)
    (hcommand : Adds (.command script) others byCommand) (hfile : Adds (.file path) others byFile)
    (hpath : d.text? path left' = some script) :
    (d.withInput left).run byCommand = (d.withInput script.toUTF8).run others ∧
      (d.withInput left').run byFile = (d.withInput script.toUTF8).run others := by
  -- what is run on the standard input, and how the same report comes about
  have hreport {i : Invocation} (hi : Request.ofArguments others = .ok (.run i)) (extra : Extra) (left : ByteArray)
      (hsettings : readSettings d.piped.host (extra.apply i) = readSettings d.piped.host i)
      (hsame : ∀ settings, reportWith settings (extra.apply i) script = reportWith settings i script)
      (hscript : ((readScript d.piped.host (extra.apply i)).run left).1 = .ok script) :
      ((execute d.piped.host (extra.apply i)).run left).1 = ((execute d.piped.host i).run script.toUTF8).1 := by
    obtain ⟨settings, hs⟩ : ∃ settings, readSettings d.piped.host i = pure settings :=
      exists_readSettings_eq fun path => hapart i path hi
    have hinput := readScript_of_input (d := d) (hcommand.missing hi) (hfile.missing hi) script
    rw [execute_of_script hs hinput, execute_of_script (hsettings.trans hs) hscript, hsame]
  rw [run_withInput_eq, run_withInput_eq, run_withInput_eq]
  constructor
  · refine run_of_adds (fun _ => rfl) hcommand fun i hi => hreport hi _ left rfl (fun settings => ?_) rfl
    cases settings <;> rfl
  · refine run_of_adds (fun _ => rfl) hfile fun i hi => hreport hi _ left' rfl (fun settings => ?_) ?_
    · cases settings <;> rfl
    · have hnoCommand : i.command = none := hcommand.missing hi
      have hpath : d.piped.text? path left' = some script := hpath
      exact readScript_of_file hnoCommand rfl hpath

/-- Progress does not show in the output or the exit code. -/
theorem run_verbose {louder : List String} (h : Adds .verbose others louder) :
    (d.run louder).output = (d.run others).output ∧ (d.run louder).exitCode = (d.run others).exitCode := by
  refine run_of_adds (R := fun r r' => r.output = r'.output ∧ r.exitCode = r'.exitCode) (fun _ => ⟨rfl, rfl⟩) h ?_
  exact fun i _ => execute_verbose d i d.input

/-- A file beside a script on the command line is not looked at. -/
theorem run_file_beside_command {text : String} {bare : List String} (hcommand : Adds (.command text) bare others)
    (hfile : Adds (.file path) others arguments) : d.run arguments = d.run others := by
  refine run_of_adds (fun _ => rfl) hfile fun j hj => ?_
  obtain ⟨i, -, rfl⟩ := hcommand.exists_of_run hj
  rfl

/-- The standard input is not looked at beside a script on the command line or in another file, be it a terminal or
not. -/
theorem run_withInput {bare : List String} (hapart : d.SettingsApart bare) (h : Adds extra bare others)
    (hextra : (∃ text, extra = .command text) ∨ ∃ path, extra = .file path ∧ d.contents path ≠ .ok .input)
    (input : ByteArray) : (d.withInput input).run others = d.run others := by
  have hpure : ∃ report, Command.run d.host others = pure report := by
    unfold Command.run
    rw [h.ofArguments_eq]
    rcases hbare : Request.ofArguments bare with e | i | _ | _
    · exact ⟨_, rfl⟩
    · obtain ⟨settings, hs⟩ := exists_readSettings_eq fun path => hapart i path hbare
      have hs' : readSettings d.host (extra.apply i) = pure settings := by
        rcases hextra with ⟨text, rfl⟩ | ⟨path, rfl, -⟩ <;> exact hs
      obtain ⟨script, hscript⟩ : ∃ script, readScript d.host (extra.apply i) = pure script := by
        refine exists_readScript_eq ?_
        rcases hextra with ⟨text, rfl⟩ | ⟨path, rfl, hpath⟩
        · exact .inl ⟨text, rfl⟩
        · exact .inr ⟨path, rfl, hpath⟩
      exact exists_execute_eq hs' hscript
    · exact ⟨_, rfl⟩
    · exact ⟨_, rfl⟩
  have hadds : (∃ script, Adds (.command script) bare others) ∨ ∃ path, Adds (.file path) bare others := by
    rcases hextra with ⟨text, rfl⟩ | ⟨path, rfl, -⟩
    · exact .inl ⟨text, h⟩
    · exact .inr ⟨path, h⟩
  obtain ⟨report, hpure⟩ := hpure
  change _ = ((Command.run d.host others).run d.input).1
  rw [run_withInput_eq, run_piped fun j hj => .inl (namesScript_of_adds hadds hj), hpure]
  rfl

/-- Where the standard input is asked for, a terminal is read like anything else. -/
theorem run_at_terminal (h : Adds .stdin others arguments) : (d.withInput d.input).run arguments = d.run arguments := by
  have hstdin {j : Invocation} (hj : Request.ofArguments arguments = .ok (.run j)) : j.stdin = true := by
    obtain ⟨i, -, rfl⟩ := h.exists_of_run hj
    rfl
  rw [run_withInput_eq, run_piped fun j hj => .inr (hstdin hj)]
  rfl

/-- To ask for the standard input changes nothing where something is piped into it or the script stands elsewhere. -/
theorem run_stdin (h : Adds .stdin others arguments)
    (hgiven : d.terminal = false ∨
      ∃ bare, (∃ script, Adds (.command script) bare others) ∨ ∃ path, Adds (.file path) bare others) :
    d.run arguments = d.run others := by
  refine run_of_adds (fun _ => rfl) h fun j hj => ?_
  have hscript : readScript d.host (Extra.stdin.apply j) = readScript d.host j := by
    rcases hgiven with hpiped | ⟨bare, hadds⟩
    · exact readScript_stdin (.inr hpiped)
    · exact readScript_stdin (.inl (namesScript_of_adds hadds hj))
  have hsame : execute d.host (Extra.stdin.apply j) = execute d.host j := execute_congr rfl hscript fun _ _ _ => rfl
  rw [hsame]

/-- **The way a script comes in does not show.**  In a directory whose settings are not read from the standard input:

* every flag can be given, whatever its value is;
* the text of a script leads to the same report on the command line, in a file that reads as this text and on the
  standard input, whatever is on the standard input in the first two runs;
* `-v` changes neither the output nor the exit code;
* beside a script on the command line, neither a file nor the standard input shows, be it a terminal or not, and the
  standard input does not show beside a file;
* `--stdin` does not show beside either of them, nor where the standard input is no terminal, and with `--stdin` it does
  not show whether it is one. -/
theorem run_of_channel (d : Directory) :
    (∀ (extra : Extra) (others : List String), Lacks extra.flag (Token.ofArguments others) →
      Adds extra others (extra.spelling :: others)) ∧
    (∀ (script path : String) (others byCommand byFile : List String) (left left' : ByteArray),
      d.SettingsApart others → Adds (.command script) others byCommand → Adds (.file path) others byFile →
        d.text? path left' = some script →
        (d.withInput left).run byCommand = (d.withInput script.toUTF8).run others ∧
          (d.withInput left').run byFile = (d.withInput script.toUTF8).run others) ∧
    (∀ others louder : List String, Adds .verbose others louder →
      (d.run louder).output = (d.run others).output ∧ (d.run louder).exitCode = (d.run others).exitCode) ∧
    (∀ (script : String) (bare others : List String), Adds (.command script) bare others →
      (∀ (path : String) (arguments : List String), Adds (.file path) others arguments →
        d.run arguments = d.run others) ∧
        (d.SettingsApart bare → ∀ input, (d.withInput input).run others = d.run others)) ∧
    (∀ (path : String) (bare others : List String), Adds (.file path) bare others → d.contents path ≠ .ok .input →
      d.SettingsApart bare → ∀ input, (d.withInput input).run others = d.run others) ∧
    ∀ others arguments : List String, Adds .stdin others arguments →
      ((d.terminal = false ∨
          ∃ bare, (∃ script, Adds (.command script) bare others) ∨ ∃ path, Adds (.file path) bare others) →
        d.run arguments = d.run others) ∧
      (d.withInput d.input).run arguments = d.run arguments := by
  refine ⟨fun extra others h => adds_spelling h, ?_, fun others louder h => run_verbose h, ?_, ?_,
    fun others arguments h => ⟨fun hgiven => run_stdin h hgiven, run_at_terminal h⟩⟩
  · intro script path others byCommand byFile left left' hapart hcommand hfile hpath
    exact run_eq_of_script hapart hcommand hfile hpath
  · intro script bare others hcommand
    refine ⟨fun path arguments hfile => run_file_beside_command hcommand hfile, fun hapart input => ?_⟩
    exact run_withInput hapart hcommand (.inl ⟨script, rfl⟩) input
  · intro path bare others hfile hpath hapart input
    exact run_withInput hapart hfile (.inr ⟨path, rfl, hpath⟩) input

/-! ### A script that is partly wrong, in a file -/

/-- The script of `partlyWrong` in a file, and a terminal. -/
def filed : Directory :=
  { partlyWrong with files := ("t.sql", partlyWrong.input) :: partlyWrong.files, terminal := true }

/-- The three ways to hand over a script that is partly wrong; the terminal, the file that is missing and the input that
is no text do not show. -/
theorem run_of_channel_of_filed :
    let script := "CREATE TABLE t (a int); CREATE TABLE u"
    let others := ["--config", "goOn.toml"]
    let byCommand := ("--command=" ++ script) :: others
    let byFile := "--file=t.sql" :: others
    filed.SettingsApart others ∧ Adds (.command script) others byCommand ∧ Adds (.file "t.sql") others byFile ∧
      filed.text? "t.sql" filed.input = some script ∧ filed.contents "t.sql" ≠ .ok .input ∧ filed.terminal = true ∧
      filed.run byCommand = (filed.withInput script.toUTF8).run others ∧
      filed.run byFile = (filed.withInput script.toUTF8).run others ∧
      (filed.run ("-v" :: byFile)).exitCode = (filed.run byFile).exitCode ∧
      filed.run ("--file=missing.sql" :: byCommand) = filed.run byCommand ∧
      (filed.withInput ⟨#[0xFF]⟩).run byCommand = filed.run byCommand ∧
      (filed.withInput ⟨#[0xFF]⟩).run byFile = filed.run byFile ∧
      filed.run ("--stdin" :: byCommand) = filed.run byCommand ∧
      (filed.withInput filed.input).run ("--stdin" :: others) = filed.run ("--stdin" :: others) ∧
      (filed.withInput script.toUTF8).run ("--stdin" :: others) = (filed.withInput script.toUTF8).run others := by
  intro script others byCommand byFile
  have hothers : Request.ofArguments others = .ok (.run asked) := by decide
  have hapart : filed.SettingsApart others := by
    intro i path hi hpath hinput
    cases hothers.symm.trans hi
    cases hpath
    have hfollow := follow_of_contents_eq_input hinput
    revert hfollow
    decide +kernel
  obtain ⟨hadds, hsame, hverbose, hcommand, hfile, hstdin⟩ := run_of_channel filed
  have hbyCommand : Adds (.command script) others byCommand := hadds _ _ (by decide)
  have hbyFile : Adds (.file "t.sql") others byFile := hadds _ _ (by decide)
  have htext : filed.text? "t.sql" filed.input = some script := by decide +kernel
  have hcontents : filed.contents "t.sql" ≠ .ok .input := by
    intro hinput
    have hfollow := follow_of_contents_eq_input hinput
    revert hfollow
    decide +kernel
  obtain ⟨hrun, hrun'⟩ := hsame script "t.sql" others byCommand byFile filed.input filed.input hapart hbyCommand
    hbyFile htext
  have hfromCommand := (hcommand script others byCommand hbyCommand).2 hapart
  have hfromFile := hfile "t.sql" others byFile hbyFile hcontents hapart
  refine ⟨hapart, hbyCommand, hbyFile, htext, hcontents, rfl, (hfromCommand _).symm.trans hrun,
    (hfromFile _).symm.trans hrun', ?_, ?_, hfromCommand _, hfromFile _, ?_,
    (hstdin others _ (hadds .stdin others (by decide))).2, ?_⟩
  · exact (hverbose byFile _ (hadds .verbose byFile (by decide))).2
  · exact (hcommand script others byCommand hbyCommand).1 _ _ (hadds (.file "missing.sql") byCommand (by decide))
  · exact (hstdin byCommand _ (hadds .stdin byCommand (by decide))).1 (.inr ⟨others, .inl ⟨script, hbyCommand⟩⟩)
  · obtain ⟨-, -, -, -, -, hpiped⟩ := run_of_channel (filed.withInput script.toUTF8)
    exact (hpiped others _ (hadds .stdin others (by decide))).1 (.inl rfl)

end Directory

end DdlCatalog.Command
