import DdlCatalog.Command.Arguments
import DdlCatalog.Command.Report

/-!
# Running a command

A run reads its settings, then the script, and shows the schema that the script loads. It reaches
files and the standard input through a `Host`, so that the same run serves the operating system and
a directory given as a value.
-/

namespace DdlCatalog.Command

/-- What a run reads from outside. -/
structure Host (m : Type → Type) where
  /-- The text of a file. -/
  text : String → m (Except ReadFailure String)
  /-- The text of the standard input. -/
  input : m (Except ReadFailure String)
  /-- Whether the standard input is a terminal. -/
  interactive : m Bool
  /-- The text of the user's own settings file. -/
  ownSettings : m (Except ReadFailure String)
  /-- The path of that file as messages name it. -/
  ownSettingsPath : String

variable {m : Type → Type} [Monad m]

/-- The settings that the file at a path gives by its text. -/
def settingsOf (path : String) : Except ReadFailure String → Except RunError Settings
  | .error reason => .error (.settingsUnreadable path reason)
  | .ok text => (Settings.ofToml text).mapError .settings

/-- The settings in the user's own file, defaults if there is no such file. -/
def ownSettings (host : Host m) : m (Except RunError Settings) := do
  match ← host.ownSettings with
  | .error .missing => return .ok .default
  | text => return settingsOf host.ownSettingsPath text

/-- The settings of a run and the warnings that reading them gives rise to. A file that the
invocation names has to be usable; the user's own need not be. -/
def readSettings (host : Host m) (invocation : Invocation) :
    m (Except RunError (Settings × String)) := do
  match invocation.settings with
  | some path =>
    match settingsOf path (← host.text path) with
    | .ok settings => return .ok (settings, "")
    | .error e => return .error e
  | none =>
    match ← ownSettings host with
    | .ok settings => return .ok (settings, "")
    | .error e =>
      return .ok (.default, s!"Warning: Could not load config file: {e.message}\n")

/-- The script that a run loads: the text on the command line, else the file named there, else the
standard input. A terminal is read only where the invocation asks for the standard input. -/
def readScript (host : Host m) (invocation : Invocation) : m (Except RunError String) := do
  match invocation.command, invocation.file with
  | some text, _ => return .ok text
  | none, some path =>
    match ← host.text path with
    | .ok text => return .ok text
    | .error reason => return .error (.fileUnreadable path reason)
  | none, none =>
    if invocation.stdin || !(← host.interactive) then
      match ← host.input with
      | .ok text => return .ok text
      | .error reason => return .error (.inputUnreadable reason)
    else
      return .error .noInput

def formatOf (settings : Settings) (invocation : Invocation) : Format :=
  (invocation.format <|> settings.format?).getD .default

/-- The lines that announce the statements a load came to, out of `total`. -/
def progress (total : Nat) (attempted : List Nat) : String :=
  String.join (attempted.map fun number => s!"Parsing statement {number} of {total}...\n")

/-- The report of a run that has its settings and its script. -/
def reportOf (settings : Settings) (invocation : Invocation) (warnings script : String) : Report :=
  let statements := Script.statements script
  let load := Script.loadStatements settings.input .default statements
  let messages :=
    warnings ++ if invocation.verbose then progress statements.length load.attempted else ""
  match load.result with
  | .error e => .failed "" messages (.load e)
  | .ok summary =>
    let output := load.schema.render (formatOf settings invocation) ++ "\n"
    let messages :=
      if invocation.verbose || 0 < summary.failed then messages ++ "\n" ++ summary.render ++ "\n"
      else messages
    if 0 < summary.failed then .failed output messages (.statementsFailed summary.failed)
    else { exitCode := 0, output, messages }

/-- Carries out a request to load a script. -/
def execute (host : Host m) (invocation : Invocation) : m Report := do
  match ← readSettings host invocation with
  | .error e => return .failed "" "" e
  | .ok (settings, warnings) =>
    match ← readScript host invocation with
    | .error e => return .failed "" warnings e
    | .ok script => return reportOf settings invocation warnings script

def versionText : String :=
  "pgschema 0.1.0\n"

def helpText : String :=
  "\n".intercalate
    ["Load CREATE TABLE statements from a PostgreSQL dump into a schema model", "",
      "Usage: pgschema [OPTIONS]", "", "Options:",
      "  -f, --file <FILE>      Load DDL statements from file",
      "  -c, --command <SQL>    Load a DDL command given on the command line",
      "      --stdin            Read DDL from stdin (auto-detected when piped)",
      "      --format <FORMAT>  Output format for the loaded schema [possible values: table, json]",
      "      --config <FILE>    Configuration file (defaults to ~/.pgschemarc)",
      "  -v, --verbose          Show progress and a summary while loading",
      "  -h, --help             Print help",
      "  -V, --version          Print version", ""]

def usageReport (e : UsageError) : Report :=
  { exitCode := 2, output := "",
    messages := s!"error: {e.message}\n\nFor more information, try '--help'.\n" }

/-- Carries out what arguments ask for. -/
def run (host : Host m) (arguments : List String) : m Report :=
  match Request.ofArguments arguments with
  | .error e => return usageReport e
  | .ok .version => return { exitCode := 0, output := versionText, messages := "" }
  | .ok .help => return { exitCode := 0, output := helpText, messages := "" }
  | .ok (.run invocation) => execute host invocation

end DdlCatalog.Command
