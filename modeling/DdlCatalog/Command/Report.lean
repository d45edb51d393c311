import DdlCatalog.Settings

/-!
# Reports

What a run leaves behind: an exit code, its output and its messages.
-/

namespace DdlCatalog.Command

/-- Why a file or the standard input cannot be read as text. -/
inductive ReadFailure where
  | missing
  | isDirectory
  | notDirectory
  /-- A name on the path, or the path itself, is longer than the system allows. -/
  | nameTooLong
  | notUtf8
  /-- Any other reason, in the system's words. -/
  | other (reason : String)
  deriving DecidableEq, Repr

def ReadFailure.message : ReadFailure → String
  | .missing => "No such file or directory (os error 2)"
  | .isDirectory => "Is a directory (os error 21)"
  | .notDirectory => "Not a directory (os error 20)"
  | .nameTooLong => "File name too long (os error 36)"
  | .notUtf8 => "stream did not contain valid UTF-8"
  | .other reason => reason

/-- Why a run fails. -/
inductive RunError where
  | settingsUnreadable (path : String) (reason : ReadFailure)
  | settings (error : SettingsError)
  | fileUnreadable (path : String) (reason : ReadFailure)
  | inputUnreadable (reason : ReadFailure)
  /-- The standard input is a terminal, and the arguments name no other script. -/
  | noInput
  | load (error : Script.LoadError)
  /-- The load came to its end, but this many statements failed. -/
  | statementsFailed (count : Nat)
  deriving DecidableEq, Repr

namespace RunError

def message : RunError → String
  | .settingsUnreadable path reason => s!"Failed to read config file '{path}': {reason.message}"
  | .settings error => error.message
  | .fileUnreadable path reason => s!"Failed to read file '{path}': {reason.message}"
  | .inputUnreadable reason => s!"Failed to read from stdin: {reason.message}"
  | .noInput => "No input given: use -f <FILE>, -c <SQL> or pipe DDL on stdin"
  | .load error => error.message
  | .statementsFailed count => s!"{count} statements failed"

/-- The wordings of what lies behind an error, nearest first. -/
def causes : RunError → List String
  | .load error => error.causes.map Failure.message
  | _ => []

/-- A character of a text whose lines after the first one start with some blanks more. -/
def indentChar (blanks : Nat) (c : Char) : List Char :=
  if c = '\n' then '\n' :: List.replicate blanks ' ' else [c]

/-- A text with all its lines after the first one, empty ones too, moved to the right by some
blanks. -/
def indent (blanks : Nat) (text : List Char) : List Char :=
  text.flatMap (indentChar blanks)

def fiveColumns (n : Nat) : String :=
  let digits := toString n
  String.ofList (List.replicate (5 - digits.length) ' ') ++ digits

/-- The lines that tell the causes of an error; several causes are numbered. -/
def causeLines : List String → List String
  | [] => []
  | [cause] => ["", "Caused by:", "    " ++ String.ofList (indent 4 cause.toList)]
  | causes =>
    ["", "Caused by:"] ++ causes.mapIdx fun i cause =>
      fiveColumns i ++ ": " ++ String.ofList (indent 7 cause.toList)

/-- The message that ends a failed run. -/
def render (e : RunError) : String :=
  String.join ((s!"Error: {e.message}" :: causeLines e.causes).map (· ++ "\n"))

end RunError

/-- What a run leaves behind. -/
structure Report where
  exitCode : Nat
  /-- The standard output. -/
  output : String
  /-- The standard error. -/
  messages : String
  deriving DecidableEq, Repr

/-- The report of a run that fails after some output and messages. -/
def Report.failed (output messages : String) (e : RunError) : Report :=
  { exitCode := 1, output, messages := messages ++ e.render }

end DdlCatalog.Command
