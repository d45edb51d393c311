import DdlCatalog.Render.Format
import DdlCatalog.Script.Load
import DdlCatalog.Toml.Document

/-!
# Settings

A settings file is a TOML document with the sections `display`, `logging` and `input`. Whatever it
does not mention has its default, and whatever the program does not know is ignored. A section may
also be an array of its fields in a fixed order.
-/

namespace DdlCatalog

/-- What a settings file can set. -/
structure Settings where
  /-- The name of the output format; not every name is one of a format. -/
  format : String
  /-- The level of logging. -/
  level : String
  input : Script.Policy
  deriving DecidableEq, Repr

/-- Why a settings file cannot be used. -/
inductive SettingsError where
  | malformed
  /-- The section of this name or one of its fields is of another type than it should be. -/
  | mistyped (name : String)
  deriving DecidableEq, Repr

namespace SettingsError

def message : SettingsError → String
  | .malformed => "Failed to parse config file: not a TOML document"
  | .mistyped name => s!"Failed to parse config file: wrong type in section {name}"

end SettingsError

namespace Settings

/-- The settings where no file sets others. -/
def default : Settings :=
  { format := "table", level := "warn", input := .default }

/-- The format that the settings name, if they name one. -/
def format? (s : Settings) : Option Format :=
  Format.ofName? s.format

/-- The fields of a section, by name or by place. -/
abbrev Fields := String → Nat → Option Toml.Value

/-- The fields of a value; none if it cannot be a section. A date is a section without fields. -/
def fields? : Toml.Value → Option Fields
  | .table _ fields => some fun name _ => fields.lookup name
  | .array items => some fun _ place => items[place]?
  | .tables items => some fun _ place => items.reverse[place]?
  | .datetime _ => some fun _ _ => none
  | _ => none

/-- The section of a document, without fields if the document lacks it. -/
def fieldsOf (document : Toml.Value) (name : String) : Except SettingsError Fields :=
  match document with
  | .table _ sections =>
    match sections.lookup name with
    | none => .ok fun _ _ => none
    | some value =>
      match fields? value with
      | some fields => .ok fields
      | none => .error (.mistyped name)
  | _ => .error .malformed

def text (inSection fallback : String) : Option Toml.Value → Except SettingsError String
  | none => .ok fallback
  | some (.string value) => .ok value
  | some _ => .error (.mistyped inSection)

def flag (inSection : String) (fallback : Bool) : Option Toml.Value → Except SettingsError Bool
  | none => .ok fallback
  | some (.boolean value) => .ok value
  | some _ => .error (.mistyped inSection)

def ofDocument (document : Toml.Value) : Except SettingsError Settings := do
  let display ← fieldsOf document "display"
  let format ← text "display" default.format (display "format" 0)
  let logging ← fieldsOf document "logging"
  let level ← text "logging" default.level (logging "level" 0)
  let input ← fieldsOf document "input"
  let skipUnsupported ← flag "input" default.input.skipUnsupported (input "skip_unsupported" 0)
  let continueOnError ← flag "input" default.input.continueOnError (input "continue_on_error" 1)
  return { format, level, input := { skipUnsupported, continueOnError } }

def ofToml (text : String) : Except SettingsError Settings :=
  match Toml.parse? text with
  | some document => ofDocument document
  | none => .error .malformed

end Settings

end DdlCatalog
