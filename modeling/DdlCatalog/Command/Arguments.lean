import DdlCatalog.Render.Format

/-!
# Command line arguments

Arguments are read from left to right into tokens, and the tokens into a request. A flag that takes
a value has it in the same argument or is the last flag of its argument and has the next argument
as its value. The first fault counts; a request for help or for the version counts from where it
stands.
-/

namespace DdlCatalog.Command

/-- What a load is asked to do. -/
structure Invocation where
  /-- The file to load. -/
  file : Option String
  /-- The text to load. -/
  command : Option String
  /-- The standard input is to be loaded. -/
  stdin : Bool
  format : Option Format
  /-- The settings file. -/
  settings : Option String
  /-- Progress and a summary are to be shown. -/
  verbose : Bool
  deriving DecidableEq, Repr

def Invocation.plain : Invocation :=
  { file := none, command := none, stdin := false, format := none, settings := none,
    verbose := false }

/-- What the command line knows. -/
inductive Flag where
  | file
  | command
  | stdin
  | format
  | settings
  | verbose
  | help
  | version
  deriving DecidableEq, Repr

namespace Flag

/-- The name of a flag, which two dashes announce. -/
def name : Flag → String
  | .file => "file"
  | .command => "command"
  | .stdin => "stdin"
  | .format => "format"
  | .settings => "config"
  | .verbose => "verbose"
  | .help => "help"
  | .version => "version"

/-- The letter of a flag, which one dash announces. -/
def letter? : Flag → Option Char
  | .file => some 'f'
  | .command => some 'c'
  | .verbose => some 'v'
  | .help => some 'h'
  | .version => some 'V'
  | _ => none

def all : List Flag :=
  [.file, .command, .stdin, .format, .settings, .verbose, .help, .version]

def takesValue : Flag → Bool
  | .file | .command | .format | .settings => true
  | _ => false

def ofName? (name : String) : Option Flag :=
  all.find? fun flag => flag.name == name

def ofLetter? (c : Char) : Option Flag :=
  all.find? fun flag => flag.letter? == some c

end Flag

/-- What is wrong with the arguments. -/
inductive UsageError where
  | unexpected (argument : String)
  | missingValue (flag : Flag)
  | needlessValue (flag : Flag)
  | invalidValue (flag : Flag) (value : String)
  | repeated (flag : Flag)
  deriving DecidableEq, Repr

def UsageError.message : UsageError → String
  | .unexpected argument => s!"unexpected argument '{argument}' found"
  | .missingValue flag => s!"a value is required for '--{flag.name}' but none was supplied"
  | .needlessValue flag => s!"'--{flag.name}' takes no value"
  | .invalidValue flag value => s!"invalid value '{value}' for '--{flag.name}'"
  | .repeated flag => s!"the argument '--{flag.name}' cannot be used multiple times"

/-! ### Tokens -/

/-- A flag with or without a value, or the first fault. -/
inductive Token where
  | plain (flag : Flag)
  | valued (flag : Flag) (value : String)
  | fault (error : UsageError)
  deriving DecidableEq, Repr

namespace Token

/-- The tokens of the letters after one dash, and the flag among them that waits for a value. -/
def ofLetters : List Char → List Token × Option Flag
  | [] => ([], none)
  | c :: letters =>
    match Flag.ofLetter? c with
    | none => ([.fault (.unexpected (String.ofList ['-', c]))], none)
    | some flag =>
      if flag.takesValue then
        match letters with
        | [] => ([], some flag)
        | '=' :: value => ([.valued flag (String.ofList value)], none)
        | value => ([.valued flag (String.ofList value)], none)
      else
        let (tokens, waiting) := ofLetters letters
        (.plain flag :: tokens, waiting)

/-- The token of the text after two dashes, or the flag that waits for a value. -/
def ofLong (text : List Char) : List Token × Option Flag :=
  let name := text.takeWhile (· != '=')
  match Flag.ofName? (String.ofList name), text.drop name.length with
  | none, _ => ([.fault (.unexpected (String.ofList ('-' :: '-' :: name)))], none)
  | some flag, '=' :: value =>
    if flag.takesValue then ([.valued flag (String.ofList value)], none)
    else ([.fault (.needlessValue flag)], none)
  | some flag, _ => if flag.takesValue then ([], some flag) else ([.plain flag], none)

/-- Whether an argument is a flag rather than a value: it starts with a dash and is not a dash
alone. -/
def isFlagLike (argument : String) : Bool :=
  match argument.toList with
  | '-' :: _ :: _ => true
  | _ => false

/-- The tokens of an argument, and the flag in it that waits for a value. -/
def ofArgument (argument : String) : List Token × Option Flag :=
  match argument.toList with
  | '-' :: '-' :: text => ofLong text
  | '-' :: c :: letters => ofLetters (c :: letters)
  | _ => ([.fault (.unexpected argument)], none)

/-- The tokens of all arguments. Two dashes alone end the flags; nothing may follow them. -/
def ofArguments : List String → List Token
  | [] => []
  | "--" :: rest => rest.map fun argument => .fault (.unexpected argument)
  | argument :: rest =>
    match ofArgument argument, rest with
    | (tokens, none), rest => tokens ++ ofArguments rest
    | (tokens, some flag), [] => tokens ++ [.fault (.missingValue flag)]
    | (tokens, some flag), value :: rest =>
      if isFlagLike value then tokens ++ [.fault (.missingValue flag)]
      else tokens ++ .valued flag value :: ofArguments rest

end Token

/-! ### Requests -/

/-- What the arguments ask for. -/
inductive Request where
  | run (invocation : Invocation)
  | help
  | version
  deriving DecidableEq, Repr

namespace Invocation

/-- The invocation with one more flag that takes a value. -/
def set (i : Invocation) (flag : Flag) (value : String) : Except UsageError Invocation :=
  match flag with
  | .file => if i.file.isSome then .error (.repeated flag) else .ok { i with file := value }
  | .command =>
    if i.command.isSome then .error (.repeated flag) else .ok { i with command := value }
  | .format =>
    match Format.ofName? value with
    | some format =>
      if i.format.isSome then .error (.repeated flag) else .ok { i with format := format }
    | none => .error (.invalidValue flag value)
  | .settings =>
    if value.isEmpty then .error (.missingValue flag)
    else if i.settings.isSome then .error (.repeated flag)
    else .ok { i with settings := value }
  | _ => .error (.needlessValue flag)

/-- The invocation with one more flag that takes no value. -/
def switch (i : Invocation) (flag : Flag) : Except UsageError Invocation :=
  match flag with
  | .stdin => if i.stdin then .error (.repeated flag) else .ok { i with stdin := true }
  | .verbose => if i.verbose then .error (.repeated flag) else .ok { i with verbose := true }
  | _ => .error (.missingValue flag)

end Invocation

namespace Request

/-- The request that tokens make after those that `invocation` holds. -/
def ofTokens (invocation : Invocation) : List Token → Except UsageError Request
  | [] => .ok (.run invocation)
  | .plain .help :: _ => .ok .help
  | .plain .version :: _ => .ok .version
  | .plain flag :: tokens =>
    match invocation.switch flag with
    | .ok invocation => ofTokens invocation tokens
    | .error e => .error e
  | .valued flag value :: tokens =>
    match invocation.set flag value with
    | .ok invocation => ofTokens invocation tokens
    | .error e => .error e
  | .fault e :: _ => .error e

def ofArguments (arguments : List String) : Except UsageError Request :=
  ofTokens .plain (Token.ofArguments arguments)

end Request

end DdlCatalog.Command
