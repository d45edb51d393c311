import DdlCatalog.Command.Run

/-!
# The program

The command line over the operating system's files and streams.
-/

namespace DdlCatalog

/-- Whether the code of an error is a number of the system; some calls hand it on negated. -/
def isErrorNumber (code number : UInt32) : Bool :=
  code == number || code == 0 - number

/-- Why an action cannot read. -/
def failureOf : IO.Error → Command.ReadFailure
  | .noFileOrDirectory .. => .missing
  | .inappropriateType _ code _ => if isErrorNumber code 21 then .isDirectory else .notDirectory
  | e@(.invalidArgument _ code _) =>
    if isErrorNumber code 36 then .nameTooLong else .other (toString e)
  | e => .other (toString e)

def readText (read : IO ByteArray) : IO (Except Command.ReadFailure String) := do
  try
    match String.fromUTF8? (← read) with
    | some text => return .ok text
    | none => return .error .notUtf8
  catch e => return .error (failureOf e)

/-- All bytes of a stream after those in `bytes`. -/
partial def readToEnd (stream : IO.FS.Stream) (bytes : ByteArray) : IO ByteArray := do
  let more ← stream.read 65536
  if more.isEmpty then return bytes else readToEnd stream (bytes ++ more)

/-- The operating system as what a run reads from. -/
def systemHost (home : String) : Command.Host IO where
  text path := readText (IO.FS.readBinFile path)
  input := readText do readToEnd (← IO.getStdin) .empty
  interactive := do (← IO.getStdin).isTty
  ownSettings := readText (IO.FS.readBinFile (home ++ "/.pgschemarc"))
  ownSettingsPath := home ++ "/.pgschemarc"

end DdlCatalog

def main (arguments : List String) : IO UInt32 := do
  let home := (← IO.getEnv "HOME").getD ""
  let report ← DdlCatalog.Command.run (DdlCatalog.systemHost home) arguments
  (← IO.getStdout).putStr report.output
  (← IO.getStderr).putStr report.messages
  return report.exitCode.toUInt32
