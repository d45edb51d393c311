import DdlCatalog.Command.Run
import DdlCatalog.Text.Bytes

/-!
# Directories as values

A directory with the bytes of its files stands in for the file system: a run in it is a value. A
path is followed segment by segment, as an operating system follows it: every segment but the last
has to lead to a directory, also one that a later `..` leaves again.

The standard input is a stream. Whoever reads it, by its path or without one, takes all of it, and
leaves nothing to the next reader.
-/

namespace DdlCatalog.Command

/-! ### Paths -/

/-- A part of a path: a name, or nothing, or dots for a directory itself or the one above it. -/
abbrev Segment := List Char

/-- The segments of a path, empty ones too: the texts between its slashes. Of the first one
`segment` has been read, last character first. -/
def segmentsFrom (segment : Segment) : List Char → List Segment
  | [] => [segment.reverse]
  | '/' :: path => segment.reverse :: segmentsFrom [] path
  | c :: path => segmentsFrom (c :: segment) path

/-- The segments of a path, empty ones too. -/
def segments (path : String) : List Segment :=
  segmentsFrom [] path.toList

def longestName : Nat := 255

def longestPath : Nat := 4095

/-! ### Directories -/

/-- The working directory of a run, which is the user's home as well, and the standard input, which
something is piped into unless it is a terminal. -/
structure Directory where
  /-- The bytes of the files by name. -/
  files : List (String × ByteArray)
  input : ByteArray
  /-- The path of the directory as messages name it. -/
  home : String
  /-- Whether the standard input is a terminal. -/
  terminal : Bool := false

namespace Directory

/-- Where the directory lies, by the names from the root on. Its own name is empty: no path spells
it, and the directory is reached by relative paths and as the working directory of the process. -/
def place : List Segment := ["tmp".toList, []]

/-- What a file holds. -/
inductive Contents where
  | bytes (bytes : ByteArray)
  /-- What is left of the standard input. -/
  | input

def absolute (path : String) : List Segment :=
  (segments path).tail

/-- The directories that stand at the root of a system, whatever is in them. -/
def systemDirectories : List (List Segment) :=
  ["/bin", "/boot", "/dev", "/etc", "/home", "/lib", "/media", "/mnt", "/opt", "/proc", "/root",
    "/run", "/sbin", "/srv", "/sys", "/tmp", "/usr", "/usr/bin", "/usr/lib", "/usr/local",
    "/usr/share", "/var", "/var/lib", "/var/log", "/var/tmp"].map absolute

/-- The places of the system that stand for another one. -/
def links : List (List Segment × List Segment) :=
  [(absolute "/dev/fd", absolute "/proc/self/fd"),
    (absolute "/dev/stdin", absolute "/proc/self/fd/0"), (absolute "/proc/self/cwd", place)]

/-- The files that paths lead to, by the names from the root on: the empty device, the standard
input, and those of the directory. -/
def allFiles (d : Directory) : List (List Segment × Contents) :=
  (absolute "/dev/null", .bytes .empty) :: (absolute "/proc/self/fd/0", .input) ::
    d.files.map fun (path, bytes) => (place ++ segments path, .bytes bytes)

/-- What the file at a place holds. -/
def contents? (d : Directory) (here : List Segment) : Option Contents :=
  d.allFiles.lookup here

/-- Whether there is a file or a directory at a place: a directory is on the way to a file, to the
working directory or to a directory of the system. -/
def holds (d : Directory) (here : List Segment) : Bool :=
  (place :: systemDirectories ++ d.allFiles.map Prod.fst).any here.isPrefixOf

/-- The place that a segment of a path leads to from a place. -/
def step (d : Directory) (here : List Segment) (segment : Segment) :
    Except ReadFailure (List Segment) :=
  let there := here ++ [segment]
  if (d.contents? here).isSome then .error .notDirectory
  else if segment = [] ∨ segment = ['.'] then .ok here
  else if segment = ['.', '.'] then .ok here.dropLast
  else if longestName < Text.byteLength segment then .error .nameTooLong
  else if let some target := links.lookup there then .ok target
  else if d.holds there then .ok there
  else .error .missing

def follow (d : Directory) (path : String) : Except ReadFailure (List Segment) :=
  if path = "" then .error .missing
  else if longestPath < Text.byteLength path.toList then .error .nameTooLong
  else (segments path).foldlM d.step (if path.toList.head? = some '/' then [] else place)

/-- What the file at a path holds. -/
def contents (d : Directory) (path : String) : Except ReadFailure Contents := do
  match d.contents? (← d.follow path) with
  | some contents => return contents
  | none => throw .isDirectory

/-! ### Reading -/

/-- The text that bytes are in UTF-8. -/
def decode (bytes : ByteArray) : Except ReadFailure String :=
  match String.fromUTF8? bytes with
  | some text => .ok text
  | none => .error .notUtf8

/-- Takes what is left of the standard input. -/
def takeInput : StateM ByteArray (Except ReadFailure String) :=
  fun left => (decode left, .empty)

def text (d : Directory) (path : String) : StateM ByteArray (Except ReadFailure String) :=
  match d.contents path with
  | .ok (.bytes bytes) => return decode bytes
  | .ok .input => takeInput
  | .error reason => return .error reason

/-- The directory as what a run reads from; what is left of the standard input changes. -/
def host (d : Directory) : Host (StateM ByteArray) where
  text := d.text
  input := takeInput
  interactive := return d.terminal
  ownSettings := d.text ".pgschemarc"
  ownSettingsPath := d.home ++ "/.pgschemarc"

def run (d : Directory) (arguments : List String) : Report :=
  (Command.run d.host arguments d.input).run.1

end Directory

end DdlCatalog.Command
