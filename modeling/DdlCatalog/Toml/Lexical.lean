import DdlCatalog.Toml.Reader

/-!
# Blanks, comments, strings and keys of TOML
-/

namespace DdlCatalog.Toml

open Reader

/-- A blank within a line. -/
def isSpace (c : Char) : Bool :=
  c == ' ' || c == '\t'

/-- A character that a comment or a string may hold: a tab or no ASCII control character. -/
def isText (c : Char) : Bool :=
  c == '\t' || (0x20 ≤ c.toNat && c.toNat != 0x7F)

def spaces : Reader Unit := do
  let _ ← takeWhile isSpace

def newline : Reader Unit :=
  word "\n" <|> word "\r\n"

def comment : Reader Unit := do
  word "#"
  let _ ← takeWhile isText

/-- What may follow an expression on its line. -/
def lineEnd : Reader Unit := do
  spaces
  let _ ← maybe comment
  newline <|> endOfText

/-- Blanks, ends of lines and comments. -/
def gap : Reader Unit := do
  let _ ← many do
    spaces
    let _ ← maybe comment
    newline
  spaces

/-! ### Strings -/

def hexValue? (c : Char) : Option Nat :=
  if '0' ≤ c ∧ c ≤ '9' then some (c.toNat - '0'.toNat)
  else if 'a' ≤ c ∧ c ≤ 'f' then some (c.toNat - 'a'.toNat + 10)
  else if 'A' ≤ c ∧ c ≤ 'F' then some (c.toNat - 'A'.toNat + 10)
  else none

/-- A number of `count` hexadecimal digits, after those that make up `value`. -/
def hexNumber (value : Nat) : Nat → Reader Nat
  | 0 => pure value
  | count + 1 => do
    let c ← satisfy fun c => (hexValue? c).isSome
    hexNumber (16 * value + (hexValue? c).getD 0) count

/-- A character by its code point. -/
def codePoint (digits : Nat) : Reader Char := do
  let n ← hexNumber 0 digits
  if n.isValidChar then return Char.ofNat n else failure

def escaped : Reader Char := do
  word "\\"
  match ← satisfy fun _ => true with
  | 'b' => return '\x08'
  | 't' => return '\t'
  | 'n' => return '\n'
  | 'f' => return '\x0c'
  | 'r' => return '\r'
  | '"' => return '"'
  | '\\' => return '\\'
  | 'u' => codePoint 4
  | 'U' => codePoint 8
  | _ => failure

/-- A character that stands for itself in a string with escapes. -/
def plainChar : Reader Char :=
  satisfy fun c => isText c && c != '"' && c != '\\'

/-- A character of a string without escapes. -/
def literalChar : Reader Char :=
  satisfy fun c => isText c && c != '\''

/-- A string on one line with escapes. -/
def basicString : Reader String := do
  word "\""
  let text ← many (plainChar <|> escaped)
  word "\""
  return String.ofList text

/-- A string on one line without escapes. -/
def literalString : Reader String := do
  word "'"
  let text ← many literalChar
  word "'"
  return String.ofList text

/-- The end of a line in a string that spans lines. -/
def lineBreak : Reader (List Char) := do
  newline
  return ['\n']

/-- A backslash at the end of a line, which leaves out all blanks and ends of lines after it. -/
def lineContinuation : Reader (List Char) := do
  word "\\"
  spaces
  newline
  let _ ← many (newline <|> do let _ ← satisfy isSpace)
  return []

/-- Marks in a string that spans lines, fewer than the three that end it. -/
def innerMarks (mark : Char) : Reader (List Char) := do
  let marks ← takeWhile (· == mark)
  if marks.length < 3 then return marks else failure

/-- The three marks that end a string that spans lines, and up to two that still belong to it. -/
def closingMarks (mark : Char) : Reader (List Char) := do
  let marks ← takeWhile (· == mark)
  if 3 ≤ marks.length ∧ marks.length ≤ 5 then return marks.drop 3 else failure

/-- A string that spans lines, between three marks on each side; a line end just after the opening
marks is left out. -/
def multilineString (mark : Char) (piece : Reader (List Char)) : Reader String := do
  word (String.ofList [mark, mark, mark])
  let _ ← maybe newline
  let pieces ← many (piece <|> innerMarks mark)
  let last ← closingMarks mark
  return String.ofList (pieces.flatten ++ last)

def string : Reader String :=
  multilineString '"' (lineContinuation <|> lineBreak <|> ([·]) <$> (plainChar <|> escaped)) <|>
  basicString <|>
  multilineString '\'' (lineBreak <|> ([·]) <$> literalChar) <|>
  literalString

/-! ### Keys -/

def isBareKey (c : Char) : Bool :=
  c.isAlphanum || c == '-' || c == '_'

def simpleKey : Reader String := do
  basicString <|> literalString <|> do
    let text ← takeWhile isBareKey
    if text.isEmpty then failure else return String.ofList text

/-- How deep values may be nested, and how many keys a dotted key may have: fewer than this. -/
def nestingLimit : Nat := 80

/-- Keys with dots between them, the last one apart. -/
def dottedKey : Reader (List String × String) := do
  let keys ← sepBy1 (do spaces; let key ← simpleKey; spaces; return key) (word ".")
  match keys.getLast? with
  | some key => if keys.length < nestingLimit then return (keys.dropLast, key) else failure
  | none => failure

end DdlCatalog.Toml
