import DdlCatalog.Statement.Error
import DdlCatalog.Text.Blank
import DdlCatalog.Text.Search

/-!
# The heading of a statement

The heading is `CREATE TABLE`, the table's name and the parenthesis that opens the column list,
with blanks before the name and perhaps after it. It is taken out of the statement wherever it
stands first; the text before it and the text after it stay.
-/

namespace DdlCatalog

/-- A statement's heading, taken out of the statement. -/
structure Heading where
  /-- The table's name. -/
  table : String
  /-- The statement without its heading. -/
  rest : String
  deriving DecidableEq, Repr

namespace Heading

open Text

/-- Whether a character belongs to the name that starts before it. -/
def isNameChar (c : Char) : Bool :=
  !isBlank c && c != '('

/-- The name that stands after blanks and before a parenthesis, and the text after the
parenthesis. -/
def nameAndList? (text : List Char) : Option (List Char × List Char) :=
  if startsBlank text then
    let fromName := trimStart text
    match fromName.takeWhile isNameChar, trimStart (fromName.dropWhile isNameChar) with
    | c :: name, '(' :: list => some (c :: name, list)
    | _, _ => none
  else none

/-- The name and the rest of a statement with a heading. -/
def find? (command : List Char) : Option (List Char × List Char) :=
  searchLeft "CREATE TABLE".toList (fun before after =>
    (nameAndList? after).map fun (name, list) => (name, before ++ list)) command

def ofCommand (command : String) : Except ParseError Heading :=
  match find? command.toList with
  | some (name, rest) => .ok { table := String.ofList name, rest := String.ofList rest }
  | none => .error (.unreadable command)

end Heading

end DdlCatalog
