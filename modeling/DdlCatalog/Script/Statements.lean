import DdlCatalog.Text.Blank

/-!
# The statements of a script

A semicolon outside quotes and comments ends a statement and belongs to it. Comments are left out:
`--` comments up to the end of their line, `/*` comments up to the next `*/`. A blank statement is
none.
-/

namespace DdlCatalog.Script

open Text

/-- Where a place in a script stands. -/
inductive Context where
  /-- In the text of a statement. -/
  | plain
  /-- In quotes that `mark` has opened. -/
  | quoted (mark : Char)
  | lineComment
  | blockComment
  deriving DecidableEq, Repr

/-- The statements of a script from a place on; `read` is what has been read of the statement that
the place is in, last character first. -/
def statementsFrom : Context → List Char → List Char → List String
  | .blockComment, read, '*' :: '/' :: script => statementsFrom .plain read script
  | .blockComment, read, _ :: script => statementsFrom .blockComment read script
  | .lineComment, read, '\n' :: script => statementsFrom .plain ('\n' :: read) script
  | .lineComment, read, _ :: script => statementsFrom .lineComment read script
  | .quoted mark, read, c :: script =>
    statementsFrom (if c = mark then .plain else .quoted mark) (c :: read) script
  | .plain, read, '/' :: '*' :: script => statementsFrom .blockComment read script
  | .plain, read, '-' :: '-' :: script => statementsFrom .lineComment read script
  | .plain, read, ';' :: script =>
    let statement := trim read.reverse
    if statement.isEmpty then statementsFrom .plain [] script
    else String.ofList (statement ++ [';']) :: statementsFrom .plain [] script
  | .plain, read, c :: script =>
    statementsFrom (if c = '\'' ∨ c = '"' then .quoted c else .plain) (c :: read) script
  | _, read, [] =>
    let statement := trim read.reverse
    if statement.isEmpty then [] else [String.ofList statement]

def statements (script : String) : List String :=
  statementsFrom .plain [] script.toList

end DdlCatalog.Script
