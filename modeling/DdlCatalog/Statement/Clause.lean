import DdlCatalog.Catalog.Definition
import DdlCatalog.Sql.Nesting
import DdlCatalog.Statement.Error
import DdlCatalog.Text.Bytes

/-!
# The clauses of a column list

A clause runs to the first comma or closing parenthesis outside quotes and inner parentheses. It
declares a constraint if its first word is `CONSTRAINT` and a column otherwise; a blank clause
declares nothing.
-/

namespace DdlCatalog

/-- A clause of a column list. -/
inductive Clause where
  | constraint (name definition : String)
  | column (name definition : String)
  | empty
  deriving DecidableEq, Repr

namespace Clause

open Text

/-- The first word of a text and the text after it, trimmed; none if no blank ends the word. -/
def nameAndDefinition? (text : List Char) : Option (List Char × List Char) :=
  match text.dropWhile fun c => !isBlank c with
  | [] => none
  | rest => some (text.takeWhile fun c => !isBlank c, trim rest)

/-- The text after the word `CONSTRAINT` and the blanks that follow it. -/
def afterConstraint? (text : List Char) : Option (List Char) :=
  match "CONSTRAINT".toList.isPrefixOf? text with
  | some rest => if startsBlank rest then some (trimStart rest) else none
  | none => none

/-- The clause that a text is. -/
def ofText (text : List Char) : Except ParseError Clause :=
  let text := trim text
  let unreadable := ParseError.unreadable (String.ofList text)
  if text.isEmpty then .ok .empty
  else
    match afterConstraint? text with
    | some rest =>
      match nameAndDefinition? rest with
      | some (name, definition) => .ok (.constraint (String.ofList name) (String.ofList definition))
      | none => .error unreadable
    | none =>
      match nameAndDefinition? text with
      | some (name, definition) => .ok (.column (String.ofList name) (String.ofList definition))
      | none => .error unreadable

/-- Whether a character outside quotes and inner parentheses ends a clause. -/
def isStop (c : Char) : Bool :=
  c == ',' || c == ')'

/-- The first clause of a text, the character that ends it and the text after that. -/
def cut (text : List Char) : Except ParseError Sql.Cut :=
  match Sql.splitTop isStop text with
  | some cut => .ok cut
  | none => .error (.unterminated (String.ofList (trim text)))

theorem length_rest_lt_of_cut {text : List Char} {c : Sql.Cut} (h : cut text = .ok c) :
    c.rest.length < text.length := by
  unfold cut at h
  split at h
  next found =>
    cases h
    exact Sql.length_rest_lt_of_splitTop found
  · cases h

/-! ### Clauses by byte offset -/

/-- What ends a clause. -/
inductive Stop where
  /-- A comma; more clauses follow. -/
  | comma
  /-- The parenthesis that closes the list. -/
  | close
  deriving DecidableEq, Repr

namespace Stop

/-- What a stopping character says about the list. -/
def ofChar (c : Char) : Stop :=
  if c = ')' then .close else .comma

def char : Stop → Char
  | .comma => ','
  | .close => ')'

end Stop

/-- Where a clause ends. -/
structure End where
  /-- The number of bytes before the character that ends the clause. -/
  offset : Nat
  stop : Stop
  deriving DecidableEq, Repr

/-- Where the clause ends that starts after `start` bytes of a text. -/
def endFrom (text : String) (start : Nat) : Except ParseError End :=
  match dropBytes? start text.toList with
  | none => .error (.unreadable text)
  | some tail =>
    match cut tail with
    | .ok c => .ok { offset := start + byteLength c.before, stop := .ofChar c.char }
    | .error e => .error e

end Clause

namespace Table

/-- Carries out a clause. What the clause names is in the table afterwards even if its definition
is refused. -/
def applyClause (t : Table) : Clause → Table × Except ParseError Unit
  | .constraint name definition => (t.defineConstraint name definition, .ok ())
  | .column name definition =>
    match t.defineColumn name definition with
    | (t, .ok _) => (t, .ok ())
    | (t, .error e) => (t, .error (.definition e))
  | .empty => (t, .ok ())

/-- Carries out the clauses of a text one by one until the list is closed, and gives the text after
it. At the first error the clauses before it have been carried out. -/
def applyClauses (t : Table) (text : List Char) : Table × Except ParseError (List Char) :=
  match _h : Clause.cut text with
  | .error e => (t, .error e)
  | .ok cut =>
    match Clause.ofText cut.before with
    | .error e => (t, .error e)
    | .ok clause =>
      match t.applyClause clause with
      | (t, .error e) => (t, .error e)
      | (t, .ok ()) =>
        match Clause.Stop.ofChar cut.char with
        | .close => (t, .ok cut.rest)
        | .comma => t.applyClauses cut.rest
termination_by text.length
decreasing_by exact Clause.length_rest_lt_of_cut ‹_›

end Table

end DdlCatalog
