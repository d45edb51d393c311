import DdlCatalog.Catalog.Table
import DdlCatalog.Catalog.Error
import DdlCatalog.Text.Blank
import DdlCatalog.Text.Search

/-!
# Column definitions

A definition is the text after a column's name: a type, then perhaps `DEFAULT` and an expression,
then perhaps `NOT NULL` or `NULL`. It is read from its end, because the type and the expression are
free text: first the words about `NULL`, then the last `DEFAULT` that has text on both sides; what
is left is the type.
-/

namespace DdlCatalog

/-- What a definition says about its column. -/
structure Definition where
  dataType : List Char
  default : Option (List Char)
  nullable : Bool
  deriving DecidableEq, Repr

namespace Definition

open Text

/-- The text before its last word, if that is `word` and a blank stands before it. -/
def dropLastWord? (word text : List Char) : Option (List Char) :=
  match word.isSuffixOf? (trimEnd text) with
  | some before => if endsBlank before then some (trimEnd before) else none
  | none => none

/-- The text before its last words, if these are `words` and something stands before them. -/
def dropLastWords? (words : List (List Char)) (text : List Char) : Option (List Char) :=
  match words.foldrM dropLastWord? text with
  | some before => if before.isEmpty then none else some before
  | none => none

/-- Whether the column may hold `NULL`, and the definition without the words that say so. The
`NULL` of `DEFAULT NULL` is an expression and stays. -/
def nullability (text : List Char) : Bool × List Char :=
  match dropLastWords? ["NOT".toList, "NULL".toList] text with
  | some before => (false, before)
  | none =>
    match dropLastWords? ["NULL".toList] text with
    | some before =>
      if (dropLastWords? ["DEFAULT".toList] before).isSome then (true, text) else (true, before)
    | none => (true, text)

/-- The texts before and after the last `DEFAULT` that stands between blanks and has words on both
sides. -/
def splitDefault? (text : List Char) : Option (List Char × List Char) :=
  searchRight "DEFAULT".toList (fun before after =>
    if endsBlank before && startsBlank after then
      let (dataType, value) := (trim before, trim after)
      if dataType.isEmpty || value.isEmpty then none else some (dataType, value)
    else none) text

/-- Whether a text starts with a word that no type starts with. -/
def startsWithKeyword (text : List Char) : Bool :=
  ["DEFAULT".toList, "NOT".toList, "NULL".toList].contains (firstWord text)

/-- The definition that a text is; none if it has no type. -/
def ofText? (text : List Char) : Option Definition :=
  let (nullable, remainder) := nullability (trim text)
  let (dataType, default) := match splitDefault? remainder with
    | some (dataType, value) => (dataType, some value)
    | none => (remainder, none)
  if dataType.isEmpty || startsWithKeyword dataType then none
  else some { dataType, default, nullable }

end Definition

namespace Column

/-- The column with everything but its name as a definition says; an error if the definition has
no type. -/
def define (c : Column) (definition : String) : Except CatalogError Column :=
  match Definition.ofText? definition.toList with
  | some d =>
    .ok { name := c.name, dataType := some (String.ofList d.dataType),
          default := d.default.map String.ofList, nullable := d.nullable }
  | none => .error (.invalidDefinition c.name definition)

end Column

namespace Table

/-- Defines the column of a given name. The column is in the table afterwards even if the
definition is refused. -/
def defineColumn (t : Table) (name definition : String) : Table × Except CatalogError Column :=
  match (t.column name).define definition with
  | .ok c => (t.putColumn c, .ok c)
  | .error e => (t.ensureColumn name, .error e)

def defineConstraint (t : Table) (name definition : String) : Table :=
  t.putConstraint ((t.constraint name).define definition)

end Table

end DdlCatalog
