import DdlCatalog.Catalog.Table
import DdlCatalog.Sql.Group
import DdlCatalog.Text.Blank
import DdlCatalog.Text.Search

/-!
# Table options

What may follow the column list: `INHERITS` with a parenthesised list of parents and perhaps a
semicolon, and `WITH OIDS` or `WITHOUT OIDS`. An option is taken out of the text; what stays is for
the caller to judge.
-/

namespace DdlCatalog

namespace Options

open Text

/-- The text without the semicolon that its first word starts with, if there is one. -/
def dropSemicolon (text : List Char) : List Char :=
  match trimStart text with
  | ';' :: rest => rest
  | _ => text

/-- The parents that the first `INHERITS` with a complete list names, and the text without that
option. -/
def takeInherits? (text : List Char) : Option (List Char × List Char) :=
  searchLeft "INHERITS".toList (fun before after =>
    (Sql.group? (trimStart after)).map fun (inside, rest) =>
      (trim inside, before ++ dropSemicolon rest)) text

/-- The text without the first place where `word` stands. -/
def take? (word text : List Char) : Option (List Char) :=
  searchLeft word (fun before after => some (before ++ after)) text

/-- What a text says about object identifiers, and the text without that option. `WITH OIDS`
anywhere is stronger than `WITHOUT OIDS`. -/
def takeOids? (text : List Char) : Option (Bool × List Char) :=
  match take? "WITH OIDS".toList text with
  | some rest => some (true, rest)
  | none => (take? "WITHOUT OIDS".toList text).map fun rest => (false, rest)

end Options

namespace Table

/-- Carries out the options in a text and gives the text without them. -/
def applyOptions (t : Table) (text : List Char) : Table × List Char :=
  let (t, text) := match Options.takeInherits? text with
    | some (parents, rest) => (t.setInherits (String.ofList parents), rest)
    | none => (t, text)
  match Options.takeOids? text with
  | some (oids, rest) => (t.setOids oids, rest)
  | none => (t, text)

end Table

end DdlCatalog
