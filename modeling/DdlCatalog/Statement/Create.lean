import DdlCatalog.Catalog.Schema
import DdlCatalog.Statement.Clause
import DdlCatalog.Statement.Heading
import DdlCatalog.Statement.Options

/-!
# `CREATE TABLE`

A statement is carried out piece by piece: its clauses, then its options. An error ends it, and
what came before the error stays in the table.
-/

namespace DdlCatalog

/-- The text without the blanks it ends with and without one semicolon before them. -/
def dropTerminator (text : List Char) : List Char :=
  let text := Text.trimEnd text
  ([';'].isSuffixOf? text).getD text

namespace Schema

/-- Carries out a `CREATE TABLE` statement; the answer is the table's name. The table need not be
new: the statement then adds to it. -/
def create (s : Schema) (command : String) : Schema × Except ParseError String :=
  match Heading.ofCommand command with
  | .error e => (s, .error e)
  | .ok heading =>
    let body := dropTerminator heading.rest.toList
    match (s.table heading.table).applyClauses body with
    | (t, .error e) => (s.put t, .error (.columnList heading.table (String.ofList body) e))
    | (t, .ok tail) =>
      let (t, residual) := t.applyOptions tail
      let residual := Text.trim residual
      if residual.isEmpty then (s.put t, .ok heading.table)
      else (s.put t, .error (.leftover heading.table (String.ofList residual)))

end Schema

end DdlCatalog
