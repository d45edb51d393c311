import DdlCatalog.Render.Document
import DdlCatalog.Render.Grid

/-!
# Output formats

A schema is shown as a grid for each of its tables or as a JSON document.
-/

namespace DdlCatalog

namespace Table

/-- The rows of the grid that shows a table: a head, the columns, the constraints. -/
def rows (t : Table) : List (List Grid.Cell) :=
  let texts := ["Column", "Type", "Default", "Nullable"] ::
    t.columns.map (fun c =>
      [c.name, c.dataType.getD "", c.default.getD "", if c.nullable then "yes" else "no"]) ++
    t.constraints.map fun c => [s!"CONSTRAINT {c.name}", c.definition, "", ""]
  texts.map (·.map Grid.cell)

/-- A table as text: its name, its grid, its options and an empty line. -/
def render (t : Table) : String :=
  s!"Table \"{t.name}\"\n" ++ String.ofList (Grid.render t.rows) ++
    t.inherits.elim "" (fun parents => s!"Inherits: {parents}\n") ++
    t.withOids.elim "" (fun oids => if oids then "Has OIDs: yes\n" else "Has OIDs: no\n") ++ "\n"

end Table

/-- How a schema is shown. -/
inductive Format where
  | table
  | json
  deriving DecidableEq, Repr

namespace Format

/-- The format where none is asked for. -/
def default : Format :=
  .table

def ofName? : String → Option Format
  | "table" => some .table
  | "json" => some .json
  | _ => none

def name : Format → String
  | .table => "table"
  | .json => "json"

end Format

def Schema.render (s : Schema) : Format → String
  | .table => String.join (s.tables.map Table.render)
  | .json => s.toJson.pretty

end DdlCatalog
