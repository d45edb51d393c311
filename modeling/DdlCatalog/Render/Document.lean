import DdlCatalog.Catalog.Schema
import DdlCatalog.Json

/-!
# A schema as JSON

The keys of every object stand in alphabetical order.
-/

namespace DdlCatalog

def Column.toJson (c : Column) : Json :=
  .object
    [("default", .ofOption .string c.default), ("name", .string c.name),
      ("nullable", .bool c.nullable), ("type", .ofOption .string c.dataType)]

def Constraint.toJson (c : Constraint) : Json :=
  .object [("definition", .string c.definition), ("name", .string c.name)]

def Table.toJson (t : Table) : Json :=
  .object
    [("columns", .array (t.columns.map Column.toJson)),
      ("constraints", .array (t.constraints.map Constraint.toJson)),
      ("inherits", .ofOption .string t.inherits), ("name", .string t.name),
      ("with_oids", .ofOption .bool t.withOids)]

def Schema.toJson (s : Schema) : Json :=
  .object [("schema", .string s.name), ("tables", .array (s.tables.map Table.toJson))]

end DdlCatalog
