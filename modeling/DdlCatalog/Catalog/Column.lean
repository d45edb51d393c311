import DdlCatalog.Catalog.Named

/-!
# Columns
-/

namespace DdlCatalog

/-- A column of a table, as its clause declares it. -/
structure Column where
  name : String
  /-- The type as it is written; a column that no clause has declared yet has none. -/
  dataType : Option String
  /-- The expression after `DEFAULT` as it is written. -/
  default : Option String
  nullable : Bool
  deriving DecidableEq, Repr

namespace Column

/-- A column of which only the name is known. -/
def ofName (name : String) : Column :=
  { name, dataType := none, default := none, nullable := true }

instance : Named Column where
  name := Column.name
  fresh := ofName
  name_fresh _ := rfl

/-- What follows the name in the clause that declares the column, each part after a blank. -/
def definitionSql (c : Column) : String :=
  (c.dataType.elim "" (" " ++ ·)) ++ (c.default.elim "" (" DEFAULT " ++ ·)) ++
    (if c.nullable then "" else " NOT NULL")

/-- The clause that declares the column. -/
def toSql (c : Column) : String :=
  c.name ++ c.definitionSql

end Column

end DdlCatalog
