import DdlCatalog.Catalog.Column
import DdlCatalog.Catalog.Constraint

/-!
# Tables
-/

namespace DdlCatalog

/-- A table, as far as statements have described it. -/
structure Table where
  name : String
  /-- The columns in the order in which they were first mentioned. -/
  columns : List Column
  /-- The constraints in the order in which they were first mentioned. -/
  constraints : List Constraint
  /-- The list of parent tables as it is written between its parentheses. -/
  inherits : Option String
  /-- Whether rows have object identifiers, if a statement says so. -/
  withOids : Option Bool
  deriving DecidableEq, Repr

namespace Table

/-- A table of which only the name is known. -/
def ofName (name : String) : Table :=
  { name, columns := [], constraints := [], inherits := none, withOids := none }

instance : Named Table where
  name := Table.name
  fresh := ofName
  name_fresh _ := rfl

variable (t : Table)

/-- The column of a given name, if there is one. -/
def column? (name : String) : Option Column :=
  Named.find? name t.columns

/-- The column of a given name, a fresh one if there is none. -/
def column (name : String) : Column :=
  Named.get name t.columns

/-- The table with `c` as its column of that name. -/
def putColumn (c : Column) : Table :=
  { t with columns := Named.put c t.columns }

def constraint? (name : String) : Option Constraint :=
  Named.find? name t.constraints

def constraint (name : String) : Constraint :=
  Named.get name t.constraints

def putConstraint (c : Constraint) : Table :=
  { t with constraints := Named.put c t.constraints }

/-- The table with a column of a given name, a fresh one if it had none. -/
def ensureColumn (name : String) : Table :=
  t.putColumn (t.column name)

/-- The table with a constraint of a given name, a fresh one if it had none. -/
def ensureConstraint (name : String) : Table :=
  t.putConstraint (t.constraint name)

def setInherits (parents : String) : Table :=
  { t with inherits := some parents }

/-- The table with or without object identifiers. -/
def setOids (oids : Bool) : Table :=
  { t with withOids := some oids }

/-- The place of a column among the columns, counted from zero. -/
def columnIndex? (name : String) : Option Nat :=
  t.columns.findIdx? fun c => c.name == name

def columnNames : List String :=
  Named.names t.columns

def constraintNames : List String :=
  Named.names t.constraints

/-- The first constraint that declares a primary key. -/
def primaryKey? : Option Constraint :=
  t.constraints.find? Constraint.isPrimaryKey

end Table

end DdlCatalog
