import DdlCatalog.Catalog.Named
import DdlCatalog.Text.Blank
import DdlCatalog.Text.Capitals

/-!
# Table constraints
-/

namespace DdlCatalog

/-- A named constraint of a table; its definition is kept as it is written. -/
structure Constraint where
  name : String
  definition : String
  deriving DecidableEq, Repr

namespace Constraint

/-- A constraint of which only the name is known. -/
def ofName (name : String) : Constraint :=
  { name, definition := "" }

instance : Named Constraint where
  name := Constraint.name
  fresh := ofName
  name_fresh _ := rfl

def define (c : Constraint) (definition : String) : Constraint :=
  { c with definition }

/-- Whether the definition declares the table's primary key, in whatever case it is written. -/
def isPrimaryKey (c : Constraint) : Bool :=
  "PRIMARY KEY".toList.isPrefixOf (Text.capitals (Text.trimStart c.definition.toList))

end Constraint

end DdlCatalog
