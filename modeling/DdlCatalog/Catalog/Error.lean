/-!
# What can go wrong in the catalog
-/

namespace DdlCatalog

/-- Why the catalog refuses a request. -/
inductive CatalogError where
  /-- No table has this name. -/
  | tableNotFound (name : String)
  /-- The text that follows a column's name has no type in it. -/
  | invalidDefinition (column definition : String)
  deriving DecidableEq, Repr

def CatalogError.message : CatalogError → String
  | .tableNotFound name => s!"Table '{name}' not found"
  | .invalidDefinition column definition =>
    s!"Cannot parse definition of column '{column}': '{definition}'"

end DdlCatalog
