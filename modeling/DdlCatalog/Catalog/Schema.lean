import DdlCatalog.Catalog.Error
import DdlCatalog.Catalog.Table

/-!
# Schemas
-/

namespace DdlCatalog

/-- A named collection of tables. They are kept in increasing order of their names, so that no name
stands for two of them and schemas with the same tables are equal. -/
@[ext] structure Schema where
  name : String
  /-- The tables as they are kept. -/
  stored : List Table
  ordered : (Named.names stored).Pairwise (· < ·)
  deriving DecidableEq, Repr

namespace Schema

/-- A schema without tables. -/
def ofName (name : String) : Schema :=
  { name, stored := [], ordered := .nil }

/-- The empty schema that a dump fills when it names no other. -/
def default : Schema :=
  ofName "public"

variable (s : Schema)

/-- The table of a given name, if there is one. -/
def table? (name : String) : Option Table :=
  Named.find? name s.stored

/-- The table of a given name, a fresh one if there is none. -/
def table (name : String) : Table :=
  Named.get name s.stored

/-- The table of a given name, an error if there is none. -/
def existing (name : String) : Except CatalogError Table :=
  match s.table? name with
  | some t => .ok t
  | none => .error (.tableNotFound name)

/-- The schema with `t` as its table of that name. -/
def put (t : Table) : Schema :=
  { s with
    stored := Named.putInOrder t s.stored
    ordered := Named.pairwise_putInOrder t s.ordered }

/-- The schema with a table of a given name, a fresh one if it had none. -/
def ensureTable (name : String) : Schema :=
  s.put (s.table name)

/-! ### Listings -/

/-- The names of all tables, sorted. -/
def tableNames : List String :=
  Named.sortOn id (Named.names s.stored)

/-- All tables, sorted by their names. -/
def tables : List Table :=
  Named.sortOn Table.name s.stored

def tableCount : Nat :=
  s.stored.length

end Schema

end DdlCatalog
