import DdlCatalog.Catalog.Error

/-!
# Why a statement cannot be carried out
-/

namespace DdlCatalog

/-- What is wrong with a `CREATE TABLE` statement or a part of it. -/
inductive ParseError where
  /-- The text does not have the shape it should have. -/
  | unreadable (text : String)
  /-- The text ends before the clause that it starts does. -/
  | unterminated (tail : String)
  /-- The definition of a column is refused. -/
  | definition (cause : CatalogError)
  /-- A clause of the column list of `table` is wrong. -/
  | columnList (table body : String) (cause : ParseError)
  /-- Something other than options follows the column list of `table`. -/
  | leftover (table residual : String)
  deriving DecidableEq, Repr

def ParseError.message : ParseError → String
  | .unreadable text => s!"Cannot parse command: {text}"
  | .unterminated tail => s!"Unterminated clause: {tail}"
  | .definition cause => cause.message
  | .columnList table body _ => s!"Cannot parse command: CREATE TABLE {table} ( {body}"
  | .leftover table residual =>
    s!"Cannot parse CREATE TABLE '{table}' - do not know how to parse '{residual}'"

/-- Why a statement fails, or what lies behind such a failure. -/
inductive Failure where
  | catalog (error : CatalogError)
  | parse (error : ParseError)
  /-- The statement, which starts with this line, is none that a catalog is built from. -/
  | unsupported (line : String)
  deriving DecidableEq, Repr

/-- What lies behind an error, nearest first. -/
def ParseError.causes : ParseError → List Failure
  | .definition cause => [.catalog cause]
  | .columnList _ _ cause => .parse cause :: cause.causes
  | _ => []

namespace Failure

def message : Failure → String
  | .catalog error => error.message
  | .parse error => error.message
  | .unsupported line => s!"Unsupported statement: {line}"

def causes : Failure → List Failure
  | .parse error => error.causes
  | _ => []

end Failure

end DdlCatalog
