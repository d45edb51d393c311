import DdlCatalog.Script.Statements
import DdlCatalog.Statement.Create
import DdlCatalog.Text.Lines

/-!
# Loading a script

The statements of a script are carried out in order. Only `CREATE TABLE` statements build the
catalog; a policy says whether others are passed over or count as failures, and whether a failure
ends the load.
-/

namespace DdlCatalog.Script

/-- What a load does about statements that it cannot use. -/
structure Policy where
  /-- Statements other than `CREATE TABLE` are passed over. -/
  skipUnsupported : Bool
  /-- A failure does not end the load. -/
  continueOnError : Bool
  deriving DecidableEq, Repr

/-- Other statements are passed over, and the first failure ends the load. -/
def Policy.default : Policy :=
  { skipUnsupported := true, continueOnError := false }

/-- How many statements of a script fared in which way. -/
structure Summary where
  parsed : Nat
  skipped : Nat
  failed : Nat
  deriving DecidableEq, Repr

namespace Summary

def zero : Summary :=
  { parsed := 0, skipped := 0, failed := 0 }

def total (s : Summary) : Nat :=
  s.parsed + s.skipped + s.failed

/-- The report of a load, without a final line feed. -/
def render (s : Summary) : String :=
  "\n".intercalate
    ["=== Load Summary ===", s!"Total statements: {s.total}", s!"Parsed: {s.parsed}",
      s!"Skipped: {s.skipped}", s!"Failed: {s.failed}"]

end Summary

/-- The failure that ends a load. -/
structure LoadError where
  /-- The place of the statement among all statements of the script, counted from one. -/
  number : Nat
  cause : Failure
  deriving DecidableEq, Repr

namespace LoadError

def message (e : LoadError) : String :=
  s!"Statement {e.number} failed"

/-- What lies behind the error, nearest first. -/
def causes (e : LoadError) : List Failure :=
  e.cause :: e.cause.causes

/-- The wording of the error and of everything behind it on one line. -/
def fullMessage (e : LoadError) : String :=
  ": ".intercalate (e.message :: e.causes.map Failure.message)

end LoadError

/-- Whether a statement starts as one that builds the catalog. -/
def isCreateTable (statement : String) : Bool :=
  "CREATE TABLE".toList.isPrefixOf (Text.trimStart statement.toList)

/-- How a statement fares. -/
inductive Outcome where
  | parsed
  | skipped
  | failed (cause : Failure)
  deriving DecidableEq, Repr

/-- The counts with one more statement. -/
def Summary.add (s : Summary) : Outcome → Summary
  | .parsed => { s with parsed := s.parsed + 1 }
  | .skipped => { s with skipped := s.skipped + 1 }
  | .failed _ => { s with failed := s.failed + 1 }

/-- The failure that ends a load, if this outcome does. -/
def Policy.fatal? (policy : Policy) : Outcome → Option Failure
  | .failed cause => if policy.continueOnError then none else some cause
  | _ => none

def step (policy : Policy) (schema : Schema) (statement : String) : Schema × Outcome :=
  if isCreateTable statement then
    match schema.create statement with
    | (schema, .ok _) => (schema, .parsed)
    | (schema, .error e) => (schema, .failed (.parse e))
  else if policy.skipUnsupported then (schema, .skipped)
  else
    let line := Text.firstLine (Text.trim statement.toList)
    (schema, .failed (.unsupported (String.ofList line)))

/-- What a load leaves. -/
structure Load where
  schema : Schema
  /-- The numbers of the `CREATE TABLE` statements that the load came to. -/
  attempted : List Nat
  /-- The counts of a load that came to its end, the failure that ended it otherwise. -/
  result : Except LoadError Summary

/-- Loads the statements from number `number` on, after those that `summary` counts. -/
def loadFrom (policy : Policy) (number : Nat) (summary : Summary) (schema : Schema) :
    List String → Load
  | [] => { schema, attempted := [], result := .ok summary }
  | statement :: statements =>
    let here := if isCreateTable statement then [number] else []
    let (schema, outcome) := step policy schema statement
    match policy.fatal? outcome with
    | some cause => { schema, attempted := here, result := .error { number, cause } }
    | none =>
      let load := loadFrom policy (number + 1) (summary.add outcome) schema statements
      { load with attempted := here ++ load.attempted }

def loadStatements (policy : Policy) (schema : Schema) (statements : List String) : Load :=
  loadFrom policy 1 .zero schema statements

def load (policy : Policy) (schema : Schema) (script : String) : Load :=
  loadStatements policy schema (statements script)

end DdlCatalog.Script
