/-!
# TOML values

A document is a table. Its tables come about in different ways, and where a later line may add to a
table depends on how it came about, so a table remembers its origin. `change` walks to a table
along a path of keys and makes the tables that are missing on the way.
-/

namespace DdlCatalog.Toml

/-- How a table came about. -/
inductive Origin where
  /-- A header names it, or it is the document itself. -/
  | header
  /-- It stands on the path of a header that names a table inside it. -/
  | parent
  /-- It stands on the path of a dotted key. -/
  | dotted
  /-- It is written in braces, and complete. -/
  | inline
  deriving DecidableEq, Repr

inductive Value where
  | string (value : String)
  | boolean (value : Bool)
  | integer (value : Int)
  /-- A floating-point number as it is written. -/
  | float (literal : String)
  /-- A date, a time or both as they are written. -/
  | datetime (literal : String)
  | array (items : List Value)
  | table (origin : Origin) (fields : List (String × Value))
  /-- The tables that headers in double brackets have added so far, the last one first. -/
  | tables (items : List Value)
  deriving Repr

/-- A key with the keys that lead to it. -/
structure Path where
  parents : List String
  key : String
  deriving DecidableEq, Repr

/-- The keys of a path in order. -/
def Path.keys (p : Path) : List String :=
  p.parents ++ [p.key]

/-- The fields with one of them set to a value, in its place or at the end. -/
def setField (key : String) (value : Value) : List (String × Value) → List (String × Value)
  | [] => [(key, value)]
  | (k, v) :: fields =>
    if k = key then (key, value) :: fields else (k, v) :: setField key value fields

namespace Value

/-- Whether a path that makes tables of origin `made` may lead through a value. -/
def letsThrough (made : Origin) : Value → Bool
  | .table .header _ => made != .dotted
  | .table .parent _ => true
  | .table .dotted _ => true
  | _ => false

/-- Changes the table at the end of a path. Missing tables on the way are made with origin `made`;
in an array of tables the way leads through the last one. -/
def change (made : Origin) (f : Value → Option Value) : List String → Value → Option Value
  | [], value => f value
  | key :: path, .table origin fields =>
    let changed := match fields.lookup key with
      | none => change made f path (.table made [])
      | some (.tables (last :: before)) =>
        (change made f path last).map fun last => .tables (last :: before)
      | some child => if child.letsThrough made then change made f path child else none
    changed.map fun child => .table origin (setField key child fields)
  | _ :: _, _ => none

/-- A table with one more field. A dotted key adds to tables of its own kind only, a plain key to
all others. -/
def addField (dotted : Bool) (key : String) (value : Value) : Value → Option Value
  | .table origin fields =>
    if (origin == .dotted) == dotted && (fields.lookup key).isNone then
      some (.table origin (setField key value fields))
    else none
  | _ => none

/-- A table with one more field at a path. -/
def insert (table : Value) (path : Path) (value : Value) : Option Value :=
  table.change .dotted (addField (!path.parents.isEmpty) path.key value) path.parents

/-- A table in which a header has opened the table `key`: it is new, or other headers have led
through it only. -/
def openTable (key : String) : Value → Option Value
  | .table origin fields =>
    match fields.lookup key with
    | none => some (.table origin (setField key (.table .header []) fields))
    | some (.table .parent inner) =>
      some (.table origin (setField key (.table .header inner) fields))
    | some _ => none
  | _ => none

/-- A table in which a header in double brackets has added a table to the array `key`. -/
def addTable (key : String) : Value → Option Value
  | .table origin fields =>
    match fields.lookup key with
    | none => some (.table origin (setField key (.tables [.table .header []]) fields))
    | some (.tables items) =>
      some (.table origin (setField key (.tables (.table .header [] :: items)) fields))
    | some _ => none
  | _ => none

end Value

end DdlCatalog.Toml
