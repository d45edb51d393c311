import DdlCatalog.Toml.Number
import DdlCatalog.Toml.Value

/-!
# TOML documents

A document is a list of expressions, one to a line: headers, which open a table, and fields, which
go into the table that was opened last.
-/

namespace DdlCatalog.Toml

open Reader

/-- A key with the keys that lead to it. -/
def path : Reader Path := do
  let (parents, key) ← dottedKey
  return { parents, key }

def field (value : Reader Value) : Reader (Path × Value) := do
  let path ← path
  word "="
  spaces
  let value ← value
  spaces
  return (path, value)

def array (value : Reader Value) : Reader Value := do
  word "["
  let items ← maybe (sepBy1 (do gap; let item ← value; gap; return item) (word ","))
  if items.isSome then let _ ← maybe (word ",")
  gap
  word "]"
  return .array (items.getD [])

/-- A table in braces, all on one line. -/
def inlineTable (value : Reader Value) : Reader Value := do
  word "\x7b"
  let fields ← maybe (sepBy1 (field value) (word ","))
  spaces
  word "\x7d"
  match (fields.getD []).foldlM (fun table (path, value) => table.insert path value)
      (Value.table .inline []) with
  | some table => return table
  | none => failure

/-- A value in which at most `depth` arrays and tables are nested. -/
def valueWithin : Nat → Reader Value
  | 0 => scalar
  | depth + 1 => scalar <|> array (valueWithin depth) <|> inlineTable (valueWithin depth)
where
  /-- A value that holds no others. -/
  scalar : Reader Value :=
    .string <$> string <|>
    .datetime <$> datetime <|>
    .float <$> float <|>
    .integer <$> integer <|>
    (do word "true"; return .boolean true) <|>
    (do word "false"; return .boolean false)

def value : Reader Value :=
  valueWithin (nestingLimit - 1)

/-- What a line of a document says. -/
inductive Expression where
  | field (path : Path) (value : Value)
  | header (path : Path)
  /-- A header in double brackets. -/
  | arrayHeader (path : Path)

/-- The expression of a line. -/
def expression : Reader Expression :=
  (do word "[["; let path ← path; word "]]"; return .arrayHeader path) <|>
  (do word "["; let path ← path; word "]"; return .header path) <|>
  (do let (path, value) ← field value; return .field path value)

/-- A line with or without an expression. -/
def line : Reader (Option Expression) := do
  spaces
  let found ← maybe expression
  lineEnd
  return found

def expressions : Reader (List Expression) := do
  let _ ← maybe (word "\uFEFF")
  let lines ← many line
  endOfText
  return lines.filterMap id

/-- A document under construction: its table, and the path of the table that is open. -/
structure Draft where
  root : Value
  opened : List String

/-- The draft after an expression. -/
def Draft.add (draft : Draft) : Expression → Option Draft
  | .field path value =>
    (draft.root.change .parent (·.insert path value) draft.opened).map fun root =>
      { draft with root }
  | .header path =>
    (draft.root.change .parent (Value.openTable path.key) path.parents).map fun root =>
      { root, opened := path.keys }
  | .arrayHeader path =>
    (draft.root.change .parent (Value.addTable path.key) path.parents).map fun root =>
      { root, opened := path.keys }

/-- The table that a document is. -/
def parse? (text : String) : Option Value := do
  let (found, _) ← expressions text.toList
  let draft ← found.foldlM Draft.add { root := .table .header [], opened := [] }
  return draft.root

end DdlCatalog.Toml
