/-!
# JSON

JSON values and their text: two blanks of indentation for each level, a field or an item to a line,
empty arrays and objects closed at once.
-/

namespace DdlCatalog

/-- A JSON value; the fields of an object keep their order. -/
inductive Json where
  | null
  | bool (value : Bool)
  | string (value : String)
  | array (items : List Json)
  | object (fields : List (String × Json))

namespace Json

def hexDigit (n : Nat) : Char :=
  if n < 10 then Char.ofNat ('0'.toNat + n) else Char.ofNat ('a'.toNat + (n - 10))

/-- A character as it stands in a JSON string. Marks, backslashes and control characters below
U+0020 are escaped, no others. -/
def escape (c : Char) : List Char :=
  if c = '"' then ['\\', '"']
  else if c = '\\' then ['\\', '\\']
  else if c = '\n' then ['\\', 'n']
  else if c = '\r' then ['\\', 'r']
  else if c = '\t' then ['\\', 't']
  else if c = '\x08' then ['\\', 'b']
  else if c = '\x0c' then ['\\', 'f']
  else if c.toNat < 0x20 then
    ['\\', 'u', '0', '0', hexDigit (c.toNat / 16), hexDigit (c.toNat % 16)]
  else [c]

/-- A text as a JSON string. -/
def quote (text : String) : String :=
  String.ofList ('"' :: text.toList.flatMap escape ++ ['"'])

/-- A line feed and the indentation of a level. -/
def newline (level : Nat) : String :=
  String.ofList ('\n' :: List.replicate (2 * level) ' ')

/-- An optional text: `null` if it is absent. -/
def ofOption {α : Type} (f : α → Json) : Option α → Json
  | some a => f a
  | none => .null

mutual

/-- The text of a value that starts on a line of a given level. -/
def render (level : Nat) : Json → String
  | .null => "null"
  | .bool true => "true"
  | .bool false => "false"
  | .string value => quote value
  | .array [] => "[]"
  | .array (item :: items) =>
    "[" ++ newline (level + 1) ++ render (level + 1) item ++ renderItems (level + 1) items ++
      newline level ++ "]"
  | .object [] => "\x7b\x7d"
  | .object ((key, value) :: fields) =>
    "\x7b" ++ newline (level + 1) ++ quote key ++ ": " ++ render (level + 1) value ++
      renderFields (level + 1) fields ++ newline level ++ "\x7d"

/-- The items after the first one of an array, each after a comma on a line of its own. -/
def renderItems (level : Nat) : List Json → String
  | [] => ""
  | item :: items => "," ++ newline level ++ render level item ++ renderItems level items

/-- The fields after the first one of an object, each after a comma on a line of its own. -/
def renderFields (level : Nat) : List (String × Json) → String
  | [] => ""
  | (key, value) :: fields =>
    "," ++ newline level ++ quote key ++ ": " ++ render level value ++ renderFields level fields

end

def pretty (value : Json) : String :=
  render 0 value

end Json

end DdlCatalog
