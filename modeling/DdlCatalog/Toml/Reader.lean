/-!
# Readers

A reader takes a value from the start of a text and leaves the rest, or refuses the text.
-/

namespace DdlCatalog.Toml

/-- Takes a value from the start of a text. -/
abbrev Reader := StateT (List Char) Option

namespace Reader

/-- Takes one character that a test accepts. -/
def satisfy (test : Char → Bool) : Reader Char := fun text =>
  match text with
  | c :: rest => if test c then some (c, rest) else none
  | [] => none

def word (w : String) : Reader Unit := fun text =>
  (w.toList.isPrefixOf? text).map fun rest => ((), rest)

/-- Takes the longest start of a text whose characters a test accepts. -/
def takeWhile (test : Char → Bool) : Reader (List Char) := fun text =>
  some (text.takeWhile test, text.dropWhile test)

def endOfText : Reader Unit := fun text =>
  if text.isEmpty then some ((), text) else none

/-- The values that a reader takes one after the other, until it refuses or takes nothing. -/
def manyFrom {α : Type} (r : Reader α) (text : List Char) : List α × List Char :=
  match r text with
  | none => ([], text)
  | some (a, rest) =>
    if rest.length < text.length then
      let (found, rest) := manyFrom r rest
      (a :: found, rest)
    else ([], text)
termination_by text.length

/-- Takes as many values as it can. -/
def many {α : Type} (r : Reader α) : Reader (List α) := fun text =>
  some (manyFrom r text)

def maybe {α : Type} (r : Reader α) : Reader (Option α) :=
  some <$> r <|> pure none

/-- Takes at least one value, with a separator before each other one. -/
def sepBy1 {α : Type} (r : Reader α) (separator : Reader Unit) : Reader (List α) := do
  let first ← r
  let others ← many do
    separator
    r
  return first :: others

/-- What a reader takes, as it is written. -/
def literal {α : Type} (r : Reader α) : Reader String := fun text =>
  (r text).map fun (_, rest) => (String.ofList (text.take (text.length - rest.length)), rest)

end Reader

end DdlCatalog.Toml
