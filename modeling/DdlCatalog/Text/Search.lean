/-!
# Looking for a word

The places of a text where a given word stands, tried from the left or from the right until one of
them has an answer.
-/

namespace DdlCatalog.Text

/-- The answer at the first place, from the left, where `word` stands and `answer` accepts the
text before it and the text after it; `passed` is the text already behind, last character
first. -/
def searchFrom {α : Type} (word : List Char) (answer : List Char → List Char → Option α)
    (passed : List Char) : List Char → Option α
  | [] => none
  | c :: text =>
    let here := match word.isPrefixOf? (c :: text) with
      | some after => answer passed.reverse after
      | none => none
    match here with
    | some found => some found
    | none => searchFrom word answer (c :: passed) text

/-- The answer at the leftmost place where `word` stands and `answer` has one. -/
def searchLeft {α : Type} (word : List Char) (answer : List Char → List Char → Option α)
    (text : List Char) : Option α :=
  searchFrom word answer [] text

/-- The answer at the rightmost place where `word` stands and `answer` has one. -/
def searchRight {α : Type} (word : List Char) (answer : List Char → List Char → Option α)
    (text : List Char) : Option α :=
  searchFrom word.reverse (fun after before => answer before.reverse after.reverse) [] text.reverse

end DdlCatalog.Text
