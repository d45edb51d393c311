/-!
# Quotes and parentheses

A character of a statement is plain text inside quotes, which single and double marks open and
which the same mark closes; a doubled mark inside closes its quotes and opens them again. Outside
quotes, parentheses nest. `splitTop` finds the first character outside both that a caller looks
for.
-/

namespace DdlCatalog.Sql

/-- Whether a character opens quotes. -/
def isMark (c : Char) : Bool :=
  c == '\'' || c == '"'

/-- Where a place in a text stands: between which marks, if any, and inside how many parentheses. -/
structure Nesting where
  mark : Option Char
  depth : Nat
  deriving DecidableEq, Repr

namespace Nesting

/-- Outside quotes and parentheses. -/
def top : Nesting :=
  { mark := none, depth := 0 }

/-- Whether a character at this place is neither quoted nor a mark. -/
def isBare (n : Nesting) (c : Char) : Bool :=
  n.mark.isNone && !isMark c

/-- The place after a character. -/
def after (n : Nesting) (c : Char) : Nesting :=
  match n.mark with
  | some mark => if c = mark then { n with mark := none } else n
  | none =>
    if isMark c then { n with mark := some c }
    else if c = '(' then { n with depth := n.depth + 1 }
    else if c = ')' then { n with depth := n.depth - 1 }
    else n

end Nesting

/-- A text cut at one of its characters. -/
structure Cut where
  before : List Char
  char : Char
  rest : List Char
  deriving DecidableEq, Repr

/-- The cut at the first character outside quotes and parentheses that `stops` accepts, in a text
that stands at `n`; `passed` is the text already behind, last character first. -/
def splitFrom (stops : Char → Bool) (n : Nesting) (passed : List Char) : List Char → Option Cut
  | [] => none
  | c :: text =>
    if n.depth = 0 && n.isBare c && stops c then some ⟨passed.reverse, c, text⟩
    else splitFrom stops (n.after c) (c :: passed) text

/-- The cut at the first character outside quotes and parentheses that `stops` accepts. -/
def splitTop (stops : Char → Bool) (text : List Char) : Option Cut :=
  splitFrom stops .top [] text

theorem splitFrom_eq {stops : Char → Bool} {n : Nesting} {passed text : List Char} {cut : Cut}
    (h : splitFrom stops n passed text = some cut) :
    passed.reverse ++ text = cut.before ++ cut.char :: cut.rest := by
  induction text generalizing n passed with
  | nil => simp [splitFrom] at h
  | cons c text ih =>
    unfold splitFrom at h
    split at h
    · cases h
      simp
    · simpa using ih h

/-- A cut loses nothing. -/
theorem splitTop_eq {stops : Char → Bool} {text : List Char} {cut : Cut}
    (h : splitTop stops text = some cut) : text = cut.before ++ cut.char :: cut.rest := by
  simpa using splitFrom_eq h

theorem length_rest_lt_of_splitTop {stops : Char → Bool} {text : List Char} {cut : Cut}
    (h : splitTop stops text = some cut) : cut.rest.length < text.length := by
  rw [splitTop_eq h]
  simp
  omega

end DdlCatalog.Sql
