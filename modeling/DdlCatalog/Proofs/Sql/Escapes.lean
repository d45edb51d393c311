import DdlCatalog.Proofs.Sql.Unquoted

/-!
# Doubled marks as escapes

A scanner forgets its quotes at each mark of their kind and opens them again at the next.  To SQL a doubled mark is one
character of what is quoted, and only a single one ends the quotes.  The two are in different states between the marks
of a pair, and nowhere else.

* `readQuotes`, `lex` — a lexer that reads marks as SQL does;
* `outside place tokens` — the characters that it takes for unquoted, each with its place;
* `unquoted_eq_outside`, `openMark_eq_endMark` : it finds the same characters outside quotes as the scanner, and the
  same quotes open at the end.
-/

namespace DdlCatalog.Sql

/-! ### The lexer -/

/-- What stands behind the mark that opens quotes. -/
structure Quotes where
  /-- The characters that are quoted; an escaped mark is one of them. -/
  inside : List Char
  closed : Bool
  deriving DecidableEq, Repr

namespace Quotes

/-- The wording of quotes behind the mark that opens them. -/
def source (mark : Char) (q : Quotes) : List Char :=
  q.inside.flatMap (fun c => if c = mark then [mark, mark] else [c]) ++ if q.closed then [mark] else []

/-- Quotes with one more character in front. -/
def push (c : Char) (q : Quotes) : Quotes :=
  { q with inside := c :: q.inside }

theorem source_push (mark c : Char) (q : Quotes) :
    (q.push c).source mark = (if c = mark then [mark, mark] else [c]) ++ q.source mark := by
  rw [source, push, List.flatMap_cons, List.append_assoc]
  rfl

end Quotes

/-- Reads quotes from behind the mark that opens them, and gives the text behind them, too. -/
def readQuotes (mark : Char) : List Char → Quotes × List Char
  | [] => ({ inside := [], closed := false }, [])
  | c :: text =>
    if c = mark then
      match text with
      | [] => ({ inside := [], closed := true }, [])
      | d :: text' =>
        if d = mark then ((readQuotes mark text').1.push mark, (readQuotes mark text').2)
        else ({ inside := [], closed := true }, d :: text')
    else ((readQuotes mark text).1.push c, (readQuotes mark text).2)

inductive Token where
  | plain (c : Char)
  | quotes (mark : Char) (q : Quotes)
  deriving DecidableEq, Repr

namespace Token

/-- The token as it stands in a text. -/
def source : Token → List Char
  | plain c => [c]
  | quotes mark q => mark :: q.source mark

/-- The mark of quotes that are not closed. -/
def openMark? : Token → Option Char
  | plain _ => none
  | quotes mark q => if q.closed then none else some mark

end Token

variable {mark c : Char} {n : Nesting} {place : Nat} {text : List Char}

/-- Nothing of the text is lost in reading quotes. -/
theorem source_readQuotes (mark : Char) (text : List Char) :
    (readQuotes mark text).1.source mark ++ (readQuotes mark text).2 = text := by
  fun_induction readQuotes mark text with
  | case1 => rfl
  | case2 => rfl
  | case3 text ih => simp [Quotes.source_push, ih]
  | case4 d text hd => rfl
  | case5 c text hc ih => simp [Quotes.source_push, hc, ih]

-- a doubled mark of the other kind stays as it is
example : readQuotes '\'' "it''s \"\"' x".toList = (⟨"it's \"\"".toList, true⟩, " x".toList) := by decide +kernel

theorem length_readQuotes_le (mark : Char) (text : List Char) : (readQuotes mark text).2.length ≤ text.length := by
  have := congrArg List.length (source_readQuotes mark text)
  rw [List.length_append] at this
  omega

/-- The tokens of a text. -/
def lex : List Char → List Token
  | [] => []
  | c :: text =>
    if isMark c then .quotes c (readQuotes c text).1 :: lex (readQuotes c text).2
    else .plain c :: lex text
termination_by text => text.length
decreasing_by
  · have := length_readQuotes_le c text
    simp only [List.length_cons]
    omega
  · simp

/-- The characters of some tokens outside quotes, each with its place; the tokens start at `place`. -/
def outside (place : Nat) : List Token → List (Nat × Char)
  | [] => []
  | .plain c :: tokens => (place, c) :: outside (place + 1) tokens
  | .quotes mark q :: tokens => outside (place + (Token.quotes mark q).source.length) tokens

/-- The mark of the quotes that some tokens end in. -/
def endMark (tokens : List Token) : Option Char :=
  tokens.getLast?.bind Token.openMark?

/-- The tokens make up the text. -/
theorem flatMap_source_lex (text : List Char) : (lex text).flatMap Token.source = text := by
  fun_induction lex text with
  | case1 => rfl
  | case2 c text h ih => simp [Token.source, ih, source_readQuotes]
  | case3 c text h ih => simp [Token.source, ih]

/-! ### The scanner in quotes -/

/-- Quotes that nothing closes run to the end. -/
theorem readQuotes_of_not_closed (h : (readQuotes mark text).1.closed = false) : (readQuotes mark text).2 = [] := by
  fun_induction readQuotes mark text with
  | case1 => rfl
  | case2 => rfl
  | case3 text ih => exact ih h
  | case4 d text hd => cases h
  | case5 c text hc ih => exact ih h

theorem mark_after_of_marked (hn : n.mark = some mark) : (n.after c).mark = if c = mark then none else some mark := by
  rw [mark_after, hn]
  rfl

/-- In quotes the scanner finds nothing, and behind them it stands outside.  A pair of marks takes it out of them and in
again. -/
theorem unquotedFrom_readQuotes (hmark : isMark mark = true) (hn : n.mark = some mark) :
    unquotedFrom n place text =
      unquotedFrom .top (place + ((readQuotes mark text).1.source mark).length) (readQuotes mark text).2 := by
  have hquoted {n : Nesting} (hn : n.mark = some mark) (place : Nat) (c : Char) (text : List Char) :
      unquotedFrom n place (c :: text) = unquotedFrom (n.after c) (place + 1) text := by
    rw [unquotedFrom, if_neg (by simp [isBare_iff, hn])]
  fun_induction readQuotes mark text generalizing n place with
  | case1 => rfl
  | case2 =>
    rw [hquoted hn]
    rfl
  | case3 text ih =>
    have hout : (n.after mark).mark = none := by simp [mark_after_of_marked hn]
    have hin : ((n.after mark).after mark).mark = some mark := by
      rw [mark_after, hout]
      simp [markAfter, hmark]
    rw [hquoted hn, unquotedFrom, if_neg (by simp [isBare_iff, hmark]), ih hin, Quotes.source_push, if_pos rfl,
      List.length_append, ← Nat.add_assoc]
    rfl
  | case4 d text hd =>
    have hout : (n.after mark).mark = Nesting.top.mark := by simp [mark_after_of_marked hn, Nesting.top]
    rw [hquoted hn, unquotedFrom_congr hout]
    rfl
  | case5 c text hc ih =>
    have hin : (n.after c).mark = some mark := by simp [mark_after_of_marked hn, hc]
    rw [hquoted hn, ih hin, Quotes.source_push, if_neg hc, List.length_append, ← Nat.add_assoc]
    rfl

theorem unquotedFrom_lex (hn : n.mark = none) : unquotedFrom n place text = outside place (lex text) := by
  fun_induction lex text generalizing n place with
  | case1 => rfl
  | case2 c text h ih =>
    have hin : (n.after c).mark = some c := by
      rw [mark_after, hn]
      simp [markAfter, h]
    rw [unquotedFrom, if_neg (by simp [isBare_iff, h]), unquotedFrom_readQuotes h hin, ih rfl, outside, Token.source,
      List.length_cons, Nat.add_assoc, Nat.add_comm 1]
  | case3 c text h ih =>
    have hout : (n.after c).mark = none := by
      rw [mark_after, hn]
      simp [markAfter, h]
    rw [unquotedFrom, if_pos (isBare_iff.2 ⟨hn, by simpa using h⟩), ih hout, outside]

/-- **Forgetting quotes at each mark and reading doubled marks as escapes** come to the same characters outside. -/
theorem unquoted_eq_outside (text : List Char) : unquoted text = outside 0 (lex text) :=
  unquotedFrom_lex rfl

/-! ### The end of a text -/

theorem foldl_markAfter_readQuotes (hmark : isMark mark = true) :
    text.foldl markAfter (some mark) =
      if (readQuotes mark text).1.closed then openMark (readQuotes mark text).2 else some mark := by
  fun_induction readQuotes mark text with
  | case1 => rfl
  | case2 => simp [markAfter]
  | case3 text ih =>
    have hpair : markAfter (markAfter (some mark) mark) mark = some mark := by simp [markAfter, hmark]
    rw [List.foldl_cons, List.foldl_cons, hpair, ih]
    rfl
  | case4 d text hd => simp [markAfter, openMark]
  | case5 c text hc ih =>
    have hstep : markAfter (some mark) c = some mark := by simp [markAfter, hc]
    rw [List.foldl_cons, hstep, ih]
    rfl

/-- A token that leaves no quotes open does not matter for the end. -/
theorem endMark_cons_of_closed {token : Token} (h : token.openMark? = none) (tokens : List Token) :
    endMark (token :: tokens) = endMark tokens := by
  cases tokens with
  | nil => exact h
  | cons => rfl

/-- The quotes that a scanner finds open at the end of a text are those that the lexer ends in. -/
theorem openMark_eq_endMark (text : List Char) : openMark text = endMark (lex text) := by
  fun_induction lex text with
  | case1 => rfl
  | case2 c text h ih =>
    have hopened : openMark (c :: text) = text.foldl markAfter (some c) := by
      rw [openMark, List.foldl_cons, markAfter, if_pos h]
    rw [hopened, foldl_markAfter_readQuotes h]
    cases hclosed : (readQuotes c text).1.closed with
    | false =>
      rw [readQuotes_of_not_closed hclosed, lex]
      simp [endMark, Token.openMark?, hclosed]
    | true =>
      rw [endMark_cons_of_closed (by simp [Token.openMark?, hclosed]), ← ih]
      rfl
  | case3 c text h ih =>
    have hkept : openMark (c :: text) = openMark text := by
      rw [openMark, List.foldl_cons, markAfter, if_neg h, ← openMark]
    rw [hkept, endMark_cons_of_closed rfl, ih]

end DdlCatalog.Sql
