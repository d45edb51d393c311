import DdlCatalog.Proofs.Sql.Bare
import DdlCatalog.Script.Statements

/-!
# Reading a script in passes

`Script.statements` takes comments out, watches quotes and cuts statements in one go.  Here each of these is a pass
of its own.

* `parts` — the script cut into comments and text; quotes are one part, so nothing opens a comment in them;
* `withoutComments` — the parts that are text;
* `pieces` — that text cut at its semicolons outside quotes;
* `statements_eq_passes` : what is left of the pieces, trimmed and with their semicolons, are the statements.  The
  parts make up the script and the pieces the text, so that nothing else is lost, doubled or moved.
-/

namespace DdlCatalog.Script

open Sql Text

/-! ### The passes -/

/-- A text up to its first `word`, that word included, and the rest; the whole text if the word is not in it. -/
def through (word : List Char) : List Char → List Char × List Char
  | [] => ([], [])
  | c :: text =>
    if word <+: c :: text then (word, (c :: text).drop word.length)
    else (c :: (through word text).1, (through word text).2)

theorem through_append (word text : List Char) : (through word text).1 ++ (through word text).2 = text := by
  fun_induction through word text with
  | case1 => rfl
  | case2 c text h => exact List.prefix_iff_eq_append.1 h
  | case3 c text h ih => simp [ih]

theorem length_through_le (word text : List Char) : (through word text).2.length ≤ text.length := by
  have := congrArg List.length (through_append word text)
  simp only [List.length_append] at this
  omega

inductive Part where
  /-- What statements are made of: one character, or quotes with what is between them. -/
  | text (chars : List Char)
  | comment (chars : List Char)
  deriving DecidableEq, Repr

namespace Part

/-- The part as it stands in the script. -/
def source : Part → List Char
  | text chars => chars
  | comment chars => chars

/-- What statements get of the part. -/
def kept : Part → List Char
  | text chars => chars
  | comment _ => []

end Part

/-- The parts of a script.  A block comment runs to the first `*/` behind its opening, a line comment up to the next
line feed, either one to the end of the script if there is none. -/
def parts : List Char → List Part
  | [] => []
  | '/' :: '*' :: script =>
    .comment ('/' :: '*' :: (through ['*', '/'] script).1) :: parts (through ['*', '/'] script).2
  | '-' :: '-' :: script =>
    .comment ('-' :: '-' :: script.takeWhile (· != '\n')) :: parts (script.dropWhile (· != '\n'))
  | c :: script =>
    if isMark c then .text (c :: (through [c] script).1) :: parts (through [c] script).2
    else .text [c] :: parts script
termination_by script => script.length
decreasing_by
  · have := length_through_le ['*', '/'] script
    simp only [List.length_cons]
    omega
  · have := (List.dropWhile_sublist (· != '\n') (l := script)).length_le
    simp only [List.length_cons]
    omega
  · have := length_through_le [c] script
    simp only [List.length_cons]
    omega
  · simp

def withoutComments (script : List Char) : List Char :=
  (parts script).flatMap Part.kept

/-- The text of a statement as it is cut out. -/
structure Piece where
  text : List Char
  /-- A semicolon follows the text. -/
  ended : Bool
  deriving DecidableEq, Repr

namespace Piece

/-- The piece as it stands in the text. -/
def source (p : Piece) : List Char :=
  if p.ended then p.text ++ [';'] else p.text

/-- The statement that the piece is, unless it is blank. -/
def statement? (p : Piece) : Option String :=
  if trim p.text = [] then none
  else some (String.ofList (if p.ended then trim p.text ++ [';'] else trim p.text))

end Piece

/-- The pieces of a text that `before` is behind; `piece` is the last part of `before`. -/
def piecesFrom (before piece : List Char) : List Char → List Piece
  | [] => [⟨piece, false⟩]
  | c :: text =>
    if openMark before = none ∧ c = ';' then ⟨piece, true⟩ :: piecesFrom (before ++ [c]) [] text
    else piecesFrom (before ++ [c]) (piece ++ [c]) text

/-- The pieces of a text between its semicolons outside quotes. -/
def pieces (text : List Char) : List Piece :=
  piecesFrom [] [] text

variable {mark : Char} {before piece read text script : List Char}

/-! ### Nothing is lost -/

theorem flatMap_source_parts (script : List Char) : (parts script).flatMap Part.source = script := by
  fun_induction parts script with
  | case1 => rfl
  | case2 script ih => simp [Part.source, ih, through_append]
  | case3 script ih => simp [Part.source, ih]
  | case4 c script _ _ _ ih => simp [Part.source, ih, through_append]
  | case5 c script _ _ _ ih => simp [Part.source, ih]

theorem flatMap_source_piecesFrom (before piece text : List Char) :
    (piecesFrom before piece text).flatMap Piece.source = piece ++ text := by
  fun_induction piecesFrom before piece text with
  | case1 => simp [Piece.source]
  | case2 before piece c text h ih =>
    rw [List.flatMap_cons, ih]
    simp [Piece.source, h.2]
  | case3 before piece c text h ih => simp [ih]

/-! ### The one pass, over comments and quotes -/

-- The equations of the one pass are found here, once for all lemmas on it.
attribute [local simp] statementsFrom

theorem statementsFrom_blockComment (read script : List Char) :
    statementsFrom .blockComment read script = statementsFrom .plain read (through ['*', '/'] script).2 := by
  fun_induction through ['*', '/'] script with
  | case1 => rfl
  | case2 c text h =>
    obtain ⟨rest, h⟩ := h
    rw [← h]
    rfl
  | case3 c text h ih =>
    rw [statementsFrom, ih]
    rintro rest rfl rfl
    exact h ⟨rest, rfl⟩

theorem statementsFrom_lineComment (read script : List Char) :
    statementsFrom .lineComment read script = statementsFrom .plain read (script.dropWhile (· != '\n')) := by
  induction script with
  | nil => rfl
  | cons c script ih =>
    by_cases hc : c = '\n'
    · subst hc
      rfl
    · rw [statementsFrom, ih]
      · simp [hc]
      · exact hc

theorem statementsFrom_quoted (mark : Char) (read script : List Char) :
    statementsFrom (.quoted mark) read script =
      statementsFrom .plain ((through [mark] script).1.reverse ++ read) (through [mark] script).2 := by
  fun_induction through [mark] script generalizing read with
  | case1 => rfl
  | case2 c text h =>
    obtain ⟨rest, h⟩ := h
    obtain ⟨rfl, rfl⟩ := List.cons.inj h
    simp
  | case3 c text h ih =>
    have hc : c ≠ mark := by
      rintro rfl
      exact h ⟨text, rfl⟩
    rw [statementsFrom, if_neg hc, ih]
    simp

/-! ### The cut, over quotes and other text -/

theorem piecesFrom_of_not_cut {c : Char} (h : ¬ (openMark before = none ∧ c = ';')) :
    piecesFrom before piece (c :: text) = piecesFrom (before ++ [c]) (piece ++ [c]) text := by
  rw [piecesFrom, if_neg h]

/-- Quotes are not cut. -/
theorem piecesFrom_quoted (script : List Char) (hmark : openMark before = some mark) :
    piecesFrom before piece ((through [mark] script).1 ++ text) =
      piecesFrom (before ++ (through [mark] script).1) (piece ++ (through [mark] script).1) text := by
  fun_induction through [mark] script generalizing before piece with
  | case1 => simp
  | case2 c script h =>
    rw [List.singleton_append, piecesFrom_of_not_cut (by simp [hmark])]
  | case3 c script h ih =>
    have hc : c ≠ mark := by
      rintro rfl
      exact h ⟨script, rfl⟩
    have hopen : openMark (before ++ [c]) = some mark := by
      rw [openMark_concat, hmark]
      simp [markAfter, hc]
    have hrest := @ih (before ++ [c]) (piece ++ [c]) hopen
    rw [List.cons_append, piecesFrom_of_not_cut (by simp [hmark])]
    simpa using hrest

/-- Behind the end of quotes the text goes on as if it started there. -/
theorem openMark_through (hmark : openMark before = some mark) (h : (through [mark] script).2 ≠ []) :
    openMark (before ++ (through [mark] script).1) = none := by
  fun_induction through [mark] script generalizing before with
  | case1 => exact absurd rfl h
  | case2 c script hc =>
    rw [openMark_concat, hmark]
    simp [markAfter]
  | case3 c script hc ih =>
    have hne : c ≠ mark := by
      rintro rfl
      exact hc ⟨script, rfl⟩
    have hopen : openMark (before ++ [c]) = some mark := by
      rw [openMark_concat, hmark]
      simp [markAfter, hne]
    simpa using ih hopen h

/-- A character that opens neither quotes nor a comment and ends no statement. -/
theorem statementsFrom_other {c : Char} (h1 : ∀ rest, c = '/' → script = '*' :: rest → False)
    (h2 : ∀ rest, c = '-' → script = '-' :: rest → False) (hc : c ≠ ';') (hm : isMark c = false) :
    statementsFrom .plain read (c :: script) = statementsFrom .plain (c :: read) script := by
  have hq : ¬ (c = '\'' ∨ c = '"') := by simpa [isMark] using hm
  rw [statementsFrom, if_neg hq]
  · exact h1
  · exact h2
  · exact hc

theorem statementsFrom_mark {c : Char} (hm : isMark c = true) :
    statementsFrom .plain read (c :: script) = statementsFrom (.quoted c) (c :: read) script := by
  have hq : c = '\'' ∨ c = '"' := by simpa [isMark] using hm
  rw [statementsFrom, if_pos hq]
  all_goals rcases hq with rfl | rfl <;> simp

theorem statementsFrom_semicolon :
    statementsFrom .plain read (';' :: script) =
      (Piece.statement? ⟨read.reverse, true⟩).toList ++ statementsFrom .plain [] script := by
  rw [statementsFrom, Piece.statement?]
  simp only [List.isEmpty_iff]
  split <;> rfl

theorem statementsFrom_end (context : Context) (read : List Char) :
    statementsFrom context read [] = (Piece.statement? ⟨read.reverse, false⟩).toList := by
  rw [statementsFrom, Piece.statement?]
  simp only [List.isEmpty_iff]
  split <;> rfl

/-- **One pass or several.**  All that a place needs to be read from is that it is outside quotes and comments. -/
theorem statementsFrom_plain (read before : List Char) (h : script ≠ [] → openMark before = none) :
    statementsFrom .plain read script =
      (piecesFrom before read.reverse ((parts script).flatMap Part.kept)).filterMap Piece.statement? := by
  fun_induction parts script generalizing read before with
  | case1 =>
    rw [statementsFrom_end, List.flatMap_nil, piecesFrom]
    cases hs : Piece.statement? ⟨read.reverse, false⟩ <;> simp [hs]
  | case2 script ih =>
    rw [statementsFrom, statementsFrom_blockComment, ih read before fun _ => h (by simp)]
    rfl
  | case3 script ih =>
    rw [statementsFrom, statementsFrom_lineComment, ih read before fun _ => h (by simp)]
    rfl
  | case4 c script h1 h2 hmark ih =>
    -- quotes are read to their end by both sides
    have hopen : openMark (before ++ [c]) = some c := by
      rw [openMark_concat, h (by simp)]
      simp [markAfter, hmark]
    have hc : c ≠ ';' := by
      rintro rfl
      simp [isMark] at hmark
    rw [statementsFrom_mark hmark, statementsFrom_quoted, ih _ _ (openMark_through hopen)]
    simp only [List.flatMap_cons, Part.kept, List.cons_append]
    rw [piecesFrom_of_not_cut (by simp [hc]), piecesFrom_quoted script hopen]
    simp
  | case5 c script h1 h2 hmark ih =>
    have hnone : openMark before = none := h (by simp)
    have hnext : openMark (before ++ [c]) = none := by
      rw [openMark_concat, hnone]
      simp [markAfter, hmark]
    simp only [List.flatMap_cons, Part.kept, List.singleton_append]
    by_cases hc : c = ';'
    · subst hc
      rw [statementsFrom_semicolon, ih [] _ fun _ => hnext, piecesFrom, if_pos ⟨hnone, rfl⟩]
      cases hs : Piece.statement? ⟨read.reverse, true⟩ <;> simp [hs]
    · rw [statementsFrom_other h1 h2 hc (by simpa using hmark), ih _ _ fun _ => hnext,
        piecesFrom_of_not_cut (by simp [hc])]
      simp

/-- **A script is read in passes.**  Its parts are found, comments are left out, the text that is kept is cut at its
semicolons outside quotes, and every piece that is not blank gives a statement.  The parts make up the script, and
the pieces make up the text that is kept. -/
theorem statements_eq_passes (script : String) :
    statements script = (pieces (withoutComments script.toList)).filterMap Piece.statement? ∧
      (parts script.toList).flatMap Part.source = script.toList ∧
      (pieces (withoutComments script.toList)).flatMap Piece.source = withoutComments script.toList := by
  refine ⟨?_, flatMap_source_parts _, flatMap_source_piecesFrom _ _ _⟩
  exact statementsFrom_plain [] [] fun _ => openMark_nil

end DdlCatalog.Script
