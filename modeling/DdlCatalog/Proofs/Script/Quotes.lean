import DdlCatalog.Proofs.Sql.Escapes
import DdlCatalog.Proofs.Script.Join

/-!
# The quotes of a script

Without comments the statements of a script are read as a scanner reads them: which context a place is in is a matter of
the marks before it.

* `CommentFree script` — no comment opens in the script;
* `endFrom_char` : one character is read, as in `statementsFrom_char`;
* `context_endFrom`, `statementsFrom_resume` : where a place in such a script stands, and that it is read on from there;
* `ReadsBare before c` — the reader of statements takes `c` behind `before` for a character outside quotes;
* `forgetting_eq_escaping` : the scanner, the reader of statements and the lexer that knows escaped marks call the same
  characters quoted.
-/

namespace DdlCatalog.Script

open Sql Text

/-- No comment opens in the script: what would open one is in quotes. -/
structure CommentFree (script : List Char) : Prop where
  line : Quoted ['-', '-'] script
  block : Quoted ['/', '*'] script

instance (script : List Char) : Decidable (CommentFree script) :=
  decidable_of_iff (Quoted ['-', '-'] script ∧ Quoted ['/', '*'] script)
    ⟨fun h => ⟨h.1, h.2⟩, fun h => ⟨h.line, h.block⟩⟩

/-- Behind `before` the reader of statements takes `c` for a character outside quotes. -/
def ReadsBare (before : List Char) (c : Char) : Prop := (endFrom .plain [] before).1 = .plain ∧ isMark c = false

instance (before : List Char) (c : Char) : Decidable (ReadsBare before c) := by
  unfold ReadsBare
  infer_instance

variable {a b before rest : List Char} {c : Char} {mark : Option Char}

theorem CommentFree.of_append (h : CommentFree (a ++ b)) : CommentFree a :=
  ⟨Quoted.of_append (a := []) h.line rfl, Quoted.of_append (a := []) h.block rfl⟩

theorem CommentFree.not_line (h : CommentFree (before ++ c :: rest)) (hopen : openMark before = none) :
    ∀ after, c = '-' → rest = '-' :: after → False := by
  rintro after rfl rfl
  exact h.line before after (by simp) hopen

theorem CommentFree.not_block (h : CommentFree (before ++ c :: rest)) (hopen : openMark before = none) :
    ∀ after, c = '/' → rest = '*' :: after → False := by
  rintro after rfl rfl
  exact h.block before after (by simp) hopen

/-! ### One character -/

-- The equations of the scan are found here, once for all lemmas on it.
attribute [local simp] endFrom

theorem endFrom_semicolon (read rest : List Char) : endFrom .plain read (';' :: rest) = endFrom .plain [] rest := by
  rw [endFrom]

theorem endFrom_char (hstar : mark = none → ∀ after, c = '/' → rest = '*' :: after → False)
    (hdash : mark = none → ∀ after, c = '-' → rest = '-' :: after → False) (hend : mark = none → c ≠ ';')
    (read : List Char) :
    endFrom (.ofMark mark) read (c :: rest) = endFrom (.ofMark (markAfter mark c)) (c :: read) rest := by
  cases mark with
  | some mark =>
    rw [Context.ofMark, endFrom, markAfter]
    split <;> rfl
  | none =>
    have hmark : (c = '\'' ∨ c = '"') ↔ isMark c = true := by simp [isMark]
    rw [Context.ofMark, endFrom, markAfter]
    · simp only [hmark]
      split <;> rfl
    · exact hstar rfl
    · exact hdash rfl
    · exact hend rfl

/-! ### A part of a script -/

/-- The context of a place is told from the marks before it. -/
theorem context_endFrom (h : CommentFree (before ++ a)) (read : List Char) :
    (endFrom (.ofMark (openMark before)) read a).1 = .ofMark (openMark (before ++ a)) := by
  induction a generalizing before read with
  | nil => rw [endFrom_nil, List.append_nil]
  | cons c a ih =>
    have hnext : before ++ c :: a = before ++ [c] ++ a := by simp
    by_cases hcut : openMark before = none ∧ c = ';'
    · obtain ⟨hopen, rfl⟩ := hcut
      have hclosed : openMark (before ++ [';']) = none := by rw [openMark_append_of_unmarked (by decide), hopen]
      have hlater := ih (hnext ▸ h) []
      rw [hclosed] at hlater
      rw [hopen, Context.ofMark, endFrom_semicolon, hnext]
      exact hlater
    · rw [endFrom_char h.not_block h.not_line (fun hopen hc => hcut ⟨hopen, hc⟩), ← openMark_concat, ih (hnext ▸ h),
        hnext]

theorem context_endFrom_start (h : CommentFree a) : (endFrom .plain [] a).1 = .ofMark (openMark a) := by
  have hstart : CommentFree ([] ++ a) := h
  exact context_endFrom hstart []

/-- **A script without comments can be read up to any place, and then on from there.**  Which statements have been read
by then does not depend on what follows. -/
theorem statementsFrom_resume (h : CommentFree (before ++ a)) (read : List Char) :
    ∃ done, ∀ b, CommentFree (before ++ (a ++ b)) →
      statementsFrom (.ofMark (openMark before)) read (a ++ b) =
        done ++ statementsFrom (endFrom (.ofMark (openMark before)) read a).1
          (endFrom (.ofMark (openMark before)) read a).2 b := by
  induction a generalizing before read with
  | nil => exact ⟨[], fun b _ => by rw [endFrom_nil]; rfl⟩
  | cons c a ih =>
    have hnext (b : List Char) : before ++ c :: b = before ++ [c] ++ b := by simp
    by_cases hcut : openMark before = none ∧ c = ';'
    · obtain ⟨hopen, rfl⟩ := hcut
      have hclosed : openMark (before ++ [';']) = none := by rw [openMark_append_of_unmarked (by decide), hopen]
      obtain ⟨done, hdone⟩ := ih (hnext a ▸ h) []
      rw [hclosed] at hdone
      -- the statement that ends here is done whatever follows
      refine ⟨(Piece.statement? ⟨read.reverse, true⟩).toList ++ done, fun b hb => ?_⟩
      rw [List.cons_append] at hb ⊢
      rw [hopen, Context.ofMark, endFrom_semicolon, statementsFrom_semicolon, List.append_assoc]
      exact congrArg _ (hdone b (hnext (a ++ b) ▸ hb))
    · have hend (hopen : openMark before = none) : c ≠ ';' := fun hc => hcut ⟨hopen, hc⟩
      obtain ⟨done, hdone⟩ := ih (hnext a ▸ h) (c :: read)
      refine ⟨done, fun b hb => ?_⟩
      rw [List.cons_append] at hb ⊢
      rw [statementsFrom_char hb.not_block hb.not_line hend, endFrom_char h.not_block h.not_line hend,
        ← openMark_concat]
      exact hdone b (hnext (a ++ b) ▸ hb)

/-! ### The three readers -/

theorem readsBare_iff (h : CommentFree a) : ReadsBare a c ↔ (a.length, c) ∈ unquoted (a ++ c :: b) := by
  rw [ReadsBare, context_endFrom_start h, mem_unquoted_append_iff]
  cases openMark a <;> simp [Context.ofMark]

/-- **Forgetting quotes at each mark comes to the same as reading doubled marks as escapes**, for the scanner of a text,
whether of characters or of bytes, and for the reader of statements in a script without comments.  The scanner finds the
characters that the lexer has outside quotes, looks for its stops among them, and finds the same quotes open at the end.
The reader is at every place of the script in the context that the lexer ends in there, goes on from there alone, and
takes a character for one outside quotes if and only if the lexer does, and the scanner of the bytes. -/
theorem forgetting_eq_escaping :
    (∀ text, unquoted text = outside 0 (lex text) ∧
        (∀ stops, (splitTop stops text).map (fun cut => (cut.before.length, cut.char)) =
          firstStop stops 0 (outside 0 (lex text))) ∧
        (text.foldl Nesting.after .top).mark = endMark (lex text) ∧ (lex text).flatMap Token.source = text) ∧
      ∀ script, CommentFree script → ∀ a b, script = a ++ b →
        let place := endFrom .plain [] a
        place.1 = .ofMark (endMark (lex a)) ∧ endMark (lex (octets a)) = endMark (lex a) ∧
          (∃ done, ∀ later, CommentFree (a ++ later) →
            statements (String.ofList (a ++ later)) = done ++ statementsFrom place.1 place.2 later) ∧
          ∀ c rest, b = c :: rest →
            (ReadsBare a c ↔ (a.length, c) ∈ outside 0 (lex script)) ∧
              ∀ i byte, (octets [c])[i]? = some byte →
                ((byteLength a + i, byte) ∈ unquoted (octets script) ↔ ReadsBare a c) := by
  refine ⟨fun text => ⟨unquoted_eq_outside text, fun stops => ?_, ?_, flatMap_source_lex text⟩, ?_⟩
  · rw [map_splitTop, unquoted_eq_outside]
  · rw [mark_foldl_after, ← openMark_eq_endMark]
    rfl
  · rintro script hscript a b rfl
    have ha : CommentFree a := hscript.of_append
    refine ⟨?_, ?_, ?_, ?_⟩
    · rw [← openMark_eq_endMark]
      exact context_endFrom_start ha
    · rw [← openMark_eq_endMark, ← openMark_eq_endMark, openMark_octets]
    · have hstart : CommentFree ([] ++ a) := ha
      obtain ⟨done, hdone⟩ := statementsFrom_resume hstart []
      refine ⟨done, fun later hlater => ?_⟩
      rw [statements, String.toList_ofList]
      exact hdone later hlater
    · rintro c rest rfl
      refine ⟨?_, fun i byte hbyte => ?_⟩
      · rw [← unquoted_eq_outside]
        exact readsBare_iff ha
      · rw [mem_unquoted_octets_iff hbyte]
        exact (readsBare_iff ha).symm

/-- Behind quotes with a doubled mark and with what would be a comment. -/
theorem forgetting_eq_escaping_behind_quotes :
    let before := "x'ä''--; '".toList
    CommentFree (before ++ ['y', ';']) ∧ ReadsBare before 'y' ∧
      (before.length, 'y') ∈ outside 0 (lex (before ++ ['y', ';'])) ∧
      (byteLength before, 'y') ∈ unquoted (octets (before ++ ['y', ';'])) := by
  intro before
  have hfree : CommentFree (before ++ ['y', ';']) := by decide +kernel
  have hbare : ReadsBare before 'y' := by decide +kernel
  obtain ⟨-, -, -, hreaders⟩ := forgetting_eq_escaping.2 _ hfree before ['y', ';'] rfl
  obtain ⟨hlexer, hscanner⟩ := hreaders 'y' [';'] rfl
  exact ⟨hfree, hbare, hlexer.1 hbare, (hscanner 0 'y' (by decide)).2 hbare⟩

end DdlCatalog.Script
