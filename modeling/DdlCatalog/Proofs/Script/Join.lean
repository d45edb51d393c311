import DdlCatalog.Proofs.Script.Append

/-!
# Scripts that are put together from statements

* `Body` — a statement without its semicolon, as it can stand in a script;
* `Filler` — a blank or a comment between statements;
* `joined` — bodies with semicolons behind them and fillers around them;
* `statements_joined` : the statements of such a script are the bodies that it has been put together from.
-/

namespace DdlCatalog.Script

open Sql Text

/-! ### Bodies and what stands between them -/

/-- The text has the word nowhere but in quotes. -/
def Quoted (word text : List Char) : Prop := ∀ before after, text = before ++ word ++ after → openMark before ≠ none

instance (word text : List Char) : Decidable (Quoted word text) :=
  decidable_of_iff (∀ before ∈ text.inits, before ++ word <+: text → openMark before ≠ none) <| by
    constructor
    · intro h before after e
      refine h before ?_ ⟨after, e.symm⟩
      rw [List.mem_inits, e, List.append_assoc]
      exact List.prefix_append _ _
    · rintro h before - ⟨after, e⟩
      exact h before after e.symm

/-- What ends a statement or opens a comment. -/
def signs : List (List Char) :=
  [[';'], ['-', '-'], ['/', '*']]

/-- A statement without its semicolon. -/
structure Body where
  text : List Char
  ne_nil : text ≠ []
  trimmed : Trimmed text
  closed : openMark text = none
  quoted : ∀ sign ∈ signs, Quoted sign text

/-- A piece of what stands between statements. -/
inductive Filler where
  | blank (c : Char) (isBlank_c : isBlank c = true)
  /-- A comment up to the end of its line. -/
  | line (text : List Char) (not_mem : '\n' ∉ text)
  /-- A comment up to the first `*/`, which may not begin before the end of `text`. -/
  | block (text : List Char) (no_end : ¬ ['*', '/'] <:+: text ++ ['*'])

namespace Filler

/-- The filler as it stands in a script. -/
def source : Filler → List Char
  | blank c _ => [c]
  | line text _ => '-' :: '-' :: (text ++ ['\n'])
  | block text _ => '/' :: '*' :: (text ++ ['*', '/'])

/-- What a statement gets of the filler. -/
def kept : Filler → List Char
  | blank c _ => [c]
  | line _ _ => ['\n']
  | block _ _ => []

theorem allBlank_kept (f : Filler) : AllBlank f.kept := by
  cases f with
  | blank c hc => simpa [kept] using hc
  | line => exact allBlank_cons.2 ⟨by decide, allBlank_nil⟩
  | block => exact allBlank_nil

end Filler

/-- A script with bodies in it, each with a semicolon and then fillers behind it; `first` are the fillers before all of
them. -/
def joined (first : List Filler) (bodies : List (Body × List Filler)) : List Char :=
  first.flatMap Filler.source ++ bodies.flatMap fun (body, fillers) => body.text ++ ';' :: fillers.flatMap Filler.source

variable {read text rest before word a b : List Char}

/-- What is quoted in a text is so in a part of it that starts outside quotes. -/
theorem Quoted.of_append (h : Quoted word (a ++ text ++ b)) (ha : openMark a = none) : Quoted word text := by
  rintro x y rfl
  have := h (a ++ x) (y ++ b) (by simp)
  rwa [openMark_append_of_closed ha] at this

/-! ### Fillers are read -/

theorem through_close (h : ¬ ['*', '/'] <:+: text ++ ['*']) (rest : List Char) :
    through ['*', '/'] (text ++ '*' :: '/' :: rest) = (text ++ ['*', '/'], rest) := by
  induction text with
  | nil => rfl
  | cons c text ih =>
    have hlater : ¬ ['*', '/'] <:+: text ++ ['*'] := fun hi => h (hi.trans (List.suffix_cons c _).isInfix)
    have hhere : ¬ ['*', '/'] <+: c :: (text ++ '*' :: '/' :: rest) := by
      rintro ⟨tail, e⟩
      cases text with
      | nil => simp at e
      | cons d text =>
        simp only [List.cons_append, List.nil_append, List.cons.injEq] at e
        obtain ⟨rfl, rfl, -⟩ := e
        exact h ⟨[], text ++ ['*'], by simp⟩
    rw [List.cons_append, through, if_neg hhere, ih hlater]
    rfl

-- The equations of the scan are found here, once for all lemmas on it.
attribute [local simp] statementsFrom

theorem statementsFrom_blank {c : Char} (hc : isBlank c = true) (read rest : List Char) :
    statementsFrom .plain read (c :: rest) = statementsFrom .plain (c :: read) rest := by
  have hmark : isMark c = false := by
    rw [isMark, Bool.or_eq_false_iff, beq_eq_false_iff_ne, beq_eq_false_iff_ne]
    exact ⟨ne_of_isBlank hc rfl, ne_of_isBlank hc rfl⟩
  refine statementsFrom_other ?_ ?_ (ne_of_isBlank hc rfl) hmark
  · exact fun _ h => absurd h (ne_of_isBlank hc rfl)
  · exact fun _ h => absurd h (ne_of_isBlank hc rfl)

theorem statementsFrom_gap {gap : List Char} (h : AllBlank gap) (read : List Char) :
    statementsFrom .plain read gap = statementsFrom .plain (gap.reverse ++ read) [] := by
  induction gap generalizing read with
  | nil => rfl
  | cons c gap ih =>
    obtain ⟨hc, hgap⟩ := allBlank_cons.1 h
    rw [statementsFrom_blank hc, ih hgap]
    simp

theorem statementsFrom_filler (f : Filler) (read rest : List Char) :
    statementsFrom .plain read (f.source ++ rest) = statementsFrom .plain (f.kept.reverse ++ read) rest := by
  cases f with
  | blank c hc => exact statementsFrom_blank hc read rest
  | line text htext =>
    have hsource : (Filler.line text htext).source ++ rest = '-' :: '-' :: (text ++ '\n' :: rest) := by
      simp [Filler.source]
    have hinside : ∀ c ∈ text, (c != '\n') = true := by
      intro c hc
      refine bne_iff_ne.2 ?_
      rintro rfl
      exact htext hc
    have hdrop : (text ++ '\n' :: rest).dropWhile (· != '\n') = '\n' :: rest := by
      rw [List.dropWhile_append_of_pos hinside]
      rfl
    rw [hsource, statementsFrom, statementsFrom_lineComment, hdrop, statementsFrom_blank rfl]
    rfl
  | block text htext =>
    have hsource : (Filler.block text htext).source ++ rest = '/' :: '*' :: (text ++ '*' :: '/' :: rest) := by
      simp [Filler.source]
    rw [hsource, statementsFrom, statementsFrom_blockComment, through_close htext]
    rfl

theorem statementsFrom_fillers (fillers : List Filler) (read rest : List Char) :
    statementsFrom .plain read (fillers.flatMap Filler.source ++ rest) =
      statementsFrom .plain ((fillers.flatMap Filler.kept).reverse ++ read) rest := by
  induction fillers generalizing read with
  | nil => rfl
  | cons f fillers ih =>
    rw [List.flatMap_cons, List.append_assoc, statementsFrom_filler, ih]
    simp

/-- What stands before a statement leaves nothing of itself. -/
theorem statementsFrom_fillers_nil (fillers : List Filler) (rest : List Char) :
    statementsFrom .plain [] (fillers.flatMap Filler.source ++ rest) = statementsFrom .plain [] rest := by
  have hkept : AllBlank (fillers.flatMap Filler.kept).reverse := by
    intro c hc
    obtain ⟨f, -, hc⟩ := List.mem_flatMap.1 (List.mem_reverse.1 hc)
    exact f.allBlank_kept c hc
  rw [statementsFrom_fillers, List.append_nil]
  exact statementsFrom_append_gap hkept .plain [] rest

/-! ### Bodies are read -/

/-- The context that a text leaves. -/
def Context.ofMark : Option Char → Context
  | none => .plain
  | some mark => .quoted mark

/-- One character is read that neither ends a statement nor opens a comment, or that is in quotes. -/
theorem statementsFrom_char {c : Char} {mark : Option Char}
    (hstar : mark = none → ∀ after, c = '/' → rest = '*' :: after → False)
    (hdash : mark = none → ∀ after, c = '-' → rest = '-' :: after → False) (hend : mark = none → c ≠ ';')
    (read : List Char) :
    statementsFrom (.ofMark mark) read (c :: rest) = statementsFrom (.ofMark (markAfter mark c)) (c :: read) rest := by
  cases mark with
  | some mark =>
    rw [Context.ofMark, statementsFrom, markAfter]
    split <;> rfl
  | none =>
    rw [markAfter]
    split
    next hmark => exact statementsFrom_mark hmark
    next hmark => exact statementsFrom_other (hstar rfl) (hdash rfl) (hend rfl) (by simpa using hmark)

/-- A text that has its signs in quotes is read as it is.  What follows it may not make a comment of its last
character. -/
theorem statementsFrom_text (hsigns : ∀ sign ∈ signs, ∀ a b, text = a ++ sign ++ b → openMark (before ++ a) ≠ none)
    (hstar : ∀ after, rest ≠ '*' :: after) (hdash : ∀ after, rest ≠ '-' :: after) (read : List Char) :
    statementsFrom (.ofMark (openMark before)) read (text ++ rest) =
      statementsFrom (.ofMark (openMark (before ++ text))) (text.reverse ++ read) rest := by
  induction text generalizing before read with
  | nil => simp
  | cons c text ih =>
    have hlater : ∀ sign ∈ signs, ∀ a b, text = a ++ sign ++ b → openMark (before ++ [c] ++ a) ≠ none := by
      intro sign hsign a b e
      have := hsigns sign hsign (c :: a) b (by rw [e]; rfl)
      simpa using this
    have hhere (hopen : openMark before = none) : ∀ sign ∈ signs, ∀ b, c :: text ≠ sign ++ b := by
      intro sign hsign b e
      exact hsigns sign hsign [] b e (by simpa using hopen)
    have hpair (hopen : openMark before = none) (x y : Char) (hsign : [x, y] ∈ signs)
        (hrest : ∀ after, rest ≠ y :: after) : ∀ after, c = x → text ++ rest = y :: after → False := by
      intro after hc e
      cases text with
      | nil => exact hrest after e
      | cons d text =>
        obtain ⟨rfl, -⟩ := List.cons.inj e
        exact hhere hopen _ hsign text (by rw [hc]; rfl)
    have hend (hopen : openMark before = none) : c ≠ ';' := by
      rintro rfl
      exact hhere hopen [';'] (by decide) text rfl
    rw [List.cons_append, statementsFrom_char (hpair · '/' '*' (by decide) hstar) (hpair · '-' '-' (by decide) hdash)
      hend, ← openMark_concat, ih hlater]
    simp

theorem Body.statementsFrom_append (body : Body) (hstar : ∀ after, rest ≠ '*' :: after)
    (hdash : ∀ after, rest ≠ '-' :: after) :
    statementsFrom .plain [] (body.text ++ rest) = statementsFrom .plain body.text.reverse rest := by
  have hsigns : ∀ sign ∈ signs, ∀ a b, body.text = a ++ sign ++ b → openMark ([] ++ a) ≠ none := body.quoted
  have htext := statementsFrom_text hsigns hstar hdash []
  rw [openMark_nil, List.nil_append, body.closed, List.append_nil] at htext
  exact htext

/-- A body with blanks around it is the statement that it stands for. -/
theorem Body.statement?_append_gap (body : Body) {gap : List Char} (h : AllBlank gap) (ended : Bool) :
    Piece.statement? ⟨body.text ++ gap, ended⟩ =
      some (String.ofList (if ended then body.text ++ [';'] else body.text)) := by
  have htrim : trim ([] ++ body.text ++ gap) = body.text := trim_pad allBlank_nil h body.trimmed
  rw [List.nil_append] at htrim
  rw [Piece.statement?, htrim, if_neg body.ne_nil]

/-! ### Scripts -/

/-- Bodies come back as statements, and what follows them is read by itself. -/
theorem statementsFrom_joined (first : List Filler) (bodies : List (Body × List Filler)) (rest : List Char) :
    statementsFrom .plain [] (joined first bodies ++ rest) =
      bodies.map (fun (body, _) => String.ofList (body.text ++ [';'])) ++ statementsFrom .plain [] rest := by
  induction bodies generalizing first with
  | nil =>
    rw [joined, List.flatMap_nil, List.append_nil, statementsFrom_fillers_nil]
    rfl
  | cons entry bodies ih =>
    obtain ⟨body, fillers⟩ := entry
    have hsplit : joined first ((body, fillers) :: bodies) ++ rest =
        first.flatMap Filler.source ++ (body.text ++ ';' :: (joined fillers bodies ++ rest)) := by
      simp [joined]
    have hstatement := body.statement?_append_gap allBlank_nil true
    rw [List.append_nil] at hstatement
    rw [hsplit, statementsFrom_fillers_nil, body.statementsFrom_append (by simp) (by simp), statementsFrom_semicolon,
      List.reverse_reverse, hstatement, ih]
    rfl

/-- A body that no semicolon follows. -/
theorem Body.statementsFrom_last (body : Body) {gap : List Char} (h : AllBlank gap) :
    statementsFrom .plain [] (body.text ++ gap) = [String.ofList body.text] := by
  have hne : ∀ c, isBlank c = false → ∀ after, gap ≠ c :: after := by
    rintro c hc after rfl
    exact ne_of_isBlank (allBlank_cons.1 h).1 hc rfl
  rw [body.statementsFrom_append (hne _ rfl) (hne _ rfl), statementsFrom_gap h, statementsFrom_end, List.reverse_append,
    List.reverse_reverse, List.reverse_reverse, body.statement?_append_gap h]
  rfl

/-- **The statements of a script are the bodies that it has been put together from.**  Each has its semicolon, whatever
comments and blanks stand around them.  A last body that only blanks follow needs none, and then its statement has
none. -/
theorem statements_joined (first : List Filler) (bodies : List (Body × List Filler)) :
    statements (String.ofList (joined first bodies)) =
        bodies.map (fun (body, _) => String.ofList (body.text ++ [';'])) ∧
      ∀ (last : Body) (gap : Blanks),
        statements (String.ofList (joined first bodies ++ last.text ++ gap.1)) =
          bodies.map (fun (body, _) => String.ofList (body.text ++ [';'])) ++ [String.ofList last.text] := by
  unfold statements
  simp only [String.toList_ofList]
  constructor
  · have hjoined := statementsFrom_joined first bodies []
    have hend : statementsFrom .plain [] [] = [] := rfl
    rw [hend, List.append_nil, List.append_nil] at hjoined
    exact hjoined
  · intro last gap
    rw [List.append_assoc, statementsFrom_joined, last.statementsFrom_last gap.2]

example :
    let body : Body :=
      { text := "-'--;' /".toList, ne_nil := by decide, trimmed := by decide, closed := by decide, quoted := by decide }
    let fillers := [.line "it's;".toList (by decide), .block "/;'*".toList (by decide)]
    statements (String.ofList (joined fillers [(body, fillers)])) = ["-'--;' /;"] := by
  decide +kernel

end DdlCatalog.Script
