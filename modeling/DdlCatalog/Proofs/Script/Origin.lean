import DdlCatalog.Proofs.Script.Passes
import DdlCatalog.Proofs.Text.Trim

/-!
# Where the characters of a statement come from

* `Part.First` — what the first part of a script can be, and what can follow it;
* `placed` — the characters that are kept of a script, each with its place in the script;
* `Neighbours` — two characters that are kept and stand side by side in the script;
* `neighbours_iff` : characters with comments between them are none;
* `exists_piece_of_neighbours` : which characters a cut separates;
* `Piece.First` — what the first piece of a text can be, and what can follow it;
* `KeepsApart` — characters that are neighbours in a statement, and no blanks, are neighbours in the script;
* `Spaced` — comments inside of a statement have a blank beside them;
* `keepsApart_iff` : a script keeps apart what it has apart if and only if it is spaced.
-/

namespace DdlCatalog.Script

open Sql Text

/-! ### The parts of a script, one by one -/

/-- What the first part of a script can be when `rest` is behind it. -/
inductive Part.First (rest : List Char) : Part → Prop where
  | block (chars : List Char) : First rest (.comment ('/' :: '*' :: chars))
  | line (chars : List Char) (ends : rest = [] ∨ ∃ after, rest = '\n' :: after) :
    First rest (.comment ('-' :: '-' :: chars))
  | char (c : Char) (not_mark : isMark c = false) : First rest (.text [c])
  | quotes (mark : Char) (chars : List Char) (is_mark : isMark mark = true)
    (ends : rest ≠ [] → (∃ inside, chars = inside ++ [mark]) ∧ openMark (mark :: chars) = none) :
    First rest (.text (mark :: chars))

variable {script text before piece x y : List Char} {p : Part} {ps qs : List Part} {c d : Char}

theorem exists_of_through {mark : Char} (h : (through [mark] text).2 ≠ []) :
    ∃ inside, (through [mark] text).1 = inside ++ [mark] := by
  fun_induction through [mark] text with
  | case1 => exact absurd rfl h
  | case2 c text hc => exact ⟨[], rfl⟩
  | case3 c text hc ih =>
    obtain ⟨inside, e⟩ := ih h
    exact ⟨c :: inside, by rw [e]; rfl⟩

theorem dropWhile_lineFeed (text : List Char) :
    text.dropWhile (· != '\n') = [] ∨ ∃ after, text.dropWhile (· != '\n') = '\n' :: after := by
  cases h : text.dropWhile (· != '\n') with
  | nil => exact .inl rfl
  | cons c after =>
    have := List.head?_dropWhile_not (· != '\n') text
    rw [h] at this
    right
    simp at this
    exact ⟨after, by rw [this]⟩

/-- A script is its first part and a rest, of which the other parts are. -/
theorem exists_of_parts_cons (h : parts script = p :: ps) :
    ∃ rest, script = p.source ++ rest ∧ parts rest = ps ∧ p.First rest := by
  revert h
  fun_cases parts script with
  | case1 => simp
  | case2 script =>
    rintro ⟨⟩
    exact ⟨_, by simp [Part.source, through_append], rfl, .block _⟩
  | case3 script =>
    rintro ⟨⟩
    exact ⟨_, by simp [Part.source], rfl, .line _ (dropWhile_lineFeed script)⟩
  | case4 c script h1 h2 hmark =>
    rintro ⟨⟩
    have hopen : openMark [c] = some c := by simp [openMark, markAfter, hmark]
    refine ⟨_, by simp [Part.source, through_append], rfl, .quotes c _ hmark fun hrest => ⟨?_, ?_⟩⟩
    · exact exists_of_through hrest
    · exact openMark_through hopen hrest
  | case5 c script h1 h2 hmark =>
    rintro ⟨⟩
    exact ⟨script, rfl, rfl, .char c (by simpa using hmark)⟩

/-- A part that is not the last one leaves no quotes open. -/
theorem Part.First.closed (h : p.First text) (hne : text ≠ []) : openMark p.kept = none := by
  cases h with
  | block => rfl
  | line => rfl
  | char c hmark => simp [kept, openMark, markAfter, hmark]
  | quotes mark chars hmark hends => exact (hends hne).2

theorem Part.First.source_ne_nil (h : p.First text) : p.source ≠ [] := by
  cases h <;> exact List.cons_ne_nil _ _

/-- A script has a rest behind some of its parts, of which the others are, and no quotes are open where it starts. -/
theorem exists_of_parts_append (h : parts script = ps ++ qs) :
    ∃ rest, parts rest = qs ∧ (qs ≠ [] → openMark (ps.flatMap Part.kept) = none) := by
  induction ps generalizing script with
  | nil => exact ⟨script, h, fun _ => openMark_nil⟩
  | cons p ps ih =>
    obtain ⟨rest, -, hrest, hfirst⟩ := exists_of_parts_cons h
    obtain ⟨later, hlater, hclosed⟩ := ih hrest
    refine ⟨later, hlater, fun hne => ?_⟩
    have hrestne : rest ≠ [] := by
      rintro rfl
      simp [parts, hne] at hrest
    rw [List.flatMap_cons, openMark_append_of_closed (hfirst.closed hrestne)]
    exact hclosed hne

/-- The part between some parts and others is the first one of what is there. -/
theorem exists_first_of_parts (h : parts script = ps ++ p :: qs) :
    ∃ rest, parts rest = qs ∧ p.First rest ∧ openMark (ps.flatMap Part.kept) = none := by
  obtain ⟨here, hhere, hclosed⟩ := exists_of_parts_append h
  obtain ⟨rest, -, hrest, hfirst⟩ := exists_of_parts_cons hhere
  exact ⟨rest, hrest, hfirst, hclosed (List.cons_ne_nil _ _)⟩

/-- Behind a line comment stands the line feed that has ended it. -/
theorem eq_lineFeed_of_parts {chars : List Char} (h : parts script = ps ++ .comment ('-' :: '-' :: chars) :: p :: qs) :
    p = .text ['\n'] := by
  obtain ⟨rest, hrest, hfirst, -⟩ := exists_first_of_parts h
  cases hfirst with
  | line chars hends =>
    rcases hends with rfl | ⟨after, rfl⟩
    · simp [parts] at hrest
    · simp [parts, isMark] at hrest
      exact hrest.1.symm

/-! ### The places of characters -/

/-- The characters that are kept of some parts, each with its place; the parts start at `place`. -/
def placedFrom (place : Nat) : List Part → List (Char × Nat)
  | [] => []
  | p :: ps => p.kept.zipIdx place ++ placedFrom (place + p.source.length) ps

/-- The characters that are kept of a script, each with its place in the script. -/
def placed (script : List Char) : List (Char × Nat) :=
  placedFrom 0 (parts script)

theorem placedFrom_append (place : Nat) (ps qs : List Part) :
    placedFrom place (ps ++ qs) =
      placedFrom place ps ++ placedFrom (place + (ps.flatMap Part.source).length) qs := by
  induction ps generalizing place with
  | nil => rfl
  | cons p ps ih => simp [placedFrom, ih, Nat.add_assoc]

theorem map_placedFrom (place : Nat) (ps : List Part) :
    (placedFrom place ps).map Prod.fst = ps.flatMap Part.kept := by
  induction ps generalizing place with
  | nil => rfl
  | cons p ps ih => simp [placedFrom, ih]

theorem placedFrom_of_kept_eq_nil (h : ∀ p ∈ ps, p.kept = []) (place : Nat) : placedFrom place ps = [] := by
  have hkept : ps.flatMap Part.kept = [] := List.flatMap_eq_nil_iff.2 h
  rw [← map_placedFrom place, List.map_eq_nil_iff] at hkept
  exact hkept

/-- A character stands in the script where it is placed. -/
theorem getElem?_of_mem_placedFrom {place n : Nat} (h : (c, n) ∈ placedFrom place ps) :
    ∃ i, n = place + i ∧ (ps.flatMap Part.source)[i]? = some c := by
  induction ps generalizing place with
  | nil => cases h
  | cons p ps ih =>
    rw [List.flatMap_cons]
    rcases List.mem_append.1 h with hhere | hlater
    · obtain ⟨hle, hget⟩ := List.mk_mem_zipIdx_iff_le_and_getElem?_sub.1 hhere
      refine ⟨n - place, by omega, ?_⟩
      cases p with
      | text chars =>
        have hlt : n - place < (Part.text chars).source.length := (List.getElem?_eq_some_iff.1 hget).1
        rw [List.getElem?_append_left hlt]
        exact hget
      | comment chars => cases hget
    · obtain ⟨i, rfl, hget⟩ := ih hlater
      refine ⟨p.source.length + i, by omega, ?_⟩
      rw [List.getElem?_append_right (by omega), Nat.add_sub_cancel_left, hget]

/-! ### Neighbours -/

/-- A part that keeps something is text. -/
theorem eq_text_of_kept {chars : List Char} (h : p.kept = chars) (hne : chars ≠ []) : p = .text chars := by
  cases p with
  | text chars' => rw [← h, Part.kept]
  | comment chars' => exact absurd h.symm hne

/-- The first character that is kept has only comments before it. -/
theorem exists_parts_of_kept_cons (h : ps.flatMap Part.kept = d :: y) :
    ∃ comments chars after, ps = comments ++ .text (d :: chars) :: after ∧ ∀ p ∈ comments, p.kept = [] := by
  induction ps with
  | nil => cases h
  | cons p ps ih =>
    rw [List.flatMap_cons] at h
    cases hkept : p.kept with
    | nil =>
      rw [hkept, List.nil_append] at h
      obtain ⟨comments, chars, after, rfl, hcomments⟩ := ih h
      exact ⟨p :: comments, chars, after, rfl, List.forall_mem_cons.2 ⟨hkept, hcomments⟩⟩
    | cons e chars =>
      rw [hkept] at h
      obtain ⟨rfl, -⟩ := List.cons.inj h
      obtain rfl := eq_text_of_kept hkept (List.cons_ne_nil _ _)
      exact ⟨[], chars, ps, rfl, by simp⟩

/-- Neighbours among the characters that are kept are neighbours in one part, or there are comments between them. -/
theorem exists_parts_of_kept (h : ps.flatMap Part.kept = x ++ c :: d :: y) :
    (∃ before inside chars after, ps = before ++ .text (inside ++ c :: d :: chars) :: after ∧
        x = before.flatMap Part.kept ++ inside) ∨
      ∃ before inside comments chars after,
        ps = before ++ .text (inside ++ [c]) :: (comments ++ .text (d :: chars) :: after) ∧
          (∀ p ∈ comments, p.kept = []) ∧ x = before.flatMap Part.kept ++ inside := by
  induction ps generalizing x with
  | nil => simp at h
  | cons p ps ih =>
    rw [List.flatMap_cons] at h
    rcases append_eq_append_cons h with ⟨x', rfl, hrest⟩ | ⟨chars, hkept, hrest⟩
    · rcases ih hrest with ⟨before, inside, chars, after, rfl, rfl⟩ |
        ⟨before, inside, comments, chars, after, rfl, hcomments, rfl⟩
      · exact .inl ⟨p :: before, inside, chars, after, rfl, by simp⟩
      · exact .inr ⟨p :: before, inside, comments, chars, after, rfl, hcomments, by simp⟩
    · obtain rfl := eq_text_of_kept hkept (by simp)
      cases chars with
      | nil =>
        obtain ⟨comments, chars, after, rfl, hcomments⟩ := exists_parts_of_kept_cons hrest.symm
        exact .inr ⟨[], x, comments, chars, after, rfl, hcomments, rfl⟩
      | cons d' chars =>
        obtain ⟨rfl, -⟩ := List.cons.inj hrest
        exact .inl ⟨[], x, chars, ps, rfl, rfl⟩

/-- Neighbours that no cut comes between are neighbours in one piece. -/
theorem exists_piece_of_neighbours (hc : c ≠ ';') (hd : d ≠ ';') (h : piece ++ text = x ++ c :: d :: y) :
    ∃ done p later inside rest, piecesFrom before piece text = done ++ p :: later ∧
      p.text = inside ++ c :: d :: rest ∧ x = done.flatMap Piece.source ++ inside := by
  fun_induction piecesFrom before piece text generalizing x with
  | case1 before piece => exact ⟨[], ⟨piece, false⟩, [], x, y, rfl, by simpa using h, rfl⟩
  | case2 before piece e text hcut ih =>
    obtain ⟨-, rfl⟩ := hcut
    rcases append_eq_append_cons h with ⟨x', rfl, hrest⟩ | ⟨chars, rfl, hrest⟩
    · cases x' with
      | nil => exact absurd (List.cons.inj hrest).1.symm hc
      | cons e x' =>
        obtain ⟨rfl, hlater⟩ := List.cons.inj hrest
        obtain ⟨done, p, later, inside, rest, hpieces, hp, rfl⟩ := @ih x' hlater
        exact ⟨⟨piece, true⟩ :: done, p, later, inside, rest, by rw [hpieces]; rfl, hp, by simp [Piece.source]⟩
    · cases chars with
      | nil => exact absurd (List.cons.inj hrest).1 hd
      | cons e chars =>
        obtain ⟨rfl, -⟩ := List.cons.inj hrest
        exact ⟨[], ⟨x ++ c :: d :: chars, true⟩, _, x, chars, rfl, rfl, rfl⟩
  | case3 before piece e text hcut ih => exact ih (by simpa using h)

/-! ### The pieces of a text, one by one -/

/-- What the first piece of a text behind `start` can be when `later` are the pieces behind it. -/
structure Piece.First (start : List Char) (p : Piece) (later : List Piece) : Prop where
  /-- A semicolon in the piece is in quotes. -/
  quoted : ∀ a b, p.text = a ++ ';' :: b → openMark (start ++ a) ≠ none
  closed : p.ended = true → openMark (start ++ p.text) = none
  rest : p.ended = true → ∃ text, later = piecesFrom (start ++ p.source) [] text
  last : p.ended = false → later = []

variable {start : List Char} {q : Piece} {done later : List Piece}

theorem first_of_piecesFrom (hpiece : ∀ a b, piece = a ++ ';' :: b → openMark (start ++ a) ≠ none)
    (h : piecesFrom (start ++ piece) piece text = q :: later) : q.First start later := by
  induction text generalizing piece with
  | nil =>
    obtain ⟨rfl, rfl⟩ := List.cons.inj h
    exact ⟨hpiece, by simp, by simp, fun _ => rfl⟩
  | cons c text ih =>
    rw [piecesFrom] at h
    split at h
    next hcut =>
      obtain ⟨hopen, rfl⟩ := hcut
      obtain ⟨rfl, rfl⟩ := List.cons.inj h
      exact ⟨hpiece, fun _ => hopen, fun _ => ⟨text, by simp [Piece.source]⟩, by simp⟩
    next hcut =>
      rw [List.append_assoc] at h
      refine ih ?_ h
      intro a b hab
      rcases append_eq_append_cons hab with ⟨a', rfl, hlast⟩ | ⟨chars, rfl, -⟩
      · rw [List.singleton_eq_append_iff] at hlast
        rcases hlast with ⟨rfl, hlast⟩ | ⟨-, hlast⟩
        · obtain ⟨rfl, -⟩ := List.cons.inj hlast
          simpa using hcut
        · cases hlast
      · exact hpiece a chars rfl

/-- Behind a piece that a semicolon ends no quotes are open. -/
theorem Piece.First.openMark_source (h : q.First start later) (hq : q.ended = true) :
    openMark (start ++ q.source) = none := by
  rw [Piece.source, if_pos hq, ← List.append_assoc, openMark_append_of_unmarked (by decide), h.closed hq]

theorem first_of_piecesFrom_nil (h : piecesFrom start [] text = q :: later) : q.First start later := by
  have hstart : piecesFrom (start ++ []) [] text = q :: later := by rwa [List.append_nil]
  exact first_of_piecesFrom (by simp) hstart

/-- A piece behind others is the first one of what is there, and no quotes are open where it starts. -/
theorem first_of_piecesFrom_append (hstart : openMark start = none)
    (h : piecesFrom start [] text = done ++ q :: later) :
    q.First (start ++ done.flatMap Piece.source) later ∧ openMark (start ++ done.flatMap Piece.source) = none := by
  induction done generalizing start text with
  | nil =>
    rw [List.flatMap_nil, List.append_nil]
    exact ⟨first_of_piecesFrom_nil h, hstart⟩
  | cons r done ih =>
    have hfirst : r.First start (done ++ q :: later) := first_of_piecesFrom_nil h
    cases hr : r.ended with
    | false => exact absurd (hfirst.last hr) (by simp)
    | true =>
      obtain ⟨rest, hrest⟩ := hfirst.rest hr
      rw [List.flatMap_cons, ← List.append_assoc]
      exact ih (hfirst.openMark_source hr) hrest.symm

theorem first_of_pieces (h : pieces text = done ++ q :: later) :
    q.First (done.flatMap Piece.source) later ∧ openMark (done.flatMap Piece.source) = none :=
  first_of_piecesFrom_append openMark_nil h

/-! ### What is kept apart -/

/-- The characters `c` and `d` that are kept behind `before` are neighbours in the script. -/
def Neighbours (script before : List Char) (c d : Char) : Prop :=
  ∃ s s' i, placed script = s ++ (c, i) :: (d, i + 1) :: s' ∧ s.map Prod.fst = before

/-- Neighbours in a statement are neighbours in the script, if neither is a blank. -/
def KeepsApart (script : List Char) : Prop :=
  ∀ done p later, pieces (withoutComments script) = done ++ p :: later →
    ∀ x c d y, p.text = x ++ c :: d :: y → isBlank c = false → isBlank d = false →
      Neighbours script (done.flatMap Piece.source ++ x) c d

/-- Comments have a blank beside them, or the semicolon of a statement. -/
def Spaced (script : List Char) : Prop :=
  ∀ ps t comments u qs, parts script = ps ++ .text t :: (comments ++ .text u :: qs) →
    comments ≠ [] → (∀ p ∈ comments, p.kept = []) →
      endsBlank t = true ∨ startsBlank u = true ∨ t = [';'] ∨ u = [';']

/-- Where the end of `chars` is placed behind some parts and `inside`, and what is placed before it. -/
theorem exists_placed {inside chars : List Char} (h : parts script = ps ++ .text (inside ++ chars) :: qs) :
    ∃ s place, placed script = s ++ (chars.zipIdx place ++ placedFrom (place + chars.length) qs) ∧
      s.map Prod.fst = ps.flatMap Part.kept ++ inside := by
  let start := 0 + (ps.flatMap Part.source).length
  refine ⟨placedFrom 0 ps ++ inside.zipIdx start, start + inside.length, ?_, ?_⟩
  · rw [placed, h, placedFrom_append, placedFrom, Part.kept, Part.source, List.zipIdx_append, List.length_append,
      Nat.add_assoc start]
    simp only [List.append_assoc, start]
  · rw [List.map_append, map_placedFrom, List.zipIdx_map_fst]

theorem neighbours_of_part {inside chars : List Char}
    (h : parts script = ps ++ .text (inside ++ c :: d :: chars) :: qs) :
    Neighbours script (ps.flatMap Part.kept ++ inside) c d := by
  obtain ⟨s, place, hplaced, hs⟩ := exists_placed h
  exact ⟨s, _, place, hplaced, hs⟩

/-- What comments separate stands as far apart as they are long. -/
theorem neighbours_iff {inside chars : List Char} {comments : List Part}
    (h : parts script = ps ++ .text (inside ++ [c]) :: (comments ++ .text (d :: chars) :: qs))
    (hcomments : ∀ p ∈ comments, p.kept = []) :
    Neighbours script (ps.flatMap Part.kept ++ inside) c d ↔ comments.flatMap Part.source = [] := by
  obtain ⟨s, place, hplaced, hs⟩ := exists_placed h
  rw [placedFrom_append, placedFrom_of_kept_eq_nil hcomments, List.nil_append] at hplaced
  constructor
  · rintro ⟨s₂, s₂', place₂, hplaced₂, hs₂⟩
    rw [hplaced] at hplaced₂
    have hlength : s.length = s₂.length := by
      simpa using congrArg List.length (hs.trans hs₂.symm)
    obtain ⟨-, hnext⟩ := List.append_inj hplaced₂ hlength
    simp only [List.zipIdx_cons, List.zipIdx_nil, List.cons_append, List.nil_append, placedFrom, Part.kept,
      List.cons.injEq, Prod.mk.injEq, List.length_singleton, true_and] at hnext
    obtain ⟨rfl, hplace, -⟩ := hnext
    exact List.length_eq_zero_iff.1 (by omega)
  · intro hnil
    rw [hnil] at hplaced
    exact ⟨s, _, place, hplaced, hs⟩

theorem eq_nil_of_flatMap_source (h : parts script = ps ++ qs) (hnil : ps.flatMap Part.source = []) : ps = [] := by
  cases ps with
  | nil => rfl
  | cons p ps =>
    obtain ⟨rest, -, -, hfirst⟩ := exists_of_parts_cons h
    rw [List.flatMap_cons, List.append_eq_nil_iff] at hnil
    exact absurd hnil.1 hfirst.source_ne_nil

/-- No text that something follows ends with a semicolon, but for one that is nothing else. -/
theorem Part.First.exists_last {t : List Char} (h : (Part.text t).First text) (hne : text ≠ []) (ht : t ≠ [';']) :
    ∃ inside c, t = inside ++ [c] ∧ c ≠ ';' := by
  cases h with
  | char c hmark => exact ⟨[], c, rfl, fun hc => ht (by rw [hc])⟩
  | quotes mark chars hmark hends =>
    obtain ⟨⟨inside, rfl⟩, -⟩ := hends hne
    refine ⟨mark :: inside, mark, rfl, ?_⟩
    rintro rfl
    cases hmark

theorem Part.First.exists_head {t : List Char} (h : (Part.text t).First text) (ht : t ≠ [';']) :
    ∃ c chars, t = c :: chars ∧ c ≠ ';' := by
  cases h with
  | char c hmark => exact ⟨c, [], rfl, fun hc => ht (by rw [hc])⟩
  | quotes mark chars hmark hends =>
    refine ⟨mark, chars, rfl, ?_⟩
    rintro rfl
    cases hmark

/-- Comments with nothing beside them are what brings characters together. -/
theorem spaced_of_keepsApart (h : KeepsApart script) : Spaced script := by
  intro ps t comments u qs hparts hne hcomments
  by_contra hcon
  simp only [not_or, Bool.not_eq_true] at hcon
  obtain ⟨hend, hstart, ht, hu⟩ := hcon
  -- the last character before the comments and the first one behind them
  obtain ⟨rest, hrest, hfirst, -⟩ := exists_first_of_parts hparts
  have hrestne : rest ≠ [] := by
    rintro rfl
    simp [parts] at hrest
  obtain ⟨inside, c, rfl, hc⟩ := hfirst.exists_last hrestne ht
  obtain ⟨later, -, hnext, -⟩ := exists_first_of_parts hrest
  obtain ⟨d, chars, rfl, hd⟩ := hnext.exists_head hu
  rw [endsBlank_concat] at hend
  rw [startsBlank_cons] at hstart
  -- they are neighbours in what is kept, and so in a piece
  have hkept : [] ++ withoutComments script =
      (ps.flatMap Part.kept ++ inside) ++ c :: d :: (chars ++ qs.flatMap Part.kept) := by
    rw [withoutComments, hparts]
    simp [Part.kept, List.flatMap_eq_nil_iff.2 hcomments]
  obtain ⟨done, p, later, x, y, hpieces, hp, hx⟩ := exists_piece_of_neighbours hc hd hkept
  have hneighbours := h done p later hpieces x c d y hp hend hstart
  rw [← hx] at hneighbours
  exact hne (eq_nil_of_flatMap_source hrest ((neighbours_iff hparts hcomments).1 hneighbours))

/-- A semicolon that is a part by itself is outside quotes, and so in no piece. -/
theorem flatMap_kept_ne_of_semicolon {done later : List Piece} {p : Piece} (h : parts script = ps ++ .text [';'] :: qs)
    (hpieces : pieces (withoutComments script) = done ++ p :: later) (hp : p.text = x ++ ';' :: y) :
    ps.flatMap Part.kept ≠ done.flatMap Piece.source ++ x := by
  intro e
  obtain ⟨-, -, -, hclosed⟩ := exists_first_of_parts h
  rw [e] at hclosed
  exact (first_of_pieces hpieces).1.quoted x y hp hclosed

theorem keepsApart_of_spaced (h : Spaced script) : KeepsApart script := by
  intro done p later hpieces x c d y hp hc hd
  have hkept : (parts script).flatMap Part.kept = (done.flatMap Piece.source ++ x) ++
      c :: d :: (y ++ ((if p.ended then [';'] else []) ++ later.flatMap Piece.source)) := by
    have htext := flatMap_source_piecesFrom [] [] (withoutComments script)
    change (pieces (withoutComments script)).flatMap Piece.source = withoutComments script at htext
    rw [← withoutComments, ← htext, hpieces]
    cases hended : p.ended <;> simp [Piece.source, hp, hended]
  rcases exists_parts_of_kept hkept with ⟨ps, inside, chars, qs, hparts, hx⟩ |
    ⟨ps, inside, comments, chars, qs, hparts, hcomments, hx⟩
  · rw [hx]
    exact neighbours_of_part hparts
  · rw [hx, neighbours_iff hparts hcomments]
    by_contra hne
    have hcomments_ne : comments ≠ [] := by
      rintro rfl
      exact hne rfl
    rcases h ps _ comments _ qs hparts hcomments_ne hcomments with hblank | hblank | hlast | hhead
    · rw [endsBlank_concat, hc] at hblank
      cases hblank
    · rw [startsBlank_cons, hd] at hblank
      cases hblank
    · obtain ⟨rfl, rfl⟩ : inside = [] ∧ c = ';' := by simpa [List.append_eq_singleton_iff] using hlast
      rw [List.append_nil] at hx
      exact flatMap_kept_ne_of_semicolon hparts hpieces hp hx.symm
    · obtain ⟨rfl, rfl⟩ : d = ';' ∧ chars = [] := by simpa using hhead
      have hbehind : parts script = (ps ++ .text (inside ++ [c]) :: comments) ++ .text [';'] :: qs := by
        simpa using hparts
      have hsame : p.text = (x ++ [c]) ++ ';' :: y := by simpa using hp
      refine flatMap_kept_ne_of_semicolon hbehind hpieces hsame ?_
      rw [← List.append_assoc, hx]
      simp [Part.kept, List.flatMap_eq_nil_iff.2 hcomments]

/-- **A script keeps apart what it has apart if and only if it is spaced.**  Its statements are pieces of what is kept
of it, each character of which stands in the script where it is placed.  Neighbours in a piece that are no blanks have
been neighbours in the script, unless there have been comments between them that stand in a statement without a blank
beside them.  Those are block comments: behind a line comment its line feed is kept. -/
theorem keepsApart_iff (script : String) :
    statements script = (pieces (withoutComments script.toList)).filterMap Piece.statement? ∧
      (placed script.toList).map Prod.fst = withoutComments script.toList ∧
      (∀ c i, (c, i) ∈ placed script.toList → script.toList[i]? = some c) ∧
      (KeepsApart script.toList ↔ Spaced script.toList) ∧
      ∀ ps chars p qs, parts script.toList = ps ++ .comment ('-' :: '-' :: chars) :: p :: qs → p = .text ['\n'] := by
  refine ⟨?_, map_placedFrom _ _, ?_, ⟨spaced_of_keepsApart, keepsApart_of_spaced⟩, ?_⟩
  · exact statementsFrom_plain [] [] fun _ => openMark_nil
  · intro c n h
    obtain ⟨i, rfl, hget⟩ := getElem?_of_mem_placedFrom h
    rw [flatMap_source_parts] at hget
    rw [Nat.zero_add, hget]
  · intro ps chars p qs
    exact eq_lineFeed_of_parts

/-- A block comment between two words makes them one. -/
theorem not_keepsApart_of_comment :
    let script := "CREATE/**/TABLE t (a int);"
    statements script = ["CREATETABLE t (a int);"] ∧ ¬ ['E', 'T'] <:+: script.toList ∧ ¬ KeepsApart script.toList := by
  intro script
  have hparts : parts script.toList =
      "CREAT".toList.map (fun c => .text [c]) ++ .text ['E'] ::
        ([.comment "/**/".toList] ++ .text ['T'] :: "ABLE t (a int);".toList.map fun c => .text [c]) := by
    decide +kernel
  refine ⟨by decide +kernel, by decide +kernel, fun h => ?_⟩
  have hspaced := spaced_of_keepsApart h _ _ _ _ _ hparts (by simp) (by simp [Part.kept])
  revert hspaced
  decide

end DdlCatalog.Script
