import DdlCatalog.Proofs.Sql.Unquoted
import DdlCatalog.Proofs.Script.Join
import DdlCatalog.Proofs.Script.Origin

/-!
# What is handed to the scanner

The statements of a script are cut out character by character and among comments.  Their scanner reads bytes and knows
of no comments, and finds the same semicolons.

* `closed_of_pieces`, `quoted_of_pieces` : where pieces end, and what they cannot hold;
* `Terminated s` — the last byte of `s` is a semicolon that the scanner finds outside quotes;
* `Handed isLast s` — what the scanner can rely on in a statement;
* `handed_of_statements` : it can in all statements of a script.
-/

namespace DdlCatalog.Script

open Sql Text

variable {text body : List Char}

/-! ### Pieces -/

/-- No quotes are open where a piece ends with a semicolon, nor have been where it starts. -/
theorem closed_of_pieces {p : Piece} {done later : List Piece} (h : pieces text = done ++ p :: later)
    (hp : p.ended = true) : openMark p.text = none := by
  obtain ⟨hfirst, hopen⟩ := first_of_pieces h
  have hclosed := hfirst.closed hp
  rwa [openMark_append_of_closed hopen] at hclosed

theorem quoted_of_pieces {p : Piece} {done later : List Piece} (h : pieces text = done ++ p :: later) :
    Quoted [';'] p.text := by
  intro a b hp
  obtain ⟨hfirst, hopen⟩ := first_of_pieces h
  have hquoted := hfirst.quoted a b (by simpa using hp)
  rwa [openMark_append_of_closed hopen] at hquoted

theorem Quoted.trim {word : List Char} (h : Quoted word text) : Quoted word (trim text) := by
  obtain ⟨a, b, ha, -, e⟩ := exists_eq_trim text
  rw [e] at h
  exact h.of_append (openMark_of_allBlank ha)

/-- A statement is what is left of a piece, and others behind it are left of others. -/
theorem exists_piece_of_statements {script s : String} {done later : List String}
    (h : statements script = done ++ s :: later) :
    ∃ before p after, pieces (withoutComments script.toList) = before ++ p :: after ∧ p.statement? = some s ∧
      (later ≠ [] → p.ended = true) := by
  rw [(statements_eq_passes script).1, List.filterMap_eq_append_iff] at h
  obtain ⟨ps, qs, hpieces, -, hqs⟩ := h
  obtain ⟨blanks, p, after, rfl, -, hp, hafter⟩ := List.filterMap_eq_cons_iff.1 hqs
  rw [← List.append_assoc] at hpieces
  refine ⟨ps ++ blanks, p, after, hpieces, hp, fun hlater => ?_⟩
  by_contra hended
  have hlast : after = [] := (first_of_pieces hpieces).1.last (by simpa using hended)
  rw [hlast] at hafter
  exact hlater hafter.symm

/-! ### What the scanner can rely on -/

/-- A statement without the semicolon that it may end in. -/
def withoutSemicolon (s : List Char) : List Char :=
  if s.getLast? = some ';' then s.dropLast else s

/-- The last byte is a semicolon that the scanner finds outside quotes. -/
def Terminated (s : List Char) : Prop := ∃ i, (i, ';') ∈ unquoted (octets s) ∧ i + 1 = byteLength s

/-- A statement as a scanner of its bytes has it. -/
structure Handed (isLast : Prop) (s : List Char) : Prop where
  ne_nil : withoutSemicolon s ≠ []
  starts : startsBlank s = false
  /-- A semicolon outside quotes is the last byte. -/
  only : ∀ i, (i, ';') ∈ unquoted (octets s) → i + 1 = byteLength s
  terminated : ¬ isLast → Terminated s ∧ endsBlank (withoutSemicolon s) = false
  /-- The last statement may go without a semicolon, but for some in quotes. -/
  last : isLast → Terminated s ∨ (∀ i, (i, ';') ∉ unquoted (octets s)) ∧ endsBlank s = false

theorem withoutSemicolon_concat (body : List Char) : withoutSemicolon (body ++ [';']) = body := by
  simp [withoutSemicolon]

theorem not_mem_unquoted_of_quoted (h : Quoted [';'] body) (i : Nat) : (i, ';') ∉ unquoted (octets body) := by
  rw [mem_unquoted_octets_ascii_iff (by decide)]
  rintro ⟨a, b, rfl, -, hopen, -⟩
  exact h a b (by simp) hopen

theorem handed_concat (hne : body ≠ []) (htrimmed : Trimmed body) (hclosed : openMark body = none)
    (hquoted : Quoted [';'] body) (isLast : Prop) : Handed isLast (body ++ [';']) := by
  have hlength : byteLength body + 1 = byteLength (body ++ [';']) := by rw [byteLength_append]; rfl
  have hterminated : Terminated (body ++ [';']) :=
    ⟨byteLength body, (mem_unquoted_octets_ascii_iff (by decide)).2 ⟨body, [], rfl, rfl, hclosed, rfl⟩, hlength⟩
  refine ⟨?_, ?_, ?_, fun _ => ⟨hterminated, ?_⟩, fun _ => .inl hterminated⟩
  · rwa [withoutSemicolon_concat]
  · rw [startsBlank_append hne]
    exact htrimmed.1
  · intro i hi
    obtain ⟨a, b, hab, rfl, hopen, -⟩ := (mem_unquoted_octets_ascii_iff (by decide)).1 hi
    rcases append_eq_append_cons hab with ⟨a', rfl, hlast⟩ | ⟨b', rfl, -⟩
    · cases a' with
      | nil => rw [List.append_nil, hlength]
      | cons c a' => simp at hlast
    · exact absurd hopen (hquoted a b' (by simp))
  · rw [withoutSemicolon_concat]
    exact htrimmed.2

theorem handed_last (hne : body ≠ []) (htrimmed : Trimmed body) (hquoted : Quoted [';'] body) :
    Handed True body := by
  have hnone := not_mem_unquoted_of_quoted hquoted
  refine ⟨?_, htrimmed.1, fun i hi => absurd hi (hnone i), fun h => absurd trivial h,
    fun _ => .inr ⟨hnone, htrimmed.2⟩⟩
  unfold withoutSemicolon
  split
  next hlast =>
    -- it is in quotes, and so not the first character
    obtain ⟨inside, rfl⟩ := List.getLast?_eq_some_iff.1 hlast
    rw [List.dropLast_concat]
    rintro rfl
    exact hquoted [] [] rfl rfl
  next => exact hne

/-- **The statements of a script are well formed for the scanner.**  Each has a body that no blank stands before, and no
semicolon outside quotes but for its last byte.  All but the last one have such a semicolon right behind their body; the
last one has it, too, or ends without any. -/
theorem handed_of_statements {script s : String} {done later : List String}
    (h : statements script = done ++ s :: later) : Handed (later = []) s.toList := by
  obtain ⟨before, p, after, hpieces, hs, hended⟩ := exists_piece_of_statements h
  rw [Piece.statement?] at hs
  split at hs
  next => cases hs
  next hne =>
    obtain rfl := Option.some.inj hs
    have htrimmed := trimmed_trim p.text
    have hquoted := (quoted_of_pieces hpieces).trim
    rw [String.toList_ofList]
    cases hp : p.ended with
    | true =>
      have hclosed : openMark (trim p.text) = none := by rw [openMark_trim, closed_of_pieces hpieces hp]
      exact handed_concat hne htrimmed hclosed hquoted _
    | false =>
      have hlast : later = [] := by
        by_contra hlater
        rw [hended hlater] at hp
        cases hp
      rw [eq_true hlast]
      exact handed_last hne htrimmed hquoted

/-- Semicolons in a comment and in quotes, and quotes that nothing closes. -/
theorem handed_of_commented :
    let script := "/* ; */ SELECT 'ä;' ; -- it's\n x \"y;"
    statements script = ["SELECT 'ä;';", "x \"y;"] ∧
      Handed False "SELECT 'ä;';".toList ∧ Handed True "x \"y;".toList := by
  intro script
  have hfirst : statements script = [] ++ "SELECT 'ä;';" :: ["x \"y;"] := by decide +kernel
  have hsecond : statements script = ["SELECT 'ä;';"] ++ "x \"y;" :: [] := hfirst
  refine ⟨hfirst, ?_, ?_⟩
  · have hhanded := handed_of_statements hfirst
    rwa [eq_false (List.cons_ne_nil _ _)] at hhanded
  · have hhanded := handed_of_statements hsecond
    rwa [eq_true rfl] at hhanded

end DdlCatalog.Script
