import DdlCatalog.Proofs.Text.Words

/-!
# Pieces of a text by the numbers of its words

* `afterWords n t` — what `t` has behind its first `n` words;
* `piece first count t` — the `count` words of `t` behind the first ones, as they stand in `t`;
* `piece_isInfix` : a piece is cut out of the text; `piece_zero_append`, `piece_append` : which one it is.
-/

namespace DdlCatalog.Text

/-- What a text has behind some of its words, with the blanks before the next one. -/
def afterWords : Nat → List Char → List Char
  | 0, text => text
  | n + 1, text => afterWords n ((trimStart text).dropWhile fun c => !isBlank c)

/-- Some words of a text, behind some others, as they stand there. -/
def piece (first count : Nat) (text : List Char) : List Char :=
  let rest := afterWords first text
  trim (rest.take (rest.length - (afterWords count rest).length))

variable {a b c text : List Char}

theorem afterWords_append {n : Nat} (hn : n = (words a).length) (ha : endsBlank a = false)
    (hb : b = [] ∨ startsBlank b = true) : afterWords n (a ++ b) = b := by
  induction n generalizing a with
  | zero =>
    have hblank : AllBlank a := words_eq_nil_iff.1 (List.eq_nil_of_length_eq_zero hn.symm)
    obtain rfl : a = [] := eq_nil_of_endsBlank (a := []) hblank ha
    rfl
  | succ n ih =>
    obtain ⟨w, ws, hwords⟩ := List.exists_cons_of_length_pos (l := words a) (by omega)
    have hw : IsWord w := by
      have hmem : w ∈ words a := by simp [hwords]
      exact isWord_of_mem_words hmem
    obtain ⟨gap, rest, hgap, hrest, rfl, rfl⟩ := exists_of_words_cons hwords
    rw [hwords, List.length_cons] at hn
    have hend : endsBlank rest = false := by
      by_cases hne : rest = []
      · simp [hne]
      · rwa [endsBlank_append hne] at ha
    have hstart : rest ++ b = [] ∨ startsBlank (rest ++ b) = true := by
      by_cases hne : rest = []
      · simpa [hne] using hb
      · rw [startsBlank_append hne]
        exact .inr (hrest.resolve_left hne)
    rw [afterWords, List.append_assoc, List.append_assoc, trimStart_append_of_blank hgap,
      trimStart_eq_self hw.startsBlank_append, dropWhile_word hw.2 hstart]
    exact ih (Nat.succ.inj hn) hend

theorem piece_of_afterWords {first count : Nat} (hfirst : afterWords first text = a ++ b)
    (hcount : afterWords count (a ++ b) = b) : piece first count text = trim a := by
  unfold piece
  dsimp only
  rw [hfirst, hcount]
  simp

/-- The first words of a text. -/
theorem piece_zero_append {count : Nat} (hcount : count = (words a).length) (ha : endsBlank a = false)
    (hb : b = [] ∨ startsBlank b = true) : piece 0 count (a ++ b) = trim a :=
  piece_of_afterWords rfl (afterWords_append hcount ha hb)

/-- The words behind some others. -/
theorem piece_append {first count : Nat} (hfirst : first = (words a).length) (hcount : count = (words b).length)
    (ha : endsBlank a = false) (hstart : startsBlank b = true) (hb : endsBlank b = false)
    (hc : c = [] ∨ startsBlank c = true) : piece first count (a ++ b ++ c) = trim b := by
  refine piece_of_afterWords ?_ (afterWords_append hcount hb hc)
  rw [List.append_assoc]
  refine afterWords_append hfirst ha (.inr ?_)
  rw [startsBlank_append (ne_nil_of_startsBlank hstart), hstart]

/-! ### Pieces are cut out -/

theorem trim_isInfix (text : List Char) : trim text <:+: text := by
  obtain ⟨a, b, -, -, e⟩ := exists_eq_trim text
  exact ⟨a, b, e.symm⟩

theorem afterWords_isSuffix (n : Nat) (text : List Char) : afterWords n text <:+ text := by
  induction n generalizing text with
  | zero => exact List.suffix_rfl
  | succ n ih => exact (ih _).trans ((List.dropWhile_suffix _).trans (List.dropWhile_suffix _))

/-- A piece stands in the text as it is. -/
theorem piece_isInfix (first count : Nat) (text : List Char) : piece first count text <:+: text :=
  (trim_isInfix _).trans ((List.take_prefix _ _).isInfix.trans (afterWords_isSuffix first text).isInfix)

end DdlCatalog.Text
