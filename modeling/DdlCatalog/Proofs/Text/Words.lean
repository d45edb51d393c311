import DdlCatalog.Proofs.Text.Trim
import Mathlib.Data.List.Basic
import Mathlib.Tactic.Common

/-!
# The words of a text

* `words t` — the parts of `t` between its blanks;
* `words_append` : a gap of blanks cuts the words of a text in two; everything else about `words` follows;
* `exists_of_words_cons`, `exists_of_words_concat` : a text is its first word and the rest, or what comes before its
  last word and that word.
-/

namespace DdlCatalog.Text

/-- The parts of a text between its blanks. -/
def words (text : List Char) : List (List Char) :=
  (text.splitOnP isBlank).filter fun w => !w.isEmpty

/-- Something without blanks. -/
def IsWord (w : List Char) : Prop := w ≠ [] ∧ Solid w

instance (w : List Char) : Decidable (IsWord w) := by unfold IsWord; infer_instance

variable {a b text w gap : List Char} {ws : List (List Char)}

theorem IsWord.trimmed (h : IsWord w) : Trimmed w := trimmed_of_solid h.2

theorem IsWord.startsBlank_append (h : IsWord w) : startsBlank (w ++ b) = false := by
  rw [Text.startsBlank_append h.1, h.trimmed.1]

theorem IsWord.endsBlank_append (h : IsWord w) : endsBlank (a ++ w) = false := by
  rw [Text.endsBlank_append h.1, h.trimmed.2]

/-! ### Words of a text put together -/

@[simp] theorem words_nil : words [] = [] := by simp [words, List.splitOnP_nil]

theorem words_append_cons {c : Char} (hc : isBlank c = true) : words (a ++ c :: b) = words a ++ words b := by
  unfold words
  rw [List.splitOnP_append_cons a b hc, List.filter_append]

theorem words_cons {c : Char} (hc : isBlank c = true) : words (c :: b) = words b := by
  simpa using words_append_cons (a := []) (b := b) hc

theorem words_eq_nil (h : AllBlank text) : words text = [] := by
  induction text with
  | nil => exact words_nil
  | cons c text ih => rw [words_cons (allBlank_cons.1 h).1, ih (allBlank_cons.1 h).2]

theorem words_blank_append (h : AllBlank gap) : words (gap ++ b) = words b := by
  induction gap with
  | nil => rfl
  | cons c gap ih => rw [List.cons_append, words_cons (allBlank_cons.1 h).1, ih (allBlank_cons.1 h).2]

theorem words_append_of_startsBlank (h : b = [] ∨ startsBlank b = true) : words (a ++ b) = words a ++ words b := by
  rcases h with rfl | h
  · simp
  · obtain ⟨c, rest, hc, rfl⟩ := exists_of_startsBlank h
    rw [words_append_cons hc, words_cons hc]

theorem words_append_of_endsBlank (h : a = [] ∨ endsBlank a = true) : words (a ++ b) = words a ++ words b := by
  rcases h with rfl | h
  · simp
  · obtain ⟨a', c, rfl⟩ := List.eq_nil_or_concat a |>.resolve_left (by rintro rfl; simp at h)
    rw [List.concat_eq_append, endsBlank_concat] at h
    rw [List.concat_eq_append, List.append_assoc, List.singleton_append, words_append_cons h,
      words_append_cons (b := []) h, words_nil, List.append_nil]

/-- A gap of blanks cuts the words of a text in two. -/
theorem words_append (hne : gap ≠ []) (h : AllBlank gap) : words (a ++ gap ++ b) = words a ++ words b := by
  rw [List.append_assoc, words_append_of_startsBlank (.inr (startsBlank_gap_append h hne)), words_blank_append h]

theorem words_of_isWord (h : IsWord w) : words w = [w] := by
  rw [words, List.splitOnP_eq_singleton h.2]
  simpa using h.1

theorem words_append_blank (h : AllBlank gap) : words (a ++ gap) = words a := by
  by_cases hne : gap = []
  · simp [hne]
  · simpa using words_append (b := []) hne h

theorem words_trimStart (text : List Char) : words (trimStart text) = words text := by
  obtain ⟨gap, hgap, e⟩ := exists_eq_trimStart text
  conv_rhs => rw [e, words_blank_append hgap]

theorem words_trim (text : List Char) : words (trim text) = words text := by
  obtain ⟨a, b, ha, hb, e⟩ := exists_eq_trim text
  conv_rhs => rw [e, words_append_blank hb, words_blank_append ha]

/-! ### A text taken apart at its words -/

/-- A text that is not blank is its first word, with blanks before it, and the rest. -/
theorem exists_first_word (h : ¬ AllBlank text) :
    ∃ gap w rest, AllBlank gap ∧ IsWord w ∧ (rest = [] ∨ startsBlank rest = true) ∧ text = gap ++ w ++ rest := by
  obtain ⟨gap, hgap, e⟩ := exists_eq_trimStart text
  have hs := startsBlank_trimStart text
  set t := trimStart text
  refine ⟨gap, t.takeWhile fun c => !isBlank c, t.dropWhile fun c => !isBlank c, hgap, ⟨?_, ?_⟩, ?_, ?_⟩
  · cases ht : t with
    | nil => exact absurd (by rw [e, ht]; simpa using hgap) h
    | cons c t' =>
      rw [ht, startsBlank_cons] at hs
      simp [hs]
  · intro c hc
    simpa using List.all_eq_true.1 List.all_takeWhile c hc
  · cases hd : t.dropWhile fun c => !isBlank c with
    | nil => exact .inl rfl
    | cons c rest =>
      right
      have := List.head?_dropWhile_not (fun c => !isBlank c) t
      rw [hd] at this
      simpa using this
  · rw [List.append_assoc, List.takeWhile_append_dropWhile, ← e]

/-- A text that is not blank is what comes before its last word, that word, and blanks. -/
theorem exists_last_word (h : ¬ AllBlank text) :
    ∃ before w gap, AllBlank gap ∧ IsWord w ∧ (before = [] ∨ endsBlank before = true) ∧
      text = before ++ w ++ gap := by
  have hrev : ¬ AllBlank text.reverse := by simpa using h
  obtain ⟨gap, w, rest, hgap, hw, hrest, e⟩ := exists_first_word hrev
  refine ⟨rest.reverse, w.reverse, gap.reverse, by simpa using hgap, ⟨by simpa using hw.1, solid_reverse.2 hw.2⟩,
    ?_, ?_⟩
  · rwa [List.reverse_eq_nil_iff, endsBlank_eq_startsBlank_reverse, List.reverse_reverse]
  · rw [← List.reverse_reverse text, e]
    simp

theorem words_first (hgap : AllBlank gap) (hw : IsWord w) (hb : b = [] ∨ startsBlank b = true) :
    words (gap ++ w ++ b) = w :: words b := by
  rw [List.append_assoc, words_blank_append hgap, words_append_of_startsBlank hb, words_of_isWord hw]
  rfl

theorem words_last (hgap : AllBlank gap) (hw : IsWord w) (ha : a = [] ∨ endsBlank a = true) :
    words (a ++ w ++ gap) = words a ++ [w] := by
  rw [words_append_blank hgap, words_append_of_endsBlank ha, words_of_isWord hw]

theorem words_eq_nil_iff : words text = [] ↔ AllBlank text := by
  refine ⟨fun h => ?_, words_eq_nil⟩
  by_contra hb
  obtain ⟨gap, w, rest, hgap, hw, hrest, rfl⟩ := exists_first_word hb
  rw [words_first hgap hw hrest] at h
  simp at h

theorem isWord_of_mem_words {text : List Char} (h : w ∈ words text) : IsWord w := by
  by_cases hb : AllBlank text
  · simp [words_eq_nil hb] at h
  · obtain ⟨gap, v, rest, hgap, hv, hrest, e⟩ := exists_first_word hb
    rw [e, words_first hgap hv hrest, List.mem_cons] at h
    rcases h with rfl | h
    · exact hv
    · exact isWord_of_mem_words h
termination_by text.length
decreasing_by
  have := List.length_pos_iff.2 hv.1
  simp [e]
  omega

/-- A text with a first word is that word, with blanks before it, and the rest. -/
theorem exists_of_words_cons (h : words text = w :: ws) :
    ∃ gap rest, AllBlank gap ∧ (rest = [] ∨ startsBlank rest = true) ∧ text = gap ++ w ++ rest ∧
      words rest = ws := by
  have hb : ¬ AllBlank text := fun hb => by simp [words_eq_nil hb] at h
  obtain ⟨gap, v, rest, hgap, hv, hrest, rfl⟩ := exists_first_word hb
  rw [words_first hgap hv hrest] at h
  obtain ⟨rfl, rfl⟩ := List.cons.inj h
  exact ⟨gap, rest, hgap, hrest, rfl, rfl⟩

/-- A text with a last word is what comes before it, that word, and blanks. -/
theorem exists_of_words_concat (h : words text = ws ++ [w]) :
    ∃ before gap, AllBlank gap ∧ (before = [] ∨ endsBlank before = true) ∧ text = before ++ w ++ gap ∧
      words before = ws := by
  have hb : ¬ AllBlank text := fun hb => by simp [words_eq_nil hb] at h
  obtain ⟨before, v, gap, hgap, hv, hbefore, rfl⟩ := exists_last_word hb
  rw [words_last hgap hv hbefore] at h
  obtain ⟨rfl, hw⟩ := List.append_inj' h rfl
  obtain rfl : v = w := by simpa using hw
  exact ⟨before, gap, hgap, hbefore, rfl, rfl⟩

theorem ne_nil_of_words {us : List (List Char)} (h : words text = us) (hus : us ≠ []) : text ≠ [] := by
  rintro rfl
  exact hus (by simpa using h.symm)

/-- A text is cut in two where its words are. -/
theorem exists_of_words_append {us vs : List (List Char)} {text : List Char} (h : words text = us ++ vs)
    (hus : us ≠ []) (hvs : vs ≠ []) :
    ∃ before rest, text = before ++ rest ∧ words before = us ∧ words rest = vs ∧ endsBlank before = false ∧
      startsBlank rest = true := by
  induction us generalizing text with
  | nil => exact absurd rfl hus
  | cons w us ih =>
    have hw : IsWord w := by
      have hmem : w ∈ words text := by simp [h]
      exact isWord_of_mem_words hmem
    obtain ⟨gap, rest, hgap, hrest, rfl, hwords⟩ := exists_of_words_cons h
    have hstart := hrest.resolve_left (ne_nil_of_words hwords (by simp [hvs]))
    by_cases hus' : us = []
    · refine ⟨gap ++ w, rest, rfl, ?_, by simpa [hus'] using hwords, ?_, hstart⟩
      · rw [words_blank_append hgap, words_of_isWord hw, hus']
      · exact hw.endsBlank_append
    · obtain ⟨before, later, rfl, hb, hl, hend, hstart'⟩ := ih hwords hus'
      have hbne := ne_nil_of_words hb hus'
      refine ⟨gap ++ w ++ before, later, by simp, ?_, hl, ?_, hstart'⟩
      · rw [words_first hgap hw (.inr (by rwa [startsBlank_append hbne] at hstart)), hb]
      · rw [endsBlank_append hbne, hend]

/-- A word that is not the last one has blanks around it and another word behind it. -/
theorem exists_of_mem_dropLast_words (h : w ∈ (words text).dropLast) :
    ∃ a b, text = a ++ w ++ b ∧ (a = [] ∨ endsBlank a = true) ∧ startsBlank b = true ∧ words b ≠ [] := by
  obtain ⟨us, vs, e⟩ := List.append_of_mem h
  have hne : words text ≠ [] := by
    intro h0
    simp [h0] at h
  have hwords : words text = (us ++ [w]) ++ (vs ++ [(words text).getLast hne]) := by
    conv_lhs => rw [← List.dropLast_append_getLast hne, e]
    simp
  obtain ⟨before, rest, rfl, hb, hrest, hend, hstart⟩ := exists_of_words_append hwords (by simp) (by simp)
  obtain ⟨a, gap, hgap, ha, rfl, -⟩ := exists_of_words_concat hb
  obtain rfl : gap = [] := eq_nil_of_endsBlank hgap hend
  exact ⟨a, rest, by simp, ha, hstart, by simp [hrest]⟩

theorem mem_dropLast_words (hw : IsWord w) (ha : a = [] ∨ endsBlank a = true) (hb : startsBlank b = true)
    (hne : words b ≠ []) : w ∈ (words (a ++ w ++ b)).dropLast := by
  rw [words_append_of_startsBlank (.inr hb), words_append_of_endsBlank ha, words_of_isWord hw,
    List.dropLast_append_of_ne_nil hne]
  simp

/-- A second place of a word, behind a first one with a blank behind it, does not touch the first one. -/
theorem exists_of_later_word {first later s r : List Char} (hw : IsWord w) (hs : startsBlank s = true)
    (e : first ++ w ++ s = later ++ w ++ r) (hlt : r.length < s.length) :
    ∃ x, x ≠ [] ∧ s = x ++ w ++ r ∧ later = first ++ w ++ x := by
  rcases List.append_eq_append_iff.1 e with ⟨x, ex, rfl⟩ | ⟨x, -, rfl⟩
  · have hxne : x ≠ [] := by
      rintro rfl
      simp at hlt
    rw [startsBlank_append hxne] at hs
    rcases List.append_eq_append_iff.1 ex with ⟨y, -, ey⟩ | ⟨y, rfl, rfl⟩
    · have hsolid := hw.2
      rw [ey, solid_append] at hsolid
      rw [startsBlank_of_solid hsolid.2] at hs
      cases hs
    · refine ⟨y, ?_, rfl, rfl⟩
      rintro rfl
      rw [List.nil_append, hw.trimmed.1] at hs
      cases hs
  · rw [List.length_append] at hlt
    omega

/-- The first word, as it is read off a text. -/
theorem firstWord_eq (text : List Char) : firstWord text = (words text).head?.getD [] := by
  by_cases hb : AllBlank text
  · simp [firstWord, trimStart_eq_nil hb, words_eq_nil hb]
  · obtain ⟨gap, w, rest, hgap, hw, hrest, rfl⟩ := exists_first_word hb
    rw [words_first hgap hw hrest, firstWord, List.append_assoc, trimStart_append_of_blank hgap,
      trimStart_eq_self hw.startsBlank_append, takeWhile_word hw.2 hrest]
    rfl

end DdlCatalog.Text
