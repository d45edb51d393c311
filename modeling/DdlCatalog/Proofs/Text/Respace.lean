import DdlCatalog.Proofs.Text.Search
import DdlCatalog.Proofs.Text.Words

/-!
# Texts that differ in their blanks

* `Respaced a b` — `b` is `a` with gaps of blanks in the places of its gaps, wherever these stand;
* `Respaced.words_eq` : the words of both are the same;
* `Respaced.trimStart`, `Respaced.trimEnd` : without blanks at their start or at their end they differ in blanks only;
* `Respaced.split` : where a character that is no blank cuts `a`, it cuts `b`, and `Respaced.split_unique` : which
  place that is can be told by what stands before it, the blanks left out;
* `Respaced.searchLeft` : a search for a word has an answer for both or for neither.
-/

namespace DdlCatalog.Text

/-- The second text is the first one with gaps in the places of its gaps. -/
inductive Respaced : List Char → List Char → Prop
  | nil : Respaced [] []
  | char {c : Char} {a b : List Char} (hc : isBlank c = false) (h : Respaced a b) : Respaced (c :: a) (c :: b)
  | gap (g g' : Gap) {a b : List Char} (h : Respaced a b) : Respaced (g.1 ++ a) (g'.1 ++ b)

/-- A text without its blanks. -/
def letters (text : List Char) : List Char :=
  text.filter fun c => !isBlank c

variable {a b x y x' y' w text : List Char} {c c' : Char}

theorem letters_append : letters (a ++ b) = letters a ++ letters b :=
  List.filter_append _ _

theorem letters_cons (hc : isBlank c = false) : letters (c :: a) = c :: letters a := by
  simp [letters, hc]

theorem letters_eq_nil_iff : letters a = [] ↔ AllBlank a := by
  simp [letters, AllBlank]

namespace Respaced

/-! ### The relation -/

theorem refl (text : List Char) : Respaced text text := by
  induction text with
  | nil => exact .nil
  | cons c text ih =>
    cases hc : isBlank c with
    | false => exact .char hc ih
    | true =>
      have hg : AllBlank [c] ∧ [c] ≠ [] := ⟨by simp [hc], by simp⟩
      exact .gap ⟨[c], hg⟩ ⟨[c], hg⟩ ih

theorem symm (h : Respaced a b) : Respaced b a := by
  induction h with
  | nil => exact .nil
  | char hc _ ih => exact .char hc ih
  | gap g g' _ ih => exact .gap g' g ih

theorem append (h : Respaced a b) (h' : Respaced x y) : Respaced (a ++ x) (b ++ y) := by
  induction h with
  | nil => exact h'
  | char hc _ ih => exact .char hc ih
  | gap g g' _ ih =>
    rw [List.append_assoc, List.append_assoc]
    exact .gap g g' ih

theorem of_gaps (g g' : Gap) : Respaced g.1 g'.1 := by
  simpa using Respaced.gap g g' .nil

/-- One gap is changed, behind a text that stays. -/
theorem behind (text : List Char) (g g' : Gap) (h : Respaced a b) :
    Respaced (text ++ (g.1 ++ a)) (text ++ (g'.1 ++ b)) :=
  (refl text).append (.gap g g' h)

theorem reverse (h : Respaced a b) : Respaced a.reverse b.reverse := by
  induction h with
  | nil => exact .nil
  | char hc _ ih =>
    rw [List.reverse_cons, List.reverse_cons]
    exact ih.append (.char hc .nil)
  | gap g g' _ ih =>
    have hg (g : Gap) : AllBlank g.1.reverse ∧ g.1.reverse ≠ [] :=
      ⟨allBlank_reverse.2 g.2.1, by simpa using g.2.2⟩
    rw [List.reverse_append, List.reverse_append]
    exact ih.append (.of_gaps ⟨_, hg g⟩ ⟨_, hg g'⟩)

/-! ### What both have in common -/

theorem eq_nil_iff (h : Respaced a b) : a = [] ↔ b = [] := by
  cases h with
  | nil => simp
  | char _ _ => simp
  | gap g g' _ => simp [g.2.2, g'.2.2]

theorem letters_eq (h : Respaced a b) : letters a = letters b := by
  induction h with
  | nil => rfl
  | char hc _ ih => rw [letters_cons hc, letters_cons hc, ih]
  | gap g g' _ ih =>
    rw [letters_append, letters_append, letters_eq_nil_iff.2 g.2.1, letters_eq_nil_iff.2 g'.2.1, ih]

theorem startsBlank_eq (h : Respaced a b) : startsBlank a = startsBlank b := by
  cases h with
  | nil => rfl
  | char _ _ => rfl
  | gap g g' _ => rw [startsBlank_gap_append g.2.1 g.2.2, startsBlank_gap_append g'.2.1 g'.2.2]

theorem trimStart (h : Respaced a b) : Respaced (trimStart a) (trimStart b) := by
  induction h with
  | nil => exact .nil
  | @char c a b hc h _ =>
    have hstart (t : List Char) : startsBlank (c :: t) = false := hc
    rw [trimStart_eq_self (hstart a), trimStart_eq_self (hstart b)]
    exact .char hc h
  | gap g g' _ ih =>
    rw [trimStart_append_of_blank g.2.1, trimStart_append_of_blank g'.2.1]
    exact ih

theorem trimEnd (h : Respaced a b) : Respaced (trimEnd a) (trimEnd b) :=
  h.reverse.trimStart.reverse

/-- A character before a text goes to its first word or is a word of its own. -/
theorem words_cons_congr (hc : isBlank c = false) (hstart : startsBlank a = startsBlank b) (hnil : a = [] ↔ b = [])
    (h : words a = words b) : words (c :: a) = words (c :: b) := by
  have hcons (t : List Char) (ht : t = [] ∨ startsBlank t = true) : words (c :: t) = [c] :: words t := by
    have hword : IsWord [c] := ⟨by simp, by simp [hc]⟩
    rw [← List.singleton_append, words_append_of_startsBlank ht, words_of_isWord hword]
    rfl
  have hjoin (t : List Char) (ht : ¬ (t = [] ∨ startsBlank t = true)) :
      ∃ v ws, words t = v :: ws ∧ words (c :: t) = (c :: v) :: ws := by
    rw [not_or, Bool.not_eq_true] at ht
    have hblank : ¬ AllBlank t := by
      intro hb
      rw [startsBlank_of_allBlank hb ht.1] at ht
      cases ht.2
    obtain ⟨gap, v, rest, hgap, hv, hrest, rfl⟩ := exists_first_word hblank
    obtain rfl : gap = [] := eq_nil_of_startsBlank hgap (by rw [← List.append_assoc]; exact ht.2)
    have hword : IsWord (c :: v) := ⟨by simp, solid_cons.2 ⟨hc, hv.2⟩⟩
    exact ⟨v, words rest, words_first allBlank_nil hv hrest, words_first allBlank_nil hword hrest⟩
  by_cases ha : a = [] ∨ startsBlank a = true
  · rw [hcons a ha, hcons b (by rwa [← hnil, ← hstart]), h]
  · obtain ⟨v, ws, hwords, hjoined⟩ := hjoin a ha
    obtain ⟨v', ws', hwords', hjoined'⟩ := hjoin b (by rwa [← hnil, ← hstart])
    obtain ⟨rfl, rfl⟩ := List.cons.inj (hwords.symm.trans (h.trans hwords'))
    rw [hjoined, hjoined']

theorem words_eq (h : Respaced a b) : words a = words b := by
  induction h with
  | nil => rfl
  | char hc h ih => exact words_cons_congr hc h.startsBlank_eq h.eq_nil_iff ih
  | gap g g' _ ih => rw [words_blank_append g.2.1, words_blank_append g'.2.1, ih]

/-! ### Where both are cut -/

/-- A character that is no blank cuts both. -/
theorem split (h : Respaced text b) (hc : isBlank c = false) (e : text = x ++ c :: y) :
    ∃ x' y', b = x' ++ c :: y' ∧ Respaced x x' ∧ Respaced y y' := by
  induction h generalizing x with
  | nil => simp at e
  | @char d a b hd h ih =>
    cases x with
    | nil =>
      obtain ⟨rfl, rfl⟩ := List.cons.inj e
      exact ⟨[], b, rfl, .nil, h⟩
    | cons d' x =>
      obtain ⟨rfl, e₁⟩ := List.cons.inj e
      obtain ⟨x', y', rfl, hx, hy⟩ := ih e₁
      exact ⟨d :: x', y', rfl, .char hd hx, hy⟩
  | @gap g g' a b h ih =>
    -- the character is not in the gap
    rcases List.append_eq_append_iff.1 e with ⟨x₁, rfl, e₁⟩ | ⟨x₁, hg, e₁⟩
    · obtain ⟨x', y', rfl, hx, hy⟩ := ih e₁
      exact ⟨g'.1 ++ x', y', by simp, .gap g g' hx, hy⟩
    · cases x₁ with
      | nil =>
        obtain ⟨x', y', rfl, hx, hy⟩ := ih (x := []) e₁.symm
        obtain rfl : x' = [] := hx.eq_nil_iff.1 rfl
        rw [List.append_nil] at hg
        rw [← hg]
        exact ⟨g'.1, y', rfl, .of_gaps g g', hy⟩
      | cons d x₁ =>
        obtain ⟨rfl, -⟩ := List.cons.inj e₁
        have := g.2.1 c (by simp [hg])
        rw [hc] at this
        cases this

/-- What stands before a character that is no blank tells its place, the blanks left out. -/
theorem split_unique (h : Respaced (x ++ c :: y) (x' ++ c' :: y')) (hc : isBlank c = false)
    (hc' : isBlank c' = false) (hx : letters x = letters x') : Respaced x x' ∧ c = c' ∧ Respaced y y' := by
  obtain ⟨x₁, y₁, e, hx₁, hy₁⟩ := h.split hc rfl
  have hlength : letters x₁ = letters x' := by rw [← hx₁.letters_eq, hx]
  rcases List.append_eq_append_iff.1 e with ⟨z, rfl, ez⟩ | ⟨z, rfl, ez⟩
  · cases z with
    | nil =>
      obtain ⟨rfl, rfl⟩ := List.cons.inj ez
      exact ⟨by simpa using hx₁, rfl, hy₁⟩
    | cons d z =>
      obtain ⟨rfl, -⟩ := List.cons.inj ez
      rw [letters_append, letters_cons hc'] at hlength
      simp at hlength
  · cases z with
    | nil =>
      obtain ⟨rfl, rfl⟩ := List.cons.inj ez
      exact ⟨by simpa using hx₁, rfl, hy₁⟩
    | cons d z =>
      obtain ⟨rfl, -⟩ := List.cons.inj ez
      rw [letters_append, letters_cons hc] at hlength
      simp at hlength

theorem of_cons (h : Respaced (c :: y) b) (hc : isBlank c = false) : ∃ y', b = c :: y' ∧ Respaced y y' := by
  obtain ⟨x', y', rfl, hx, hy⟩ := h.split hc (List.nil_append _).symm
  obtain rfl : x' = [] := hx.eq_nil_iff.1 rfl
  exact ⟨y', rfl, hy⟩

theorem of_solid_append (h : Respaced (w ++ y) b) (hw : Solid w) : ∃ y', b = w ++ y' ∧ Respaced y y' := by
  induction w generalizing b with
  | nil => exact ⟨b, rfl, h⟩
  | cons c w ih =>
    obtain ⟨hc, hw⟩ := solid_cons.1 hw
    obtain ⟨b, rfl, hrest⟩ := h.of_cons hc
    obtain ⟨y', rfl, hy⟩ := ih hrest hw
    exact ⟨y', rfl, hy⟩

/-! ### Searches -/

section Search

variable {α β : Type} {R : α → β → Prop} {answer : List Char → List Char → Option α}
  {answer' : List Char → List Char → Option β} {passed passed' : List Char}

theorem rel_or {o p : Option α} {o' p' : Option β} (h : Option.Rel R o o') (h' : Option.Rel R p p') :
    Option.Rel R (o.or p) (o'.or p') := by
  cases h with
  | some h => exact .some h
  | none => exact h'

/-- A word does not start at a blank. -/
theorem searchFrom_gap_append {gap : List Char} (hne : w ≠ []) (hw : Solid w) (hgap : AllBlank gap) :
    searchFrom w answer passed (gap ++ text) = searchFrom w answer (gap.reverse ++ passed) text := by
  induction gap generalizing passed with
  | nil => rfl
  | cons c gap ih =>
    obtain ⟨hc, hgap⟩ := allBlank_cons.1 hgap
    have hhere : answerHere w answer passed (c :: (gap ++ text)) = none := by
      refine answerHere_eq_none_iff.2 fun after e => ?_
      obtain ⟨d, w, rfl⟩ := List.exists_cons_of_ne_nil hne
      obtain ⟨rfl, -⟩ := List.cons.inj e
      rw [(solid_cons.1 hw).1] at hc
      cases hc
    rw [List.cons_append, searchFrom_cons, hhere, Option.none_or, ih hgap]
    simp

/-- The induction is on the blanks and the other characters of the two texts; `passed` is behind in one and `passed'`
in the other. -/
theorem searchFrom (hne : w ≠ []) (hw : Solid w)
    (hanswer : ∀ x x' y y', Respaced x x' → Respaced y y' → Option.Rel R (answer x y) (answer' x' y'))
    (h : Respaced a b) (hpassed : Respaced passed.reverse passed'.reverse) :
    Option.Rel R (searchFrom w answer passed a) (searchFrom w answer' passed' b) := by
  induction h generalizing passed passed' with
  | nil => exact .none
  | @char c a b hc h ih =>
    rw [searchFrom_cons, searchFrom_cons]
    refine rel_or ?_ (ih ?_)
    · cases hword : w.isPrefixOf? (c :: a) with
      | some after =>
        have e := List.isPrefixOf?_eq_some_iff_append_eq.1 hword
        have hchar : Respaced (w ++ after) (c :: b) := e ▸ .char hc h
        obtain ⟨after', e', hafter⟩ := hchar.of_solid_append hw
        unfold answerHere
        rw [hword, List.isPrefixOf?_eq_some_iff_append_eq.2 e'.symm]
        exact hanswer _ _ _ _ hpassed hafter
      | none =>
        cases hword' : w.isPrefixOf? (c :: b) with
        | none =>
          unfold answerHere
          rw [hword, hword']
          exact .none
        | some after =>
          have e := List.isPrefixOf?_eq_some_iff_append_eq.1 hword'
          have hchar : Respaced (w ++ after) (c :: a) := e ▸ .char hc h.symm
          obtain ⟨after', e', -⟩ := hchar.of_solid_append hw
          rw [List.isPrefixOf?_eq_some_iff_append_eq.2 e'.symm] at hword
          cases hword
    · rw [List.reverse_cons, List.reverse_cons]
      exact hpassed.append (.char hc .nil)
  | gap g g' _ ih =>
    rw [searchFrom_gap_append hne hw g.2.1, searchFrom_gap_append hne hw g'.2.1]
    refine ih ?_
    rw [List.reverse_append, List.reverse_append, List.reverse_reverse, List.reverse_reverse]
    exact hpassed.append (.of_gaps g g')

/-- A search for a word has an answer for both texts or for neither, if the answers at every place are so. -/
theorem searchLeft (hne : w ≠ []) (hw : Solid w)
    (hanswer : ∀ x x' y y', Respaced x x' → Respaced y y' → Option.Rel R (answer x y) (answer' x' y'))
    (h : Respaced a b) : Option.Rel R (searchLeft w answer a) (searchLeft w answer' b) :=
  searchFrom hne hw hanswer h .nil

end Search

end Respaced

end DdlCatalog.Text
