import DdlCatalog.Proofs.Text.Trim
import DdlCatalog.Text.Search
import Mathlib.Data.List.Basic
import Mathlib.Data.List.Infix
import Mathlib.Tactic.Common

/-!
# Where a search finds its word

* `searchLeft_eq_some_iff` : the answer comes from the leftmost place that has one;
* `searchRight_eq_some_iff` : the answer comes from the rightmost one;
* `searchLeft_eq_none_iff` : there is none only if no place has one;
* `Avoids w t` — the word `w` starts nowhere in `t`, whatever follows `t`, so that a search goes past `t`.
-/

namespace DdlCatalog.Text

variable {α : Type} {word text passed : List Char} {answer : List Char → List Char → Option α} {found : α}

/-! ### One place -/

/-- The answer at the place where a text starts. -/
def answerHere (word : List Char) (answer : List Char → List Char → Option α) (passed text : List Char) :
    Option α :=
  (word.isPrefixOf? text).bind (answer passed.reverse)

theorem answerHere_eq_some_iff :
    answerHere word answer passed text = some found ↔
      ∃ after, text = word ++ after ∧ answer passed.reverse after = some found := by
  simp only [answerHere, Option.bind_eq_some_iff, List.isPrefixOf?_eq_some_iff_append_eq]
  exact ⟨fun ⟨after, e, h⟩ => ⟨after, e.symm, h⟩, fun ⟨after, e, h⟩ => ⟨after, e.symm, h⟩⟩

theorem answerHere_eq_none_iff :
    answerHere word answer passed text = none ↔
      ∀ after, text = word ++ after → answer passed.reverse after = none := by
  rw [answerHere, Option.bind_eq_none_iff]
  simp only [List.isPrefixOf?_eq_some_iff_append_eq]
  exact ⟨fun h after e => h after e.symm, fun h after e => h after e.symm⟩

theorem searchFrom_cons {c : Char} :
    searchFrom word answer passed (c :: text) =
      (answerHere word answer passed (c :: text)).or (searchFrom word answer (c :: passed) text) := by
  rw [searchFrom, answerHere]
  cases word.isPrefixOf? (c :: text) with
  | none => rfl
  | some after => cases h : answer passed.reverse after <;> simp [h]

/-! ### From the left -/

theorem searchFrom_eq_none_iff (hw : word ≠ []) :
    searchFrom word answer passed text = none ↔
      ∀ before after, text = before ++ word ++ after → answer (passed.reverse ++ before) after = none := by
  induction text generalizing passed with
  | nil => simp [searchFrom, hw]
  | cons c text ih =>
    rw [searchFrom_cons, Option.or_eq_none_iff, answerHere_eq_none_iff, ih]
    constructor
    · rintro ⟨here, later⟩ before after e
      cases before with
      | nil => simpa using here after (by simpa using e)
      | cons d before =>
        obtain ⟨rfl, ht⟩ := List.cons.inj e
        simpa using later before after ht
    · intro h
      refine ⟨fun after e => by simpa using h [] after (by simpa using e), fun before after e => ?_⟩
      simpa using h (c :: before) after (by simp [e])

theorem searchFrom_eq_some_iff (hw : word ≠ []) :
    searchFrom word answer passed text = some found ↔
      ∃ before after, text = before ++ word ++ after ∧ answer (passed.reverse ++ before) after = some found ∧
        ∀ b a, text = b ++ word ++ a → b.length < before.length → answer (passed.reverse ++ b) a = none := by
  induction text generalizing passed with
  | nil => simp [searchFrom, hw]
  | cons c text ih =>
    rw [searchFrom_cons, Option.or_eq_some_iff, answerHere_eq_some_iff, answerHere_eq_none_iff, ih]
    constructor
    · rintro (⟨after, e, h⟩ | ⟨here, before, after, e, h, first⟩)
      · exact ⟨[], after, by simpa using e, by simpa using h, by simp⟩
      · refine ⟨c :: before, after, by simp [e], by simpa using h, fun b a e' hlt => ?_⟩
        cases b with
        | nil => simpa using here a (by simpa using e')
        | cons d b =>
          obtain ⟨rfl, ht⟩ := List.cons.inj e'
          simpa using first b a ht (by simpa using hlt)
    · rintro ⟨before, after, e, h, first⟩
      cases before with
      | nil => exact .inl ⟨after, by simpa using e, by simpa using h⟩
      | cons d before =>
        obtain ⟨rfl, ht⟩ := List.cons.inj e
        refine .inr ⟨fun a e' => by simpa using first [] a (by simpa using e') (by simp), before, after, ht,
          by simpa using h, fun b a e' hlt => ?_⟩
        simpa using first (c :: b) a (by simp [e']) (by simpa using hlt)

theorem searchLeft_eq_none_iff (hw : word ≠ []) :
    searchLeft word answer text = none ↔
      ∀ before after, text = before ++ word ++ after → answer before after = none := by
  simp [searchLeft, searchFrom_eq_none_iff hw]

/-- The answer of the leftmost place that has one. -/
theorem searchLeft_eq_some_iff (hw : word ≠ []) :
    searchLeft word answer text = some found ↔
      ∃ before after, text = before ++ word ++ after ∧ answer before after = some found ∧
        ∀ b a, text = b ++ word ++ a → b.length < before.length → answer b a = none := by
  simp [searchLeft, searchFrom_eq_some_iff hw]

theorem isSome_searchLeft_iff (hw : word ≠ []) :
    (searchLeft word answer text).isSome ↔
      ∃ before after, text = before ++ word ++ after ∧ (answer before after).isSome := by
  rw [← not_iff_not, Option.not_isSome_iff_eq_none, searchLeft_eq_none_iff hw]
  simp only [not_exists, not_and, Option.not_isSome_iff_eq_none]

/-- No place that has an answer is farther left than the one that gives it. -/
theorem searchLeft_eq_some_iff_le (hw : word ≠ []) :
    searchLeft word answer text = some found ↔
      ∃ before after, text = before ++ word ++ after ∧ answer before after = some found ∧
        ∀ b a, text = b ++ word ++ a → (answer b a).isSome → before.length ≤ b.length := by
  rw [searchLeft_eq_some_iff hw]
  refine exists₂_congr fun before after => and_congr_right fun _ => and_congr_right fun _ => ?_
  refine forall₂_congr fun b a => imp_congr_right fun _ => ?_
  rw [← Option.not_isSome_iff_eq_none, ← Nat.not_le]
  exact not_imp_not

theorem searchFrom_map {β : Type} (f : α → β) :
    searchFrom word (fun before after => (answer before after).map f) passed text =
      (searchFrom word answer passed text).map f := by
  induction text generalizing passed with
  | nil => rfl
  | cons c text ih =>
    rw [searchFrom_cons, searchFrom_cons, ih, Option.map_or]
    unfold answerHere
    rw [Option.map_bind]
    rfl

/-- The answers may be worked on before or after the search. -/
theorem searchLeft_map {β : Type} (f : α → β) :
    searchLeft word (fun before after => (answer before after).map f) text = (searchLeft word answer text).map f :=
  searchFrom_map f

/-! ### From the right -/

/-- A place from the left is a place from the right. -/
theorem reverse_eq_append_iff {before after : List Char} :
    text.reverse = after ++ word.reverse ++ before ↔ text = before.reverse ++ word ++ after.reverse := by
  rw [← List.reverse_inj]
  simp

/-- The answer of the rightmost place that has one. -/
theorem searchRight_eq_some_iff (hw : word ≠ []) :
    searchRight word answer text = some found ↔
      ∃ before after, text = before ++ word ++ after ∧ answer before after = some found ∧
        ∀ b a, text = b ++ word ++ a → a.length < after.length → answer b a = none := by
  rw [searchRight, searchFrom_eq_some_iff (by simpa using hw)]
  simp only [reverse_eq_append_iff, List.reverse_nil, List.nil_append]
  constructor
  · rintro ⟨after, before, e, h, last⟩
    refine ⟨before.reverse, after.reverse, e, h, fun b a e' hlt => ?_⟩
    simpa using last a.reverse b.reverse (by simpa using e') (by simpa using hlt)
  · rintro ⟨before, after, e, h, last⟩
    refine ⟨after.reverse, before.reverse, by simpa using e, by simpa using h, fun a b e' hlt => ?_⟩
    exact last b.reverse a.reverse e' (by simpa using hlt)

theorem searchRight_eq_none_iff (hw : word ≠ []) :
    searchRight word answer text = none ↔
      ∀ before after, text = before ++ word ++ after → answer before after = none := by
  rw [searchRight, searchFrom_eq_none_iff (by simpa using hw)]
  simp only [reverse_eq_append_iff, List.reverse_nil, List.nil_append]
  constructor
  · intro h before after e
    simpa using h after.reverse before.reverse (by simpa using e)
  · intro h after before e
    exact h before.reverse after.reverse e

/-! ### Texts without the word -/

/-- No end of the text agrees with the word as far as both go. -/
def Avoids (word text : List Char) : Prop := ∀ b, b <:+ text → b ≠ [] → ¬ b <+: word ∧ ¬ word <+: b

instance (word text : List Char) : Decidable (Avoids word text) :=
  decidable_of_iff (∀ b ∈ text.tails, b ≠ [] → ¬ b <+: word ∧ ¬ word <+: b) (by simp [Avoids])

variable {a b c rest : List Char}

theorem not_prefix_append (h : ¬ b <+: word ∧ ¬ word <+: b) : ¬ word <+: b ++ rest := fun hw =>
  (List.prefix_or_prefix_of_prefix hw (List.prefix_append b rest)).elim h.2 h.1

theorem Avoids.append (ha : Avoids word a) (hb : Avoids word b) : Avoids word (a ++ b) := by
  intro d hd hne
  obtain ⟨front, e⟩ := hd
  rcases List.append_eq_append_iff.1 e with ⟨d', rfl, rfl⟩ | ⟨d', rfl, rfl⟩
  · by_cases hd' : d' = []
    · subst hd'
      simp only [List.nil_append] at hne ⊢
      exact hb _ List.suffix_rfl hne
    · have h := ha d' (List.suffix_append front d') hd'
      exact ⟨fun hw => h.1 ((List.prefix_append d' b).trans hw), not_prefix_append h⟩
  · exact hb d (List.suffix_append d' d) hne

theorem avoids_of_allBlank (hne : word ≠ []) (hw : startsBlank word = false) (h : AllBlank a) : Avoids word a := by
  intro b hb hbne
  obtain ⟨c, b, rfl⟩ := List.exists_cons_of_ne_nil hbne
  obtain ⟨d, word, rfl⟩ := List.exists_cons_of_ne_nil hne
  have hc : isBlank c = true := h c (hb.subset (by simp))
  have hcd : c ≠ d := by
    rintro rfl
    rw [startsBlank_cons, hc] at hw
    cases hw
  simp [List.cons_prefix_cons, hcd, hcd.symm]

theorem Avoids.le_length (h : Avoids word a) (e : a ++ rest = b ++ word ++ c) : a.length ≤ b.length := by
  by_contra hlt
  rw [List.append_assoc] at e
  rcases List.append_eq_append_iff.1 e with ⟨d, rfl, -⟩ | ⟨d, rfl, hd⟩
  · simp at hlt
  · have hne : d ≠ [] := by
      rintro rfl
      simp at hlt
    have hword : word <+: d ++ rest := by
      rw [← hd]
      exact List.prefix_append word c
    exact not_prefix_append (h d (List.suffix_append b d) hne) hword

/-- The first place behind a text that avoids the word. -/
theorem searchLeft_of_avoids (hw : word ≠ []) (h : Avoids word a) (hsome : answer a b = some found) :
    searchLeft word answer (a ++ word ++ b) = some found := by
  refine (searchLeft_eq_some_iff hw).2 ⟨a, b, rfl, hsome, fun b' a' e hlt => ?_⟩
  rw [List.append_assoc] at e
  have := h.le_length e
  omega

theorem searchLeft_eq_none_of_avoids (hw : word ≠ []) (h : Avoids word text) : searchLeft word answer text = none := by
  refine (searchLeft_eq_none_iff hw).2 fun before after e => ?_
  have := h.le_length ((List.append_nil text).trans e)
  have hpos := List.length_pos_iff.2 hw
  rw [e] at this
  simp only [List.length_append] at this
  omega

end DdlCatalog.Text
