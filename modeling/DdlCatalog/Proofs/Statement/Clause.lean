import DdlCatalog.Proofs.Text.Words
import DdlCatalog.Statement.Clause

/-!
# What a clause is

* `Spells t name definition` — the trimmed text `t` is a word, blanks and a definition;
* `ofText_eq_empty_iff`, `ofText_eq_column_iff`, `ofText_eq_constraint_iff` : the texts of each kind of clause.
-/

namespace DdlCatalog.Clause

open Text

/-- A word, blanks and a definition. -/
structure Spells (text name definition : List Char) : Prop where
  isWord_name : IsWord name
  definition_ne_nil : definition ≠ []
  trimmed_definition : Trimmed definition
  eq : ∃ gap, AllBlank gap ∧ gap ≠ [] ∧ text = name ++ gap ++ definition

variable {text rest gap name definition : List Char} {n d : String}

namespace Spells

theorem of_gap (hname : IsWord name) (hne : definition ≠ []) (h : Trimmed definition) (gap : Gap) :
    Spells (name ++ gap.1 ++ definition) name definition :=
  ⟨hname, hne, h, gap.1, gap.2.1, gap.2.2, rfl⟩

theorem startsBlank_eq (h : Spells text name definition) : startsBlank text = false := by
  obtain ⟨gap, -, -, rfl⟩ := h.eq
  rw [List.append_assoc, h.isWord_name.startsBlank_append]

theorem trimmed (h : Spells text name definition) : Trimmed text := by
  refine ⟨h.startsBlank_eq, ?_⟩
  obtain ⟨gap, -, -, rfl⟩ := h.eq
  rw [endsBlank_append h.definition_ne_nil, h.trimmed_definition.2]

theorem ne_nil (h : Spells text name definition) : text ≠ [] := by
  obtain ⟨gap, -, -, rfl⟩ := h.eq
  simp [h.definition_ne_nil]

theorem trimmed_constraint (h : Spells text name definition) (gap : List Char) :
    Trimmed ("CONSTRAINT".toList ++ gap ++ text) := by
  refine ⟨?_, ?_⟩
  · rw [List.append_assoc, startsBlank_append (by decide)]
    decide
  · rw [endsBlank_append h.ne_nil, h.trimmed.2]

theorem takeWhile_eq (h : Spells text name definition) : (text.takeWhile fun c => !isBlank c) = name := by
  obtain ⟨gap, hgap, hne, rfl⟩ := h.eq
  rw [List.append_assoc, takeWhile_word h.isWord_name.2 (.inr (startsBlank_gap_append hgap hne))]

end Spells

/-- A text that starts with a word is read up to the first blank. -/
theorem nameAndDefinition?_word {w : List Char} (hw : Solid w) (hrest : startsBlank rest = true) :
    nameAndDefinition? (w ++ rest) = some (w, trim rest) := by
  obtain ⟨c, rest, -, rfl⟩ := exists_of_startsBlank hrest
  rw [nameAndDefinition?, dropWhile_word hw (.inr hrest), takeWhile_word hw (.inr hrest)]

theorem nameAndDefinition?_of_solid (h : Solid text) : nameAndDefinition? text = none := by
  have := dropWhile_word (b := []) h (.inl rfl)
  rw [List.append_nil] at this
  rw [nameAndDefinition?, this]

theorem nameAndDefinition?_eq_some_iff (h : Trimmed text) :
    nameAndDefinition? text = some (name, definition) ↔ Spells text name definition := by
  constructor
  · intro hsome
    by_cases hblank : AllBlank text
    · obtain rfl : text = [] := by rw [← trim_eq_self h, trim_eq_nil hblank]
      cases hsome
    · obtain ⟨gap, w, rest, hgap, hw, hrest, rfl⟩ := exists_first_word hblank
      obtain rfl : gap = [] := eq_nil_of_startsBlank hgap (by rw [← List.append_assoc]; exact h.1)
      rw [List.nil_append] at hsome h
      rcases hrest with rfl | hrest
      · rw [List.append_nil, nameAndDefinition?_of_solid hw.2] at hsome
        cases hsome
      · rw [nameAndDefinition?_word hw.2 hrest] at hsome
        cases hsome
        have hne := ne_nil_of_startsBlank hrest
        have hend : endsBlank rest = false := by
          rw [← endsBlank_append hne]
          exact h.2
        obtain ⟨gap, hgap, hgne, e⟩ := exists_gap_trim hrest hend
        refine ⟨hw, fun h0 => ?_, trimmed_trim rest, gap, hgap, hgne, ?_⟩
        · rw [endsBlank_of_allBlank (trim_eq_nil_iff.1 h0) hne] at hend
          cases hend
        · rw [List.append_assoc name, ← e, List.nil_append]
  · rintro ⟨hw, -, hd, gap, hgap, hne, rfl⟩
    have htrim : trim (gap ++ definition) = definition := by
      simpa using trim_pad hgap allBlank_nil hd
    rw [List.append_assoc, nameAndDefinition?_word hw.2 (startsBlank_gap_append hgap hne), htrim]

theorem afterConstraint?_eq_some_iff :
    afterConstraint? text = some rest ↔
      startsBlank rest = false ∧ ∃ gap, AllBlank gap ∧ gap ≠ [] ∧ text = "CONSTRAINT".toList ++ gap ++ rest := by
  unfold afterConstraint?
  constructor
  · intro h
    split at h
    next r hr =>
      rw [List.isPrefixOf?_eq_some_iff_append_eq] at hr
      split at h
      next hstart =>
        cases h
        obtain ⟨gap, hgap, hne, e⟩ := exists_gap_trimStart hstart
        exact ⟨startsBlank_trimStart r, gap, hgap, hne, by rw [List.append_assoc, ← e, hr]⟩
      · cases h
    · cases h
  · rintro ⟨hrest, gap, hgap, hne, rfl⟩
    have hstarts : "CONSTRAINT".toList.isPrefixOf? ("CONSTRAINT".toList ++ gap ++ rest) = some (gap ++ rest) := by
      rw [List.isPrefixOf?_eq_some_iff_append_eq, List.append_assoc]
    rw [hstarts]
    dsimp only
    rw [if_pos (startsBlank_gap_append hgap hne), trimStart_append_of_blank hgap, trimStart_eq_self hrest]

/-- A text whose first word is another one. -/
theorem afterConstraint?_eq_none (h : Spells text name definition) (hname : name ≠ "CONSTRAINT".toList) :
    afterConstraint? text = none := by
  by_contra hcon
  obtain ⟨rest, hrest⟩ := Option.ne_none_iff_exists'.1 hcon
  obtain ⟨-, gap, hgap, hne, rfl⟩ := afterConstraint?_eq_some_iff.1 hrest
  refine hname ?_
  rw [← h.takeWhile_eq, List.append_assoc, takeWhile_word (by decide) (.inr (startsBlank_gap_append hgap hne))]

/-! ### The kinds of clauses -/

theorem ofText_of_trim_eq_nil (h : trim text = []) : ofText text = .ok .empty := by
  rw [ofText, h]
  rfl

theorem ofText_eq (h : trim text ≠ []) :
    ofText text =
      match afterConstraint? (trim text) with
      | some rest =>
        match nameAndDefinition? rest with
        | some (name, definition) => .ok (.constraint (String.ofList name) (String.ofList definition))
        | none => .error (.unreadable (String.ofList (trim text)))
      | none =>
        match nameAndDefinition? (trim text) with
        | some (name, definition) => .ok (.column (String.ofList name) (String.ofList definition))
        | none => .error (.unreadable (String.ofList (trim text))) := by
  unfold ofText
  dsimp only
  exact if_neg (by simpa using h)

theorem ofText_eq_empty_iff : ofText text = .ok .empty ↔ trim text = [] := by
  refine ⟨fun h => ?_, ofText_of_trim_eq_nil⟩
  by_contra hne
  rw [ofText_eq hne] at h
  split at h <;> split at h <;> cases h

theorem ofText_eq_column_iff :
    ofText text = .ok (.column n d) ↔ Spells (trim text) n.toList d.toList ∧ n ≠ "CONSTRAINT" := by
  constructor
  · intro h
    have hne : trim text ≠ [] := by
      intro h0
      rw [ofText_of_trim_eq_nil h0] at h
      cases h
    rw [ofText_eq hne] at h
    split at h
    · split at h <;> cases h
    next hnone =>
      split at h
      next name definition hsome =>
        cases h
        have hs := (nameAndDefinition?_eq_some_iff (trimmed_trim text)).1 hsome
        rw [String.toList_ofList, String.toList_ofList]
        refine ⟨hs, fun hname => ?_⟩
        obtain ⟨gap, hgap, hgne, e⟩ := hs.eq
        have hname : name = "CONSTRAINT".toList := by rw [← hname, String.toList_ofList]
        rw [afterConstraint?_eq_some_iff.2 ⟨hs.trimmed_definition.1, gap, hgap, hgne, hname ▸ e⟩] at hnone
        cases hnone
      · cases h
  · rintro ⟨hs, hname⟩
    have hname : n.toList ≠ "CONSTRAINT".toList := fun h => hname (String.toList_inj.1 h)
    rw [ofText_eq hs.ne_nil, afterConstraint?_eq_none hs hname]
    dsimp only
    rw [(nameAndDefinition?_eq_some_iff hs.trimmed).2 hs]
    dsimp only
    rw [String.ofList_toList, String.ofList_toList]

theorem ofText_eq_constraint_iff :
    ofText text = .ok (.constraint n d) ↔
      ∃ gap rest, AllBlank gap ∧ gap ≠ [] ∧ trim text = "CONSTRAINT".toList ++ gap ++ rest ∧
        Spells rest n.toList d.toList := by
  constructor
  · intro h
    have hne : trim text ≠ [] := by
      intro h0
      rw [ofText_of_trim_eq_nil h0] at h
      cases h
    rw [ofText_eq hne] at h
    split at h
    next rest hrest =>
      obtain ⟨hstart, gap, hgap, hgne, e⟩ := afterConstraint?_eq_some_iff.1 hrest
      have htrimmed : Trimmed rest := by
        refine ⟨hstart, ?_⟩
        by_cases hr : rest = []
        · rw [hr]
          rfl
        · rw [← endsBlank_append hr, ← e]
          exact (trimmed_trim text).2
      split at h
      next name definition hsome =>
        cases h
        have hs := (nameAndDefinition?_eq_some_iff htrimmed).1 hsome
        simp only [String.toList_ofList]
        exact ⟨gap, rest, hgap, hgne, e, hs⟩
      · cases h
    · split at h <;> cases h
  · rintro ⟨gap, rest, hgap, hgne, e, hs⟩
    have hne : trim text ≠ [] := by
      rw [e]
      simp
    rw [ofText_eq hne, afterConstraint?_eq_some_iff.2 ⟨hs.startsBlank_eq, gap, hgap, hgne, e⟩]
    dsimp only
    rw [(nameAndDefinition?_eq_some_iff hs.trimmed).2 hs]
    dsimp only
    rw [String.ofList_toList, String.ofList_toList]

end DdlCatalog.Clause
