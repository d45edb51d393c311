import DdlCatalog.Catalog.Definition
import DdlCatalog.Proofs.Text.Search
import DdlCatalog.Proofs.Text.Words

/-!
# A definition by its words

A definition is read by suffixes of its text.  What is decided about it depends on its words only, and what is
returned are pieces of the text.

* `dropLastWords?_eq_some_iff` : some last words are taken away with the blanks before them;
* `nullability_of_notNull`, `nullability_of_null`, `nullability_of_silent` : the three ways a definition can end, and
  `nullability_cases` : there are no others;
* `splitDefault?_eq_some_iff` : the last `DEFAULT` between two words cuts a trimmed text;
* `ofText?_isSome_iff` : a definition is refused only if no type starts it;
* `trimmed_of_ofText?` : the type and the default that are read are trimmed and not empty.
-/

namespace DdlCatalog.Definition

open Text

variable {text before a b word rest : List Char} {ws : List (List Char)}

theorem isWord_default : IsWord "DEFAULT".toList := by decide

/-! ### Last words -/

theorem dropLastWord?_eq_some_iff (hw : IsWord word) :
    dropLastWord? word text = some before ↔
      endsBlank before = false ∧ ∃ gap gap', AllBlank gap ∧ gap ≠ [] ∧ AllBlank gap' ∧
        text = before ++ gap ++ word ++ gap' := by
  unfold dropLastWord?
  constructor
  · intro h
    split at h
    next b hb =>
      rw [List.isSuffixOf?_eq_some_iff_append_eq] at hb
      split at h
      next hend =>
        obtain rfl := Option.some.inj h
        obtain ⟨gap, hgap, hne, e⟩ := exists_trimEnd_gap hend
        obtain ⟨gap', hgap', e'⟩ := exists_eq_trimEnd text
        exact ⟨endsBlank_trimEnd b, gap, gap', hgap, hne, hgap', by rw [← e, hb, ← e']⟩
      · cases h
    · cases h
  · rintro ⟨hend, gap, gap', hgap, hne, hgap', rfl⟩
    have hsuffix : word.isSuffixOf? (trimEnd (before ++ gap ++ word ++ gap')) = some (before ++ gap) := by
      rw [trimEnd_append_of_blank hgap', trimEnd_eq_self hw.endsBlank_append,
        List.isSuffixOf?_eq_some_iff_append_eq]
    rw [hsuffix]
    dsimp only
    rw [if_pos (endsBlank_append_gap hgap hne), trimEnd_append_of_blank hgap, trimEnd_eq_self hend]

theorem dropLastWord?_eq_some_iff_words (hw : IsWord word) :
    dropLastWord? word text = some before ↔
      endsBlank before = false ∧ ∃ rest, text = before ++ rest ∧ startsBlank rest = true ∧ words rest = [word] := by
  rw [dropLastWord?_eq_some_iff hw]
  refine and_congr_right fun _ => ⟨?_, ?_⟩
  · rintro ⟨gap, gap', hgap, hne, hgap', rfl⟩
    refine ⟨gap ++ word ++ gap', by simp, ?_, ?_⟩
    · rw [List.append_assoc]
      exact startsBlank_gap_append hgap hne
    · rw [words_append_blank hgap', words_blank_append hgap, words_of_isWord hw]
  · rintro ⟨rest, rfl, hstart, hrest⟩
    obtain ⟨gap, gap', hgap, -, rfl, hgap'⟩ := exists_of_words_cons hrest
    rw [List.append_assoc] at hstart
    exact ⟨gap, gap', hgap, left_ne_nil hstart hw.startsBlank_append, words_eq_nil_iff.1 hgap', by simp⟩

theorem foldrM_dropLastWord?_eq_some_iff (hne : ws ≠ []) (hws : ∀ w ∈ ws, IsWord w) :
    ws.foldrM dropLastWord? text = some before ↔
      endsBlank before = false ∧ ∃ rest, text = before ++ rest ∧ startsBlank rest = true ∧ words rest = ws := by
  induction ws generalizing before with
  | nil => exact absurd rfl hne
  | cons w ws ih =>
    have hw : IsWord w := hws w (by simp)
    have hws : ∀ v ∈ ws, IsWord v := fun v hv => hws v (by simp [hv])
    rw [List.foldrM_cons, Option.bind_eq_bind, Option.bind_eq_some_iff]
    by_cases hnil : ws = []
    · subst hnil
      simp only [List.foldrM_nil, pure, Option.some.injEq, exists_eq_left', dropLastWord?_eq_some_iff_words hw]
    · simp only [ih hnil hws, dropLastWord?_eq_some_iff_words hw]
      constructor
      · rintro ⟨-, ⟨-, rest, rfl, hstart, hrest⟩, hend, mid, rfl, hmid, hword⟩
        refine ⟨hend, mid ++ rest, by simp, ?_, ?_⟩
        · rw [startsBlank_append (ne_nil_of_startsBlank hmid), hmid]
        · rw [words_append_of_startsBlank (.inr hstart), hword, hrest]
          rfl
      · rintro ⟨hend, rest, rfl, hstart, hrest⟩
        obtain ⟨mid, later, rfl, hword, hlater, hmid, hstart'⟩ :=
          exists_of_words_append (hrest.trans (List.singleton_append).symm) (by simp) hnil
        have hne := ne_nil_of_words hword (by simp)
        rw [startsBlank_append hne] at hstart
        refine ⟨before ++ mid, ⟨?_, later, by simp, hstart', hlater⟩, hend, mid, rfl, hstart, hword⟩
        rw [endsBlank_append hne, hmid]

/-- The last words are taken away with the blanks before them, if something is left. -/
theorem dropLastWords?_eq_some_iff (hne : ws ≠ []) (hws : ∀ w ∈ ws, IsWord w) :
    dropLastWords? ws text = some before ↔
      before ≠ [] ∧ endsBlank before = false ∧
        ∃ rest, text = before ++ rest ∧ startsBlank rest = true ∧ words rest = ws := by
  rw [← foldrM_dropLastWord?_eq_some_iff hne hws, dropLastWords?]
  cases ws.foldrM dropLastWord? text with
  | none => simp
  | some b =>
    simp only [List.isEmpty_iff, Option.some.injEq]
    split
    next hb => exact ⟨fun h => (nomatch h), fun ⟨hne, e⟩ => absurd (e.symm.trans hb) hne⟩
    next hb => exact ⟨fun e => ⟨Option.some.inj e ▸ hb, Option.some.inj e⟩, fun h => congrArg some h.2⟩

theorem words_ne_nil (hne : before ≠ []) (hend : endsBlank before = false) : words before ≠ [] := by
  intro h
  rw [endsBlank_of_allBlank (words_eq_nil_iff.1 h) hne] at hend
  exact absurd hend (by decide)

/-- Whether they can be taken away is told by the words. -/
theorem dropLastWords?_isSome_iff (hne : ws ≠ []) (hws : ∀ w ∈ ws, IsWord w) :
    (dropLastWords? ws text).isSome ↔ ∃ us, us ≠ [] ∧ words text = us ++ ws := by
  rw [Option.isSome_iff_exists]
  simp only [dropLastWords?_eq_some_iff hne hws]
  constructor
  · rintro ⟨before, hb, hend, rest, rfl, hstart, hrest⟩
    exact ⟨words before, words_ne_nil hb hend, by rw [words_append_of_startsBlank (.inr hstart), hrest]⟩
  · rintro ⟨us, hus, h⟩
    obtain ⟨before, rest, e, hb, hrest, hend, hstart⟩ := exists_of_words_append h hus hne
    exact ⟨before, ne_nil_of_words hb hus, hend, rest, e, hstart, hrest⟩

/-! ### The words about `NULL` -/

/-- These are the words of a definition that says nothing about `NULL`: it does not end in `NOT NULL`, and if it ends
in `NULL`, that is the expression of a `DEFAULT` behind a type. -/
structure Silent (ws : List (List Char)) : Prop where
  not_notNull : ∀ us, us ≠ [] → ws ≠ us ++ ["NOT".toList, "NULL".toList]
  default_null : ∀ us, us ≠ [] → ws = us ++ ["NULL".toList] → ∃ us', us' ≠ [] ∧ us = us' ++ ["DEFAULT".toList]

theorem dropLastWords?_notNull_eq_none (h : ∀ us, us ≠ [] → words text ≠ us ++ ["NOT".toList, "NULL".toList]) :
    dropLastWords? ["NOT".toList, "NULL".toList] text = none := by
  rw [← Option.not_isSome_iff_eq_none, dropLastWords?_isSome_iff (by simp) (by decide)]
  rintro ⟨us, hus, e⟩
  exact h us hus e

theorem nullability_of_notNull (hne : before ≠ []) (hend : endsBlank before = false) (hstart : startsBlank rest = true)
    (hrest : words rest = ["NOT".toList, "NULL".toList]) : nullability (before ++ rest) = (false, before) := by
  have h : dropLastWords? ["NOT".toList, "NULL".toList] (before ++ rest) = some before :=
    (dropLastWords?_eq_some_iff (by simp) (by decide)).2 ⟨hne, hend, rest, rfl, hstart, hrest⟩
  rw [nullability, h]

theorem nullability_of_null (hne : before ≠ []) (hend : endsBlank before = false) (hstart : startsBlank rest = true)
    (hrest : words rest = ["NULL".toList]) (hnot : ∀ us, us ≠ [] → words before ≠ us ++ ["NOT".toList])
    (hdefault : ∀ us, us ≠ [] → words before ≠ us ++ ["DEFAULT".toList]) :
    nullability (before ++ rest) = (true, before) := by
  have hwords : words (before ++ rest) = words before ++ ["NULL".toList] := by
    rw [words_append_of_startsBlank (.inr hstart), hrest]
  have h1 : dropLastWords? ["NOT".toList, "NULL".toList] (before ++ rest) = none := by
    refine dropLastWords?_notNull_eq_none fun us hus e => hnot us hus ?_
    rw [hwords] at e
    exact List.append_cancel_right (e.trans (List.append_assoc us [_] [_]).symm)
  have h2 : dropLastWords? ["NULL".toList] (before ++ rest) = some before :=
    (dropLastWords?_eq_some_iff (by simp) (by decide)).2 ⟨hne, hend, rest, rfl, hstart, hrest⟩
  have h3 : (dropLastWords? ["DEFAULT".toList] before).isSome = false := by
    rw [← Bool.not_eq_true, dropLastWords?_isSome_iff (by simp) (by decide)]
    rintro ⟨us, hus, e⟩
    exact hdefault us hus e
  rw [nullability, h1]
  dsimp only
  rw [h2]
  dsimp only
  rw [h3]
  rfl

theorem nullability_of_silent (h : Silent (words text)) : nullability text = (true, text) := by
  rw [nullability, dropLastWords?_notNull_eq_none h.not_notNull]
  dsimp only
  cases hnull : dropLastWords? ["NULL".toList] text with
  | none => rfl
  | some before =>
    obtain ⟨hne, hend, rest, rfl, hstart, hrest⟩ := (dropLastWords?_eq_some_iff (by simp) (by decide)).1 hnull
    have hwords : words (before ++ rest) = words before ++ ["NULL".toList] := by
      rw [words_append_of_startsBlank (.inr hstart), hrest]
    obtain ⟨us, hus, e⟩ := h.default_null _ (words_ne_nil hne hend) hwords
    have hdefault : (dropLastWords? ["DEFAULT".toList] before).isSome :=
      (dropLastWords?_isSome_iff (by simp) (by decide)).2 ⟨us, hus, e⟩
    dsimp only
    rw [if_pos hdefault]

/-- **The three ways a definition ends**, in the order in which they are tried. -/
theorem nullability_cases (text : List Char) :
    (∃ before rest, text = before ++ rest ∧ nullability text = (false, before) ∧ before ≠ [] ∧
      endsBlank before = false ∧ startsBlank rest = true ∧ words rest = ["NOT".toList, "NULL".toList]) ∨
    (∃ before rest, text = before ++ rest ∧ nullability text = (true, before) ∧ before ≠ [] ∧
      endsBlank before = false ∧ startsBlank rest = true ∧ words rest = ["NULL".toList] ∧
      (∀ us, us ≠ [] → words before ≠ us ++ ["NOT".toList]) ∧
      ∀ us, us ≠ [] → words before ≠ us ++ ["DEFAULT".toList]) ∨
    (nullability text = (true, text) ∧ Silent (words text)) := by
  by_cases hnot : ∃ us, us ≠ [] ∧ words text = us ++ ["NOT".toList, "NULL".toList]
  · left
    obtain ⟨us, hus, e⟩ := hnot
    obtain ⟨before, rest, rfl, hb, hrest, hend, hstart⟩ := exists_of_words_append e hus (by simp)
    have hne := ne_nil_of_words hb hus
    exact ⟨before, rest, rfl, nullability_of_notNull hne hend hstart hrest, hne, hend, hstart, hrest⟩
  · right
    have hnot : ∀ us, us ≠ [] → words text ≠ us ++ ["NOT".toList, "NULL".toList] :=
      fun us hus e => hnot ⟨us, hus, e⟩
    by_cases hsilent : Silent (words text)
    · exact .inr ⟨nullability_of_silent hsilent, hsilent⟩
    · left
      have hnull : ∃ us, us ≠ [] ∧ words text = us ++ ["NULL".toList] ∧
          ∀ us', us' ≠ [] → us ≠ us' ++ ["DEFAULT".toList] := by
        by_contra hcon
        refine hsilent ⟨hnot, fun us hus e => ?_⟩
        by_contra hdef
        exact hcon ⟨us, hus, e, fun us' hus' e' => hdef ⟨us', hus', e'⟩⟩
      obtain ⟨us, hus, e, hdefault⟩ := hnull
      obtain ⟨before, rest, rfl, rfl, hrest, hend, hstart⟩ := exists_of_words_append e hus (by simp)
      have hne := ne_nil_of_words rfl hus
      have hnot' : ∀ us, us ≠ [] → words before ≠ us ++ ["NOT".toList] := by
        intro us' hus' e'
        exact hnot us' hus' (by rw [e, e', List.append_assoc]; rfl)
      exact ⟨before, rest, rfl, nullability_of_null hne hend hstart hrest hnot' hdefault, hne, hend, hstart, hrest,
        hnot', hdefault⟩

/-! ### The default -/

/-- The type, `DEFAULT` and the expression make up a text, and no later `DEFAULT` has a word behind it. -/
structure Splits (text dataType value : List Char) : Prop where
  dataType_ne_nil : dataType ≠ []
  value_ne_nil : value ≠ []
  trimmed_dataType : Trimmed dataType
  trimmed_value : Trimmed value
  isLast : "DEFAULT".toList ∉ (words value).dropLast
  eq : ∃ gap gap', AllBlank gap ∧ gap ≠ [] ∧ AllBlank gap' ∧ gap' ≠ [] ∧
    text = dataType ++ gap ++ "DEFAULT".toList ++ gap' ++ value

/-- What `splitDefault?` makes of the text before a `DEFAULT` and the text after it. -/
def typeAndValue? (before after : List Char) : Option (List Char × List Char) :=
  if endsBlank before && startsBlank after then
    if (trim before).isEmpty || (trim after).isEmpty then none else some (trim before, trim after)
  else none

theorem splitDefault?_eq (text : List Char) : splitDefault? text = searchRight "DEFAULT".toList typeAndValue? text :=
  rfl

theorem typeAndValue?_eq_some_iff {after dataType value : List Char} :
    typeAndValue? before after = some (dataType, value) ↔
      endsBlank before = true ∧ startsBlank after = true ∧ trim before = dataType ∧ trim after = value ∧
        dataType ≠ [] ∧ value ≠ [] := by
  unfold typeAndValue?
  constructor
  · intro h
    split at h
    next hb =>
      split at h
      · cases h
      next hne =>
        cases h
        simp only [Bool.and_eq_true] at hb
        simp only [Bool.or_eq_true, List.isEmpty_iff, not_or] at hne
        exact ⟨hb.1, hb.2, rfl, rfl, hne.1, hne.2⟩
    · cases h
  · rintro ⟨hb, ha, rfl, rfl, hne, hne'⟩
    simp [hb, ha, hne, hne']

theorem words_trim_ne_nil_iff : words text ≠ [] ↔ trim text ≠ [] := by
  rw [ne_eq, ne_eq, words_eq_nil_iff, trim_eq_nil_iff]

theorem trim_append_ne_nil (h : trim a ≠ []) : trim (a ++ b) ≠ [] := by
  rw [ne_eq, trim_eq_nil_iff] at h ⊢
  exact fun hab => h (allBlank_append.1 hab).1

/-- In a text with a blank before it, a `DEFAULT` that is not the last word is one that can be chosen. -/
theorem exists_typeAndValue? (hb : trim b ≠ []) (ha : startsBlank a = true)
    (h : "DEFAULT".toList ∈ (words a).dropLast) :
    ∃ x y, a = x ++ "DEFAULT".toList ++ y ∧ (typeAndValue? (b ++ x) y).isSome := by
  obtain ⟨x, y, rfl, hx, hy, hne⟩ := exists_of_mem_dropLast_words h
  have hxne : x ≠ [] := by
    rw [List.append_assoc] at ha
    exact left_ne_nil ha isWord_default.startsBlank_append
  have hend : endsBlank (b ++ x) = true := by
    rw [endsBlank_append hxne]
    exact hx.resolve_left hxne
  refine ⟨x, y, rfl, ?_⟩
  rw [Option.isSome_iff_exists]
  exact ⟨(trim (b ++ x), trim y), typeAndValue?_eq_some_iff.2
    ⟨hend, hy, rfl, rfl, trim_append_ne_nil hb, words_trim_ne_nil_iff.1 hne⟩⟩

theorem splitDefault?_eq_some_iff {dataType value : List Char} (h : Trimmed text) :
    splitDefault? text = some (dataType, value) ↔ Splits text dataType value := by
  rw [splitDefault?_eq, searchRight_eq_some_iff (by decide)]
  constructor
  · rintro ⟨b, a, rfl, hsome, hlast⟩
    obtain ⟨hb, ha, rfl, rfl, hT, hv⟩ := typeAndValue?_eq_some_iff.1 hsome
    have hstart : startsBlank b = false := by
      rw [← startsBlank_append (ne_nil_of_endsBlank hb), ← List.append_assoc]
      exact h.1
    have hend : endsBlank a = false := by
      rw [← endsBlank_append (ne_nil_of_startsBlank ha)]
      exact h.2
    obtain ⟨gap, hgap, hne, eb⟩ := exists_trim_gap hstart hb
    obtain ⟨gap', hgap', hne', ea⟩ := exists_gap_trim ha hend
    refine ⟨hT, hv, trimmed_trim b, trimmed_trim a, fun hmem => ?_, gap, gap', hgap, hne, hgap', hne', ?_⟩
    · rw [words_trim] at hmem
      obtain ⟨x, y, rfl, hxy⟩ := exists_typeAndValue? (b := b ++ "DEFAULT".toList) (trim_append_ne_nil hT) ha hmem
      rw [hlast _ _ (by simp) (by simp; omega)] at hxy
      exact absurd hxy (by decide)
    · conv_lhs => rw [eb, ea]
      simp
  · rintro ⟨hT, hv, hTt, hvt, hlast, gap, gap', hgap, hne, hgap', hne', rfl⟩
    refine ⟨dataType ++ gap, gap' ++ value, by simp, ?_, fun b a e hlt => ?_⟩
    · refine typeAndValue?_eq_some_iff.2
        ⟨endsBlank_append_gap hgap hne, startsBlank_gap_append hgap' hne', ?_, ?_, hT, hv⟩
      · simpa using trim_pad allBlank_nil hgap hTt
      · simpa using trim_pad hgap' allBlank_nil hvt
    · by_contra hcon
      obtain ⟨⟨T, v⟩, hsome⟩ := Option.ne_none_iff_exists'.1 hcon
      obtain ⟨hb, ha, -, rfl, -, hane⟩ := typeAndValue?_eq_some_iff.1 hsome
      rw [List.append_assoc] at e
      obtain ⟨x, hx, hs, rfl⟩ := exists_of_later_word isWord_default (startsBlank_gap_append hgap' hne') e hlt
      refine hlast ?_
      rw [← words_blank_append hgap', hs]
      refine mem_dropLast_words isWord_default (.inr ?_) ha (words_trim_ne_nil_iff.2 hane)
      rwa [endsBlank_append hx] at hb

/-! ### A whole definition -/

/-- The type and the default in a definition without the words about `NULL`. -/
def typeAndDefault (text : List Char) : List Char × Option (List Char) :=
  match splitDefault? text with
  | some (dataType, value) => (dataType, some value)
  | none => (text, none)

theorem typeAndDefault_of_splits {dataType value : List Char} (h : Trimmed text) (hs : Splits text dataType value) :
    typeAndDefault text = (dataType, some value) := by
  rw [typeAndDefault, (splitDefault?_eq_some_iff h).2 hs]

theorem typeAndDefault_cases (h : Trimmed text) :
    (∃ dataType value, typeAndDefault text = (dataType, some value) ∧ Splits text dataType value) ∨
      (typeAndDefault text = (text, none) ∧ splitDefault? text = none) := by
  cases hs : splitDefault? text with
  | none => exact .inr ⟨by rw [typeAndDefault, hs], rfl⟩
  | some found => exact .inl ⟨found.1, found.2, by rw [typeAndDefault, hs], (splitDefault?_eq_some_iff h).1 hs⟩

theorem ofText?_eq {nullable : Bool} {remainder dataType : List Char} {default : Option (List Char)}
    (hn : nullability (trim text) = (nullable, remainder)) (ht : typeAndDefault remainder = (dataType, default)) :
    ofText? text =
      if dataType = [] ∨ startsWithKeyword dataType = true then none else some { dataType, default, nullable } := by
  unfold typeAndDefault at ht
  unfold ofText?
  rw [hn]
  dsimp only
  cases hs : splitDefault? remainder with
  | none =>
    rw [hs] at ht
    cases ht
    simp only [Bool.or_eq_true, List.isEmpty_iff]
  | some found =>
    rw [hs] at ht
    cases ht
    simp only [Bool.or_eq_true, List.isEmpty_iff]

theorem ofText?_eq_some_iff {d : Definition} :
    ofText? text = some d ↔
      ∃ remainder, nullability (trim text) = (d.nullable, remainder) ∧
        typeAndDefault remainder = (d.dataType, d.default) ∧ d.dataType ≠ [] ∧
        startsWithKeyword d.dataType = false := by
  obtain ⟨dataType, default, nullable⟩ := d
  rcases hn : nullability (trim text) with ⟨nullable', remainder⟩
  rcases ht : typeAndDefault remainder with ⟨dataType', default'⟩
  rw [ofText?_eq hn ht]
  constructor
  · intro h
    split at h
    · cases h
    next hcon =>
      cases h
      rw [not_or, Bool.not_eq_true] at hcon
      exact ⟨remainder, rfl, ht, hcon.1, hcon.2⟩
  · rintro ⟨r, e, ht', hne, hkey⟩
    cases e
    cases ht.symm.trans ht'
    rw [if_neg (by simp [hne, hkey])]

/-- The first text starts the second one and ends where a word of it does. -/
def Opens (a text : List Char) : Prop :=
  ∃ rest, text = a ++ rest ∧ (rest = [] ∨ startsBlank rest = true)

theorem Opens.trans {c : List Char} (h : Opens a b) (h' : Opens b c) : Opens a c := by
  obtain ⟨rest, rfl, hrest⟩ := h
  obtain ⟨rest', rfl, hrest'⟩ := h'
  refine ⟨rest ++ rest', by simp, ?_⟩
  by_cases hne : rest = []
  · simpa [hne] using hrest'
  · rw [startsBlank_append hne]
    exact .inr (hrest.resolve_left hne)

theorem Opens.words_eq (h : Opens a text) : ∃ ws, words text = words a ++ ws := by
  obtain ⟨rest, rfl, hrest⟩ := h
  exact ⟨words rest, words_append_of_startsBlank hrest⟩

theorem startsWithKeyword_of_opens (h : Opens a text) (hne : words a ≠ []) :
    startsWithKeyword text = startsWithKeyword a := by
  obtain ⟨ws, e⟩ := h.words_eq
  obtain ⟨w, us, ha⟩ := List.exists_cons_of_ne_nil hne
  rw [startsWithKeyword, startsWithKeyword, firstWord_eq, firstWord_eq, e, ha]
  rfl

theorem startsWithKeyword_trim (text : List Char) : startsWithKeyword (trim text) = startsWithKeyword text := by
  rw [startsWithKeyword, startsWithKeyword, firstWord_eq, firstWord_eq, words_trim]

theorem opens_nullability (h : Trimmed text) (hne : text ≠ []) :
    Trimmed (nullability text).2 ∧ (nullability text).2 ≠ [] ∧ Opens (nullability text).2 text := by
  have hstart {before rest : List Char} (e : text = before ++ rest) (hne : before ≠ []) :
      startsBlank before = false := by
    rw [← startsBlank_append hne, ← e]
    exact h.1
  rcases nullability_cases text with ⟨before, rest, e, hn, hb, hend, hs, -⟩ | ⟨before, rest, e, hn, hb, hend, hs, -⟩ |
    ⟨hn, -⟩
  · rw [hn]
    exact ⟨⟨hstart e hb, hend⟩, hb, rest, e, .inr hs⟩
  · rw [hn]
    exact ⟨⟨hstart e hb, hend⟩, hb, rest, e, .inr hs⟩
  · rw [hn]
    exact ⟨h, hne, [], by simp, .inl rfl⟩

theorem opens_typeAndDefault (h : Trimmed text) (hne : text ≠ []) :
    Trimmed (typeAndDefault text).1 ∧ (typeAndDefault text).1 ≠ [] ∧ Opens (typeAndDefault text).1 text := by
  rcases typeAndDefault_cases h with ⟨dataType, value, ht, hs⟩ | ⟨ht, -⟩
  · rw [ht]
    obtain ⟨gap, gap', hgap, hgne, -, -, e⟩ := hs.eq
    refine ⟨hs.trimmed_dataType, hs.dataType_ne_nil, gap ++ "DEFAULT".toList ++ gap' ++ value, by simp [e], .inr ?_⟩
    rw [List.append_assoc, List.append_assoc]
    exact startsBlank_gap_append hgap hgne
  · rw [ht]
    exact ⟨h, hne, [], by simp, .inl rfl⟩

/-- **A definition is read unless it is blank or starts with a keyword.** -/
theorem ofText?_isSome_iff : (ofText? text).isSome ↔ trim text ≠ [] ∧ startsWithKeyword text = false := by
  rcases hn : nullability (trim text) with ⟨nullable, remainder⟩
  rcases ht : typeAndDefault remainder with ⟨dataType, default⟩
  rw [ofText?_eq hn ht]
  by_cases hblank : trim text = []
  · rw [hblank, show nullability [] = (true, []) by decide] at hn
    cases hn
    cases ht
    simp [hblank]
  · obtain ⟨hr, hrne, hopens⟩ := opens_nullability (trimmed_trim text) hblank
    rw [hn] at hr hrne hopens
    obtain ⟨hT, hTne, hopens'⟩ := opens_typeAndDefault hr hrne
    rw [ht] at hT hTne hopens'
    have hkey : startsWithKeyword text = startsWithKeyword dataType := by
      rw [← startsWithKeyword_trim, startsWithKeyword_of_opens (hopens'.trans hopens) (words_ne_nil hTne hT.2)]
    rw [hkey]
    by_cases hk : startsWithKeyword dataType = true <;> simp [hTne, hblank, hk]

/-- What a definition is made of when it is read. -/
theorem trimmed_of_ofText? {d : Definition} (h : ofText? text = some d) :
    (Trimmed d.dataType ∧ d.dataType ≠ [] ∧ startsWithKeyword d.dataType = false) ∧
      ∀ value, d.default = some value → Trimmed value ∧ value ≠ [] := by
  obtain ⟨remainder, hn, ht, hne, hkey⟩ := ofText?_eq_some_iff.1 h
  have hblank : trim text ≠ [] := (ofText?_isSome_iff.1 (by rw [h]; rfl)).1
  obtain ⟨hr, hrne, -⟩ := opens_nullability (trimmed_trim text) hblank
  rw [hn] at hr hrne
  obtain ⟨hT, -, -⟩ := opens_typeAndDefault hr hrne
  rw [ht] at hT
  refine ⟨⟨hT, hne, hkey⟩, ?_⟩
  intro value hvalue
  rcases typeAndDefault_cases hr with ⟨dataType, v, htv, hs⟩ | ⟨hnone, -⟩
  · obtain ⟨-, hd⟩ := Prod.mk.inj (ht.symm.trans htv)
    obtain rfl : v = value := Option.some.inj (hd.symm.trans hvalue)
    exact ⟨hs.trimmed_value, hs.value_ne_nil⟩
  · obtain ⟨-, hd⟩ := Prod.mk.inj (ht.symm.trans hnone)
    rw [hd] at hvalue
    cases hvalue

end DdlCatalog.Definition
